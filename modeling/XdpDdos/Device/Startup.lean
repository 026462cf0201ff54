import XdpDdos.Device.Refinement

/-
  The usual run of a device: a start for an interface that is
  free, a rule that is added or deleted, and a remove.

  Main declarations:
    * `Device.Ready`
    * `step_start`, `step_editPort`, `step_remove`
    * `ethDb`
-/

------------------------------------------------------------
-- Starts and Removes Without Failures
------------------------------------------------------------

namespace XdpDdos

variable {nrCpus : ℕ}

/-
  A program sees the frames of an interface, and each file
  refers to the map that it uses.
-/
def Device.Ready
    (obj : DeployedObject)
    (d : Device nrCpus)
    (ifindex : ℤ) : Prop :=
  ∃ p, d.program ifindex = some p ∧
    ∀ i < NR_MAPS,
      (obj.objOf p i).isSome ∧
        d.kernel.pins (exportFile i) = obj.objOf p i

section

variable {obj : DeployedObject}
variable {db : NameDb}
variable {d : Device nrCpus}
variable {args : List CStr}
variable {opt : Options}

/- The program that is attached sees the frames. -/
theorem Device.program_of_attached
    {ifindex : ℤ}
    {mode : XdpMode}
    {p : XdpProg}
    (hHere : d.kernel.attached ifindex mode = some p)
    (hFree : d.kernel.attached ifindex mode.other = none) :
    d.program ifindex = some p := by
  cases mode with
  | native =>
      rw [Device.program, hHere]
      rfl
  | generic =>
      have hNative :
          d.kernel.attached ifindex .native = none := hFree
      rw [Device.program, hNative, hHere]
      rfl

/- The options of a run of the loader are acted on. -/
theorem runLoader_of_options
    (faults : LoaderFaults)
    (hArgs :
      Loader.optionLoop db Loader.initialOptions
        (Loader.options args) = some opt) :
    (deviceSystem obj db).step d (.loader faults args) =
      match
        CallProg.run (Device.handle obj.elf faults) (main opt)
          (.start d.kernel, d.store) with
      | (outcome, s, st) =>
          (.loaderEnded outcome, ⟨s.kernel, st⟩) := by
  simp only [deviceSystem, Device.runLoader, Loader.main,
    hArgs]

/- A start for a free interface makes it ready. -/
theorem step_start
    (hArgs :
      Loader.optionLoop db Loader.initialOptions
        (Loader.options args) = some opt)
    (hStart : opt.rmXdpProg = false)
    (hDevice : opt.ifindex ≠ -1)
    (hFree :
      d.kernel.attached opt.ifindex
        (d.kernel.modeOf opt.ifindex opt.xdpFlags).other =
          none) :
    ((deviceSystem obj db).step d
      (.loader {} args)).2.Ready obj opt.ifindex := by
  have hStarts : StartsUp obj {} d.kernel opt :=
    startsUp_of_accepted obj hDevice hFree rfl (fun _ => rfl)
      rfl rfl
  rw [runLoader_of_options {} hArgs]
  cases run_device_start obj {} d.kernel d.store hStart with
  | failed _ _ _ hFails =>
      exact absurd hStarts (hFails ⟨rfl, rfl⟩)
  | @started p maps w s' hResult _ _ hAttached hUses _ _
      hTables =>
      rw [hResult]
      refine ⟨p, ?_, ?_⟩
      · have hHere :
            s'.kernel.attached opt.ifindex
              (d.kernel.modeOf opt.ifindex opt.xdpFlags) =
                some p := by
          rw [hAttached]
          exact d.kernel.setAttached_self _ _ _
        apply Device.program_of_attached hHere
        simp only [hAttached]
        rw [Kernel.setAttached_of_ne d.kernel _
          (fun hBoth => XdpMode.other_ne _ hBoth.2)]
        exact hFree
      · intro i hLt
        rw [obj.objOf_of_uses hLt (hUses i hLt)]
        exact ⟨rfl, (hTables i hLt).file_eq.1⟩

/- A start attaches nothing to another interface. -/
theorem attached_step_start
    {faults : LoaderFaults}
    (hArgs :
      Loader.optionLoop db Loader.initialOptions
        (Loader.options args) = some opt)
    (hStart : opt.rmXdpProg = false)
    {ifindex : ℤ}
    (hOther : ifindex ≠ opt.ifindex)
    (mode : XdpMode) :
    ((deviceSystem obj db).step d
        (.loader faults args)).2.kernel.attached ifindex mode =
      d.kernel.attached ifindex mode := by
  rw [runLoader_of_options faults hArgs]
  cases run_device_start obj faults d.kernel d.store hStart with
  | failed hResult _ _ _ hAttached =>
      rw [hResult]
      exact congrFun (congrFun hAttached ifindex) mode
  | started hResult _ _ hAttached =>
      rw [hResult]
      refine (congrFun (congrFun hAttached ifindex) mode).trans
        ?_
      exact Kernel.setAttached_of_ne d.kernel _
        (fun hBoth => hOther hBoth.1)

/- A remove leaves nothing where nothing was. -/
theorem attached_step_remove
    {faults : LoaderFaults}
    (hArgs :
      Loader.optionLoop db Loader.initialOptions
        (Loader.options args) = some opt)
    (hRemove : opt.rmXdpProg = true)
    (hDevice : opt.ifindex ≠ -1)
    {ifindex : ℤ}
    {mode : XdpMode}
    (hFree : d.kernel.attached ifindex mode = none) :
    ((deviceSystem obj db).step d
        (.loader faults args)).2.kernel.attached ifindex mode =
      none := by
  rcases run_device_remove obj.elf faults d.kernel d.store
    hRemove hDevice with ⟨s', hRun, hAttached, _⟩
  rw [runLoader_of_options faults hArgs, hRun]
  refine (congrFun (congrFun hAttached ifindex) mode).trans ?_
  unfold attachedAfterRemove
  split
  · exact hFree
  · by_cases hHere :
        ifindex = opt.ifindex ∧
          mode = d.kernel.modeOf opt.ifindex opt.xdpFlags
    · rw [hHere.1, hHere.2]
      exact d.kernel.setAttached_self _ _ _
    · rw [Kernel.setAttached_of_ne _ _ hHere]
      exact hFree

/- A remove for another interface loses the files only. -/
theorem step_remove
    (hArgs :
      Loader.optionLoop db Loader.initialOptions
        (Loader.options args) = some opt)
    (hRemove : opt.rmXdpProg = true)
    (hDevice : opt.ifindex ≠ -1)
    {ifindex : ℤ}
    (hOther : ifindex ≠ opt.ifindex)
    {p : XdpProg}
    (hProgram : d.program ifindex = some p) :
    ((deviceSystem obj db).step d
        (.loader {} args)).2.program ifindex = some p ∧
      ∀ i < NR_MAPS,
        ((deviceSystem obj db).step d
          (.loader {} args)).2.kernel.pins (exportFile i) =
            none := by
  rcases run_device_remove obj.elf {} d.kernel d.store hRemove
    hDevice with ⟨s', hRun, hAttached, _, hPins⟩
  rw [runLoader_of_options {} hArgs, hRun]
  have hSame
      (mode : XdpMode) :
      s'.kernel.attached ifindex mode =
        d.kernel.attached ifindex mode := by
    rw [hAttached, attachedAfterRemove,
      if_neg Bool.false_ne_true]
    exact Kernel.setAttached_of_ne d.kernel _
      (fun hBoth => hOther hBoth.1)
  constructor
  · rw [← hProgram]
    simp only [Device.program, hSame]
  · exact hPins

end

------------------------------------------------------------
-- Editing the Rule of a Port
------------------------------------------------------------

section

variable {obj : DeployedObject}
variable {db : NameDb}
variable {d : Device nrCpus}
variable {args : List CStr}

/- The tool edits the rule of a port, and says so. -/
theorem step_editPort
    {ifindex : ℤ}
    (hReady : d.Ready obj ifindex)
    (fuel : ℕ)
    (frame : Tool.StackFrame)
    {st : Tool.OptionState}
    {dport : BitVec 16}
    (hLoop :
      Tool.optionLoop {} (Tool.options args) = some st)
    (hAction :
      st.action = ACTION_ADD ∨ st.action = ACTION_DEL)
    (hIp : st.ipString = none)
    (hPort : st.dport = dport.setWidth 32)
    (hNe : st.dport ≠ 0) :
    ((deviceSystem obj db).step d
        (.tool .none fuel frame args)).1 =
      .toolEnded (.returned (.exited 0)) := by
  let fails := Device.toolFaults d.kernel .none
  have hOpen
      (i : ℕ)
      (hLt : i < NR_MAPS) :
      fails.opens (exportFile i) = none := by
    rcases hReady with ⟨p, _, hFiles⟩
    rcases hFiles i hLt with ⟨hSome, hPin⟩
    rw [← hPin] at hSome
    simp only [fails, Device.toolFaults, ToolFaults.none,
      Option.isSome_iff_ne_none.mp hSome, if_false]
  have hPorts : Tool.PortMapsOpen fails st := by
    refine ⟨hOpen 2 (by decide), ?_⟩
    cases st.filter with
    | tcp => exact hOpen 3 (by decide)
    | udp => exact hOpen 4 (by decide)
  have hTarget : ¬ (st.ipString = none ∧ st.dport = 0) :=
    fun hBoth => hNe hBoth.2
  have hActs : st.action ≠ 0 := by
    intro hNone
    rw [hNone] at hAction
    revert hAction
    decide
  have hProto := (Tool.request_of_optionLoop hLoop).2
  let m : Maps nrCpus := d.store.maps d.kernel.fileWiring
  have hModify :
      ∃ m',
        runPortModify fails.calls m st.filter st.dport
            st.action st.proto =
          (.returned EXIT_OK, m') := by
    rw [hPort, hProto]
    have hCount :
        countFd st.filter.proto =
          .portBlacklistDropCount st.filter := by
      rw [countFd, protoFilter_proto]
      rfl
    rw [runPortModify, show fails.calls = .none from rfl,
      Maps.handleFaulty_none, ← hCount]
    exact ⟨_, run_blacklistPortModify_of_port m dport
      (protoFilter_proto _) hAction⟩
  rcases hModify with ⟨m', hModify⟩
  have hRun :
      Tool.runTool fuel frame fails m args =
        (.returned (.exited 0), { maps := m' }) := by
    rw [Tool.runTool_of_updateIp hLoop hActs
        (hOpen 1 (by decide)) hTarget
        (Tool.run_updateIp_of_none hIp { maps := m }),
      Tool.run_updatePort_of_ne hNe hPorts hModify]
    rfl
  simp only [deviceSystem, Device.runTool, fails, m] at hRun ⊢
  rw [hRun]

/- The tool leaves the kernel alone. -/
theorem kernel_step_tool
    (fails : ToolFaults)
    (fuel : ℕ)
    (frame : Tool.StackFrame) :
    ((deviceSystem obj db).step d
        (.tool fails fuel frame args)).2.kernel =
      d.kernel := rfl

end

------------------------------------------------------------
-- A Device With Two Interfaces
------------------------------------------------------------

/- Two interfaces, and no users. -/
def ethDb : NameDb where
  getpwnam := fun _ => none
  ifNametoindex name :=
    if name = "eth0".toList then some ⟨1, by decide⟩
    else if name = "eth1".toList then some ⟨2, by decide⟩
    else none

def startEth0 : List CStr :=
  ["-d".toList, "eth0".toList]

def startEth1 : List CStr :=
  ["-d".toList, "eth1".toList]

def removeEth1 : List CStr :=
  ["-r".toList, "-d".toList, "eth1".toList]

theorem optionLoop_startEth0 :
    Loader.optionLoop ethDb Loader.initialOptions
        (Loader.options startEth0) =
      some ⟨1, by decide, false, 0, -1, -1⟩ :=
  rfl

theorem optionLoop_startEth1 :
    Loader.optionLoop ethDb Loader.initialOptions
        (Loader.options startEth1) =
      some ⟨2, by decide, false, 0, -1, -1⟩ :=
  rfl

theorem optionLoop_removeEth1 :
    Loader.optionLoop ethDb Loader.initialOptions
        (Loader.options removeEth1) =
      some ⟨2, by decide, true, 0, -1, -1⟩ :=
  rfl

/- After boot, a start for the first interface is enough. -/
theorem ready_startEth0
    (obj : DeployedObject)
    (nativeXdp : ℤ → Bool) :
    ((deviceSystem obj ethDb).step
      (.boot nativeXdp : Device nrCpus)
      (.loader {} startEth0)).2.Ready obj 1 :=
  step_start optionLoop_startEth0 rfl (by decide) rfl

end XdpDdos
