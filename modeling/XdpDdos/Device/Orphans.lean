import XdpDdos.Device.Blocking

/-
  What becomes of an interface whose tables no file refers
  to any more: nothing that is run later changes what it
  drops, until the loader is run for that interface.

  Main declarations:
    * `Policy.Orphan`, `PolicyStep.orphan`
    * `DeviceEvent.Spares`, `orphaned_rules_are_frozen`
-/

------------------------------------------------------------
-- Orphaned Tables
------------------------------------------------------------

namespace XdpDdos

variable {nrCpus : ℕ}

/- No run of the loader is for the interface. -/
def DeviceEvent.Spares
    (db : NameDb)
    (ifindex : ℤ) : DeviceEvent nrCpus → Prop
  | .loader _ args =>
      ∀ opt,
        Loader.optionLoop db Loader.initialOptions
            (Loader.options args) = some opt →
          opt.ifindex ≠ ifindex
  | _ => True

/-
  The tables of an interface exist and make up a firewall,
  but no file refers to them.
-/
structure Policy.Orphan
    (pol : Policy)
    (ifindex : ℤ)
    (t : Tables ℕ)
    (fw : Firewall) : Prop where
  on_eq : pol.on ifindex = some t
  addrs_lt : t.addrs < pol.next
  rules_lt : t.rules < pol.next
  addrs_ne : pol.files.addrs ≠ some t.addrs
  rules_ne : pol.files.rules ≠ some t.rules
  firewall_eq : pol.firewall t = fw

section

variable {db : NameDb}
variable {pol pol' : Policy}
variable {ev : DeviceEvent nrCpus}
variable {r : DeviceResponse}
variable {n n' o m : ℕ}
variable {file file' : Option ℕ}
variable {opens pins : Bool}

/- A start gets no table that exists and has no file. -/
theorem TableOf.table_ne
    (hTable : TableOf opens pins n n' file m file')
    (hLt : o < n)
    (hNe : file ≠ some o) :
    m ≠ o := by
  cases hTable with
  | taken hOpens =>
      rintro rfl
      exact hNe rfl
  | shadowed _ hLe _ | named _ hLe _ | unnamed _ hLe _ =>
      omega

/- No run gives such a table a file. -/
theorem FileKept.file_ne
    (hKept : FileKept n n' file file')
    (hLt : o < n)
    (hNe : file ≠ some o) :
    file' ≠ some o := by
  rcases hKept with rfl | ⟨_, m, hLe, _, rfl⟩
  · exact hNe
  · intro hEq
    cases hEq
    omega

variable {ifindex : ℤ}
variable {t : Tables ℕ}
variable {fw : Firewall}

namespace Policy.Orphan

/- Edits elsewhere change nothing. -/
theorem editAll
    (hOrphan : pol.Orphan ifindex t fw)
    {t' : Tables (Option ℕ)}
    (hAddrs : t'.addrs ≠ some t.addrs)
    (hRules : t'.rules ≠ some t.rules)
    (edits : List RuleEdit) :
    (pol.editAll t' edits).Orphan ifindex t fw := by
  rcases pol.editAll_kept t' edits with ⟨hNext, hFiles, hOn⟩
  have hWrote := (Wrote.refl t' pol).editAll edits
  have hSame :
      (pol.editAll t' edits).firewall t = pol.firewall t :=
    congrArg₂ Firewall.mk (hWrote.addrs_other _ hAddrs)
      (hWrote.rules_other _ hRules)
  refine ⟨?_, ?_, ?_, ?_, ?_, hSame.trans hOrphan.firewall_eq⟩
  · rw [hOn]
    exact hOrphan.on_eq
  · rw [hNext]
    exact hOrphan.addrs_lt
  · rw [hNext]
    exact hOrphan.rules_lt
  · rw [hFiles]
    exact hOrphan.addrs_ne
  · rw [hFiles]
    exact hOrphan.rules_ne

/- Neither do new tables and files. -/
theorem created
    (hOrphan : pol.Orphan ifindex t fw)
    (hNext : pol.next ≤ n)
    {files : Tables (Option ℕ)}
    (hAddrs : FileKept pol.next n pol.files.addrs files.addrs)
    (hRules : FileKept pol.next n pol.files.rules files.rules) :
    { pol.create n with files := files }.Orphan ifindex t
      fw := by
  have hOld
      (o : ℕ)
      (hLt : o < pol.next) :
      (pol.create n).tables o = pol.tables o := by
    simp only [Policy.create, Nat.not_le.mpr hLt, false_and,
      if_false]
  have hSame :
      (pol.create n).firewall t = pol.firewall t := by
    rw [Policy.firewall, hOld _ hOrphan.addrs_lt,
      hOld _ hOrphan.rules_lt, Policy.firewall]
  exact
    { on_eq := hOrphan.on_eq
      addrs_lt := Nat.lt_of_lt_of_le hOrphan.addrs_lt hNext
      rules_lt := Nat.lt_of_lt_of_le hOrphan.rules_lt hNext
      addrs_ne :=
        hAddrs.file_ne hOrphan.addrs_lt hOrphan.addrs_ne
      rules_ne :=
        hRules.file_ne hOrphan.rules_lt hOrphan.rules_ne
      firewall_eq := hSame.trans hOrphan.firewall_eq }

/- Nor what happens to another interface. -/
theorem update
    (hOrphan : pol.Orphan ifindex t fw)
    {ifindex' : ℤ}
    (hOther : ifindex' ≠ ifindex)
    (t' : Option (Tables ℕ)) :
    (pol.attach ifindex' t').Orphan ifindex t fw :=
  { hOrphan with
    on_eq :=
      (Function.update_of_ne hOther.symm _ _).trans
        hOrphan.on_eq }

end Policy.Orphan

/- A run for another interface leaves an orphan alone. -/
theorem PolicyStep.orphan
    (hStep : PolicyStep db pol ev r pol')
    (hSpares : ev.Spares db ifindex)
    (hOrphan : pol.Orphan ifindex t fw) :
    pol'.Orphan ifindex t fw := by
  cases hStep with
  | filtered hOn hVerdict => exact hOrphan
  | unfiltered hOff => exact hOrphan
  | edited hSome hFiles hLast =>
      exact hOrphan.editAll hOrphan.addrs_ne
        hOrphan.rules_ne _
  | failed hStatus hCode hNext hAddrs hRules =>
      exact hOrphan.created hNext hAddrs hRules
  | @started _ _ opt n t' files tests hArgs hStart hNext
      hAddrs hRules hSome hLast =>
      have hOther := hSpares opt hArgs
      have hCreated :=
        hOrphan.created hNext hAddrs.fileKept hRules.fileKept
      refine (hCreated.update hOther _).editAll ?_ ?_ _
      · intro hEq
        exact hAddrs.table_ne hOrphan.addrs_lt
          hOrphan.addrs_ne (Option.some.inj hEq)
      · intro hEq
        exact hRules.table_ne hOrphan.rules_lt
          hOrphan.rules_ne (Option.some.inj hEq)
  | @removed faults _ opt on hArgs hRemove hOn =>
      have hOther := hSpares opt hArgs
      have hLost
          (fails : Bool)
          {file : Option ℕ}
          {o : ℕ}
          (hNe : file ≠ some o) :
          (if fails then file else none) ≠ some o := by
        cases fails with
        | false => rintro ⟨⟩
        | true => exact hNe
      refine
        { on_eq := ?_
          addrs_lt := hOrphan.addrs_lt
          rules_lt := hOrphan.rules_lt
          addrs_ne := hLost _ hOrphan.addrs_ne
          rules_ne := hLost _ hOrphan.rules_ne
          firewall_eq := hOrphan.firewall_eq }
      rcases hOn with rfl | rfl
      · exact hOrphan.on_eq
      · exact (hOrphan.update hOther none).on_eq

end

------------------------------------------------------------
-- Frozen Rules
------------------------------------------------------------

/-
  No file refers to the address table or the port table that
  the program of an interface uses.
-/
def Device.Orphaned
    (obj : DeployedObject)
    (d : Device nrCpus)
    (ifindex : ℤ) : Prop :=
  ∃ p, d.program ifindex = some p ∧
    d.kernel.pins (exportFile 0) ≠ obj.objOf p 0 ∧
    d.kernel.pins (exportFile 2) ≠ obj.objOf p 2

section

variable {obj : DeployedObject}
variable {db : NameDb}

/- The policy of a device with an orphaned interface. -/
theorem Follows.orphan
    {d : Device nrCpus}
    {pol : Policy}
    (hFollows : Follows obj d pol)
    {ifindex : ℤ}
    (hOrphaned : d.Orphaned obj ifindex) :
    ∃ t, pol.Orphan ifindex t (pol.firewall t) := by
  rcases hOrphaned with ⟨p, hProgram, hAddrs, hRules⟩
  rcases hFollows.wired.on_of_program hProgram with
    ⟨t, hOn, hUses, hAddrsLt, hRulesLt⟩
  rw [obj.objOf_of_uses (by decide) hUses.1] at hAddrs
  rw [obj.objOf_of_uses (by decide) hUses.2] at hRules
  refine ⟨t, hOn, hAddrsLt, hRulesLt, ?_, ?_, rfl⟩
  · rw [hFollows.wired.files_eq]
    exact hAddrs
  · rw [hFollows.wired.files_eq]
    exact hRules

/- An orphan is behind a program, which filters by it. -/
theorem Policy.Orphan.drops_iff
    {d : Device nrCpus}
    {pol : Policy}
    {ifindex : ℤ}
    {t : Tables ℕ}
    {fw : Firewall}
    (hOrphan : pol.Orphan ifindex t fw)
    (hFollows : Follows obj d pol)
    (db : NameDb)
    (cpu : Fin nrCpus)
    {f : EthFrame}
    (hFrame : PlainIpv4Frame f) :
    ((deviceSystem obj db).step d
        (.frame ifindex cpu f.bytes)).1 =
      .verdict (.ok .drop) ↔
      fw.Blocks f.payload := by
  cases hProgram : d.program ifindex with
  | none =>
      have hOff := hFollows.wired.on_of_program_none hProgram
      rw [hOrphan.on_eq] at hOff
      cases hOff
  | some p =>
      rcases hFollows.drops_iff db hProgram cpu hFrame with
        ⟨t', hOn, _, hDrops⟩
      rw [hOrphan.on_eq] at hOn
      cases hOn
      rw [hDrops, hOrphan.firewall_eq]

/-
  Once no file refers to the tables of an interface, nothing
  that is run for others changes what it drops: neither edits
  by the tool, nor starts and removes of the loader.
-/
theorem orphaned_rules_are_frozen
    {nativeXdp : ℤ → Bool}
    {es es' : List (DeviceEvent nrCpus)}
    {ifindex : ℤ}
    (hOrphaned :
      ((deviceSystem obj db).final (.boot nativeXdp)
        es).Orphaned obj ifindex)
    (hSpares : ∀ ev ∈ es', ev.Spares db ifindex)
    (cpu cpu' : Fin nrCpus)
    {f : EthFrame}
    (hFrame : PlainIpv4Frame f) :
    ((deviceSystem obj db).step
        ((deviceSystem obj db).final (.boot nativeXdp)
          (es ++ es'))
        (.frame ifindex cpu' f.bytes)).1 =
      .verdict (.ok .drop) ↔
      ((deviceSystem obj db).step
        ((deviceSystem obj db).final (.boot nativeXdp) es)
        (.frame ifindex cpu f.bytes)).1 =
      .verdict (.ok .drop) := by
  rw [Reactive.final_append]
  rcases device_follows obj db nativeXdp es with
    ⟨pol, _, hFollows⟩
  rcases hFollows.orphan hOrphaned with ⟨t, hOrphan⟩
  rcases Reactive.refines (deviceSystem obj db)
      (fun d pol ev hFollows => hFollows.step db ev) hFollows
      es' with
    ⟨pol', hRun, hFollows'⟩
  have hOrphan' : pol'.Orphan ifindex t (pol.firewall t) := by
    apply Lts.Run.invariant
      (P := fun ev _ => ev.Spares db ifindex) _ hRun _ hOrphan
    · intro pol₁ ev r pol₂ hHere hOrphan₁ hStep
      exact hStep.orphan hHere hOrphan₁
    · intro label hMem
      exact hSpares label.1
        ((deviceSystem obj db).mem_of_mem_trace hMem)
  exact (hOrphan'.drops_iff hFollows' db cpu' hFrame).trans
    (hOrphan.drops_iff hFollows db cpu hFrame).symm

end

/- The files are lost by a remove for the other interface. -/
def startThenRemove : List (DeviceEvent 2) :=
  [.loader {} startEth0, .loader {} removeEth1]

def delUdp80 : List CStr :=
  ["--del".toList, "-u".toList, "80".toList]

/- A start for it, after which the test rule is deleted. -/
def startThenDelete : List (DeviceEvent 2) :=
  [.loader {} startEth1,
    .tool .none 0 Tool.emptyFrame delUdp80]

/- A UDP packet to port 80. -/
def plainUdpFrame : EthFrame where
  macs := Vector.replicate 12 0
  tags := []
  ethertype := ETH_P_IP
  payload :=
    [0x45, 0, 0, 28, 0, 0, 0, 0, 64, 17, 0, 0,
      10, 0, 0, 1, 10, 0, 0, 2,
      0x30, 0x39, 0, 80, 0, 8, 0, 0]

theorem plainUdpFrame_plain :
    PlainIpv4Frame plainUdpFrame where
  tags_le := by decide
  isIpv4 := rfl
  unfragmented := by
    unfold Ipv4.Unfragmented
    decide
  ihl_eq := by decide
  header_le := by decide

/- The other interface is free for the start. -/
theorem free_startThenRemove
    (mode : XdpMode) :
    ((deviceSystem blacklistDeployed ethDb).final
        (.boot fun _ => false)
        startThenRemove).kernel.attached 2 mode = none := by
  simp only [startThenRemove, Reactive.final_cons,
    Reactive.final]
  apply attached_step_remove optionLoop_removeEth1 rfl
    (by decide)
  exact attached_step_start optionLoop_startEth0 rfl
    (by decide) mode

/- The test rule is deleted, in the tables of that start. -/
theorem deleted_startThenDelete :
    ((deviceSystem blacklistDeployed ethDb).step
        ((deviceSystem blacklistDeployed ethDb).final
          (.boot fun _ => false)
          (startThenRemove ++ [.loader {} startEth1]))
        (.tool .none 0 Tool.emptyFrame delUdp80)).1 =
      .toolEnded (.returned (.exited 0)) := by
  have hFree := free_startThenRemove
  rw [Reactive.final_append, Reactive.final_cons,
    Reactive.final]
  generalize
    (deviceSystem blacklistDeployed ethDb).final
      (.boot fun _ => false) startThenRemove = d at hFree ⊢
  have hReady :=
    @step_start _ blacklistDeployed ethDb d startEth1 _
      optionLoop_startEth1 rfl (by decide) (hFree _)
  exact @step_editPort _ _ ethDb _ delUdp80 _ hReady 0
    Tool.emptyFrame _ 80 rfl (Or.inr rfl) rfl rfl (by decide)

theorem orphaned_rules_are_frozen_startThenDelete :
    ((deviceSystem blacklistDeployed ethDb).step
        ((deviceSystem blacklistDeployed ethDb).final
          (.boot fun _ => false)
          (startThenRemove ++ [.loader {} startEth1]))
        (.tool .none 0 Tool.emptyFrame delUdp80)).1 =
      .toolEnded (.returned (.exited 0)) ∧
    (((deviceSystem blacklistDeployed ethDb).step
        ((deviceSystem blacklistDeployed ethDb).final
          (.boot fun _ => false)
          (startThenRemove ++ startThenDelete))
        (.frame 1 1 plainUdpFrame.bytes)).1 =
      .verdict (.ok .drop) ↔
      ((deviceSystem blacklistDeployed ethDb).step
        ((deviceSystem blacklistDeployed ethDb).final
          (.boot fun _ => false) startThenRemove)
        (.frame 1 0 plainUdpFrame.bytes)).1 =
      .verdict (.ok .drop)) := by
  refine ⟨deleted_startThenDelete, ?_⟩
  rcases @ready_startEth0 2 blacklistDeployed
      (fun _ => false) with ⟨p, hProgram, hFiles⟩
  let d : Device 2 :=
    (deviceSystem blacklistDeployed ethDb).final
      (.boot fun _ => false) startThenRemove
  have hRemoved :
      d.program 1 = some p ∧
        ∀ i < NR_MAPS, d.kernel.pins (exportFile i) = none := by
    simp only [d, startThenRemove, Reactive.final_cons,
      Reactive.final]
    exact step_remove optionLoop_removeEth1 rfl (by decide)
      (by decide) hProgram
  have hLost
      (i : ℕ)
      (hLt : i < NR_MAPS) :
      d.kernel.pins (exportFile i) ≠
        blacklistDeployed.objOf p i := by
    intro hEq
    have hSome := (hFiles i hLt).1
    rw [← hEq, hRemoved.2 i hLt] at hSome
    cases hSome
  have hOrphaned : d.Orphaned blacklistDeployed 1 :=
    ⟨p, hRemoved.1, hLost 0 (by decide), hLost 2 (by decide)⟩
  refine orphaned_rules_are_frozen hOrphaned ?_ 0 1
    plainUdpFrame_plain
  intro ev hMem
  rcases List.mem_cons.mp hMem with rfl | hMem
  · intro opt hArgs
    rw [optionLoop_startEth1] at hArgs
    cases hArgs
    decide
  · rw [List.mem_singleton.mp hMem]
    trivial

end XdpDdos
