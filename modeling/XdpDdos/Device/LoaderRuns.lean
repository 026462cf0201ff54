import XdpDdos.Device.Follows
import XdpDdos.Loader.Lifecycle

/-
  What a run of the loader does to a device: on the kernel it
  is the run that is known from the kernel alone, the map
  objects it makes are empty, and a start that succeeds adds
  its test rules to the maps of the program.

  Main declarations:
    * `ByKernel`, `Device.atProcess`, `run_atProcess`
    * `tableOf_exported`
    * `DeviceStart`, `run_device_start`
    * `run_device_remove`
-/

------------------------------------------------------------
-- Calls Other Than the Test Rules
------------------------------------------------------------

namespace XdpDdos

variable {nrCpus : ℕ}

/- A call that the kernel answers. -/
def LoadCall.ByKernel
    (faults : LoaderFaults) : LoadCall → Prop
  | .elfOpen _ => faults.elfOpen = false
  | .statfs _ => faults.statfs = false
  | .testRules _ _ _ => False
  | _ => True

/- The kernel answers all calls of all runs of a program. -/
def ByKernel
    {α : Type}
    (faults : LoaderFaults)
    (p : LoadProg α) : Prop :=
  p.Obeys (LoadCall.ByKernel faults) fun _ => True

section

variable {faults : LoaderFaults}

theorem ByKernel.bind
    {α β : Type}
    {p : LoadProg α}
    {f : α → LoadProg β}
    (hFirst : ByKernel faults p)
    (hSecond : ∀ value, ByKernel faults (f value)) :
    ByKernel faults (p >>= f) :=
  CallProg.Obeys.bind hFirst hSecond

theorem byKernel_unlinkMaps
    (is : List ℕ) :
    ByKernel faults (unlinkMaps is) := by
  induction is with
  | nil => trivial
  | cons i is ih => exact ⟨trivial, fun _ => ih⟩

theorem byKernel_removeXdpProgram
    (ifindex : ℤ)
    (xdpFlags : BitVec 32) :
    ByKernel faults (removeXdpProgram ifindex xdpFlags) := by
  unfold removeXdpProgram
  split
  · refine ByKernel.bind ⟨trivial, fun _ => trivial⟩ ?_
    intro ret
    exact byKernel_unlinkMaps _
  · exact byKernel_unlinkMaps _

theorem byKernel_preLoadMapsViaFs
    (hStatfs : faults.statfs = false)
    (map : BpfMapData)
    (i : ℕ)
    (marked : ExportMarks) :
    ByKernel faults (preLoadMapsViaFs map i marked) := by
  have hCheck
      (file : Option CStr) :
      ByKernel faults (bpfFsCheckPath file) := by
    unfold bpfFsCheckPath
    split
    · trivial
    · refine ByKernel.bind ⟨hStatfs, fun _ => trivial⟩ ?_
      intro answer
      cases answer with
      | error errno => trivial
      | ok fType =>
          dsimp only
          split
          · trivial
          · trivial
  have hFile
      (file : Option CStr) :
      ByKernel faults (loadMapFile file) := by
    refine (hCheck file).bind fun err => ?_
    split
    · trivial
    · refine ByKernel.bind ⟨trivial, fun _ => trivial⟩ ?_
      intro fd
      split
      · trivial
      · trivial
  refine (hFile _).bind fun fd => ?_
  split
  · trivial
  · trivial

theorem byKernel_createMap
    (map : BpfMapData)
    (mapFd : ℕ → ℤ) :
    ByKernel faults (createMap map mapFd) := by
  unfold createMap
  dsimp only
  split
  · split
    · exact ⟨trivial, fun _ => trivial⟩
    · trivial
  · exact ⟨trivial, fun _ => trivial⟩

theorem byKernel_loadMaps
    (hStatfs : faults.statfs = false)
    (is : List ℕ)
    (g : LoaderGlobals)
    (marked : ExportMarks) :
    ByKernel faults
      (loadMaps (some preLoadMapsViaFs) is g marked) := by
  induction is generalizing g marked with
  | nil => trivial
  | cons i is ih =>
      rw [loadMaps]
      split
      · trivial
      · refine (byKernel_preLoadMapsViaFs hStatfs _ _ _).bind ?_
        rintro ⟨fd, marked'⟩
        dsimp only
        split
        · exact ih _ _
        · refine (byKernel_createMap _ _).bind fun fd' => ?_
          split
          · trivial
          · exact ih _ _

theorem byKernel_loadXdpProgs
    (datas : List ElfData)
    (g : LoaderGlobals) :
    ByKernel faults (loadXdpProgs datas g) := by
  induction datas generalizing g with
  | nil => trivial
  | cons data datas ih =>
      refine ByKernel.bind ⟨trivial, fun _ => trivial⟩ ?_
      intro fd
      split
      · trivial
      · exact ih _

theorem byKernel_exportMaps
    (mapFd : ℕ → ℤ)
    (marked : ExportMarks)
    (is : List ℕ) :
    ByKernel faults (exportMaps mapFd marked is) := by
  induction is with
  | nil => trivial
  | cons i is ih =>
      rw [exportMaps]
      split
      · refine ByKernel.bind ?_ fun _ => ih
        refine ByKernel.bind ⟨trivial, fun _ => trivial⟩ ?_
        intro ret
        split
        · trivial
        · trivial
      · exact ih

theorem byKernel_chownMaps
    (owner group : BitVec 32)
    (is : List ℕ) :
    ByKernel faults (chownMaps owner group is) := by
  induction is with
  | nil => trivial
  | cons i is ih => exact ⟨trivial, fun _ => ih⟩

end

------------------------------------------------------------
-- Runs on the Kernel Alone
------------------------------------------------------------

/- Map objects are never taken back. -/
theorem nextMap_le_handle
    (elf : Elf)
    (faults : Faults)
    (op : LoadCall)
    (s : Process) :
    s.kernel.nextMap ≤
      (Kernel.handle elf faults op s).2.kernel.nextMap := by
  have hCreate
      (name : CStr) :
      s.kernel.nextMap ≤
        (Kernel.createMap faults name s).2.kernel.nextMap := by
    unfold Kernel.createMap
    split
    · exact Nat.le_refl _
    · exact Nat.le_succ _
  cases op with
  | createMapNode _ name _ _ _ _ _ => exact hCreate name
  | createMapInMapNode _ name _ _ _ _ _ => exact hCreate name
  | loadProgram _ _ _ _ _ =>
      simp only [Kernel.handle]
      split
      · exact Nat.le_refl _
      · exact Nat.le_refl _
  | objGet path =>
      simp only [Kernel.handle, Kernel.objGet]
      split
      · exact Nat.le_refl _
      · split
        · exact Nat.le_refl _
        · exact Nat.le_refl _
  | objPin fd path =>
      simp only [Kernel.handle, Kernel.objPin]
      split
      · exact Nat.le_refl _
      · split
        · simp only [Kernel.pin]
          split
          · exact Nat.le_refl _
          · exact Nat.le_refl _
        · exact Nat.le_refl _
  | setLinkXdpFd ifindex fd flags =>
      simp only [Kernel.handle, Kernel.setLinkXdpFd]
      split
      · exact Nat.le_refl _
      · split
        · exact Nat.le_refl _
        · split
          · exact Nat.le_refl _
          · split
            · exact Nat.le_refl _
            · exact Nat.le_refl _
  | unlink path =>
      simp only [Kernel.handle, Kernel.unlink]
      split
      · exact Nat.le_refl _
      · exact Nat.le_refl _
  | _ => exact Nat.le_refl _

namespace Device

/-
  A process on the device, when map objects were numbered up
  to `n` and the later ones are new.
-/
def atProcess
    (st : MapStore nrCpus)
    (n : ℕ)
    (s : Process) : Process × MapStore nrCpus :=
  (s, st.create n s.kernel.nextMap)

theorem atProcess_start
    (st : MapStore nrCpus)
    (k : Kernel) :
    atProcess st k.nextMap (.start k) = (.start k, st) := by
  rw [atProcess, MapStore.create]
  exact congrArg _ (Store.renew_self _ _ _)

/- A call that the kernel answers. -/
theorem handle_atProcess
    {elf : Elf}
    {faults : LoaderFaults}
    {op : LoadCall}
    (hOp : op.ByKernel faults)
    {st : MapStore nrCpus}
    {n : ℕ}
    {s : Process}
    (hLe : n ≤ s.kernel.nextMap) :
    Device.handle elf faults op (atProcess st n s) =
      ((Kernel.handle elf faults.toFaults op s).1,
        atProcess st n
          (Kernel.handle elf faults.toFaults op s).2) := by
  have hStep := nextMap_le_handle elf faults.toFaults op s
  have hTwice :=
    st.renew_trans Maps.fresh.contents hLe hStep
  cases op with
  | testRules _ _ _ => exact hOp.elim
  | elfOpen path =>
      have hOpens : faults.elfOpen = false := hOp
      simp only [Device.handle, Kernel.handle, hOpens,
        Bool.false_eq_true, if_false]
  | statfs path =>
      have hStatfs : faults.statfs = false := hOp
      simp only [Device.handle, Kernel.handle, hStatfs,
        Bool.false_eq_true, if_false]
  | _ =>
      simp only [Device.handle, atProcess, MapStore.create]
      exact congrArg _ (congrArg _ hTwice)

/- A run that the kernel alone decides. -/
theorem run_atProcess
    {α : Type}
    {elf : Elf}
    {faults : LoaderFaults}
    {p : LoadProg α}
    (hByKernel : ByKernel faults p)
    (st : MapStore nrCpus)
    {n : ℕ}
    {s : Process}
    (hLe : n ≤ s.kernel.nextMap) :
    CallProg.run (Device.handle elf faults) p
          (atProcess st n s) =
        ((CallProg.run (Kernel.handle elf faults.toFaults) p
            s).1,
          atProcess st n
            (CallProg.run (Kernel.handle elf faults.toFaults) p
              s).2) ∧
      n ≤ (CallProg.run (Kernel.handle elf faults.toFaults) p
        s).2.kernel.nextMap := by
  let Rel
      (s : Process)
      (t : Process × MapStore nrCpus) : Prop :=
    t = atProcess st n s ∧ n ≤ s.kernel.nextMap
  have hCall :
      ∀ op s t, op.ByKernel faults → Rel s t →
        (Device.handle elf faults op t).1 =
            (Kernel.handle elf faults.toFaults op s).1 ∧
          Rel (Kernel.handle elf faults.toFaults op s).2
            (Device.handle elf faults op t).2 := by
    rintro op s t hOp ⟨rfl, hLe⟩
    rw [handle_atProcess hOp hLe]
    exact ⟨rfl, rfl,
      Nat.le_trans hLe (nextMap_le_handle _ _ _ _)⟩
  rcases CallProg.Obeys.simulation hCall hByKernel
      ⟨rfl, hLe⟩ with ⟨hOutcome, hState, hLe'⟩
  exact ⟨Prod.ext hOutcome hState, hLe'⟩

/- The same, when it is known how the run ends. -/
theorem run_atProcess_of_returned
    {α : Type}
    {elf : Elf}
    {faults : LoaderFaults}
    {p : LoadProg α}
    (hByKernel : ByKernel faults p)
    (st : MapStore nrCpus)
    {n : ℕ}
    {s s' : Process}
    (hLe : n ≤ s.kernel.nextMap)
    {value : α}
    (hRun :
      CallProg.run (Kernel.handle elf faults.toFaults) p s =
        (.returned value, s')) :
    CallProg.run (Device.handle elf faults) p
          (atProcess st n s) =
        (.returned value, atProcess st n s') ∧
      n ≤ s'.kernel.nextMap := by
  have hBoth :=
    @run_atProcess _ _ elf faults p hByKernel st n s hLe
  rw [hRun] at hBoth
  exact hBoth

end Device

------------------------------------------------------------
-- Loading and Exporting
------------------------------------------------------------

theorem TableOf.fileKept
    {opens pins : Bool}
    {n n' m : ℕ}
    {file file' : Option ℕ}
    (hTable : TableOf opens pins n n' file m file') :
    FileKept n n' file file' := by
  cases hTable with
  | taken hOpens => exact Or.inl rfl
  | shadowed hFails hLe hLt => exact Or.inl rfl
  | named hPins hLe hLt => exact Or.inr ⟨rfl, _, hLe, hLt, rfl⟩
  | unnamed hFails hLe hLt => exact Or.inl rfl

section

variable {faults : Faults}
variable {k : Kernel}
variable {maps : ℕ → MapObj}
variable {g g₁ : LoaderGlobals}
variable {marked : ExportMarks}
variable {s s₁ s' : Process}

/- The map of each index, and its file after the export. -/
theorem tableOf_exported
    (hReady : MapsReady faults k NR_MAPS maps g marked s)
    (hSame : s₁.kernel = s.kernel)
    (hExported :
      Exported faults marked maps (List.range NR_MAPS) s₁ s')
    {i : ℕ}
    (hLt : i < NR_MAPS) :
    TableOf (!faults.objGet (exportFile i))
      (!faults.objPin (exportFile i)) k.nextMap
      s'.kernel.nextMap (k.pins (exportFile i)) (maps i)
      (s'.kernel.pins (exportFile i)) := by
  have hNext : s'.kernel.nextMap = s.kernel.nextMap := by
    rw [hExported.nextMap_eq, hSame]
  have hMaps : maps i < s'.kernel.nextMap := by
    rw [hNext]
    exact hReady.maps_lt i hLt
  have hOld : s₁.kernel.pins = k.pins := by
    rw [hSame]
    exact hReady.kernel.pins_eq
  have hExport :
      Exportable faults s₁.kernel i ↔
        k.pins (exportFile i) = none ∧
          faults.objPin (exportFile i) = false := by
    rw [Exportable, hOld]
  have hMarked : marked i = true ↔ k.held faults i = none := by
    rw [hReady.marked_eq i]
    exact ⟨And.right, fun hNone => ⟨hLt, hNone⟩⟩
  have hFresh := hReady.fresh i hLt
  have hPins :=
    hExported.pins_of_mem i (List.mem_range.mpr hLt)
  cases hFile : k.pins (exportFile i) with
  | some o =>
      have hFull : ¬ Exportable faults s₁.kernel i := by
        rw [hExport, hFile]
        rintro ⟨hNone, _⟩
        cases hNone
      rw [if_neg (fun hBoth => hFull hBoth.2), hOld, hFile]
        at hPins
      rw [hPins]
      cases hGet : faults.objGet (exportFile i) with
      | false =>
          have hHeld : k.held faults i = some o := by
            simp only [Kernel.held, hGet, hFile,
              Bool.false_eq_true, if_false]
          rw [hReady.held i hLt o hHeld]
          exact .taken rfl
      | true =>
          have hHeld : k.held faults i = none := by
            simp only [Kernel.held, hGet, if_true]
          exact .shadowed rfl (hFresh hHeld) hMaps
  | none =>
      have hHeld : k.held faults i = none := by
        simp only [Kernel.held, hFile, ite_self]
      cases hPin : faults.objPin (exportFile i) with
      | false =>
          have hFree := hExport.mpr ⟨hFile, hPin⟩
          rw [if_pos ⟨hMarked.mpr hHeld, hFree⟩] at hPins
          rw [hPins]
          exact .named rfl (hFresh hHeld) hMaps
      | true =>
          have hRefused : ¬ Exportable faults s₁.kernel i := by
            rw [hExport, hPin]
            rintro ⟨_, hFalse⟩
            cases hFalse
          rw [if_neg (fun hBoth => hRefused hBoth.2), hOld,
            hFile] at hPins
          rw [hPins]
          exact .unnamed rfl (hFresh hHeld) hMaps

end

/- The object file and the file system can be read. -/
structure LoaderFaults.Reads (faults : LoaderFaults) : Prop where
  elfOpen : faults.elfOpen = false
  statfs : faults.statfs = false

namespace Device

section

variable {faults : LoaderFaults}
variable {k : Kernel}
variable {s' : Process}

/- If the object cannot be opened, nothing is done. -/
theorem run_loadKernObject_of_not_opens
    (hFails : faults.elfOpen = true)
    (elf : Elf)
    (s : Process × MapStore nrCpus) :
    ∃ r : ℤ × LoaderGlobals × ExportMarks, r.1 ≠ 0 ∧
      CallProg.run (Device.handle elf faults) loadKernObject
          s =
        (.returned r, s) := by
  have hOpen :
      Device.handle elf faults (.elfOpen KERN_OBJECT) s =
        (none, s) := by
    simp only [Device.handle, hFails, if_true]
  have hOne : (1 : ℤ) ≠ 0 := Int.one_ne_zero
  exact ⟨(1, _, _), hOne,
    CallProg.run_call'_of_answer _ _ hOpen _⟩

/- Otherwise its passes are run. -/
theorem run_loadKernObject_of_opens
    (hOpens : faults.elfOpen = false)
    (elf : Elf)
    (s : Process × MapStore nrCpus) :
    CallProg.run (Device.handle elf faults) loadKernObject s =
      CallProg.run (Device.handle elf faults)
        (loadElf (some preLoadMapsViaFs) elf
          LoaderGlobals.start.reset (fun _ => false)) s := by
  have hOpen :
      Device.handle elf faults (.elfOpen KERN_OBJECT) s =
        (some elf, s) := by
    simp only [Device.handle, hOpens, Bool.false_eq_true,
      if_false]
  exact CallProg.run_call'_of_answer _ _ hOpen _

/- Loading the object is decided by the kernel alone. -/
theorem run_loadKernObject
    (hReads : faults.Reads)
    (obj : DeployedObject)
    (st : MapStore nrCpus)
    {r : ℤ × LoaderGlobals × ExportMarks}
    (hRun :
      CallProg.run (Kernel.handle obj.elf faults.toFaults)
          loadKernObject (.start k) =
        (.returned r, s')) :
    CallProg.run (Device.handle obj.elf faults)
        loadKernObject (atProcess st k.nextMap (.start k)) =
      (.returned r, atProcess st k.nextMap s') := by
  have hFresh :
      ∀ i, LoaderGlobals.start.reset.processedSec i = false :=
    fun _ => rfl
  have hKernel :
      CallProg.run (Kernel.handle obj.elf faults.toFaults)
          loadKernObject (.start k) =
        CallProg.run (Kernel.handle obj.elf faults.toFaults)
          (loadElf (some preLoadMapsViaFs) obj.elf
            LoaderGlobals.start.reset (fun _ => false))
          (.start k) := rfl
  have hByKernel :
      ByKernel faults (loadElf (some preLoadMapsViaFs) obj.elf
        LoaderGlobals.start.reset (fun _ => false)) := by
    rw [obj.loadElf_eq _ hFresh rfl]
    refine (byKernel_loadMaps hReads.statfs _ _ _).bind
      fun r => ?_
    split
    · trivial
    · exact (byKernel_loadXdpProgs _ _).bind fun _ => trivial
  rw [hKernel] at hRun
  rw [run_loadKernObject_of_opens hReads.elfOpen]
  exact (run_atProcess_of_returned hByKernel st
    (Nat.le_refl _) hRun).1

/- The first map is not looked for outside its file system. -/
theorem run_loadMaps_of_statfs
    (elf : Elf)
    (hFails : faults.statfs = true)
    (g : LoaderGlobals)
    (marked : ExportMarks)
    (s : Process × MapStore nrCpus) :
    CallProg.run (Device.handle elf faults)
        (loadMaps (some preLoadMapsViaFs) (List.range NR_MAPS)
          g marked) s =
      (.halted (.exit EXIT_FAIL_MAP_FS), s) := by
  have hStatfs
      (dir : CStr) :
      Device.handle elf faults (.statfs dir) s =
        (.error ENOENT, s) := by
    simp only [Device.handle, hFails, if_true]
  have hFirst :
      CallProg.run (Device.handle elf faults)
          (preLoadMapsViaFs (g.mapData 0) 0 marked) s =
        (.halted (.exit EXIT_FAIL_MAP_FS), s) := by
    have hFile :
        mapIdxToExportFilename 0 =
          some "/sys/fs/bpf/ddos_blacklist".toList := rfl
    rw [preLoadMapsViaFs, CallProg.run_bind, loadMapFile,
      CallProg.run_bind, hFile, bpfFsCheckPath,
      CallProg.run_call'_of_answer _ _ (hStatfs _)]
    rfl
  change CallProg.run _ (fixupMapFd _ _ 0 _ >>= _) s = _
  rw [CallProg.run_bind, fixupMapFd, hFirst]

end

end Device

------------------------------------------------------------
-- The Test Rules
------------------------------------------------------------

/-
  Some of the test rules are added, and that of the port is
  if its masks can be written.
-/
theorem represents_addTestRules
    (fails : CallFaults)
    {m : Maps nrCpus}
    {fw : Firewall}
    (hRep : Represents m fw) :
    ∃ tests : List RuleEdit, tests.Sublist testEdits ∧
      (fails .portBlacklist .update 80 = none →
        tests.getLast? = testEdits.getLast?) ∧
      Represents
        (CallProg.run (Maps.handleFaulty fails) addTestRules
          m).2
        (fw.editAll
          (tests.flatMap (RuleEdit.carriedOut fails))) := by
  let portRule := RuleEdit.rule ACTION_ADD .udp 80
  have hPort :
      portEdit ACTION_ADD .udp 80 = [portRule] := by
    decide
  have hTests :
      addrEdit ACTION_ADD "198.18.50.3".toList ++ [portRule] =
        testEdits := by
    decide
  rcases edited_runModify fails hRep "198.18.50.3".toList
    ACTION_ADD with
    ⟨status, m₁, hRun₁, edits, hSome, hRep₁, _⟩
  rw [Tool.runModify] at hRun₁
  rcases edited_runPortModify fails hRep₁ .udp 80 ACTION_ADD
    with ⟨status', m₂, hRun₂, ⟨edits', hSome', hRep₂, _⟩, _⟩
  rw [runPortModify] at hRun₂
  have hFinal :
      (CallProg.run (Maps.handleFaulty fails) addTestRules
        m).2 = m₂ := by
    rw [addTestRules, CallProg.run_bind_of_returned hRun₁]
    exact congrArg Prod.snd
      (CallProg.run_bind_of_returned hRun₂ _)
  rw [hPort] at hSome'
  rw [hFinal]
  cases hUpdate : fails .portBlacklist .update 80 with
  | some errno =>
      refine ⟨edits ++ edits', ?_, ?_, ?_⟩
      · rw [← hTests]
        exact hSome.append hSome'
      · rintro ⟨⟩
      · rw [List.flatMap_append, Firewall.editAll_append]
        exact hRep₂
  | none =>
      have hWrites :=
        run_portModify_of_port m₁ .udp 80
          (validPortCall_of_port 80 (protoFilter_proto .udp)
            (Or.inl rfl)) hUpdate
      have hDel : ACTION_ADD ≠ ACTION_DEL := by decide
      rw [if_neg hDel] at hWrites
      have hWritten := hWrites.symm.trans hRun₂
      obtain rfl := congrArg Prod.snd hWritten
      refine ⟨edits ++ [portRule], ?_, ?_, ?_⟩
      · rw [← hTests]
        exact hSome.append (List.Sublist.refl _)
      · intro _
        rw [← hTests, List.getLast?_append_of_ne_nil,
          List.getLast?_append_of_ne_nil]
        · exact List.cons_ne_nil _ _
        · exact List.cons_ne_nil _ _
      · rw [List.flatMap_append, Firewall.editAll_append,
          List.flatMap_singleton]
        exact represents_writeRule fails hRep₁ (Or.inl rfl)
          .udp 80

------------------------------------------------------------
-- Starting
------------------------------------------------------------

/- Add the test rules through a wiring. -/
def MapStore.addTestRules
    (st : MapStore nrCpus)
    (fails : CallFaults)
    (w : Wiring MapId) : MapStore nrCpus :=
  st.write w
    (CallProg.run (Maps.handleFaulty fails)
      XdpDdos.addTestRules (st.maps w)).2

/- How a start ends on a device. -/
inductive DeviceStart
    (obj : DeployedObject)
    (faults : LoaderFaults)
    (k : Kernel)
    (st : MapStore nrCpus)
    (opt : Options)
    (result : Outcome ℕ × Process × MapStore nrCpus) :
    Prop where
  | started
      {p : XdpProg}
      {maps : ℕ → MapObj}
      {w : Wiring MapId}
      {s' : Process}
      (hResult :
        result =
          (.returned EXIT_OK, s',
            (st.create k.nextMap
              s'.kernel.nextMap).addTestRules faults.tests
                w))
      (hWiring : w.tables = ⟨some (maps 0), some (maps 2)⟩)
      (hFree :
        k.attached opt.ifindex
          (k.modeOf opt.ifindex opt.xdpFlags).other = none)
      (hAttached :
        s'.kernel.attached =
          (k.setAttached opt.ifindex
            (k.modeOf opt.ifindex opt.xdpFlags)
            (some p)).attached)
      (hUses : ∀ i < NR_MAPS, obj.Uses p i (maps i))
      (hNext : k.nextMap ≤ s'.kernel.nextMap)
      (hMaps : ∀ i < NR_MAPS, maps i < s'.kernel.nextMap)
      (hTables :
        ∀ i < NR_MAPS,
          TableOf (!faults.objGet (exportFile i))
            (!faults.objPin (exportFile i)) k.nextMap
            s'.kernel.nextMap (k.pins (exportFile i)) (maps i)
            (s'.kernel.pins (exportFile i)))
  | failed
      {outcome : Outcome ℕ}
      {code : ℕ}
      {s' : Process}
      (hResult :
        result = (outcome, Device.atProcess st k.nextMap s'))
      (hStatus : outcome.exitStatus = some code)
      (hCode : code ≠ EXIT_OK)
      (hFails :
        faults.Reads → ¬ StartsUp obj faults.toFaults k opt)
      (hAttached : s'.kernel.attached = k.attached)
      (hNext : k.nextMap ≤ s'.kernel.nextMap)
      (hFiles :
        ∀ i < NR_MAPS,
          FileKept k.nextMap s'.kernel.nextMap
            (k.pins (exportFile i))
            (s'.kernel.pins (exportFile i)))

section

variable {obj : DeployedObject}
variable {faults : LoaderFaults}
variable {k : Kernel}
variable {opt : Options}

/- A start that fails before it exports maps. -/
theorem DeviceStart.of_sameButMaps
    {st : MapStore nrCpus}
    {outcome : Outcome ℕ}
    {code : ℕ}
    {s' : Process}
    (hStatus : outcome.exitStatus = some code)
    (hCode : code ≠ EXIT_OK)
    (hFails :
      faults.Reads → ¬ StartsUp obj faults.toFaults k opt)
    (hSame : k.SameButMaps s'.kernel) :
    DeviceStart obj faults k st opt
      (outcome, Device.atProcess st k.nextMap s') :=
  .failed rfl hStatus hCode hFails hSame.attached_eq
    hSame.nextMap_le fun i _ =>
      Or.inl (congrFun hSame.pins_eq (exportFile i))

variable {maps : ℕ → MapObj}
variable {g g₁ : LoaderGlobals}
variable {marked : ExportMarks}
variable {s s₂ : Process}
variable {p : XdpProg}

/- Attaching the program, and the test rules after it. -/
theorem run_device_attach
    (st : MapStore nrCpus)
    (hReady :
      MapsReady faults.toFaults k NR_MAPS maps g₁ marked s)
    (hMapFd : g.mapFd = g₁.mapFd)
    (hUses : ∀ i < NR_MAPS, obj.Uses p i (maps i))
    (hExported :
      Exported faults.toFaults marked maps
        (List.range NR_MAPS) (s.openFd (.prog p)).2 s₂)
    (hLe : k.nextMap ≤ s₂.kernel.nextMap) :
    DeviceStart obj faults k st opt
      (CallProg.run (Device.handle obj.elf faults)
        (.call' (LoadCall.setLinkXdpFd opt.ifindex s.nextFd
            opt.xdpFlags) >>= fun ret : ℤ =>
          if ret < 0 then .ret EXIT_FAIL_XDP
          else
            .call' (LoadCall.testRules (g.mapFd 0)
              (g.mapFd 2) (g.mapFd 4)) >>= fun _ =>
                .ret EXIT_OK)
        (Device.atProcess st k.nextMap s₂)) := by
  have hProg : s₂.fds (s.nextFd : ℤ) = some (.prog p) := by
    rw [hExported.fds_eq]
    exact Function.update_self _ _ _
  have hLink := setLinkXdpFd_of_prog faults.toFaults opt hProg
  have hStep :=
    @Device.handle_atProcess _ obj.elf faults
      (.setLinkXdpFd opt.ifindex s.nextFd opt.xdpFlags)
      trivial st _ _ hLe
  have hMode : s₂.kernel.modeOf = k.modeOf :=
    Kernel.modeOf_congr
      (hExported.nativeXdp_eq.trans
        hReady.kernel.nativeXdp_eq)
  have hOld : s₂.kernel.attached = k.attached :=
    hExported.attached_eq.trans hReady.kernel.attached_eq
  have hSame : (s.openFd (.prog p)).2.kernel = s.kernel := rfl
  have hTables
      (i : ℕ)
      (hLt : i < NR_MAPS) :=
    tableOf_exported hReady hSame hExported hLt
  by_cases hOk :
      faults.setLink = false ∧
        s₂.kernel.attached opt.ifindex
          (s₂.kernel.modeOf opt.ifindex opt.xdpFlags).other =
            none
  · rw [if_pos hOk] at hLink
    rw [Kernel.handle, hLink] at hStep
    rw [CallProg.run_call'_of_answer _ _ hStep,
      if_neg (Int.lt_irrefl 0)]
    have hFds
        (i : ℕ)
        (hLt : i < NR_MAPS) :
        s₂.mapOf (g.mapFd i) = some (maps i) := by
      rw [Process.mapOf, hExported.fds_eq, hMapFd,
        hReady.fds_openFd _ hLt]
    refine .started rfl ?_ ?_ ?_ hUses hLe ?_ hTables
    · exact congrArg₂ Tables.mk (hFds 0 (by decide))
        (hFds 2 (by decide))
    · rw [← hMode, ← hOld]
      exact hOk.2
    · simp only [Kernel.setAttached, hMode, hOld]
    · intro i hLt
      exact Nat.lt_of_lt_of_eq (hReady.maps_lt i hLt)
        hExported.nextMap_eq.symm
  · rw [if_neg hOk] at hLink
    rw [Kernel.handle, hLink] at hStep
    have hNeg : (-1 : ℤ) < 0 := by decide
    rw [CallProg.run_call'_of_answer _ _ hStep, if_pos hNeg]
    refine .failed rfl rfl (by decide) ?_ hOld hLe
      fun i hLt => (hTables i hLt).fileKept
    intro _ hStarts
    rw [hMode, hOld] at hOk
    exact hOk ⟨hStarts.link.works, hStarts.link.free⟩

/- Exporting the maps, by the process alone, before that. -/
theorem run_device_exportAndAttach
    (st : MapStore nrCpus)
    (hReady :
      MapsReady faults.toFaults k NR_MAPS maps g₁ marked s)
    (hMapFd : g.mapFd = g₁.mapFd)
    (hProgFd : g.progFd 0 = s.nextFd)
    (hUses : ∀ i < NR_MAPS, obj.Uses p i (maps i)) :
    DeviceStart obj faults k st opt
      (CallProg.run (Device.handle obj.elf faults)
        (exportAndAttach opt g marked)
        (Device.atProcess st k.nextMap
          (s.openFd (.prog p)).2)) := by
  have hLe :
      k.nextMap ≤ (s.openFd (.prog p)).2.kernel.nextMap :=
    hReady.kernel.nextMap_le
  have hMaps :
      ∀ i ∈ List.range NR_MAPS,
        (s.openFd (.prog p)).2.fds (g.mapFd i) =
            some (.map (maps i)) ∧
          maps i < (s.openFd (.prog p)).2.kernel.nextMap := by
    intro i hMem
    have hLt := List.mem_range.mp hMem
    rw [hMapFd]
    exact ⟨hReady.fds_openFd _ hLt, hReady.maps_lt i hLt⟩
  rcases run_exportMaps obj.elf faults.toFaults marked
    (fun i hMem => List.mem_range.mp hMem)
    List.nodup_range hMaps with
    ⟨s₂, hExport, hExported⟩
  rcases Device.run_atProcess_of_returned
    (byKernel_exportMaps _ _ _) st hLe hExport with
    ⟨hExport', hLe'⟩
  have hChown :=
    (Device.run_atProcess_of_returned
      (byKernel_chownMaps opt.owner opt.group
        (List.range NR_MAPS)) st hLe'
      (run_chownMaps obj.elf faults.toFaults _ _ _ s₂)).1
  rw [exportAndAttach,
    CallProg.run_bind_of_returned hExport',
    CallProg.run_bind_of_returned hChown, hProgFd]
  exact run_device_attach st hReady hMapFd hUses hExported
    hLe'

/- A start that cannot read the object, or look for maps. -/
theorem run_device_unread
    (hUnread : ¬ faults.Reads)
    (st : MapStore nrCpus)
    (next : LoaderGlobals × ExportMarks → LoadProg ℕ) :
    DeviceStart obj faults k st opt
      (CallProg.run (Device.handle obj.elf faults)
        (loadKernObject >>= fun r =>
          if r.1 ≠ 0 then .ret EXIT_FAIL else next r.2)
        (Device.atProcess st k.nextMap (.start k))) := by
  have hFails (hReads : faults.Reads) :
      ¬ StartsUp obj faults.toFaults k opt :=
    absurd hReads hUnread
  cases hOpen : faults.elfOpen with
  | true =>
      rcases Device.run_loadKernObject_of_not_opens hOpen
          obj.elf (Device.atProcess st k.nextMap (.start k))
        with ⟨r, hRet, hRun⟩
      rw [CallProg.run_bind_of_returned hRun, if_pos hRet]
      exact .of_sameButMaps rfl (by decide) hFails (.refl k)
  | false =>
      have hStatfs : faults.statfs = true := by
        cases hEq : faults.statfs with
        | true => rfl
        | false => exact absurd ⟨hOpen, hEq⟩ hUnread
      have hFresh :
          ∀ i,
            LoaderGlobals.start.reset.processedSec i = false :=
        fun _ => rfl
      rw [CallProg.run_bind,
        Device.run_loadKernObject_of_opens hOpen,
        obj.loadElf_eq _ hFresh rfl, obj.nrMaps_eq,
        CallProg.run_bind,
        Device.run_loadMaps_of_statfs _ hStatfs]
      exact .of_sameButMaps rfl (by decide) hFails (.refl k)

/- Every start on a device ends in one of the two ways. -/
theorem run_device_start
    (obj : DeployedObject)
    (faults : LoaderFaults)
    (k : Kernel)
    (st : MapStore nrCpus)
    (hStart : opt.rmXdpProg = false) :
    DeviceStart obj faults k st opt
      (CallProg.run (Device.handle obj.elf faults) (main opt)
        (.start k, st)) := by
  rw [← Device.atProcess_start st k]
  by_cases hDevice : opt.ifindex = -1
  · rw [main, if_pos hDevice]
    exact .of_sameButMaps rfl (by decide)
      (fun _ hStarts => hStarts.device hDevice) (.refl k)
  · have hMain :
        main opt =
          (.call' LoadCall.setrlimit >>= fun err : ℤ =>
            if err ≠ 0 then .ret 1
            else
              loadKernObject >>= fun r =>
                if r.1 ≠ 0 then .ret EXIT_FAIL
                else if r.2.1.progFd 0 = 0 then .ret 1
                else exportAndAttach opt r.2.1 r.2.2) := by
      rw [main, if_neg hDevice, hStart,
        if_neg Bool.false_ne_true]
      rfl
    have hLimit :
        Device.handle obj.elf faults .setrlimit
            (Device.atProcess st k.nextMap (.start k)) =
          (if faults.setrlimit then (-1 : ℤ) else 0,
            Device.atProcess st k.nextMap (.start k)) :=
      @Device.handle_atProcess _ _ _ .setrlimit trivial _ _ _
        (Nat.le_refl _)
    rw [hMain, CallProg.run_call'_of_answer _ _ hLimit]
    by_cases hLimits : faults.setrlimit = true
    · have hErr : (-1 : ℤ) ≠ 0 := by decide
      rw [if_pos hLimits, if_pos hErr]
      refine .of_sameButMaps rfl (by decide) ?_ (.refl k)
      intro _ hStarts
      rw [hStarts.limits] at hLimits
      cases hLimits
    · rw [if_neg hLimits, if_neg (not_not_intro rfl)]
      by_cases hUnread : ¬ faults.Reads
      · exact run_device_unread hUnread st fun r =>
          if r.1.progFd 0 = 0 then .ret 1
          else exportAndAttach opt r.1 r.2
      have hReads := not_not.mp hUnread
      cases obj.run_loadKernObject faults.toFaults k with
      | failed hRun hFails hKernel =>
          rcases hRun with ⟨r, hRet, hRun⟩
          rw [CallProg.run_bind_of_returned
              (Device.run_loadKernObject hReads obj st hRun),
            if_pos hRet]
          exact .of_sameButMaps rfl (by decide)
            (fun _ hStarts => hFails hStarts.loads) hKernel
      | @loaded g₁ g marked maps p s₁ hRun hLoads hReady
          hMapFd hProgFd hUses =>
          have hFd : ¬ g.progFd 0 = 0 := by
            rw [hProgFd, hReady.nextFd_eq]
            decide
          rw [CallProg.run_bind_of_returned
              (Device.run_loadKernObject hReads obj st hRun),
            if_neg (not_not_intro rfl), if_neg hFd]
          exact run_device_exportAndAttach st hReady hMapFd
            hProgFd hUses

end

------------------------------------------------------------
-- Removing
------------------------------------------------------------

/- Without an interface nothing is done. -/
theorem run_device_noDevice
    (elf : Elf)
    (faults : LoaderFaults)
    (k : Kernel)
    (st : MapStore nrCpus)
    {opt : Options}
    (hDevice : opt.ifindex = -1) :
    CallProg.run (Device.handle elf faults) (main opt)
        (.start k, st) =
      (.returned EXIT_FAIL_OPTION, .start k, st) := by
  rw [main, if_pos hDevice]
  rfl

/- A remove detaches and unlinks, and makes no map. -/
theorem main_eq_of_remove
    {opt : Options}
    (hRemove : opt.rmXdpProg = true)
    (hDevice : opt.ifindex ≠ -1) :
    main opt =
      (removeXdpProgram opt.ifindex opt.xdpFlags >>= fun _ =>
        .ret EXIT_OK) := by
  rw [main, if_neg hDevice, hRemove, if_pos rfl]
  rfl

theorem nextMap_unlink
    (faults : Faults)
    (path : CStr)
    (s : Process) :
    (Kernel.unlink faults path s).2.kernel.nextMap =
      s.kernel.nextMap := by
  unfold Kernel.unlink
  split
  · rfl
  · rfl

theorem nextMap_detach
    (faults : Faults)
    (ifindex : ℤ)
    (flags : BitVec 32)
    (s : Process) :
    (Kernel.setLinkXdpFd faults ifindex (-1)
        flags s).2.kernel.nextMap =
      s.kernel.nextMap := by
  simp only [Kernel.setLinkXdpFd]
  split
  · rfl
  · rfl

theorem nextMap_run_remove
    (elf : Elf)
    (faults : Faults)
    (ifindex : ℤ)
    (xdpFlags : BitVec 32)
    (s : Process) :
    (CallProg.run (Kernel.handle elf faults)
        (removeXdpProgram ifindex xdpFlags)
        s).2.kernel.nextMap =
      s.kernel.nextMap := by
  have hUnlink
      (is : List ℕ)
      (s : Process) :
      (CallProg.run (Kernel.handle elf faults)
          (unlinkMaps is) s).2.kernel.nextMap =
        s.kernel.nextMap := by
    induction is generalizing s with
    | nil => rfl
    | cons i is ih =>
        rw [unlinkMaps, CallProg.call'_bind, CallProg.run_call,
          ih]
        exact nextMap_unlink faults _ s
  unfold removeXdpProgram
  split
  · rw [CallProg.call'_bind, CallProg.run_call, hUnlink]
    exact nextMap_detach faults ifindex xdpFlags s
  · exact hUnlink _ s

/- A remove on a device leaves all map objects alone. -/
theorem run_device_remove
    (elf : Elf)
    (faults : LoaderFaults)
    (k : Kernel)
    (st : MapStore nrCpus)
    {opt : Options}
    (hRemove : opt.rmXdpProg = true)
    (hDevice : opt.ifindex ≠ -1) :
    ∃ s',
      CallProg.run (Device.handle elf faults) (main opt)
          (.start k, st) =
        (.returned EXIT_OK, s', st) ∧
      s'.kernel.attached =
        attachedAfterRemove faults.toFaults k opt ∧
      s'.kernel.nextMap = k.nextMap ∧
      ∀ i < NR_MAPS,
        s'.kernel.pins (exportFile i) =
          if faults.unlink (exportFile i) then
            k.pins (exportFile i)
          else none := by
  rcases run_remove elf faults.toFaults k hRemove hDevice with
    ⟨s', hRun, hAttached, hPins⟩
  have hMain := main_eq_of_remove hRemove hDevice
  have hNext : s'.kernel.nextMap = k.nextMap := by
    have hKept :=
      nextMap_run_remove elf faults.toFaults opt.ifindex
        opt.xdpFlags (.start k)
    rw [hMain, CallProg.run_bind] at hRun
    split at hRun
    · rename_i s₁ hFirst
      rw [hFirst] at hKept
      cases hRun
      exact hKept
    · cases hRun
  have hByKernel : ByKernel faults (main opt) := by
    rw [hMain]
    exact (byKernel_removeXdpProgram _ _).bind
      fun _ => trivial
  have hDeviceRun :=
    (Device.run_atProcess_of_returned hByKernel st
      (Nat.le_refl _) hRun).1
  refine ⟨s', ?_, hAttached, hNext, hPins⟩
  rw [← Device.atProcess_start st k]
  refine hDeviceRun.trans (congrArg _ ?_)
  rw [Device.atProcess, hNext]
  exact congrArg _ (Store.renew_self _ _ _)

end XdpDdos
