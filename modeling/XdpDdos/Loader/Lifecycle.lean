import XdpDdos.Loader.Start
import XdpDdos.Lib.Reactive

/-
  Whole runs of the loader on the kernel: a start exports the
  maps and attaches the program, a remove detaches it and
  takes the files away.

  Main declarations:
    * `LinkOk`, `Synced`, `run_exportAndAttach`
    * `StartsUp`, `run_start`
    * `Unlinked`, `run_remove`
-/

------------------------------------------------------------
-- Attaching the Program
------------------------------------------------------------

namespace XdpDdos

/- The kernel attaches a program where the options say. -/
structure LinkOk
    (faults : Faults)
    (k : Kernel)
    (opt : Options) : Prop where
  works : faults.setLink = false
  free :
    k.attached opt.ifindex
      (k.modeOf opt.ifindex opt.xdpFlags).other = none

/- After a start, file `i` is that of the program's map. -/
def Synced
    (faults : Faults)
    (k : Kernel)
    (i : ℕ) : Prop :=
  (k.held faults i).isSome ∨ Exportable faults k i

/- Files keep referring to their maps. -/
def Kernel.PinsKept
    (k k' : Kernel) : Prop :=
  ∀ path m, k.pins path = some m → k'.pins path = some m

section

variable {faults : Faults}
variable {k : Kernel}
variable {maps : ℕ → MapObj}
variable {g : LoaderGlobals}
variable {marked : ExportMarks}
variable {s s₁ s' : Process}

theorem run_chownMaps
    (elf : Elf)
    (faults : Faults)
    (owner group : BitVec 32)
    (is : List ℕ)
    (s : Process) :
    CallProg.run (Kernel.handle elf faults)
        (chownMaps owner group is) s =
      (.returned (), s) := by
  induction is with
  | nil => rfl
  | cons i is ih => exact ih

/- The exported files, in terms of the state before. -/
theorem pins_exported_iff
    (hReady : MapsReady faults k NR_MAPS maps g marked s)
    (hSame : s₁.kernel = s.kernel)
    (hExported :
      Exported faults marked maps (List.range NR_MAPS) s₁ s')
    {i : ℕ}
    (hLt : i < NR_MAPS) :
    s'.kernel.pins (exportFile i) = some (maps i) ↔
      Synced faults k i := by
  have hPins :=
    hExported.pins_of_mem i (List.mem_range.mpr hLt)
  have hExport :
      Exportable faults s.kernel i ↔ Exportable faults k i := by
    rw [Exportable, hReady.kernel.pins_eq, Exportable]
  rw [hSame, hReady.kernel.pins_eq] at hPins
  cases hHeld : k.held faults i with
  | some m =>
      -- the map was taken over from its file
      have hUnmarked : ¬ marked i = true := by
        rw [hReady.marked_eq i, hHeld]
        rintro ⟨_, hNone⟩
        cases hNone
      rw [if_neg (fun hBoth => hUnmarked hBoth.1),
        Kernel.pins_of_held hHeld] at hPins
      rw [hPins, hReady.held i hLt m hHeld, Synced, hHeld]
      exact ⟨fun _ => Or.inl rfl, fun _ => rfl⟩
  | none =>
      -- the map is new
      have hMarked : marked i = true :=
        (hReady.marked_eq i).mpr ⟨hLt, hHeld⟩
      by_cases hHere : Exportable faults k i
      · rw [if_pos ⟨hMarked, hExport.mpr hHere⟩] at hPins
        exact ⟨fun _ => Or.inr hHere, fun _ => hPins⟩
      · rw [if_neg (fun hBoth => hHere (hExport.mp hBoth.2))]
          at hPins
        rw [hPins]
        constructor
        · intro hOld
          have hLater := hReady.fresh i hLt hHeld
          have hEarlier := k.pins_lt hOld
          exact absurd hEarlier (Nat.not_lt.mpr hLater)
        · rintro (hSome | hExportable)
          · rw [hHeld] at hSome
            cases hSome
          · exact absurd hExportable hHere

/- Exporting takes no name away. -/
theorem pinsKept_exported
    (hKernel : k.SameButMaps s.kernel)
    (hExported :
      Exported faults marked maps (List.range NR_MAPS) s s') :
    k.PinsKept s'.kernel := by
  intro path m hPin
  rw [← hKernel.pins_eq] at hPin
  by_cases hFile : ∃ i ∈ List.range NR_MAPS, path = exportFile i
  · rcases hFile with ⟨i, hMem, rfl⟩
    rw [hExported.pins_of_mem i hMem, if_neg]
    · exact hPin
    · rintro ⟨_, hNone, _⟩
      rw [hPin] at hNone
      cases hNone
  · rw [hExported.pins_of_notMem path]
    · exact hPin
    · intro i hMem hEq
      exact hFile ⟨i, hMem, hEq⟩

/- A loaded program is attached where that is possible. -/
theorem setLinkXdpFd_of_prog
    (faults : Faults)
    (opt : Options)
    {fd : ℕ}
    {p : XdpProg}
    (hFd : s.fds (fd : ℤ) = some (.prog p)) :
    Kernel.setLinkXdpFd faults opt.ifindex fd opt.xdpFlags s =
      if faults.setLink = false ∧
          s.kernel.attached opt.ifindex
            (s.kernel.modeOf opt.ifindex
              opt.xdpFlags).other = none then
        (0, { s with
          kernel := s.kernel.setAttached opt.ifindex
            (s.kernel.modeOf opt.ifindex opt.xdpFlags)
            (some p) })
      else (-1, s) := by
  have hNonneg : ¬ ((fd : ℕ) : ℤ) < 0 := by omega
  rw [Kernel.setLinkXdpFd]
  cases hFault : faults.setLink with
  | true => simp
  | false =>
      cases hOther : s.kernel.attached opt.ifindex
        (s.kernel.modeOf opt.ifindex opt.xdpFlags).other with
      | none => simp [hNonneg, hFd]
      | some q => simp [hNonneg]

/- The end of a start: the loaded program is attached. -/
theorem run_attach
    (elf : Elf)
    (g : LoaderGlobals)
    (opt : Options)
    {fd : ℕ}
    {p : XdpProg}
    (hFd : s.fds (fd : ℤ) = some (.prog p)) :
    ∃ s' code,
      CallProg.run (Kernel.handle elf faults)
          (.call' (LoadCall.setLinkXdpFd opt.ifindex fd
              opt.xdpFlags) >>= fun ret : ℤ =>
            if ret < 0 then .ret EXIT_FAIL_XDP
            else
              .call' (LoadCall.testRules (g.mapFd 0)
                (g.mapFd 2) (g.mapFd 4)) >>= fun _ =>
                  .ret EXIT_OK) s =
        (.returned code, s') ∧
      (code = EXIT_OK ↔ LinkOk faults s.kernel opt) ∧
      s'.kernel.attached =
        (if code = EXIT_OK then
          (s.kernel.setAttached opt.ifindex
            (s.kernel.modeOf opt.ifindex opt.xdpFlags)
            (some p)).attached
        else s.kernel.attached) ∧
      s'.kernel.pins = s.kernel.pins := by
  have hLink := setLinkXdpFd_of_prog faults opt hFd
  by_cases hOk : LinkOk faults s.kernel opt
  · rw [if_pos ⟨hOk.works, hOk.free⟩] at hLink
    refine ⟨{ s with
        kernel := s.kernel.setAttached opt.ifindex
          (s.kernel.modeOf opt.ifindex opt.xdpFlags)
          (some p) }, EXIT_OK, ?_, by simp [hOk], ?_, rfl⟩
    · apply (CallProg.run_call'_of_answer
        (Kernel.handle elf faults)
        (.setLinkXdpFd opt.ifindex fd opt.xdpFlags)
        hLink _).trans
      rw [if_neg (Int.lt_irrefl 0)]
      rfl
    · rw [if_pos rfl]
  · have hNot :
        ¬ (faults.setLink = false ∧
          s.kernel.attached opt.ifindex
            (s.kernel.modeOf opt.ifindex opt.xdpFlags).other =
              none) :=
      fun hBoth => hOk ⟨hBoth.1, hBoth.2⟩
    have hCode : EXIT_FAIL_XDP ≠ EXIT_OK := by decide
    have hNeg : (-1 : ℤ) < 0 := by decide
    rw [if_neg hNot] at hLink
    refine ⟨s, EXIT_FAIL_XDP, ?_, by simp [hOk, hCode], ?_,
      rfl⟩
    · apply (CallProg.run_call'_of_answer
        (Kernel.handle elf faults)
        (.setLinkXdpFd opt.ifindex fd opt.xdpFlags)
        hLink _).trans
      rw [if_pos hNeg]
      rfl
    · rw [if_neg hCode]

/- The maps keep their descriptors when the program has one. -/
theorem MapsReady.fds_openFd
    {g₁ : LoaderGlobals}
    (hReady : MapsReady faults k NR_MAPS maps g₁ marked s)
    (obj : FdObj)
    {i : ℕ}
    (hLt : i < NR_MAPS) :
    (s.openFd obj).2.fds (g₁.mapFd i) =
      some (.map (maps i)) := by
  have hOther : ((3 + i : ℕ) : ℤ) ≠ (s.nextFd : ℤ) := by
    rw [hReady.nextFd_eq]
    omega
  rw [hReady.mapFd_eq i hLt]
  simp only [Process.openFd]
  rw [Function.update_of_ne hOther]
  exact hReady.fds_eq i hLt

/- Exporting and attaching, once the object is loaded. -/
theorem run_exportAndAttach
    (elf : Elf)
    {g₁ : LoaderGlobals}
    {p : XdpProg}
    (opt : Options)
    (hReady : MapsReady faults k NR_MAPS maps g₁ marked s)
    (hMapFd : g.mapFd = g₁.mapFd)
    (hProgFd : g.progFd 0 = s.nextFd) :
    ∃ s' code,
      CallProg.run (Kernel.handle elf faults)
          (exportAndAttach opt g marked)
          (s.openFd (.prog p)).2 =
        (.returned code, s') ∧
      (code = EXIT_OK ↔ LinkOk faults k opt) ∧
      s'.kernel.attached =
        (if code = EXIT_OK then
          (k.setAttached opt.ifindex
            (k.modeOf opt.ifindex opt.xdpFlags)
            (some p)).attached
        else k.attached) ∧
      k.PinsKept s'.kernel ∧
      ∀ i < NR_MAPS,
        s'.kernel.pins (exportFile i) = some (maps i) ↔
          Synced faults k i := by
  have hMaps :
      ∀ i ∈ List.range NR_MAPS,
        (s.openFd (.prog p)).2.fds (g.mapFd i) =
            some (.map (maps i)) ∧
          maps i < (s.openFd (.prog p)).2.kernel.nextMap := by
    intro i hMem
    have hLt := List.mem_range.mp hMem
    rw [hMapFd]
    exact ⟨hReady.fds_openFd _ hLt, hReady.maps_lt i hLt⟩
  rcases run_exportMaps elf faults marked
    (fun i hMem => List.mem_range.mp hMem) List.nodup_range
    hMaps with ⟨s₂, hExport, hExported⟩
  have hProg : s₂.fds (s.nextFd : ℤ) = some (.prog p) := by
    rw [hExported.fds_eq]
    exact Function.update_self _ _ _
  rcases run_attach elf g opt hProg with
    ⟨s', code, hRun, hCode, hAttached', hPins⟩
  -- exporting leaves alone what attaching looks at
  have hMode : s₂.kernel.modeOf = k.modeOf :=
    Kernel.modeOf_congr
      (hExported.nativeXdp_eq.trans
        hReady.kernel.nativeXdp_eq)
  have hAttached : s₂.kernel.attached = k.attached :=
    hExported.attached_eq.trans hReady.kernel.attached_eq
  have hLink :
      LinkOk faults s₂.kernel opt ↔ LinkOk faults k opt := by
    constructor
    · rintro ⟨hWorks, hFree⟩
      rw [hMode, hAttached] at hFree
      exact ⟨hWorks, hFree⟩
    · rintro ⟨hWorks, hFree⟩
      rw [← hMode, ← hAttached] at hFree
      exact ⟨hWorks, hFree⟩
  have hKept :=
    pinsKept_exported (s := (s.openFd (.prog p)).2)
      hReady.kernel hExported
  refine ⟨s', code, ?_, hCode.trans hLink, ?_, ?_, ?_⟩
  · rw [exportAndAttach,
      CallProg.run_bind_of_returned hExport,
      CallProg.run_bind_of_returned
        (run_chownMaps elf faults _ _ _ s₂), hProgFd]
    exact hRun
  · simp only [hAttached', Kernel.setAttached, hMode,
      hAttached]
  · intro path m hPin
    rw [hPins]
    exact hKept path m hPin
  · intro i hLt
    have hSame :
        (s.openFd (.prog p)).2.kernel = s.kernel := rfl
    rw [hPins]
    exact pins_exported_iff hReady hSame hExported hLt

end

------------------------------------------------------------
-- Starting
------------------------------------------------------------

/- Nothing happens that makes a start fail. -/
structure StartsUp
    (obj : DeployedObject)
    (faults : Faults)
    (k : Kernel)
    (opt : Options) : Prop where
  device : opt.ifindex ≠ -1
  limits : faults.setrlimit = false
  loads : Loads obj faults k
  link : LinkOk faults k opt

/- Without other failures a start needs an interface only. -/
theorem startsUp_of_accepted
    (obj : DeployedObject)
    {faults : Faults}
    {k : Kernel}
    {opt : Options}
    (hDevice : opt.ifindex ≠ -1)
    (hFree :
      k.attached opt.ifindex
        (k.modeOf opt.ifindex opt.xdpFlags).other = none)
    (hLimits : faults.setrlimit = false)
    (hCreate : ∀ name, faults.createMap name = false)
    (hLoad : faults.loadProgram = false)
    (hLink : faults.setLink = false) :
    StartsUp obj faults k opt where
  device := hDevice
  limits := hLimits
  loads := ⟨fun _ _ => Or.inr (hCreate _), hLoad⟩
  link := ⟨hLink, hFree⟩

/- How a start ends. -/
inductive StartOutcome
    (obj : DeployedObject)
    (faults : Faults)
    (k : Kernel)
    (opt : Options) : Prop where
  | started
      {p : XdpProg}
      {maps : ℕ → MapObj}
      {s' : Process}
      (hRun :
        CallProg.run (Kernel.handle obj.elf faults) (main opt)
            (.start k) =
          (.returned EXIT_OK, s'))
      (hStarts : StartsUp obj faults k opt)
      (hAttached :
        s'.kernel.attached =
          (k.setAttached opt.ifindex
            (k.modeOf opt.ifindex opt.xdpFlags)
            (some p)).attached)
      (hKept : k.PinsKept s'.kernel)
      (hUses : ∀ i < NR_MAPS, obj.Uses p i (maps i))
      (hPins :
        ∀ i < NR_MAPS,
          s'.kernel.pins (exportFile i) = some (maps i) ↔
            Synced faults k i)
  | failed
      {code : ℕ}
      {s' : Process}
      (hRun :
        CallProg.run (Kernel.handle obj.elf faults) (main opt)
            (.start k) =
          (.returned code, s'))
      (hCode : code ≠ EXIT_OK)
      (hFails : ¬ StartsUp obj faults k opt)
      (hAttached : s'.kernel.attached = k.attached)
      (hKept : k.PinsKept s'.kernel)

theorem Kernel.SameButMaps.pinsKept
    {k k' : Kernel}
    (hSame : k.SameButMaps k') :
    k.PinsKept k' := by
  intro path m hPin
  rw [hSame.pins_eq]
  exact hPin

/- Without an interface nothing is done. -/
theorem run_main_noDevice
    (elf : Elf)
    (faults : Faults)
    (k : Kernel)
    {opt : Options}
    (hDevice : opt.ifindex = -1) :
    CallProg.run (Kernel.handle elf faults) (main opt)
        (.start k) =
      (.returned EXIT_FAIL_OPTION, .start k) := by
  rw [main, if_pos hDevice]
  rfl

/- Every start ends in one of the two ways. -/
theorem run_start
    (obj : DeployedObject)
    (faults : Faults)
    (k : Kernel)
    {opt : Options}
    (hStart : opt.rmXdpProg = false) :
    StartOutcome obj faults k opt := by
  by_cases hDevice : opt.ifindex = -1
  · exact .failed (run_main_noDevice obj.elf faults k hDevice)
      (by decide) (fun hStarts => hStarts.device hDevice) rfl
      (Kernel.SameButMaps.refl k).pinsKept
  · have hMain :
        CallProg.run (Kernel.handle obj.elf faults) (main opt)
            (.start k) =
          CallProg.run (Kernel.handle obj.elf faults)
            (if (if faults.setrlimit then (-1 : ℤ) else 0) ≠ 0
              then .ret 1
            else
              loadKernObject >>= fun r =>
                if r.1 ≠ 0 then .ret EXIT_FAIL
                else if r.2.1.progFd 0 = 0 then .ret 1
                else exportAndAttach opt r.2.1 r.2.2)
            (.start k) := by
      rw [main, if_neg hDevice, hStart,
        if_neg Bool.false_ne_true, CallProg.call'_bind]
      rfl
    by_cases hLimits : faults.setrlimit = true
    · have hErr : (-1 : ℤ) ≠ 0 := by decide
      rw [if_pos hLimits, if_pos hErr] at hMain
      refine .failed hMain (by decide) ?_ rfl
        (Kernel.SameButMaps.refl k).pinsKept
      intro hStarts
      rw [hStarts.limits] at hLimits
      cases hLimits
    · rw [if_neg hLimits, if_neg (not_not_intro rfl)] at hMain
      cases obj.run_loadKernObject faults k with
      | failed hRun hFails hKernel =>
          rcases hRun with ⟨r, hRet, hRun⟩
          rw [CallProg.run_bind_of_returned hRun,
            if_pos hRet] at hMain
          exact .failed hMain (by decide)
            (fun hStarts => hFails hStarts.loads)
            hKernel.attached_eq hKernel.pinsKept
      | @loaded g₁ g marked maps p s₁ hRun hLoads hReady
          hMapFd hProgFd hUses =>
          have hFd : ¬ g.progFd 0 = 0 := by
            rw [hProgFd, hReady.nextFd_eq]
            decide
          rw [CallProg.run_bind_of_returned hRun,
            if_neg (not_not_intro rfl), if_neg hFd] at hMain
          rcases run_exportAndAttach obj.elf opt hReady
            hMapFd hProgFd with
            ⟨s', code, hExport, hCode, hAttached, hKept,
              hPins⟩
          have hReturned := hMain.trans hExport
          by_cases hOk : code = EXIT_OK
          · subst hOk
            rw [if_pos rfl] at hAttached
            refine .started hReturned
              ⟨hDevice, by simpa using hLimits, hLoads,
                hCode.mp rfl⟩ hAttached hKept hUses hPins
          · rw [if_neg hOk] at hAttached
            exact .failed hReturned hOk
              (fun hStarts => hOk (hCode.mpr hStarts.link))
              hAttached hKept

------------------------------------------------------------
-- Removing
------------------------------------------------------------

/- What unlinking the files of the maps `is` leaves. -/
structure Unlinked
    (faults : Faults)
    (is : List ℕ)
    (k k' : Kernel) : Prop where
  attached_eq : k'.attached = k.attached
  pins_of_notMem :
    ∀ path, (∀ i ∈ is, path ≠ exportFile i) →
      k'.pins path = k.pins path
  pins_of_mem :
    ∀ i ∈ is,
      k'.pins (exportFile i) =
        if faults.unlink (exportFile i) then
          k.pins (exportFile i)
        else none

/- One file is gone, unless `unlink` fails. -/
theorem pins_unlink
    (faults : Faults)
    (path path' : CStr)
    (s : Process) :
    (Kernel.unlink faults path s).2.kernel.pins path' =
      if path' = path ∧ faults.unlink path = false then none
      else s.kernel.pins path' := by
  rw [Kernel.unlink]
  cases hFault : faults.unlink path with
  | true => simp
  | false =>
      by_cases hNone : s.kernel.pins path = none
      · rw [if_pos (Or.inr hNone)]
        split
        · rename_i hHere
          rw [hHere.1, hNone]
        · rfl
      · have hBoth :
            ¬ (false = true ∨ s.kernel.pins path = none) := by
          simpa using hNone
        rw [if_neg hBoth]
        by_cases hHere : path' = path
        · simp [Kernel.unpin, hHere]
        · simp [Kernel.unpin, hHere]

theorem attached_unlink
    (faults : Faults)
    (path : CStr)
    (s : Process) :
    (Kernel.unlink faults path s).2.kernel.attached =
      s.kernel.attached := by
  rw [Kernel.unlink]
  split
  · rfl
  · rfl

theorem run_unlinkMaps
    (elf : Elf)
    (faults : Faults)
    {is : List ℕ}
    (hIs : ∀ i ∈ is, i < NR_MAPS)
    (hNodup : is.Nodup)
    (s : Process) :
    ∃ s',
      CallProg.run (Kernel.handle elf faults) (unlinkMaps is)
          s =
        (.returned (), s') ∧
      Unlinked faults is s.kernel s'.kernel := by
  induction is generalizing s with
  | nil =>
      refine ⟨s, rfl, rfl, fun _ _ => rfl, ?_⟩
      intro i hMem
      cases hMem
  | cons i is ih =>
      rcases List.nodup_cons.mp hNodup with ⟨hFresh, hNodup'⟩
      have hTail : ∀ j ∈ is, j < NR_MAPS := by
        intro j hMem
        exact hIs j (List.mem_cons_of_mem i hMem)
      rcases ih hTail hNodup'
        (Kernel.unlink faults (exportFile i) s).2 with
        ⟨s', hRun, hRest⟩
      have hOther
          (j : ℕ)
          (hMem : j ∈ is) :
          exportFile j ≠ exportFile i := by
        intro hEq
        have hSame := exportFile_inj (hTail j hMem)
          (hIs i List.mem_cons_self) hEq
        exact hFresh (hSame ▸ hMem)
      refine ⟨s', hRun, ?_, ?_, ?_⟩
      · exact hRest.attached_eq.trans (attached_unlink _ _ s)
      · intro path hNone
        have hHere := hNone i List.mem_cons_self
        rw [hRest.pins_of_notMem path (fun j hMem =>
            hNone j (List.mem_cons_of_mem i hMem)),
          pins_unlink, if_neg (fun hBoth => hHere hBoth.1)]
      · intro j hMem
        rcases List.mem_cons.mp hMem with rfl | hLater
        · rw [hRest.pins_of_notMem _ (fun j' hMem' =>
              (hOther j' hMem').symm), pins_unlink]
          cases faults.unlink (exportFile j) with
          | true => simp
          | false => simp
        · have hKept :
              (Kernel.unlink faults (exportFile i)
                s).2.kernel.pins (exportFile j) =
                s.kernel.pins (exportFile j) := by
            rw [pins_unlink, if_neg]
            exact fun hBoth => hOther j hLater hBoth.1
          rw [hRest.pins_of_mem j hLater, hKept]

/- The programs that are attached after a remove. -/
def attachedAfterRemove
    (faults : Faults)
    (k : Kernel)
    (opt : Options) : ℤ → XdpMode → Option XdpProg :=
  if faults.setLink then k.attached
  else
    (k.setAttached opt.ifindex
      (k.modeOf opt.ifindex opt.xdpFlags) none).attached

/- A remove always reports success. -/
theorem run_remove
    (elf : Elf)
    (faults : Faults)
    (k : Kernel)
    {opt : Options}
    (hRemove : opt.rmXdpProg = true)
    (hDevice : opt.ifindex ≠ -1) :
    ∃ s',
      CallProg.run (Kernel.handle elf faults) (main opt)
          (.start k) =
        (.returned EXIT_OK, s') ∧
      s'.kernel.attached = attachedAfterRemove faults k opt ∧
      ∀ i < NR_MAPS,
        s'.kernel.pins (exportFile i) =
          if faults.unlink (exportFile i) then
            k.pins (exportFile i)
          else none := by
  have hPositive : opt.ifindex > -1 := by
    have hParsed := opt.ifindex_ok
    omega
  rcases run_unlinkMaps elf faults
    (fun i hMem => List.mem_range.mp hMem)
    (List.nodup_range (n := NR_MAPS))
    (Kernel.setLinkXdpFd faults opt.ifindex (-1) opt.xdpFlags
      (.start k)).2 with ⟨s', hRun, hUnlinked⟩
  have hNeg : (-1 : ℤ) < 0 := by decide
  have hLink :
      (Kernel.setLinkXdpFd faults opt.ifindex (-1)
          opt.xdpFlags (.start k)).2.kernel.attached =
        attachedAfterRemove faults k opt ∧
      (Kernel.setLinkXdpFd faults opt.ifindex (-1)
          opt.xdpFlags (.start k)).2.kernel.pins = k.pins := by
    rw [Kernel.setLinkXdpFd, attachedAfterRemove]
    cases faults.setLink with
    | true => exact ⟨rfl, rfl⟩
    | false => exact ⟨rfl, rfl⟩
  refine ⟨s', ?_, ?_, ?_⟩
  · rw [main, if_neg hDevice, hRemove, if_pos rfl,
      removeXdpProgram, if_pos hPositive, CallProg.call'_bind,
      CallProg.call_bind, CallProg.run_call]
    exact CallProg.run_bind_of_returned hRun _
  · exact hUnlinked.attached_eq.trans hLink.1
  · intro i hLt
    rw [hUnlinked.pins_of_mem i (List.mem_range.mpr hLt),
      hLink.2]

end XdpDdos
