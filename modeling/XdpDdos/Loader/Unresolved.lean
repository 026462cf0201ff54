import XdpDdos.Loader.LoadOutcome

/-
  Programs with an entry that cannot be applied.

  `do_load_bpf_file` does not look at the result of
  `parse_relo_and_apply`.  So such a program is loaded all
  the same, unless an error of another kind comes first.

  Main declarations:
    * `Elf.Unresolved`, `Elf.UnresolvedRefused`
    * `Elf.RefusedAnyway`
    * `obeys_loadElf`, `runsThrough_loadElf`
    * `unresolvedRefused_iff`
-/

------------------------------------------------------------
-- Unresolved Entries
------------------------------------------------------------

namespace XdpDdos

/- The symbols that entries refer to. -/
def Elf.symbols (elf : Elf) : ElfData :=
  (elf.symtab?.map Prod.fst).getD ⟨[], 0⟩

/-
  Some entry for the code in section `p` cannot be applied:
  its instruction is not a 64-bit load, or its symbol is at
  the offset of no map, or it has neither.
-/
def Elf.Unresolved
    (elf : Elf)
    (p : ℕ) : Prop :=
  ∃ i ∈ elf.secIndices, ∃ sec prog,
    elf.RelocFor i sec prog ∧ sec.shdr.shInfo = p ∧
      ∃ k < sec.nrels,
        ¬ EntryApplies sec.data elf.symbols
          (elf.recordedAt elf.symbols) prog.data.dBuf k

/- The process exits. -/
def IsExit (how : Halt) : Prop :=
  ∃ status, how = .exit status

/- The result is nonzero, or there is none after an exit. -/
def EndsInError
    {α : Type} :
    Outcome (ℤ × α) → Prop
  | .returned r => r.1 ≠ 0
  | .halted how => IsExit how

instance (how : Halt) : Decidable (IsExit how) :=
  match how with
  | .exit status => .isTrue ⟨status, rfl⟩
  | .crash _ => .isFalse (by rintro ⟨status, hEq⟩; cases hEq)

instance
    {α : Type}
    (outcome : Outcome (ℤ × α)) :
    Decidable (EndsInError outcome) :=
  match outcome with
  | .returned r => inferInstanceAs (Decidable (r.1 ≠ 0))
  | .halted how => inferInstanceAs (Decidable (IsExit how))

/-
  An object with an unresolved section is refused, and the
  section is not loaded.  A callback may exit.
-/
def Elf.UnresolvedRefused
    (elf : Elf)
    (g : LoaderGlobals) : Prop :=
  ∀ p, elf.Unresolved p →
    ∀ (υ : Type) (fixupMap : Option (FixupMapCb υ)),
      (∀ cb ∈ fixupMap, ∀ map i u,
        (cb map i u).HaltsAs IsExit) →
      ∀ (path : CStr) (u : υ) (σ : Type)
        (handler :
          CallProg.Handler LoadCall LoadCall.Resp σ)
        (s : σ),
        (handler (.elfOpen path) s).1 = some elf →
          EndsInError
              ((doLoadBpfFile path fixupMap g u).run
                handler s).1 ∧
            ∀ call ∈ (BySection.doLoadBpfFile path fixupMap
                g u).trace (unseen handler) s,
              ¬ call.1.LoadsSec p

/-
  Errors that come before an unresolved section is loaded,
  with `n` programs loaded by earlier calls: a version of the
  wrong size; no symbols; a definition with new features; or,
  when all passes before the last come to their end, a
  program section that is not loaded or not attached.
-/
inductive Elf.RefusedAnyway
    (elf : Elf)
    (n : ℕ) : Prop where
  | version
      (hVersion :
        Reaches elf.ScanPasses elf.ScanRefuses
          elf.secIndices)
  | noSymbols
      (hScanned : ∀ i ∈ elf.secIndices, elf.ScanPasses i)
      (hSymtab : elf.symtab? = none)
  | newFeature
      (hScanned : ∀ i ∈ elf.secIndices, elf.ScanPasses i)
      (symtab : ElfData × ℕ)
      (hSymtab : elf.symtab? = some symtab)
      (mapsShndx : ℕ)
      (hMaps : elf.mapsShndx? = some mapsShndx)
      (sec : Sec)
      (hSec : elf.getSec mapsShndx = some sec)
      (hRefused : MapsRefused elf mapsShndx symtab sec.data)
  | program
      (hScanned : ∀ i ∈ elf.secIndices, elf.ScanPasses i)
      (symtab : ElfData × ℕ)
      (hSymtab : elf.symtab? = some symtab)
      (hPass : elf.MapsPass symtab)
      (hInner : elf.InnerMapsFit symtab)
      (hRelocs :
        ∀ i ∈ elf.secIndices,
          elf.RelocPasses elf.IsHandled symtab.1
            (elf.recordedAt symtab.1) i)
      (hStops :
        elf.StopsUnloaded elf.Unresolved elf.secIndices n)

------------------------------------------------------------
-- The Passes
------------------------------------------------------------

section

variable {υ : Type}
variable {elf : Elf}
variable {symtab : ElfData × ℕ}
variable {g g₁ g₂ g₃ : LoaderGlobals}
variable {nrMaps : ℕ}

/- Which sections are not looked at when programs are loaded. -/
theorem marksFit_of_relocated
    (hReset : ∀ i, g.processedSec i = false)
    (hMarked :
      LoaderGlobals.MarkedAmong elf.IsMeta elf.secIndices g
        g₁)
    (hAfter : AfterMaps elf symtab.1 g₁ nrMaps g₂)
    (hRelocs :
      ∀ i ∈ elf.secIndices,
        elf.RelocPasses elf.IsHandled symtab.1
          (elf.recordedAt symtab.1) i)
    (hMarked' :
      LoaderGlobals.MarkedAmong elf.TargetsCode
        elf.secIndices g₂ g₃) :
    elf.MarksFit g₃ elf.secIndices := by
  intro i hMem
  refine ⟨(hRelocs i hMem).index_lt, ?_⟩
  rw [hMarked'.processed_iff,
    isHandled_iff hReset hMarked hAfter hMem]
  simp only [hMem, true_and]

/- The tagged passes, when the first comes to its end. -/
theorem bySection_loadElf_of_scanned
    {fixupMap : Option (FixupMapCb υ)}
    (hRun :
      scanSecs elf elf.secIndices ⟨g, none, none⟩ =
        .ok (0,
          { globals := g₁
            mapsShndx :=
              (elf.secIndices.findSomeRev?
                elf.mapsAt?).or none
            symtab :=
              (elf.secIndices.findSomeRev?
                elf.symtabAt?).or none }))
    (u : υ) :
    BySection.loadElf fixupMap elf g u =
      match elf.symtab? with
      | none => .ret (1, g₁, u)
      | some symtab =>
          BySection.forSec none
              (loadMapsOf fixupMap elf symtab
                elf.mapsShndx? g₁ u) >>= fun r =>
            if r.1 ≠ 0 then .ret (1, r.2.2.1, r.2.2.2)
            else
              CallProg.ofExcept
                  (relocateSecs symtab.1 r.2.1
                    elf.secIndices elf r.2.2.1) >>= fun r' =>
                BySection.loadSecs r'.1 r'.1.secIndices
                    r'.2 >>= fun r'' =>
                  .ret (r''.1, r''.2, r.2.2.2) := by
  rw [Option.or_none, Option.or_none] at hRun
  rw [BySection.loadElf, hRun]
  simp only [CallProg.ofExcept_ok, CallProg.ret_bind]
  rw [if_neg (not_not_intro rfl)]
  rfl

/- Relocations that come to an end, and then the last pass. -/
theorem obeys_afterMaps
    (hReset : ∀ i, g.processedSec i = false)
    (hMarked :
      LoaderGlobals.MarkedAmong elf.IsMeta elf.secIndices g
        g₁)
    (hAfter : AfterMaps elf symtab.1 g₁ nrMaps g₂)
    (hRelocs :
      ∀ i ∈ elf.secIndices,
        elf.RelocPasses elf.IsHandled symtab.1
          (elf.recordedAt symtab.1) i)
    {U : ℕ → Prop}
    (hStops :
      elf.StopsUnloaded U elf.secIndices g.progCnt)
    {p : ℕ}
    (hIn : U p) :
    ∃ elf' g₃,
      relocateSecs symtab.1 nrMaps elf.secIndices elf g₂ =
          .ok (elf', g₃) ∧
        (BySection.loadSecs elf' elf'.secIndices g₃).Obeys
            (fun call => ¬ call.LoadsSec p) IsExit ∧
          (BySection.loadSecs elf' elf'.secIndices
            g₃).Leaves (·.1 ≠ 0) := by
  have hRelocs' := hRelocs
  rw [← hAfter.offsets_eq] at hRelocs'
  cases relocOutcome_secIndices hReset hMarked hAfter with
  | divides hDivides hRun =>
      exact absurd hRelocs' (hDivides.not_forall
        fun _ hHere hPasses => hPasses.not_divides hHere)
  | crashes crash hNot hDivides hCrash hRun =>
      exact absurd hRelocs' hNot
  | passes elf' g₃ hAll hSame hMarked' hRun =>
      have hMarks :=
        marksFit_of_relocated hReset hMarked hAfter hRelocs
          hMarked'
      have hCnt : g₃.progCnt = g.progCnt :=
        hMarked'.progCnt_eq.trans
          (hAfter.progCnt_eq.trans hMarked.progCnt_eq)
      refine ⟨elf', g₃, hRun, ?_⟩
      rw [hSame.secIndices_eq]
      exact hStops.obeys hIn hSame hMarks hCnt _

/- The last pass, after relocations that came to an end. -/
theorem obeys_loadElf_of_program
    {fixupMap : Option (FixupMapCb υ)}
    (hCallback :
      ∀ cb ∈ fixupMap, ∀ map i u,
        (cb map i u).HaltsAs IsExit)
    (hReset : ∀ i, g.processedSec i = false)
    (hScanned : ∀ i ∈ elf.secIndices, elf.ScanPasses i)
    (hSymtab : elf.symtab? = some symtab)
    (hPass : elf.MapsPass symtab)
    (hInner : elf.InnerMapsFit symtab)
    (hRelocs :
      ∀ i ∈ elf.secIndices,
        elf.RelocPasses elf.IsHandled symtab.1
          (elf.recordedAt symtab.1) i)
    {U : ℕ → Prop}
    (hStops :
      elf.StopsUnloaded U elf.secIndices g.progCnt)
    {p : ℕ}
    (hIn : U p)
    (u : υ) :
    (BySection.loadElf fixupMap elf g u).Obeys
        (fun call => ¬ call.LoadsSec p) IsExit ∧
      (BySection.loadElf fixupMap elf g u).Leaves
        (·.1 ≠ 0) := by
  have hOne : (1 : ℤ) ≠ 0 := by
    decide
  rcases scanSecs_of_passes hScanned ⟨g, none, none⟩ with
    ⟨g₁, hMarked, hRun⟩
  -- the maps are read without a crash
  have hMaps :
      (loadMapsOf fixupMap elf symtab elf.mapsShndx? g₁
        u).HaltsAs IsExit := by
    refine haltsAs_loadMapsOf hCallback ?_
      (Or.inr ⟨hPass, hInner⟩) u
    intro mapsShndx hMaps crash hError
    rcases exists_of_mapsShndx? hMaps with ⟨sec, hSec, _⟩
    have hFill := (hPass mapsShndx hMaps).2 sec hSec
    rw [hFill.load_eq (data_of_getSec hSec)] at hError
    cases hError
  have hLeaves :
      (BySection.forSec none
        (loadMapsOf fixupMap elf symtab elf.mapsShndx? g₁
          u)).Leaves _ :=
    (loadMapsOf_leaves fixupMap g₁ u).embed
  rw [bySection_loadElf_of_scanned hRun, hSymtab]
  refine CallProg.Obeys.bind_both
    (obeys_forSec (Option.some_ne_none p).symm hMaps)
    hLeaves ?_
  rintro ⟨ret, nrMaps, g₂, u'⟩ hSuccess
  by_cases hRet : ret = 0
  · rcases obeys_afterMaps hReset hMarked (hSuccess hRet).2
        hRelocs hStops hIn with
      ⟨elf', g₃, hRelocate, hObeys, hFails⟩
    rw [if_neg (not_not_intro hRet), hRelocate]
    exact ⟨hObeys.bind fun _ => trivial,
      hFails.bind fun _ hFail => hFail⟩
  · rw [if_pos hRet]
    exact ⟨trivial, hOne⟩

/- An error that comes first is returned in every run. -/
theorem obeys_loadElf
    {fixupMap : Option (FixupMapCb υ)}
    (hCallback :
      ∀ cb ∈ fixupMap, ∀ map i u,
        (cb map i u).HaltsAs IsExit)
    (hReset : ∀ i, g.processedSec i = false)
    (hRefused : elf.RefusedAnyway g.progCnt)
    {p : ℕ}
    (hUnresolved : elf.Unresolved p)
    (u : υ) :
    (BySection.loadElf fixupMap elf g u).Obeys
        (fun call => ¬ call.LoadsSec p) IsExit ∧
      (BySection.loadElf fixupMap elf g u).Leaves
        (·.1 ≠ 0) := by
  have hOne : (1 : ℤ) ≠ 0 := by
    decide
  cases hRefused with
  | version hVersion =>
      rcases scanSecs_of_refuses hVersion ⟨g, none, none⟩
        with ⟨sc', hRun⟩
      rw [BySection.loadElf, hRun]
      exact ⟨trivial, hOne⟩
  | noSymbols hScanned hSymtab =>
      rcases scanSecs_of_passes hScanned ⟨g, none, none⟩ with
        ⟨g₁, _, hRun⟩
      rw [bySection_loadElf_of_scanned hRun, hSymtab]
      exact ⟨trivial, hOne⟩
  | newFeature hScanned symtab hSymtab mapsShndx hMaps sec
      hSec hRefused =>
      rcases scanSecs_of_passes hScanned ⟨g, none, none⟩ with
        ⟨g₁, _, hRun⟩
      rcases hRefused.load_eq (data_of_getSec hSec)
        g₁.mapData with ⟨maps', hLoad⟩
      rw [bySection_loadElf_of_scanned hRun, hSymtab]
      simp only
      rw [hMaps, loadMapsOf_of_refused hLoad]
      exact ⟨trivial, hOne⟩
  | program hScanned symtab hSymtab hPass hInner hRelocs
      hStops =>
      exact obeys_loadElf_of_program hCallback hReset
        hScanned hSymtab hPass hInner hRelocs hStops
        hUnresolved u

end

------------------------------------------------------------
-- Runs Past the Unresolved Sections
------------------------------------------------------------

/- The callback that assigns descriptors does not exit. -/
theorem givenMaps_haltsAs
    (Q : Halt → Prop) :
    ∀ cb ∈ some givenMaps, ∀ map i u,
      (cb map i u).HaltsAs Q := by
  intro cb hMem map i u
  cases hMem
  trivial

/- Without a callback, an inner map must be in the table. -/
theorem run_loadMaps_of_outside
    {is : List ℕ}
    {g : LoaderGlobals}
    (hIs : ∀ i ∈ is, i < MAX_MAPS)
    (hOut : ∃ i ∈ is, ¬ (g.mapData i).mapDef.InnerInTable)
    (elf : Elf) :
    (loadMaps (none : Option (FixupMapCb Unit)) is g ()).run
        (allSucceed elf) () =
      (.halted (.crash .outOfRange), ()) := by
  induction is generalizing g with
  | nil =>
      rcases hOut with ⟨i, hMem, _⟩
      cases hMem
  | cons i is ih =>
      rw [List.forall_mem_cons] at hIs
      rw [loadMaps_cons none hIs.1, fixupMapFd,
        CallProg.pure_eq_ret, CallProg.ret_bind, if_neg]
      · by_cases hHere : (g.mapData i).mapDef.InnerInTable
        · -- the map is created, and the definitions are kept
          rw [CallProg.run_bind_of_returned
              (run_createMap_allSucceed hHere g.mapFd elf),
            if_neg (by decide)]
          apply ih hIs.2
          rcases hOut with ⟨j, hMem, hNot⟩
          refine ⟨j, ?_, ?_⟩
          · rcases List.mem_cons.mp hMem with rfl | hMem
            · exact absurd hHere hNot
            · exact hMem
          · rw [((g.giveNewFd_mapsGiven i 0).same j).2.2]
            exact hNot
        · unfold createMap
          simp only
          rw [BpfMapDef.InnerInTable, Classical.not_imp] at hHere
          rw [if_pos hHere.1, if_neg hHere.2]
          rfl
      · rintro ⟨hSome, _⟩
        cases hSome

section

variable {elf : Elf}
variable {symtab : ElfData × ℕ}

/- Then the object is not loaded by any such run. -/
theorem run_loadMapsOf_of_outside
    (hFilled : elf.MapsFilled symtab)
    (hInner : ¬ elf.InnerMapsFit symtab)
    (g : LoaderGlobals) :
    (loadMapsOf (none : Option (FixupMapCb Unit)) elf symtab
        elf.mapsShndx? g ()).run (allSucceed elf) () =
      (.halted (.crash .outOfRange), ()) := by
  simp only [Elf.InnerMapsFit, not_forall] at hInner
  rcases hInner with
    ⟨mapsShndx, hMaps, sec, hSec, sym, hMem, hOut⟩
  rw [Option.mem_def] at hMaps hSec
  have hFill := hFilled mapsShndx hMaps sec hSec
  rcases List.mem_iff_getElem?.mp (mem_sortedSyms.mpr hMem)
    with ⟨i, hGet⟩
  rcases List.getElem?_eq_some_iff.mp hGet with ⟨hLt, _⟩
  rw [length_sortedSyms] at hLt
  have hEntry :
      (sym, i) ∈
        (sortedSyms (symsIn symtab.1 mapsShndx)).zipIdx :=
    List.mem_zipIdx_iff_getElem?.mpr hGet
  rw [hMaps, loadMapsOf_of_filled
    (hFill.load_eq (data_of_getSec hSec) g.mapData),
    CallProg.run_bind,
    run_loadMaps_of_outside hFill.index_lt]
  refine ⟨i, List.mem_range.mpr hLt, ?_⟩
  simp only
  rw [mapDef_filledTable g.mapData hEntry]
  exact hOut

/- A table that is not filled, with no error for it. -/
theorem loadMapsOf_of_not_pass
    (hPass : ¬ elf.MapsPass symtab)
    (hRefused :
      ∀ mapsShndx ∈ elf.mapsShndx?,
        ∀ sec ∈ elf.getSec mapsShndx,
          ¬ MapsRefused elf mapsShndx symtab sec.data)
    (g : LoaderGlobals) :
    ∃ crash,
      loadMapsOf (some givenMaps) elf symtab elf.mapsShndx? g
          () =
        .halt (.crash crash) := by
  cases hMaps : elf.mapsShndx? with
  | none =>
      refine absurd ?_ hPass
      intro mapsShndx hMem
      rw [hMaps] at hMem
      cases hMem
  | some mapsShndx =>
      rcases exists_of_mapsShndx? hMaps with ⟨sec, hSec, _⟩
      have hOutcome :
          SectionOutcome elf mapsShndx symtab sec.data
            g.mapData :=
        sectionOutcome (data_of_getSec hSec) g.mapData
      cases hOutcome with
      | divides hNone hRun =>
          exact ⟨_, loadMapsOf_of_error hRun⟩
      | crashes crash hSome hFill hNot hCrash hRun =>
          exact ⟨_, loadMapsOf_of_error hRun⟩
      | refuses maps' hHere hRun =>
          exact absurd hHere
            (hRefused mapsShndx hMaps sec hSec)
      | fills hFill hRun =>
          have hFilled :=
            mapsFilled_of_fill hMaps hSec hFill
          have hOut : ¬ mapsShndx < NR_PROCESSED_SEC :=
            fun hLt => hPass (hFilled.pass hMaps hLt)
          rcases loadMaps_givenMaps hFill.index_lt
            { g with
              mapData :=
                filledTable elf mapsShndx symtab sec.data
                  g.mapData } with ⟨g', _, hLoad⟩
          refine ⟨.outOfRange, ?_⟩
          rw [loadMapsOf_of_filled hRun, hLoad,
            CallProg.ret_bind, if_neg (not_not_intro rfl),
            LoaderGlobals.setProcessed, if_neg hOut]
          rfl

end

/- The last two passes, after maps that were all given. -/
theorem runsThrough_loadElf_of_maps
    {elf : Elf}
    {symtab : ElfData × ℕ}
    {fixupMap : Option (FixupMapCb Unit)}
    {U : ℕ → Prop}
    {g g₁ g₂ : LoaderGlobals}
    {nrMaps : ℕ}
    (hReset : ∀ i, g.processedSec i = false)
    (hMarked :
      LoaderGlobals.MarkedAmong elf.IsMeta elf.secIndices g
        g₁)
    (hRun :
      scanSecs elf elf.secIndices ⟨g, none, none⟩ =
        .ok (0,
          { globals := g₁
            mapsShndx :=
              (elf.secIndices.findSomeRev?
                elf.mapsAt?).or none
            symtab :=
              (elf.secIndices.findSomeRev?
                elf.symtabAt?).or none }))
    (hSymtab : elf.symtab? = some symtab)
    (hAfter : AfterMaps elf symtab.1 g₁ nrMaps g₂)
    (hLoad :
      (loadMapsOf fixupMap elf symtab elf.mapsShndx? g₁
          ()).run (allSucceed elf) () =
        (.returned (0, nrMaps, g₂, ()), ()))
    (hNot :
      ¬ ((∀ i ∈ elf.secIndices,
            elf.RelocPasses elf.IsHandled symtab.1
              (elf.recordedAt symtab.1) i) ∧
          elf.StopsUnloaded U elf.secIndices g.progCnt)) :
    RunsThrough elf U
      (BySection.loadElf fixupMap elf g ()) := by
  rw [bySection_loadElf_of_scanned hRun, hSymtab]
  refine .bind ((run_forSec none _ _ ()).trans hLoad) ?_
  rw [if_neg (not_not_intro rfl)]
  cases relocOutcome_secIndices hReset hMarked hAfter with
  | divides hDivides hRun' =>
      rw [hRun']
      exact .crashes .divByZero rfl
  | crashes crash hAll hDivides hCrash hRun' =>
      rw [hRun']
      exact .crashes crash rfl
  | passes elf' g₃ hAll hSame hMarked' hRun' =>
      rw [hAfter.offsets_eq] at hAll
      have hMarks :=
        marksFit_of_relocated hReset hMarked hAfter hAll
          hMarked'
      have hCnt : g₃.progCnt = g.progCnt :=
        hMarked'.progCnt_eq.trans
          (hAfter.progCnt_eq.trans hMarked.progCnt_eq)
      have hThrough :
          RunsThrough elf U
            (BySection.loadSecs elf' elf.secIndices g₃) := by
        apply runsThrough_loadSecs _ hSame hMarks
        rw [hCnt]
        exact fun hStops => hNot ⟨hAll, hStops⟩
      rw [hRun', CallProg.ofExcept_ok, CallProg.ret_bind,
        hSame.secIndices_eq]
      exact hThrough.map ()

/- When all maps are given descriptors by a callback. -/
theorem runsThrough_loadElf_of_program
    {elf : Elf}
    {symtab : ElfData × ℕ}
    {U : ℕ → Prop}
    {g : LoaderGlobals}
    (hReset : ∀ i, g.processedSec i = false)
    (hScanned : ∀ i ∈ elf.secIndices, elf.ScanPasses i)
    (hSymtab : elf.symtab? = some symtab)
    (hPass : elf.MapsPass symtab)
    (hNot :
      ¬ ((∀ i ∈ elf.secIndices,
            elf.RelocPasses elf.IsHandled symtab.1
              (elf.recordedAt symtab.1) i) ∧
          elf.StopsUnloaded U elf.secIndices g.progCnt)) :
    RunsThrough elf U
      (BySection.loadElf (some givenMaps) elf g ()) := by
  rcases scanSecs_of_passes hScanned ⟨g, none, none⟩ with
    ⟨g₁, hMarked, hRun⟩
  rcases loadMapsOf_givenMaps hPass g₁ with
    ⟨nrMaps, g₂, hAfter, hLoad⟩
  apply runsThrough_loadElf_of_maps hReset hMarked hRun
    hSymtab hAfter _ hNot
  rw [hLoad]
  rfl

/- With no error that comes first, some run has none. -/
theorem runsThrough_loadElf
    {elf : Elf}
    {g : LoaderGlobals}
    (hReset : ∀ i, g.processedSec i = false)
    (hNot : ¬ elf.RefusedAnyway g.progCnt) :
    ∃ fixupMap : Option (FixupMapCb Unit),
      (∀ cb ∈ fixupMap, ∀ map i u,
        (cb map i u).HaltsAs IsExit) ∧
        RunsThrough elf elf.Unresolved
          (BySection.loadElf fixupMap elf g ()) := by
  have hGiven := givenMaps_haltsAs IsExit
  cases scanOutcome elf elf.secIndices ⟨g, none, none⟩ with
  | crashes crash hPasses hRefuses hCrash hRun =>
      refine ⟨some givenMaps, hGiven, .crashes crash ?_⟩
      rw [BySection.loadElf, hRun]
      rfl
  | refuses sc' hRefuses hPasses hRun =>
      exact absurd (.version hRefuses) hNot
  | passes g₁ hScanned hMarked hRun =>
      cases hSymtab : elf.symtab? with
      | none => exact absurd (.noSymbols hScanned hSymtab) hNot
      | some symtab =>
          by_cases hPass : elf.MapsPass symtab
          · by_cases hInner : elf.InnerMapsFit symtab
            · refine ⟨some givenMaps, hGiven, ?_⟩
              apply runsThrough_loadElf_of_program hReset
                hScanned hSymtab hPass
              rintro ⟨hRelocs, hStops⟩
              exact hNot (.program hScanned symtab hSymtab
                hPass hInner hRelocs hStops)
            · -- an inner map outside the table is looked up
              refine ⟨none, ?_, ?_⟩
              · intro cb hMem
                cases hMem
              · rw [bySection_loadElf_of_scanned hRun, hSymtab]
                exact .bind_of_crash
                  ((run_forSec none _ _ ()).trans
                    (run_loadMapsOf_of_outside hPass.filled
                      hInner g₁)) _
          · refine ⟨some givenMaps, hGiven, ?_⟩
            have hRefused :
                ∀ mapsShndx ∈ elf.mapsShndx?,
                  ∀ sec ∈ elf.getSec mapsShndx,
                    ¬ MapsRefused elf mapsShndx symtab
                      sec.data := by
              intro mapsShndx hMaps sec hSec hHere
              exact hNot (.newFeature hScanned symtab hSymtab
                mapsShndx hMaps sec hSec hHere)
            rcases loadMapsOf_of_not_pass hPass hRefused g₁
              with ⟨crash, hHalt⟩
            rw [bySection_loadElf_of_scanned hRun, hSymtab]
            simp only
            rw [hHalt]
            exact .crashes crash rfl

------------------------------------------------------------
-- Runs of the Loader
------------------------------------------------------------

/- A program that only exits or returns errors. -/
theorem endsInError_of_obeys
    {Op α σ : Type}
    {Resp : Op → Type}
    {P : Op → Prop}
    {p : CallProg Op Resp (ℤ × α)}
    (hObeys : p.Obeys P IsExit)
    (hLeaves : p.Leaves (·.1 ≠ 0))
    (handler : CallProg.Handler Op Resp σ)
    (s : σ) :
    EndsInError (p.run handler s).1 := by
  cases hEnd : (p.run handler s).1 with
  | returned r => exact hLeaves.of_run (Prod.ext hEnd rfl)
  | halted how => exact hObeys.run hEnd

/- Every run refuses an object with an error that is first. -/
theorem Elf.RefusedAnyway.unresolvedRefused
    {elf : Elf}
    {g : LoaderGlobals}
    (hRefused : elf.RefusedAnyway g.progCnt) :
    elf.UnresolvedRefused g := by
  intro p hUnresolved υ fixupMap hCallback path u σ handler s
    hOpen
  -- the number of programs is kept when marks are cleared
  have hReset : ∀ i, g.reset.processedSec i = false :=
    fun _ => rfl
  have hRefused' : elf.RefusedAnyway g.reset.progCnt :=
    hRefused
  have hLoad :=
    obeys_loadElf hCallback hReset hRefused' hUnresolved u
  have hRun :
      (doLoadBpfFile path fixupMap g u).run handler s =
        (BySection.loadElf fixupMap elf g.reset u).run
          (unseen handler)
          (handler (.elfOpen path) s).2 := by
    rw [run_doLoadBpfFile hOpen, ← untagged_loadElf,
      run_untagged]
  constructor
  · rw [hRun]
    exact endsInError_of_obeys hLoad.1 hLoad.2 _ _
  · intro call hMem
    rw [trace_bySection_doLoadBpfFile hOpen,
      List.mem_cons] at hMem
    rcases hMem with rfl | hMem
    · rintro ⟨hSec, _⟩
      cases hSec
    · exact hLoad.1.trace _ call hMem

/- Without one, a run that does not refuse is at hand. -/
theorem Elf.UnresolvedRefused.refusedAnyway
    {elf : Elf}
    {g : LoaderGlobals}
    {p : ℕ}
    (hRefused : elf.UnresolvedRefused g)
    (hUnresolved : elf.Unresolved p) :
    elf.RefusedAnyway g.progCnt := by
  by_contra hNot
  have hReset : ∀ i, g.reset.processedSec i = false :=
    fun _ => rfl
  rcases runsThrough_loadElf hReset hNot with
    ⟨fixupMap, hCallback, hThrough⟩
  have hOpen :
      (allSucceed elf (.elfOpen []) ()).1 = some elf := rfl
  have hRun :
      (doLoadBpfFile [] fixupMap g ()).run (allSucceed elf)
          () =
        (BySection.loadElf fixupMap elf g.reset ()).run
          (unseen (allSucceed elf)) () := by
    rw [run_doLoadBpfFile hOpen, ← untagged_loadElf,
      run_untagged]
  cases hThrough with
  | returns a hReturns =>
      have hEnds :=
        (hRefused p hUnresolved Unit fixupMap hCallback [] ()
          Unit (allSucceed elf) () hOpen).1
      rw [hRun, hReturns] at hEnds
      exact hEnds rfl
  | crashes kind hCrash =>
      have hEnds :=
        (hRefused p hUnresolved Unit fixupMap hCallback [] ()
          Unit (allSucceed elf) () hOpen).1
      rw [hRun, hCrash] at hEnds
      rcases hEnds with ⟨status, hStatus⟩
      cases hStatus
  | loads q hIn call hMem hLoads =>
      refine (hRefused q hIn Unit fixupMap hCallback [] ()
        Unit (allSucceed elf) () hOpen).2 call ?_ hLoads
      rw [trace_bySection_doLoadBpfFile hOpen]
      exact List.mem_cons_of_mem _ hMem

/-
  A program that loads the address of a map which is defined
  in no section, as there is none for maps.
-/
def unmappedElf : Elf where
  scns :=
    [⟨none, ⟨0, 0, 0, 0, 0, 0⟩, none, []⟩,
      plainScn ".symtab" SHT_SYMTAB 0 5 1 SYM_SIZE
        (symBytes 0 0 0 ++ symBytes 1 0 0),
      plainScn "xdp_prog" SHT_PROGBITS 6 0 0 0
        (leBytes INSN_SIZE 0x118 ++ leBytes INSN_SIZE 0 ++
          leBytes INSN_SIZE 0x95),
      plainScn ".relxdp_prog" SHT_REL 0 1 2 REL_SIZE
        (relBytes 0 1)]
  strptr := fun _ _ => some "blacklist".toList

theorem unmappedElf_unresolved : unmappedElf.Unresolved 2 := by
  have hMaps : unmappedElf.mapsShndx? = none := by
    decide +kernel
  have hOffsets :
      unmappedElf.recordedAt unmappedElf.symbols = [] := by
    rw [Elf.recordedAt, hMaps]
  refine ⟨3, by decide +kernel, _, _,
    ⟨rfl, rfl, rfl, by decide +kernel⟩, rfl, 0,
    by decide +kernel, ?_⟩
  rintro ⟨e, _, hApplies⟩
  have hRecorded := hApplies.recorded
  rw [hOffsets] at hRecorded
  cases hRecorded

end XdpDdos
