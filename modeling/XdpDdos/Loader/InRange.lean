import XdpDdos.Loader.ProgPositions

/-
  Objects that are rejected, or used in range.

  The loader checks none of the positions.  So an object that
  has one out of range is used out of range, unless the load
  ends first.

  Main declarations:
    * `Elf.RejectedOrInRange`
    * `Elf.Exceeds`, `Elf.FailsLater`
    * `keepsIn_loadElf`, `Elf.Exceeds.escapes`
    * `rejectedOrInRange_iff`
-/

------------------------------------------------------------
-- Rejection
------------------------------------------------------------

namespace XdpDdos

open CallProg (Continues KeepsIn Overruns)

/-
  Every run returns an error, or is ended by a callback that
  exits, or uses positions in range only.
-/
def Elf.RejectedOrInRange
    (elf : Elf)
    (g : LoaderGlobals) : Prop :=
  ∀ (υ : Type) (fixupMap : Option (FixupMapCb υ)),
    (∀ cb ∈ fixupMap, ∀ map i u,
      (cb map i u).HaltsAs IsExit) →
    ∀ (path : CStr) (u : υ) (σ : Type)
      (handler : CallProg.Handler LoadCall LoadCall.Resp σ)
      (s : σ),
      (handler (.elfOpen path) s).1 = some elf →
        EndsInError
            ((doLoadBpfFile path fixupMap g u).run
              handler s).1 ∨
          ∀ call ∈ (Noted.doLoadBpfFile path fixupMap g
              u).trace (CallProg.watched handler) s,
            call.1.Keeps Position.InRange

/-
  All passes before the last come to their end, and the last
  ends at a program that is not loaded or not attached.
-/
structure Elf.FailsLater
    (elf : Elf)
    (symtab : ElfData × ℕ)
    (n : ℕ) : Prop where
  pass : elf.MapsPass symtab
  inner : elf.InnerMapsFit symtab
  relocs :
    ∀ i ∈ elf.secIndices,
      elf.RelocPasses elf.IsHandled symtab.1
        (elf.recordedAt symtab.1) i
  stops :
    elf.StopsUnloaded (fun _ => False) elf.secIndices n

/-
  Objects with a position out of range that comes before any
  error, with `n` programs loaded by earlier calls: in the
  first pass; in a definition; the mark of the maps section;
  an inner map that is not earlier, if no error is sure to
  follow; in the relocation pass; or in the last one.
-/
inductive Elf.Exceeds
    (elf : Elf)
    (n : ℕ) : Prop where
  | scanned
      (hExceed :
        Reaches elf.ScanPasses elf.ScanExceeds
          elf.secIndices)
  | definition
      (hScanned : ∀ i ∈ elf.secIndices, elf.ScanPasses i)
      (symtab : ElfData × ℕ)
      (hSymtab : elf.symtab? = some symtab)
      (mapsShndx : ℕ)
      (hMaps : elf.mapsShndx? = some mapsShndx)
      (sec : Sec)
      (hSec : elf.getSec mapsShndx = some sec)
      (hOutside : MapsOutside elf mapsShndx symtab sec.data)
  | mapsMark
      (hScanned : ∀ i ∈ elf.secIndices, elf.ScanPasses i)
      (symtab : ElfData × ℕ)
      (hSymtab : elf.symtab? = some symtab)
      (hFilled : elf.MapsFilled symtab)
      (mapsShndx : ℕ)
      (hMaps : elf.mapsShndx? = some mapsShndx)
      (hOut : NR_PROCESSED_SEC ≤ mapsShndx)
  | innerMap
      (hScanned : ∀ i ∈ elf.secIndices, elf.ScanPasses i)
      (symtab : ElfData × ℕ)
      (hSymtab : elf.symtab? = some symtab)
      (hFilled : elf.MapsFilled symtab)
      (hInner : ¬ elf.InnerMapsEarlier symtab)
      (hFails : ¬ elf.FailsLater symtab n)
  | relocation
      (hScanned : ∀ i ∈ elf.secIndices, elf.ScanPasses i)
      (symtab : ElfData × ℕ)
      (hSymtab : elf.symtab? = some symtab)
      (hPass : elf.MapsPass symtab)
      (hExceed :
        Reaches
          (elf.RelocPasses elf.IsHandled symtab.1
            (elf.recordedAt symtab.1))
          (elf.RelocExceeds elf.IsHandled symtab.1
            (elf.recordedAt symtab.1))
          elf.secIndices)
  | program
      (hScanned : ∀ i ∈ elf.secIndices, elf.ScanPasses i)
      (symtab : ElfData × ℕ)
      (hSymtab : elf.symtab? = some symtab)
      (hPass : elf.MapsPass symtab)
      (hRelocs :
        ∀ i ∈ elf.secIndices,
          elf.RelocPasses elf.IsHandled symtab.1
            (elf.recordedAt symtab.1) i)
      (hExceed : elf.ProgsExceed elf.secIndices n)

------------------------------------------------------------
-- From Pass to Pass
------------------------------------------------------------

section

variable {υ : Type}
variable {elf : Elf}
variable {symtab : ElfData × ℕ}
variable {g g₁ g₂ : LoaderGlobals}
variable {nrMaps : ℕ}

/- The first pass, if it ends in range. -/
theorem continues_scanSecs
    {result : Except Crash (ℕ × Scan)}
    (hNot :
      ¬ Reaches elf.ScanPasses elf.ScanExceeds
        elf.secIndices)
    (hRun :
      scanSecs elf elf.secIndices ⟨g, none, none⟩ = result) :
    Continues Position.InRange
      (Noted.scanSecs elf elf.secIndices ⟨g, none, none⟩)
      (.ofExcept result) := by
  cases verdict_scanSecs elf elf.secIndices
      ⟨g, none, none⟩ with
  | overruns hBad hOver => exact absurd hBad hNot
  | keeps hBad hKeeps =>
      rw [← hRun]
      exact CallProg.continues_of_forget hKeeps
        (forget_scanSecs _ _ _)

/- The passes after one that comes past all sections. -/
theorem continues_loadElf
    (hScanned : ∀ i ∈ elf.secIndices, elf.ScanPasses i)
    (hSymtab : elf.symtab? = some symtab)
    (fixupMap : Option (FixupMapCb υ))
    (g : LoaderGlobals)
    (u : υ) :
    ∃ g₁,
      LoaderGlobals.MarkedAmong elf.IsMeta elf.secIndices g
        g₁ ∧
        Continues Position.InRange
          (Noted.loadElf fixupMap elf g u)
          (Noted.loadMapsOf fixupMap elf symtab
              elf.mapsShndx? g₁ u >>= fun r =>
            if r.1 ≠ 0 then .ret (1, r.2.2.1, r.2.2.2)
            else
              Noted.relocateSecs symtab.1 r.2.1
                  elf.secIndices elf r.2.2.1 >>= fun r' =>
                Noted.loadSecs r'.1 r'.1.secIndices
                    r'.2 >>= fun r'' =>
                  .ret (r''.1, r''.2, r.2.2.2)) := by
  rcases scanSecs_of_passes hScanned ⟨g, none, none⟩ with
    ⟨g₁, hMarked, hRun⟩
  rw [Option.or_none, Option.or_none] at hRun
  have hNot :
      ¬ Reaches elf.ScanPasses elf.ScanExceeds
        elf.secIndices := by
    intro hExceed
    exact hExceed.not_forall (fun _ hHere => hHere.not_passes)
      hScanned
  refine ⟨g₁, hMarked, ?_⟩
  refine ((continues_scanSecs hNot hRun).bind _).trans ?_
  rw [CallProg.ofExcept_ok, CallProg.ret_bind]
  simp only
  rw [if_neg (not_not_intro rfl)]
  have hSame :
      elf.secIndices.findSomeRev? elf.symtabAt? =
        some symtab := hSymtab
  rw [hSame]
  exact .refl _

/- The relocation pass, in terms of the file. -/
theorem verdict_secIndices
    (hReset : ∀ i, g.processedSec i = false)
    (hMarked :
      LoaderGlobals.MarkedAmong elf.IsMeta elf.secIndices g
        g₁)
    (hAfter : AfterMaps elf symtab.1 g₁ nrMaps g₂) :
    Verdict Position.InRange
      (Reaches
        (elf.RelocPasses elf.IsHandled symtab.1
          (elf.recordedAt symtab.1))
        (elf.RelocExceeds elf.IsHandled symtab.1
          (elf.recordedAt symtab.1))
        elf.secIndices)
      (Noted.relocateSecs symtab.1 nrMaps elf.secIndices elf
        g₂) := by
  rw [← hAfter.offsets_eq]
  exact verdict_relocateSecs (.refl elf)
    (nodup_secIndices elf)
    fun _ hMem => isHandled_iff hReset hMarked hAfter hMem

/- Relocations that come to an end lead to the programs. -/
theorem continues_relocateSecs
    (hReset : ∀ i, g.processedSec i = false)
    (hMarked :
      LoaderGlobals.MarkedAmong elf.IsMeta elf.secIndices g
        g₁)
    (hAfter : AfterMaps elf symtab.1 g₁ nrMaps g₂)
    (hRelocs :
      ∀ i ∈ elf.secIndices,
        elf.RelocPasses elf.IsHandled symtab.1
          (elf.recordedAt symtab.1) i) :
    ∃ elf' g₃,
      elf.SameButOperands elf' ∧
        elf.MarksFit g₃ elf.secIndices ∧
          g₃.progCnt = g.progCnt ∧
            Continues Position.InRange
              (Noted.relocateSecs symtab.1 nrMaps
                elf.secIndices elf g₂)
              (.ret (elf', g₃)) := by
  have hRelocs' := hRelocs
  rw [← hAfter.offsets_eq] at hRelocs'
  cases relocOutcome_secIndices hReset hMarked hAfter with
  | divides hDivides hRun =>
      exact absurd hRelocs' (hDivides.not_forall
        fun _ hHere hPasses => hPasses.not_divides hHere)
  | crashes crash hNot hDivides hCrash hRun =>
      exact absurd hRelocs' hNot
  | passes elf' g₃ hAll hSame hMarked' hRun =>
      have hMarks :=
        marksFit_of_relocated hReset hMarked hAfter hRelocs
          hMarked'
      have hCnt : g₃.progCnt = g.progCnt :=
        hMarked'.progCnt_eq.trans
          (hAfter.progCnt_eq.trans hMarked.progCnt_eq)
      have hForget :
          CallProg.forget (Noted.relocateSecs symtab.1 nrMaps
              elf.secIndices elf g₂) =
            .ofExcept (.ok (elf', g₃)) := by
        rw [forget_relocateSecs, hRun]
      refine ⟨elf', g₃, hSame, hMarks, hCnt, ?_⟩
      cases verdict_secIndices hReset hMarked hAfter with
      | overruns hBad hOver =>
          exact absurd hOver
            (CallProg.not_alwaysOverruns_of_forget hForget
              (allSucceed elf) ())
      | keeps hBad hKeeps =>
          exact CallProg.continues_of_forget hKeeps hForget

/- The last two passes stay in range if nothing exceeds. -/
theorem keepsIn_afterMaps
    (hReset : ∀ i, g.processedSec i = false)
    (hScanned : ∀ i ∈ elf.secIndices, elf.ScanPasses i)
    (hSymtab : elf.symtab? = some symtab)
    (hMarked :
      LoaderGlobals.MarkedAmong elf.IsMeta elf.secIndices g
        g₁)
    (hPass : elf.MapsPass symtab)
    (hAfter : AfterMaps elf symtab.1 g₁ nrMaps g₂)
    (hNot : ¬ elf.Exceeds g.progCnt) :
    KeepsIn Position.InRange
      (Noted.relocateSecs symtab.1 nrMaps elf.secIndices elf
          g₂ >>= fun r =>
        Noted.loadSecs r.1 r.1.secIndices r.2) := by
  cases verdict_secIndices hReset hMarked hAfter with
  | overruns hBad hOver =>
      exact absurd
        (.relocation hScanned symtab hSymtab hPass hBad) hNot
  | keeps hBad hKeeps =>
      by_cases hRelocs :
          ∀ i ∈ elf.secIndices,
            elf.RelocPasses elf.IsHandled symtab.1
              (elf.recordedAt symtab.1) i
      · rcases continues_relocateSecs hReset hMarked hAfter
          hRelocs with ⟨elf', g₃, hSame, hMarks, hCnt, hRun⟩
        apply (hRun.bind _).keepsIn
        rw [CallProg.ret_bind, hSame.secIndices_eq]
        apply keepsIn_loadSecs _ hSame hMarks
        rw [hCnt]
        intro hExceed
        exact hNot (.program hScanned symtab hSymtab hPass
          hRelocs hExceed)
      · have hRelocate :=
          CallProg.continues_of_forget hKeeps
            (forget_relocateSecs _ _ _ _ _)
        cases relocOutcome_secIndices hReset hMarked
            hAfter with
        | passes elf' g₃ hAll hSame hMarked' hRun =>
            rw [hAfter.offsets_eq] at hAll
            exact absurd hAll hRelocs
        | divides hDivides hRun =>
            rw [hRun] at hRelocate
            exact (hRelocate.bind _).keepsIn trivial
        | crashes crash hAll hDivides hCrash hRun =>
            rw [hRun] at hRelocate
            exact (hRelocate.bind _).keepsIn trivial

/- The maps are loaded in range, or an error follows. -/
theorem keepsIn_maps
    (hScanned : ∀ i ∈ elf.secIndices, elf.ScanPasses i)
    (hSymtab : elf.symtab? = some symtab)
    {n : ℕ}
    (hNot : ¬ elf.Exceeds n)
    (hFails : ¬ elf.FailsLater symtab n)
    (fixupMap : Option (FixupMapCb υ))
    (g : LoaderGlobals)
    (u : υ) :
    KeepsIn Position.InRange
      (Noted.loadMapsOf fixupMap elf symtab elf.mapsShndx? g
        u) := by
  apply keepsIn_loadMapsOf
  · intro mapsShndx hMaps sec hSec hOutside
    exact hNot (.definition hScanned symtab hSymtab mapsShndx
      hMaps sec hSec hOutside)
  · intro mapsShndx hMaps sec hSec hFill
    have hFilled := mapsFilled_of_fill hMaps hSec hFill
    have hInner : elf.InnerMapsEarlier symtab := by
      by_contra hLater
      exact hNot (.innerMap hScanned symtab hSymtab hFilled
        hLater hFails)
    constructor
    · by_contra hOut
      exact hNot (.mapsMark hScanned symtab hSymtab hFilled
        mapsShndx hMaps (Nat.le_of_not_lt hOut))
    · apply keepsIn_loadMaps
      exact (innerEarlier_filledTable hMaps hSec).mp hInner

/- Then the object is gone through in range. -/
theorem keepsIn_loadElf
    (hReset : ∀ i, g.processedSec i = false)
    (hNot : ¬ elf.Exceeds g.progCnt)
    (hFails :
      ∀ symtab ∈ elf.symtab?,
        (∀ i ∈ elf.secIndices, elf.ScanPasses i) →
          ¬ elf.FailsLater symtab g.progCnt)
    (fixupMap : Option (FixupMapCb υ))
    (u : υ) :
    KeepsIn Position.InRange
      (Noted.loadElf fixupMap elf g u) := by
  have hNotScanned :
      ¬ Reaches elf.ScanPasses elf.ScanExceeds
        elf.secIndices :=
    fun hExceed => hNot (.scanned hExceed)
  cases scanOutcome elf elf.secIndices ⟨g, none, none⟩ with
  | crashes crash hPasses hRefuses hCrash hRun =>
      exact ((continues_scanSecs hNotScanned
        hRun).bind _).keepsIn trivial
  | refuses sc' hRefuses hPasses hRun =>
      exact ((continues_scanSecs hNotScanned
        hRun).bind _).keepsIn trivial
  | passes g' hScanned hMarked' hRun =>
      cases hSymtab : elf.symtab? with
      | none =>
          rw [Option.or_none, Option.or_none] at hRun
          apply ((continues_scanSecs hNotScanned
            hRun).bind _).keepsIn
          rw [CallProg.ofExcept_ok, CallProg.ret_bind]
          simp only
          have hNone :
              elf.secIndices.findSomeRev? elf.symtabAt? =
                none := hSymtab
          rw [if_neg (not_not_intro rfl), hNone]
          trivial
      | some symtab =>
          rcases continues_loadElf hScanned hSymtab fixupMap
            g u with ⟨g₁, hMarked, hLoad⟩
          have hLeaves :
              (Noted.loadMapsOf fixupMap elf symtab
                elf.mapsShndx? g₁ u).Leaves
                (fun r =>
                  r.1 = 0 →
                    elf.MapsPass symtab ∧
                      AfterMaps elf symtab.1 g₁ r.2.1
                        r.2.2.1) := by
            apply CallProg.leaves_of_forget
            rw [forget_loadMapsOf]
            exact loadMapsOf_leaves fixupMap g₁ u
          apply hLoad.keepsIn
          refine CallProg.Obeys.bind_leaves
            (keepsIn_maps hScanned hSymtab hNot
              (hFails symtab hSymtab hScanned) fixupMap g₁ u)
            hLeaves ?_
          rintro ⟨ret, nrMaps, g₂, u'⟩ hSuccess
          by_cases hRet : ret = 0
          · rcases hSuccess hRet with ⟨hPass, hAfter⟩
            have hRest :=
              keepsIn_afterMaps hReset hScanned hSymtab
                hMarked hPass hAfter hNot
            rw [if_neg (not_not_intro hRet),
              ← CallProg.bind_assoc]
            exact hRest.bind fun _ => trivial
          · rw [if_pos hRet]
            trivial

end

------------------------------------------------------------
-- Runs Out of Range
------------------------------------------------------------

/-
  When all calls succeed: a position out of range is used,
  and there is no error.
-/
structure Escapes
    {α : Type}
    (elf : Elf)
    (prog : NotedProg (ℤ × α)) : Prop where
  accepted :
    ¬ EndsInError
      (prog.run (CallProg.watched (allSucceed elf)) ()).1
  bad :
    ∃ call ∈ prog.trace
        (CallProg.watched (allSucceed elf)) (),
      ¬ call.1.Keeps Position.InRange

/- A crash is not an error that is returned. -/
theorem escapes_of_overruns
    {α : Type}
    {elf : Elf}
    {prog : NotedProg (ℤ × α)}
    (hOver :
      Overruns Position.InRange
        (CallProg.watched (allSucceed elf)) prog ()) :
    Escapes elf prog := by
  refine ⟨?_, hOver.bad⟩
  rcases hOver.crash with ⟨kind, hCrash⟩
  rw [hCrash]
  rintro ⟨status, hExit⟩
  cases hExit

/- If no section is in `U`, nothing is an error. -/
theorem RunsThrough.not_endsInError
    {α : Type}
    {elf : Elf}
    {prog : SecProg (ℤ × α)}
    (hThrough : RunsThrough elf (fun _ => False) prog) :
    ¬ EndsInError
      (prog.run (unseen (allSucceed elf)) ()).1 := by
  cases hThrough with
  | returns a hRun =>
      rw [hRun]
      exact not_not_intro rfl
  | crashes kind hRun =>
      rw [hRun]
      rintro ⟨status, hExit⟩
      cases hExit
  | loads p hIn call hMem hLoads => exact hIn.elim

section

variable {elf : Elf}
variable {symtab : ElfData × ℕ}
variable {g : LoaderGlobals}

/- Inner maps in the table are used to create the others. -/
theorem run_loadMaps_of_inside
    {is : List ℕ}
    (hIs : ∀ i ∈ is, i < MAX_MAPS)
    (hInner :
      ∀ i ∈ is, (g.mapData i).mapDef.InnerInTable)
    (elf : Elf) :
    ∃ g',
      (loadMaps (none : Option (FixupMapCb Unit)) is g
          ()).run (allSucceed elf) () =
        (.returned (0, g', ()), ()) := by
  induction is generalizing g with
  | nil => exact ⟨g, rfl⟩
  | cons i is ih =>
      rw [List.forall_mem_cons] at hIs hInner
      have hRest :
          ∀ j ∈ is,
            ((g.giveNewFd i 0).mapData
              j).mapDef.InnerInTable := by
        intro j hMem
        rw [((g.giveNewFd_mapsGiven i 0).same j).2.2]
        exact hInner.2 j hMem
      rcases ih hIs.2 hRest with ⟨g', hRun⟩
      refine ⟨g', ?_⟩
      rw [loadMaps_cons none hIs.1, fixupMapFd,
        CallProg.pure_eq_ret, CallProg.ret_bind, if_neg,
        CallProg.run_bind_of_returned
          (run_createMap_allSucceed hInner.1 g.mapFd elf),
        if_neg (by decide)]
      · exact hRun
      · rintro ⟨hSome, _⟩
        cases hSome

theorem run_loadMapsOf_of_inside
    (hPass : elf.MapsPass symtab)
    (hInner : elf.InnerMapsFit symtab)
    (g : LoaderGlobals) :
    ∃ nrMaps g',
      AfterMaps elf symtab.1 g nrMaps g' ∧
        (loadMapsOf (none : Option (FixupMapCb Unit)) elf
            symtab elf.mapsShndx? g ()).run
            (allSucceed elf) () =
          (.returned (0, nrMaps, g', ()), ()) := by
  have hLeaves :
      (loadMapsOf (none : Option (FixupMapCb Unit)) elf
        symtab elf.mapsShndx? g ()).Leaves _ :=
    loadMapsOf_leaves none g ()
  cases hMaps : elf.mapsShndx? with
  | none => exact ⟨0, g, afterMaps_none hMaps, rfl⟩
  | some mapsShndx =>
      rcases exists_of_mapsShndx? hMaps with ⟨sec, hSec, _⟩
      rcases hPass mapsShndx hMaps with ⟨hLt, hFills⟩
      have hFill := hFills sec hSec
      have hInTable :
          ∀ i ∈ List.range
              (symsIn symtab.1 mapsShndx).length,
            (filledTable elf mapsShndx symtab sec.data
              g.mapData i).mapDef.InnerInTable := by
        intro i hMem
        exact innerInTable_filledTable hMaps hSec hInner _
          (List.mem_range.mp hMem)
      rcases run_loadMaps_of_inside
        (g := { g with
          mapData :=
            filledTable elf mapsShndx symtab sec.data
              g.mapData })
        hFill.index_lt hInTable elf with ⟨g', hLoad⟩
      have hRun :
          (loadMapsOf (none : Option (FixupMapCb Unit)) elf
              symtab (some mapsShndx) g ()).run
              (allSucceed elf) () =
            (.returned
              (0, (symsIn symtab.1 mapsShndx).length,
                { g' with
                  mapDataCount :=
                    (symsIn symtab.1 mapsShndx).length
                  processedSec :=
                    Function.update g'.processedSec mapsShndx
                      true }, ()), ()) := by
        rw [loadMapsOf_of_filled
            (hFill.load_eq (data_of_getSec hSec) g.mapData),
          CallProg.run_bind_of_returned hLoad,
          if_neg (not_not_intro rfl),
          LoaderGlobals.setProcessed, if_pos hLt]
        rfl
      rw [hMaps] at hLeaves
      exact ⟨_, _, (hLeaves.of_run hRun rfl).2, hRun⟩

/- Without a callback no error comes, if none is sure to. -/
theorem runsThrough_loadElf_none
    (hReset : ∀ i, g.processedSec i = false)
    (hScanned : ∀ i ∈ elf.secIndices, elf.ScanPasses i)
    (hSymtab : elf.symtab? = some symtab)
    (hPass : elf.MapsPass symtab)
    (hFails : ¬ elf.FailsLater symtab g.progCnt) :
    RunsThrough elf (fun _ => False)
      (BySection.loadElf
        (none : Option (FixupMapCb Unit)) elf g ()) := by
  rcases scanSecs_of_passes hScanned ⟨g, none, none⟩ with
    ⟨g₁, hMarked, hRun⟩
  by_cases hInner : elf.InnerMapsFit symtab
  · rcases run_loadMapsOf_of_inside hPass hInner g₁ with
      ⟨nrMaps, g₂, hAfter, hLoad⟩
    apply runsThrough_loadElf_of_maps hReset hMarked hRun
      hSymtab hAfter hLoad
    rintro ⟨hRelocs, hStops⟩
    exact hFails ⟨hPass, hInner, hRelocs, hStops⟩
  · rw [bySection_loadElf_of_scanned hRun, hSymtab]
    exact .bind_of_crash
      ((run_forSec none _ _ ()).trans
        (run_loadMapsOf_of_outside hPass.filled hInner g₁)) _

/- The notes do not change how the object is gone through. -/
theorem run_noted_loadElf
    {υ σ : Type}
    (fixupMap : Option (FixupMapCb υ))
    (elf : Elf)
    (g : LoaderGlobals)
    (u : υ)
    (handler : CallProg.Handler LoadCall LoadCall.Resp σ)
    (s : σ) :
    (Noted.loadElf fixupMap elf g u).run
        (CallProg.watched handler) s =
      (BySection.loadElf fixupMap elf g u).run
        (unseen handler) s := by
  rw [← CallProg.run_forget, forget_loadElf,
    ← untagged_loadElf, run_untagged]

/- Maps that are all given, and what follows on them. -/
theorem continues_loadElf_givenMaps
    (hScanned : ∀ i ∈ elf.secIndices, elf.ScanPasses i)
    (hSymtab : elf.symtab? = some symtab)
    (hPass : elf.MapsPass symtab)
    (g : LoaderGlobals) :
    ∃ g₁ nrMaps g₂,
      LoaderGlobals.MarkedAmong elf.IsMeta elf.secIndices g
          g₁ ∧
        AfterMaps elf symtab.1 g₁ nrMaps g₂ ∧
          Continues Position.InRange
            (Noted.loadElf (some givenMaps) elf g ())
            (Noted.relocateSecs symtab.1 nrMaps elf.secIndices
                elf g₂ >>= fun r =>
              Noted.loadSecs r.1 r.1.secIndices r.2 >>=
                fun r' => .ret (r'.1, r'.2, ())) := by
  rcases continues_loadElf hScanned hSymtab (some givenMaps)
    g () with ⟨g₁, hMarked, hLoad⟩
  rcases continues_loadMapsOf_givenMaps hPass g₁ with
    ⟨nrMaps, g₂, hAfter, hMaps⟩
  refine ⟨g₁, nrMaps, g₂, hMarked, hAfter,
    hLoad.trans ((hMaps.bind _).trans ?_)⟩
  rw [CallProg.ret_bind, if_neg (not_not_intro rfl)]
  exact .refl _

/- A maps section without a mark. -/
theorem escapes_of_mapsMark
    {mapsShndx : ℕ}
    (hScanned : ∀ i ∈ elf.secIndices, elf.ScanPasses i)
    (hSymtab : elf.symtab? = some symtab)
    (hFilled : elf.MapsFilled symtab)
    (hMaps : elf.mapsShndx? = some mapsShndx)
    (hOut : NR_PROCESSED_SEC ≤ mapsShndx)
    (g : LoaderGlobals) :
    Escapes elf
      (Noted.loadElf (some givenMaps) elf g ()) := by
  rcases exists_of_mapsShndx? hMaps with ⟨sec, hSec, _⟩
  rcases continues_loadElf hScanned hSymtab (some givenMaps)
    g () with ⟨g₁, _, hLoad⟩
  rw [hMaps] at hLoad
  have hOver :=
    overruns_loadMapsOf_of_index hSec
      (hFilled mapsShndx hMaps sec hSec)
      (Nat.not_lt.mpr hOut) g₁
  exact escapes_of_overruns
    (hLoad.overruns ((hOver.bind _) Unit _ ()))

/- An inner map that is not earlier, if it is looked up. -/
theorem escapes_of_innerMap
    {mapsShndx : ℕ}
    (hReset : ∀ i, g.processedSec i = false)
    (hScanned : ∀ i ∈ elf.secIndices, elf.ScanPasses i)
    (hSymtab : elf.symtab? = some symtab)
    (hPass : elf.MapsPass symtab)
    (hMaps : elf.mapsShndx? = some mapsShndx)
    (hInner : ¬ elf.InnerMapsEarlier symtab)
    (hFails : ¬ elf.FailsLater symtab g.progCnt) :
    Escapes elf
      (Noted.loadElf
        (none : Option (FixupMapCb Unit)) elf g ()) := by
  rcases exists_of_mapsShndx? hMaps with ⟨sec, hSec, _⟩
  rcases continues_loadElf hScanned hSymtab
    (none : Option (FixupMapCb Unit)) g () with
    ⟨g₁, _, hLoad⟩
  rw [hMaps] at hLoad
  constructor
  · rw [run_noted_loadElf]
    exact (runsThrough_loadElf_none hReset hScanned hSymtab
      hPass hFails).not_endsInError
  · rcases trace_loadMapsOf_none hMaps hSec
      (hPass.filled mapsShndx hMaps sec hSec) hInner g₁ with
      ⟨call, hMem, hBad⟩
    exact ⟨call,
      hLoad.mem_trace (CallProg.mem_trace_bind_left hMem _),
      hBad⟩

/- An object that exceeds escapes in some run. -/
theorem Elf.Exceeds.escapes
    (hReset : ∀ i, g.processedSec i = false)
    (hExceeds : elf.Exceeds g.progCnt) :
    ∃ fixupMap : Option (FixupMapCb Unit),
      (∀ cb ∈ fixupMap, ∀ map i u,
        (cb map i u).HaltsAs IsExit) ∧
        Escapes elf (Noted.loadElf fixupMap elf g ()) := by
  have hGiven := givenMaps_haltsAs IsExit
  cases hExceeds with
  | scanned hExceed =>
      refine ⟨some givenMaps, hGiven, escapes_of_overruns ?_⟩
      cases verdict_scanSecs elf elf.secIndices
          ⟨g, none, none⟩ with
      | overruns hBad hOver => exact (hOver.bind _) Unit _ ()
      | keeps hBad hKeeps => exact absurd hExceed hBad
  | definition hScanned symtab hSymtab mapsShndx hMaps sec
      hSec hOutside =>
      refine ⟨some givenMaps, hGiven, escapes_of_overruns ?_⟩
      rcases continues_loadElf hScanned hSymtab
        (some givenMaps) g () with ⟨g₁, _, hLoad⟩
      rw [hMaps] at hLoad
      exact hLoad.overruns
        (((overruns_loadMapsOf hSec hOutside).bind _)
          Unit _ ())
  | mapsMark hScanned symtab hSymtab hFilled mapsShndx hMaps
      hOut =>
      exact ⟨some givenMaps, hGiven,
        escapes_of_mapsMark hScanned hSymtab hFilled hMaps
          hOut g⟩
  | innerMap hScanned symtab hSymtab hFilled hInner
      hFails =>
      cases hMaps : elf.mapsShndx? with
      | none =>
          refine absurd ?_ hInner
          intro m hMem
          rw [hMaps] at hMem
          cases hMem
      | some mapsShndx =>
          by_cases hLt : mapsShndx < NR_PROCESSED_SEC
          · refine ⟨none, ?_,
              escapes_of_innerMap hReset hScanned hSymtab
                (hFilled.pass hMaps hLt) hMaps hInner
                hFails⟩
            intro cb hMem
            cases hMem
          · exact ⟨some givenMaps, hGiven,
              escapes_of_mapsMark hScanned hSymtab hFilled
                hMaps (Nat.le_of_not_lt hLt) g⟩
  | relocation hScanned symtab hSymtab hPass hExceed =>
      refine ⟨some givenMaps, hGiven, escapes_of_overruns ?_⟩
      rcases continues_loadElf_givenMaps hScanned hSymtab
        hPass g with ⟨g₁, nrMaps, g₂, hMarked, hAfter, hLoad⟩
      apply hLoad.overruns
      cases verdict_secIndices hReset hMarked hAfter with
      | overruns hBad hOver => exact (hOver.bind _) Unit _ ()
      | keeps hBad hKeeps => exact absurd hExceed hBad
  | program hScanned symtab hSymtab hPass hRelocs hExceed =>
      refine ⟨some givenMaps, hGiven, escapes_of_overruns ?_⟩
      rcases continues_loadElf_givenMaps hScanned hSymtab
        hPass g with ⟨g₁, nrMaps, g₂, hMarked, hAfter, hLoad⟩
      rcases continues_relocateSecs hReset hMarked hAfter
        hRelocs with ⟨elf', g₃, hSame, hMarks, hCnt, hRun⟩
      apply (hLoad.trans (hRun.bind _)).overruns
      rw [CallProg.ret_bind, hSame.secIndices_eq]
      exact (overruns_loadSecs hExceed hSame hMarks
        hCnt).bind _

end

------------------------------------------------------------
-- Runs of the Loader
------------------------------------------------------------

/- The object is opened first, and then gone through. -/
theorem trace_noted_doLoadBpfFile
    {υ σ : Type}
    {path : CStr}
    {handler : CallProg.Handler LoadCall LoadCall.Resp σ}
    {s : σ}
    {elf : Elf}
    (hOpen : (handler (.elfOpen path) s).1 = some elf)
    (fixupMap : Option (FixupMapCb υ))
    (g : LoaderGlobals)
    (u : υ) :
    (Noted.doLoadBpfFile path fixupMap g u).trace
        (CallProg.watched handler) s =
      ⟨.call (.elfOpen path),
          (handler (.elfOpen path) s).1⟩ ::
        (Noted.loadElf fixupMap elf g.reset u).trace
          (CallProg.watched handler)
          (handler (.elfOpen path) s).2 := by
  let next : Option Elf → NotedProg (ℤ × LoaderGlobals × υ)
    | none => .ret (1, g.reset, u)
    | some elf => Noted.loadElf fixupMap elf g.reset u
  have hNext :
      next (handler (.elfOpen path) s).1 =
        Noted.loadElf fixupMap elf g.reset u :=
    congrArg next hOpen
  have hCall :
      Noted.doLoadBpfFile path fixupMap g u =
        .call (.call (.elfOpen path)) next := by
    refine congrArg (CallProg.call _) (funext fun opened => ?_)
    cases opened with
    | none => rfl
    | some elf => rfl
  rw [hCall, CallProg.trace, ← hNext]
  rfl

/- An error that is sure to follow ends every run. -/
theorem Elf.FailsLater.endsInError
    {υ σ : Type}
    {elf : Elf}
    {symtab : ElfData × ℕ}
    {g : LoaderGlobals}
    {fixupMap : Option (FixupMapCb υ)}
    (hFails : elf.FailsLater symtab g.progCnt)
    (hCallback :
      ∀ cb ∈ fixupMap, ∀ map i u,
        (cb map i u).HaltsAs IsExit)
    (hReset : ∀ i, g.processedSec i = false)
    (hScanned : ∀ i ∈ elf.secIndices, elf.ScanPasses i)
    (hSymtab : elf.symtab? = some symtab)
    (u : υ)
    (handler : CallProg.Handler LoadCall LoadCall.Resp σ)
    (s : σ) :
    EndsInError ((loadElf fixupMap elf g u).run handler s).1 := by
  -- no section has index 0
  have hFewer :
      ∀ i ∈ elf.secIndices, i = 0 → False := by
    intro i hMem hZero
    rw [Elf.secIndices, List.mem_range'_1] at hMem
    omega
  have hStops :
      elf.StopsUnloaded (· = 0) elf.secIndices g.progCnt :=
    hFails.stops.mono hFewer
  have hLoad :=
    obeys_loadElf_of_program hCallback hReset hScanned
      hSymtab hFails.pass hFails.inner hFails.relocs hStops
      rfl u
  rw [← untagged_loadElf, run_untagged]
  exact endsInError_of_obeys hLoad.1 hLoad.2 _ _

section

variable {elf : Elf}
variable {g : LoaderGlobals}

/- If nothing exceeds, all runs are rejected or in range. -/
theorem rejectedOrInRange_of_not_exceeds
    (hNot : ¬ elf.Exceeds g.progCnt) :
    elf.RejectedOrInRange g := by
  intro υ fixupMap hCallback path u σ handler s hOpen
  -- the number of programs is kept when marks are cleared
  have hReset : ∀ i, g.reset.processedSec i = false :=
    fun _ => rfl
  by_cases hFails :
      ∃ symtab ∈ elf.symtab?,
        (∀ i ∈ elf.secIndices, elf.ScanPasses i) ∧
          elf.FailsLater symtab g.reset.progCnt
  · rcases hFails with ⟨symtab, hSymtab, hScanned, hLater⟩
    left
    rw [run_doLoadBpfFile hOpen]
    exact hLater.endsInError hCallback hReset hScanned hSymtab
      u handler _
  · right
    have hKeeps :
        KeepsIn Position.InRange
          (Noted.loadElf fixupMap elf g.reset u) := by
      apply keepsIn_loadElf hReset hNot
      intro symtab hSymtab hScanned hLater
      exact hFails ⟨symtab, hSymtab, hScanned, hLater⟩
    intro call hMem
    rw [trace_noted_doLoadBpfFile hOpen, List.mem_cons]
      at hMem
    rcases hMem with rfl | hMem
    · trivial
    · exact hKeeps.trace _ call hMem

/- If something does, there is a run that is neither. -/
theorem Elf.Exceeds.not_rejectedOrInRange
    (hExceeds : elf.Exceeds g.progCnt) :
    ¬ elf.RejectedOrInRange g := by
  intro hAll
  have hReset : ∀ i, g.reset.processedSec i = false :=
    fun _ => rfl
  have hExceeds' : elf.Exceeds g.reset.progCnt := hExceeds
  rcases hExceeds'.escapes hReset with
    ⟨fixupMap, hCallback, hAccepted, call, hMem, hBad⟩
  have hOpen :
      (allSucceed elf (.elfOpen []) ()).1 = some elf := rfl
  rcases hAll Unit fixupMap hCallback [] () Unit
    (allSucceed elf) () hOpen with hEnds | hKeeps
  · apply hAccepted
    rw [run_doLoadBpfFile hOpen, ← forget_loadElf,
      CallProg.run_forget] at hEnds
    exact hEnds
  · apply hBad
    apply hKeeps
    rw [trace_noted_doLoadBpfFile hOpen]
    exact List.mem_cons_of_mem _ hMem

end

/- An object with a license of 129 bytes. -/
def longLicenseElf : Elf where
  scns :=
    [⟨none, ⟨0, 0, 0, 0, 0, 0⟩, none, []⟩,
      plainScn "license" SHT_PROGBITS 0 0 0 0
        (List.replicate (LICENSE_SIZE + 1) 0x47)]
  strptr := fun _ _ => none

end XdpDdos
