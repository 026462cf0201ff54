import XdpDdos.Loader.MapsSection

/-
  The maps of an arbitrary object, from its maps section to
  the table that the relocation pass is given.

  Main declarations:
    * `Elf.recordedAt`, `Elf.IsHandled`, `Elf.MapsPass`
    * `AfterMaps`, `loadMapsOf_leaves`
    * `haltsAs_loadMapsOf`
    * `givenMaps`, `loadMapsOf_givenMaps`
-/

------------------------------------------------------------
-- What the Relocation Pass Is Given
------------------------------------------------------------

namespace XdpDdos

namespace Elf

variable (elf : Elf)

/- The offsets of the map symbols, in ascending order. -/
def recordedAt (symbols : ElfData) : List ℕ :=
  match elf.mapsShndx? with
  | none => []
  | some mapsShndx =>
      (sortedSyms (symsIn symbols mapsShndx)).map
        GElfSym.stValue

/- Processed before the relocation pass: not looked at. -/
def IsHandled (i : ℕ) : Prop :=
  elf.IsMeta i ∨ elf.mapsShndx? = some i

/- The maps section, if there is one, fills the table. -/
def MapsPass (symtab : ElfData × ℕ) : Prop :=
  ∀ mapsShndx ∈ elf.mapsShndx?,
    mapsShndx < NR_PROCESSED_SEC ∧
      ∀ sec ∈ elf.getSec mapsShndx,
        MapsFill elf mapsShndx symtab sec.data

/- Wherever that section is. -/
def MapsFilled (symtab : ElfData × ℕ) : Prop :=
  ∀ mapsShndx ∈ elf.mapsShndx?,
    ∀ sec ∈ elf.getSec mapsShndx,
      MapsFill elf mapsShndx symtab sec.data

end Elf

theorem Elf.MapsPass.filled
    {elf : Elf}
    {symtab : ElfData × ℕ}
    (hPass : elf.MapsPass symtab) :
    elf.MapsFilled symtab :=
  fun mapsShndx hMaps => (hPass mapsShndx hMaps).2

/- An element that gives the last value. -/
theorem exists_of_findSomeRev?
    {α β : Type}
    {f : α → Option β}
    {l : List α}
    {b : β}
    (hLast : l.findSomeRev? f = some b) :
    ∃ a ∈ l, f a = some b := by
  induction l with
  | nil => cases hLast
  | cons a l ih =>
      rw [findSomeRev?_cons] at hLast
      cases hRest : l.findSomeRev? f with
      | none =>
          rw [hRest, Option.none_or] at hLast
          exact ⟨a, List.mem_cons_self, hLast⟩
      | some b' =>
          rw [hRest, Option.some_or] at hLast
          cases hLast
          rcases ih hRest with ⟨a', hMem, hValue⟩
          exact ⟨a', List.mem_cons_of_mem a hMem, hValue⟩

section

variable {elf : Elf}
variable {mapsShndx : ℕ}

/- The maps section can be read. -/
theorem exists_of_mapsShndx?
    (hMaps : elf.mapsShndx? = some mapsShndx) :
    ∃ sec, elf.getSec mapsShndx = some sec ∧
      sec.role = .maps := by
  rcases exists_of_findSomeRev? hMaps with ⟨i, _, hHere⟩
  rcases Option.bind_eq_some_iff.mp hHere with
    ⟨sec, hSec, hRole⟩
  split at hRole
  · cases hRole
    exact ⟨sec, hSec, by assumption⟩
  · cases hRole

/- There is no other maps section to look at. -/
theorem mapsFilled_of_fill
    {symtab : ElfData × ℕ}
    {sec : Sec}
    (hMaps : elf.mapsShndx? = some mapsShndx)
    (hSec : elf.getSec mapsShndx = some sec)
    (hFill : MapsFill elf mapsShndx symtab sec.data) :
    elf.MapsFilled symtab := by
  intro m hMem sec' hMem'
  rw [hMaps] at hMem
  cases hMem
  rw [hSec] at hMem'
  cases hMem'
  exact hFill

theorem Elf.MapsFilled.pass
    {symtab : ElfData × ℕ}
    (hFilled : elf.MapsFilled symtab)
    (hMaps : elf.mapsShndx? = some mapsShndx)
    (hLt : mapsShndx < NR_PROCESSED_SEC) :
    elf.MapsPass symtab := by
  intro m hMem
  refine ⟨?_, hFilled m hMem⟩
  rw [hMaps] at hMem
  cases hMem
  exact hLt

/- The data that the loader reads again. -/
theorem data_of_getSec
    {i : ℕ}
    {sec : Sec}
    (hSec : elf.getSec i = some sec) :
    elf.scns[i]?.bind ElfScn.data = some sec.data := by
  unfold Elf.getSec at hSec
  cases hScn : elf.scns[i]? with
  | none =>
      rw [hScn] at hSec
      cases hSec
  | some scn =>
      simp only [hScn] at hSec
      cases hName : scn.shname with
      | none =>
          rw [hName] at hSec
          cases hSec
      | some shname =>
          simp only [hName] at hSec
          split at hSec
          · cases hSec
          · cases hData : scn.data with
            | none =>
                rw [hData] at hSec
                cases hSec
            | some data =>
                rw [hData] at hSec
                cases hSec
                exact hData

end

------------------------------------------------------------
-- Giving Descriptors
------------------------------------------------------------

section

variable {υ : Type}
variable {Q : Halt → Prop}

theorem haltsAs_createMap
    {map : BpfMapData}
    {mapFd : ℕ → ℤ}
    (hInner :
      Q (.crash .outOfRange) ∨ map.mapDef.InnerInTable) :
    (createMap map mapFd).HaltsAs Q := by
  unfold createMap
  simp only
  split
  · rename_i hIs
    split
    · exact ⟨trivial, fun _ => trivial⟩
    · rename_i hOut
      exact hInner.resolve_right fun hIn => hOut (hIn hIs)
  · exact ⟨trivial, fun _ => trivial⟩

/- The loop halts as the callback does. -/
theorem haltsAs_loadMaps
    {fixupMap : Option (FixupMapCb υ)}
    (hCallback :
      ∀ cb ∈ fixupMap, ∀ map i u, (cb map i u).HaltsAs Q)
    {is : List ℕ}
    (g : LoaderGlobals)
    (u : υ)
    (hTables :
      Q (.crash .outOfRange) ∨
        ∀ i ∈ is, i < MAX_MAPS ∧
          (g.mapData i).mapDef.InnerInTable) :
    (loadMaps fixupMap is g u).HaltsAs Q := by
  induction is generalizing g u with
  | nil => trivial
  | cons i is ih =>
      by_cases hLt : i < MAX_MAPS
      · rw [loadMaps_cons fixupMap hLt]
        -- a round keeps all definitions
        have hRound
            {g' : LoaderGlobals}
            (hGiven : LoaderGlobals.MapsGiven g g')
            (u' : υ) :
            (loadMaps fixupMap is g' u').HaltsAs Q := by
          apply ih
          refine hTables.imp_right fun hAll j hMem => ?_
          rw [(hGiven.same j).2.2]
          exact hAll j (List.mem_cons_of_mem i hMem)
        apply CallProg.Obeys.bind
        · cases fixupMap with
          | none => trivial
          | some cb => exact hCallback cb rfl _ _ _
        · rintro ⟨fd, u'⟩
          by_cases hAssigned : fixupMap.isSome ∧ fd ≠ -1
          · rw [if_pos hAssigned]
            exact hRound (g.giveFd_mapsGiven i fd) u'
          · rw [if_neg hAssigned]
            apply CallProg.Obeys.bind
            · apply haltsAs_createMap
              exact hTables.imp_right fun hAll =>
                (hAll i List.mem_cons_self).2
            · intro newFd
              split
              · trivial
              · exact hRound (g.giveNewFd_mapsGiven i newFd)
                  u'
      · rw [loadMaps, if_pos (Nat.le_of_not_lt hLt)]
        exact hTables.resolve_right fun hAll =>
          hLt (hAll i List.mem_cons_self).1

/- A callback that assigns every map a descriptor. -/
def givenMaps : FixupMapCb Unit :=
  fun _ _ u => return (0, u)

/- With it nothing is created. -/
theorem loadMaps_givenMaps
    {is : List ℕ}
    (hIs : ∀ i ∈ is, i < MAX_MAPS)
    (g : LoaderGlobals) :
    ∃ g', LoaderGlobals.MapsGiven g g' ∧
      loadMaps (some givenMaps) is g () =
        .ret (0, g', ()) := by
  induction is generalizing g with
  | nil => exact ⟨g, .refl g, rfl⟩
  | cons i is ih =>
      rw [List.forall_mem_cons] at hIs
      rcases ih hIs.2 (g.giveFd i 0) with
        ⟨g', hGiven, hRest⟩
      refine ⟨g', (g.giveFd_mapsGiven i 0).trans hGiven, ?_⟩
      rw [loadMaps_cons _ hIs.1]
      exact hRest

end

------------------------------------------------------------
-- The Maps Section
------------------------------------------------------------

/- The maps have their descriptors, and a section its mark. -/
structure AfterMaps
    (elf : Elf)
    (symbols : ElfData)
    (g : LoaderGlobals)
    (nrMaps : ℕ)
    (g' : LoaderGlobals) : Prop where
  offsets_eq :
    recordedOffsets g'.mapData nrMaps = elf.recordedAt symbols
  processed_iff :
    ∀ i, g'.processedSec i = true ↔
      g.processedSec i = true ∨ elf.mapsShndx? = some i
  progCnt_eq : g'.progCnt = g.progCnt

/- The definitions name inner maps in the table. -/
def Elf.InnerMapsFit
    (elf : Elf)
    (symtab : ElfData × ℕ) : Prop :=
  ∀ mapsShndx ∈ elf.mapsShndx?,
    ∀ sec ∈ elf.getSec mapsShndx,
      ∀ sym ∈ symsIn symtab.1 mapsShndx,
        (decodeMapDef
          ((sec.data.dBuf.drop sym.stValue).take
            (min (cInt (sec.data.dSize /
              (symsIn symtab.1 mapsShndx).length)).toNat
              MAP_DEF_SIZE))).InnerInTable

section

variable {υ : Type}
variable {elf : Elf}
variable {symtab : ElfData × ℕ}
variable {g g' : LoaderGlobals}

/- Without a maps section there are no maps. -/
theorem afterMaps_none
    (hMaps : elf.mapsShndx? = none) :
    AfterMaps elf symtab.1 g 0 g where
  offsets_eq := by
    rw [Elf.recordedAt, hMaps]
    rfl
  processed_iff := by
    intro i
    rw [hMaps]
    simp only [reduceCtorEq, or_false]
  progCnt_eq := rfl

/- The table is filled, descriptors are given, then a mark. -/
theorem afterMaps_some
    {mapsShndx : ℕ}
    {dataMaps : ElfData}
    (hMaps : elf.mapsShndx? = some mapsShndx)
    (hGiven :
      LoaderGlobals.MapsGiven
        { g with
          mapData :=
            filledTable elf mapsShndx symtab dataMaps
              g.mapData } g') :
    AfterMaps elf symtab.1 g
      (symsIn symtab.1 mapsShndx).length
      { g' with
        mapDataCount := (symsIn symtab.1 mapsShndx).length
        processedSec :=
          Function.update g'.processedSec mapsShndx true } where
  offsets_eq := by
    rw [Elf.recordedAt, hMaps]
    exact (recordedOffsets_of_mapsGiven hGiven _).trans
      (recordedOffsets_filledTable g.mapData)
  processed_iff := by
    intro i
    rw [hMaps, Option.some.injEq]
    simp only [hGiven.processedSec_eq]
    by_cases hEq : i = mapsShndx
    · subst hEq
      simp only [Function.update_self, or_true]
    · simp only [Function.update_of_ne hEq, Ne.symm hEq,
        or_false]
  progCnt_eq := hGiven.progCnt_eq

section

variable {mapsShndx : ℕ}
variable {fixupMap : Option (FixupMapCb υ)}
variable {maps' : ℕ → BpfMapData}
variable {u : υ}

theorem loadMapsOf_of_error
    {crash : Crash}
    (hRun :
      loadElfMapsSection g.mapData mapsShndx elf symtab.1
          symtab.2 =
        .error crash) :
    loadMapsOf fixupMap elf symtab (some mapsShndx) g u =
      .halt (.crash crash) := by
  rw [loadMapsOf, hRun]
  rfl

theorem loadMapsOf_of_refused
    (hRun :
      loadElfMapsSection g.mapData mapsShndx elf symtab.1
          symtab.2 =
        .ok (-EFBIG, maps')) :
    loadMapsOf fixupMap elf symtab (some mapsShndx) g u =
      .ret (1, 0, { g with mapData := maps' }, u) := by
  rw [loadMapsOf, hRun]
  rfl

theorem loadMapsOf_of_filled
    {nrMaps : ℕ}
    (hRun :
      loadElfMapsSection g.mapData mapsShndx elf symtab.1
          symtab.2 =
        .ok (nrMaps, maps')) :
    loadMapsOf fixupMap elf symtab (some mapsShndx) g u =
      (loadMaps fixupMap (List.range nrMaps)
          { g with mapData := maps' } u >>= fun r =>
        if r.1 ≠ 0 then .ret (1, 0, r.2.1, r.2.2)
        else
          CallProg.ofExcept
              ({ r.2.1 with
                mapDataCount := nrMaps }.setProcessed
                  mapsShndx) >>= fun g' =>
            .ret (0, nrMaps, g', r.2.2)) := by
  have hDone : ¬ (nrMaps : ℤ) < 0 := by
    omega
  rw [loadMapsOf, hRun]
  simp only [CallProg.ofExcept_ok, CallProg.ret_bind]
  rw [if_neg hDone, Int.toNat_natCast]
  rfl

end

/- What is left if the part for the maps succeeds. -/
theorem loadMapsOf_leaves
    (fixupMap : Option (FixupMapCb υ))
    (g : LoaderGlobals)
    (u : υ) :
    (loadMapsOf fixupMap elf symtab elf.mapsShndx? g
        u).Leaves fun r =>
      r.1 = 0 →
        elf.MapsPass symtab ∧
          AfterMaps elf symtab.1 g r.2.1 r.2.2.1 := by
  cases hMaps : elf.mapsShndx? with
  | none =>
      intro _
      refine ⟨?_, afterMaps_none hMaps⟩
      intro mapsShndx hMem
      rw [hMaps] at hMem
      cases hMem
  | some mapsShndx =>
      rcases exists_of_mapsShndx? hMaps with ⟨sec, hSec, _⟩
      have hOutcome :
          SectionOutcome elf mapsShndx symtab sec.data
            g.mapData :=
        sectionOutcome (data_of_getSec hSec) g.mapData
      cases hOutcome with
      | divides hNone hRun =>
          rw [loadMapsOf_of_error hRun]
          trivial
      | crashes crash hSome hFill hRefused hCrash hRun =>
          rw [loadMapsOf_of_error hRun]
          trivial
      | refuses maps' hRefused hRun =>
          rw [loadMapsOf_of_refused hRun]
          exact fun hRet => absurd hRet Nat.one_ne_zero
      | fills hFill hRun =>
          rw [loadMapsOf_of_filled hRun]
          refine (loadMaps_leaves fixupMap _ _ u).bind ?_
          rintro ⟨ret, g', u'⟩ ⟨hGiven, _⟩
          have hAfter := afterMaps_some hMaps hGiven
          split
          · exact fun hRet => absurd hRet Nat.one_ne_zero
          · by_cases hLt : mapsShndx < NR_PROCESSED_SEC
            · rw [LoaderGlobals.setProcessed, if_pos hLt]
              intro _
              have hFilled :=
                mapsFilled_of_fill hMaps hSec hFill
              exact ⟨hFilled.pass hMaps hLt, hAfter⟩
            · rw [LoaderGlobals.setProcessed, if_neg hLt]
              trivial

/- The definitions in a filled table. -/
theorem innerInTable_filledTable
    {mapsShndx : ℕ}
    {sec : Sec}
    (hMaps : elf.mapsShndx? = some mapsShndx)
    (hSec : elf.getSec mapsShndx = some sec)
    (hInner : elf.InnerMapsFit symtab)
    (maps : ℕ → BpfMapData)
    {i : ℕ}
    (hLt : i < (symsIn symtab.1 mapsShndx).length) :
    (filledTable elf mapsShndx symtab sec.data maps
      i).mapDef.InnerInTable := by
  rw [← length_sortedSyms] at hLt
  have hEntry :
      ((sortedSyms (symsIn symtab.1 mapsShndx))[i], i) ∈
        (sortedSyms (symsIn symtab.1 mapsShndx)).zipIdx :=
    List.mem_zipIdx_iff_getElem?.mpr
      (List.getElem?_eq_getElem hLt)
  rw [mapDef_filledTable maps hEntry]
  exact hInner mapsShndx hMaps sec hSec _
    (mem_sortedSyms.mp (List.getElem_mem hLt))

/- The part for the maps halts as what it is made of does. -/
theorem haltsAs_loadMapsOf
    {Q : Halt → Prop}
    {fixupMap : Option (FixupMapCb υ)}
    (hCallback :
      ∀ cb ∈ fixupMap, ∀ map i u, (cb map i u).HaltsAs Q)
    (hSection :
      ∀ mapsShndx ∈ elf.mapsShndx?, ∀ crash,
        loadElfMapsSection g.mapData mapsShndx elf symtab.1
            symtab.2 =
          .error crash →
        Q (.crash crash))
    (hTables :
      Q (.crash .outOfRange) ∨
        elf.MapsPass symtab ∧ elf.InnerMapsFit symtab)
    (u : υ) :
    (loadMapsOf fixupMap elf symtab elf.mapsShndx? g
      u).HaltsAs Q := by
  cases hMaps : elf.mapsShndx? with
  | none => trivial
  | some mapsShndx =>
      rcases exists_of_mapsShndx? hMaps with ⟨sec, hSec, _⟩
      have hOutcome :
          SectionOutcome elf mapsShndx symtab sec.data
            g.mapData :=
        sectionOutcome (data_of_getSec hSec) g.mapData
      have hCrash := hSection mapsShndx hMaps
      cases hOutcome with
      | divides hNone hRun =>
          rw [loadMapsOf_of_error hRun]
          exact hCrash _ hRun
      | crashes crash hSome hFill hRefused hCrash' hRun =>
          rw [loadMapsOf_of_error hRun]
          exact hCrash _ hRun
      | refuses maps' hRefused hRun =>
          rw [loadMapsOf_of_refused hRun]
          trivial
      | fills hFill hRun =>
          rw [loadMapsOf_of_filled hRun]
          apply CallProg.Obeys.bind
          · apply haltsAs_loadMaps hCallback
            refine hTables.imp_right ?_
            rintro ⟨_, hInner⟩ i hMem
            exact ⟨hFill.index_lt i hMem,
              innerInTable_filledTable hMaps hSec hInner _
                (List.mem_range.mp hMem)⟩
          · rintro ⟨ret, g', u'⟩
            split
            · trivial
            · refine CallProg.Obeys.bind
                (CallProg.obeys_ofExcept_iff.mpr ?_)
                fun _ => trivial
              intro crash hEq
              rw [LoaderGlobals.setProcessed] at hEq
              split at hEq
              · cases hEq
              · rename_i hOut
                cases hEq
                exact hTables.resolve_right fun hPass =>
                  hOut (hPass.1 mapsShndx hMaps).1

/- A run without calls, if the table is filled. -/
theorem loadMapsOf_givenMaps
    (hPass : elf.MapsPass symtab)
    (g : LoaderGlobals) :
    ∃ nrMaps g',
      AfterMaps elf symtab.1 g nrMaps g' ∧
        loadMapsOf (some givenMaps) elf symtab
            elf.mapsShndx? g () =
          .ret (0, nrMaps, g', ()) := by
  cases hMaps : elf.mapsShndx? with
  | none => exact ⟨0, g, afterMaps_none hMaps, rfl⟩
  | some mapsShndx =>
      rcases exists_of_mapsShndx? hMaps with ⟨sec, hSec, _⟩
      rcases hPass mapsShndx hMaps with ⟨hLt, hFills⟩
      have hFill := hFills sec hSec
      rcases loadMaps_givenMaps hFill.index_lt
        { g with
          mapData :=
            filledTable elf mapsShndx symtab sec.data
              g.mapData } with ⟨g', hGiven, hLoad⟩
      refine ⟨_, _, afterMaps_some hMaps hGiven, ?_⟩
      rw [loadMapsOf_of_filled
          (hFill.load_eq (data_of_getSec hSec) g.mapData),
        hLoad, CallProg.ret_bind, if_neg (not_not_intro rfl),
        LoaderGlobals.setProcessed, if_pos hLt]
      rfl

end

------------------------------------------------------------
-- From the Scan to the Relocations
------------------------------------------------------------

section

variable {elf : Elf}
variable {symtab : ElfData × ℕ}
variable {g g₁ g₂ : LoaderGlobals}
variable {nrMaps : ℕ}

/- Which sections are done when relocation starts. -/
theorem isHandled_iff
    (hReset : ∀ i, g.processedSec i = false)
    (hMarked :
      LoaderGlobals.MarkedAmong elf.IsMeta elf.secIndices g
        g₁)
    (hAfter : AfterMaps elf symtab.1 g₁ nrMaps g₂)
    {i : ℕ}
    (hMem : i ∈ elf.secIndices) :
    g₂.processedSec i = true ↔ elf.IsHandled i := by
  rw [hAfter.processed_iff, hMarked.processed_iff,
    hReset i, Elf.IsHandled]
  simp only [Bool.false_eq_true, false_or, hMem, true_and]

theorem nodup_secIndices (elf : Elf) :
    elf.secIndices.Nodup :=
  List.nodup_range' _

/- The outcome of relocation, in terms of the file. -/
theorem relocOutcome_secIndices
    (hReset : ∀ i, g.processedSec i = false)
    (hMarked :
      LoaderGlobals.MarkedAmong elf.IsMeta elf.secIndices g
        g₁)
    (hAfter : AfterMaps elf symtab.1 g₁ nrMaps g₂) :
    RelocOutcome elf elf.IsHandled symtab.1 nrMaps elf g₂
      elf.secIndices :=
  relocOutcome (.refl elf) (nodup_secIndices elf)
    fun _ hMem => isHandled_iff hReset hMarked hAfter hMem

end

------------------------------------------------------------
-- Opening the Object
------------------------------------------------------------

/- An object that is opened is gone through. -/
theorem run_doLoadBpfFile
    {υ σ : Type}
    {path : CStr}
    {handler :
      CallProg.Handler LoadCall LoadCall.Resp σ}
    {s : σ}
    {elf : Elf}
    (hOpen : (handler (.elfOpen path) s).1 = some elf)
    (fixupMap : Option (FixupMapCb υ))
    (g : LoaderGlobals)
    (u : υ) :
    (doLoadBpfFile path fixupMap g u).run handler s =
      (loadElf fixupMap elf g.reset u).run handler
        (handler (.elfOpen path) s).2 := by
  rw [doLoadBpfFile, CallProg.call'_bind, CallProg.run_call,
    hOpen]

/- An environment in which all calls succeed. -/
def allSucceed
    (elf : Elf) :
    CallProg.Handler LoadCall LoadCall.Resp Unit
  | .elfOpen _, s => (some elf, s)
  | .statfs _, s => (.ok 0, s)
  | .testRules .., s => ((), s)
  | .createMapNode .., s => ((0 : ℤ), s)
  | .createMapInMapNode .., s => ((0 : ℤ), s)
  | .loadProgram .., s => ((0 : ℤ), s)
  | .mapUpdateElem .., s => ((0 : ℤ), s)
  | .perfAttach .., s => ((0 : ℤ), s)
  | .objGet .., s => ((0 : ℤ), s)
  | .objPin .., s => ((0 : ℤ), s)
  | .setLinkXdpFd .., s => ((0 : ℤ), s)
  | .unlink .., s => ((0 : ℤ), s)
  | .chown .., s => ((0 : ℤ), s)
  | .setrlimit, s => ((0 : ℤ), s)

/- An inner map in the table can be used. -/
theorem run_createMap_allSucceed
    {map : BpfMapData}
    (hInner : map.mapDef.InnerInTable)
    (mapFd : ℕ → ℤ)
    (elf : Elf) :
    (createMap map mapFd).run (allSucceed elf) () =
      (.returned 0, ()) := by
  unfold createMap
  simp only
  split
  · rename_i hIs
    rw [if_pos (hInner hIs)]
    rfl
  · rfl

end XdpDdos
