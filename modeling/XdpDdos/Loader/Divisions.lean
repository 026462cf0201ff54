import XdpDdos.Loader.MapsStage

/-
  When the loader divides by zero.

  The divisors come from the file: the number of symbols of
  the maps section, and the size of the entries of a
  relocation section.  Neither is checked.

  Main declarations:
    * `Elf.NeverDivides`, `Elf.Divides`
    * `haltsAs_loadSecs`, `loadElf_of_divides`
    * `neverDivides_iff`
-/

------------------------------------------------------------
-- Loading Programs
------------------------------------------------------------

namespace XdpDdos

section

variable {Q : Halt → Prop}

theorem haltsAs_charAt
    (hOut : Q (.crash .outOfRange))
    (s : TableStr)
    (i : ℕ) :
    (.ofExcept (charAt s i) :
      LoadProg (Option Char)).HaltsAs Q := by
  apply CallProg.obeys_ofExcept_iff.mpr
  intro crash hEq
  rw [eq_outOfRange_of_charAt hEq]
  exact hOut

theorem haltsAs_numeralAt
    (hOut : Q (.crash .outOfRange))
    (s : TableStr)
    (i : ℕ) :
    (.ofExcept (numeralAt s i) : LoadProg CStr).HaltsAs Q := by
  apply CallProg.obeys_ofExcept_iff.mpr
  intro crash hEq
  rw [eq_outOfRange_of_numeralAt hEq]
  exact hOut

theorem haltsAs_populateProgArray
    (event : CStr)
    (fd : ℤ)
    (g : LoaderGlobals) :
    (populateProgArray event fd g).HaltsAs Q := by
  refine CallProg.Obeys.bind ⟨trivial, fun _ => trivial⟩ ?_
  intro err
  split
  · trivial
  · trivial

theorem haltsAs_attachProgArray
    (hOut : Q (.crash .outOfRange))
    (event : TableStr)
    (skip : ℕ)
    (fd : ℤ)
    (g : LoaderGlobals) :
    (attachProgArray event skip fd g).HaltsAs Q := by
  refine CallProg.Obeys.bind (haltsAs_charAt hOut _ _) ?_
  intro c
  split
  · trivial
  · refine CallProg.Obeys.bind (haltsAs_charAt hOut _ _) ?_
    intro c'
    split
    · exact (haltsAs_numeralAt hOut _ _).bind
        fun _ => haltsAs_populateProgArray _ _ _
    · trivial

theorem haltsAs_attachTracing
    (hOut : Q (.crash .outOfRange))
    (event : TableStr)
    (skip : ℕ)
    (isTracepoint : Bool)
    (fd : ℤ)
    (g : LoaderGlobals) :
    (attachTracing event skip isTracepoint fd g).HaltsAs
      Q := by
  refine CallProg.Obeys.bind (haltsAs_charAt hOut _ _) ?_
  intro c
  split
  · trivial
  · split
    · exact (haltsAs_numeralAt hOut _ _).bind
        fun _ => haltsAs_populateProgArray _ _ _
    · exact ⟨trivial, fun _ => trivial⟩

theorem haltsAs_loadAndAttach
    (hOut : Q (.crash .outOfRange))
    (event : TableStr)
    (data : ElfData)
    (g : LoaderGlobals) :
    (loadAndAttach event data g).HaltsAs Q := by
  rw [loadAndAttach]
  cases progTypeOf event.str with
  | none => trivial
  | some progType =>
      refine CallProg.Obeys.bind
        ⟨trivial, fun _ => trivial⟩ ?_
      intro fd
      by_cases hFail : fd < 0
      · rw [if_pos hFail]
        trivial
      rw [if_neg hFail]
      by_cases hFull : g.progCnt ≥ MAX_PROGS
      · rw [if_pos hFull]
        exact hOut
      rw [if_neg hFull]
      cases progType with
      | xdp | perfEvent | cgroupSkb | cgroupSock => trivial
      | socketFilter | sockOps | skSkb =>
          exact (haltsAs_attachProgArray hOut _ _ _ _).bind
            fun _ => trivial
      | kprobe | tracepoint =>
          exact (haltsAs_attachTracing hOut _ _ _ _ _).bind
            fun _ => trivial

/- The last pass leaves its tables at most. -/
theorem haltsAs_loadSecs
    (hOut : Q (.crash .outOfRange))
    (elf : Elf)
    (is : List ℕ)
    (g : LoaderGlobals) :
    (loadSecs elf is g).HaltsAs Q := by
  induction is generalizing g with
  | nil => trivial
  | cons i is ih =>
      rw [loadSecs]
      apply CallProg.Obeys.bind
      · apply CallProg.obeys_ofExcept_iff.mpr
        intro crash hEq
        rw [LoaderGlobals.isProcessed] at hEq
        split at hEq
        · cases hEq
        · cases hEq
          exact hOut
      · intro processed
        split
        · exact ih g
        · cases elf.getSec i with
          | none => exact ih g
          | some sec =>
              simp only
              split
              · refine CallProg.Obeys.bind
                  (haltsAs_loadAndAttach hOut _ _ _) ?_
                rintro ⟨ret, g'⟩
                simp only
                split
                · trivial
                · exact ih g'
              · exact ih g

end

------------------------------------------------------------
-- Objects That Are Divided By Zero
------------------------------------------------------------

/- Any end of a run but that of a division by zero. -/
def NotDivision (how : Halt) : Prop :=
  how ≠ .crash .divByZero

namespace Elf

/-
  No run of the loader on the object divides by zero, with
  any callback that does not.
-/
def NeverDivides (elf : Elf) : Prop :=
  ∀ (υ : Type) (fixupMap : Option (FixupMapCb υ)),
    (∀ cb ∈ fixupMap, ∀ map i u,
      (cb map i u).HaltsAs NotDivision) →
    ∀ (path : CStr) (g : LoaderGlobals) (u : υ) (σ : Type)
      (handler : CallProg.Handler LoadCall LoadCall.Resp σ)
      (s : σ),
      (handler (.elfOpen path) s).1 = some elf →
        ((doLoadBpfFile path fixupMap g u).run handler s).1 ≠
          .halted (.crash .divByZero)

/- The pass over the relocation sections divides by zero. -/
def RelocsDivide
    (elf : Elf)
    (symbols : ElfData) : Prop :=
  Reaches
    (elf.RelocPasses elf.IsHandled symbols
      (elf.recordedAt symbols))
    (elf.RelocDivides elf.IsHandled) elf.secIndices

/-
  The first pass comes to its end and finds symbols.  Then
  there is a maps section without any of them, or the maps
  are read and the first relocation section that is not
  passed has entries of size zero.
-/
structure Divides (elf : Elf) : Prop where
  scanned : ∀ i ∈ elf.secIndices, elf.ScanPasses i
  divisor :
    ∃ symtab ∈ elf.symtab?,
      (∃ mapsShndx ∈ elf.mapsShndx?,
        symsIn symtab.1 mapsShndx = []) ∨
      elf.MapsPass symtab ∧ elf.RelocsDivide symtab.1

end Elf

------------------------------------------------------------
-- The Three Passes
------------------------------------------------------------

section

variable {elf : Elf}
variable {g g₁ : LoaderGlobals}

/- The passes, when the first one comes to its end. -/
theorem loadElf_of_scanned
    {υ : Type}
    {fixupMap : Option (FixupMapCb υ)}
    (hRun :
      scanSecs elf elf.secIndices ⟨g, none, none⟩ =
        .ok (0,
          { globals := g₁
            mapsShndx :=
              (elf.secIndices.findSomeRev?
                elf.mapsAt?).or none
            symtab :=
              (elf.secIndices.findSomeRev?
                elf.symtabAt?).or none }))
    (u : υ) :
    loadElf fixupMap elf g u =
      match elf.symtab? with
      | none => .ret (1, g₁, u)
      | some symtab =>
          loadMapsOf fixupMap elf symtab elf.mapsShndx? g₁
              u >>= fun r =>
            if r.1 ≠ 0 then .ret (1, r.2.2.1, r.2.2.2)
            else
              CallProg.ofExcept
                  (relocateSecs symtab.1 r.2.1
                    elf.secIndices elf r.2.2.1) >>= fun r' =>
                loadSecs r'.1 r'.1.secIndices r'.2 >>=
                  fun r'' => .ret (r''.1, r''.2, r.2.2.2) := by
  rw [Option.or_none, Option.or_none] at hRun
  rw [loadElf, hRun]
  simp only [CallProg.ofExcept_ok, CallProg.ret_bind]
  rw [if_neg (not_not_intro rfl)]
  rfl

/- The size of a definition is that of the section by them. -/
theorem loadElfMapsSection_ne_divByZero
    {mapsShndx : ℕ}
    {symtab : ElfData × ℕ}
    (hMaps : elf.mapsShndx? = some mapsShndx)
    (hSome : symsIn symtab.1 mapsShndx ≠ [])
    (maps : ℕ → BpfMapData) :
    loadElfMapsSection maps mapsShndx elf symtab.1
        symtab.2 ≠
      .error .divByZero := by
  intro hEq
  rcases exists_of_mapsShndx? hMaps with ⟨sec, hSec, _⟩
  have hOutcome :
      SectionOutcome elf mapsShndx symtab sec.data maps :=
    sectionOutcome (data_of_getSec hSec) maps
  cases hOutcome with
  | divides hNone hRun =>
      exact hSome (List.length_eq_zero_iff.mp hNone)
  | crashes crash hSome' hFill hRefused hCrash hRun =>
      rw [hRun] at hEq
      cases hEq
      exact hCrash rfl
  | refuses maps' hRefused hRun =>
      rw [hRun] at hEq
      cases hEq
  | fills hFill hRun =>
      rw [hRun] at hEq
      cases hEq

/- The number of entries is the section's size by theirs. -/
theorem relocateSecs_ne_divByZero
    {symtab : ElfData × ℕ}
    {nrMaps : ℕ}
    {g₂ : LoaderGlobals}
    (hReset : ∀ i, g.processedSec i = false)
    (hMarked :
      LoaderGlobals.MarkedAmong elf.IsMeta elf.secIndices g
        g₁)
    (hAfter : AfterMaps elf symtab.1 g₁ nrMaps g₂)
    (hNot : ¬ elf.RelocsDivide symtab.1) :
    relocateSecs symtab.1 nrMaps elf.secIndices elf g₂ ≠
      .error .divByZero := by
  intro hEq
  cases relocOutcome_secIndices hReset hMarked hAfter with
  | passes elf' g' hAll hSame hMarked' hRun =>
      rw [hRun] at hEq
      cases hEq
  | divides hDivides hRun =>
      rw [hAfter.offsets_eq] at hDivides
      exact hNot hDivides
  | crashes crash hAll hDivides hCrash hRun =>
      rw [hRun] at hEq
      cases hEq
      exact hCrash rfl

/- Objects that are not divided by zero never halt so. -/
theorem haltsAs_loadElf
    {υ : Type}
    {fixupMap : Option (FixupMapCb υ)}
    (hCallback :
      ∀ cb ∈ fixupMap, ∀ map i u,
        (cb map i u).HaltsAs NotDivision)
    (hReset : ∀ i, g.processedSec i = false)
    (hNot : ¬ elf.Divides)
    (u : υ) :
    (loadElf fixupMap elf g u).HaltsAs NotDivision := by
  have hOut : NotDivision (.crash .outOfRange) := by
    intro hEq
    cases hEq
  cases scanOutcome elf elf.secIndices ⟨g, none, none⟩ with
  | crashes crash hPasses hRefuses hCrash hRun =>
      rw [loadElf, hRun]
      intro hEq
      cases hEq
      exact hCrash rfl
  | refuses sc' hRefuses hPasses hRun =>
      rw [loadElf, hRun]
      trivial
  | passes g₁ hPasses hMarked hRun =>
      rw [loadElf_of_scanned hRun]
      cases hSymtab : elf.symtab? with
      | none => trivial
      | some symtab =>
          have hMaps :
              ∀ mapsShndx ∈ elf.mapsShndx?, ∀ crash,
                loadElfMapsSection g₁.mapData mapsShndx elf
                    symtab.1 symtab.2 =
                  .error crash →
                NotDivision (.crash crash) := by
            rintro mapsShndx hMaps crash hEq ⟨⟩
            refine loadElfMapsSection_ne_divByZero hMaps ?_ _
              hEq
            intro hNone
            exact hNot ⟨hPasses, symtab, hSymtab,
              Or.inl ⟨mapsShndx, hMaps, hNone⟩⟩
          refine CallProg.Obeys.bind_leaves
            (haltsAs_loadMapsOf hCallback hMaps (Or.inl hOut)
              u)
            (loadMapsOf_leaves fixupMap g₁ u) ?_
          rintro ⟨ret, nrMaps, g₂, u'⟩ hSuccess
          simp only at hSuccess ⊢
          by_cases hRet : ret = 0
          · rcases hSuccess hRet with ⟨hPass, hAfter⟩
            have hRelocs :
                ¬ elf.RelocsDivide symtab.1 :=
              fun hDivides => hNot ⟨hPasses, symtab, hSymtab,
                Or.inr ⟨hPass, hDivides⟩⟩
            rw [if_neg (not_not_intro hRet)]
            apply CallProg.Obeys.bind
            · apply CallProg.obeys_ofExcept_iff.mpr
              rintro crash hEq ⟨⟩
              exact relocateSecs_ne_divByZero hReset hMarked
                hAfter hRelocs hEq
            · intro r
              exact (haltsAs_loadSecs hOut _ _ _).bind
                fun _ => trivial
          · rw [if_pos hRet]
            trivial

/- And the others do, when all maps are given descriptors. -/
theorem loadElf_of_divides
    (hReset : ∀ i, g.processedSec i = false)
    (hDivides : elf.Divides) :
    loadElf (some givenMaps) elf g () =
      .halt (.crash .divByZero) := by
  rcases hDivides with ⟨hScanned, symtab, hSymtab, hDivisor⟩
  rcases scanSecs_of_passes hScanned ⟨g, none, none⟩ with
    ⟨g₁, hMarked, hRun⟩
  rw [loadElf_of_scanned hRun, hSymtab]
  simp only
  rcases hDivisor with
    ⟨mapsShndx, hMaps, hNone⟩ | ⟨hPass, hRelocs⟩
  · rcases exists_of_mapsShndx? hMaps with ⟨sec, hSec, _⟩
    have hLoad :=
      loadElfMapsSection_of_no_syms (data_of_getSec hSec)
        g₁.mapData hNone
    rw [hMaps, loadMapsOf_of_error hLoad]
    rfl
  · rcases loadMapsOf_givenMaps hPass g₁ with
      ⟨nrMaps, g₂, hAfter, hLoad⟩
    rw [hLoad, CallProg.ret_bind,
      if_neg (not_not_intro rfl)]
    have hOutcome :=
      relocOutcome_secIndices hReset hMarked hAfter
    rw [Elf.RelocsDivide, ← hAfter.offsets_eq] at hRelocs
    cases hOutcome with
    | passes elf' g' hAll hSame hMarked' hRun' =>
        refine absurd hAll (hRelocs.not_forall ?_)
        intro i hHere hPasses'
        exact hPasses'.not_divides hHere
    | divides _ hRun' =>
        rw [hRun']
        rfl
    | crashes crash hAll hNot hCrash hRun' =>
        exact absurd hRelocs hNot

end

------------------------------------------------------------
-- Runs of the Loader
------------------------------------------------------------

/- A run that divides by zero, without any callback's help. -/
theorem Elf.Divides.not_neverDivides
    {elf : Elf}
    (hDivides : elf.Divides) :
    ¬ elf.NeverDivides := by
  intro hNever
  have hCallback :
      ∀ cb ∈ some givenMaps, ∀ map i u,
        (cb map i u).HaltsAs NotDivision := by
    intro cb hMem map i u
    cases hMem
    trivial
  have hOpen :
      (allSucceed elf (.elfOpen []) ()).1 = some elf := rfl
  apply hNever Unit (some givenMaps) hCallback [] .start ()
    Unit (allSucceed elf) () hOpen
  rw [run_doLoadBpfFile hOpen,
    loadElf_of_divides (fun _ => rfl) hDivides]
  rfl

/- One definition, and a symbol table that is stripped. -/
def strippedElf : Elf where
  scns :=
    [⟨none, ⟨0, 0, 0, 0, 0, 0⟩, none, []⟩,
      plainScn "maps" SHT_PROGBITS 3 0 0 0
        (mapDefBytes MapId.blacklist.mapDef),
      plainScn ".symtab" SHT_SYMTAB 0 3 1 SYM_SIZE
        (symBytes 0 0 0)]
  strptr := fun _ _ => none

end XdpDdos
