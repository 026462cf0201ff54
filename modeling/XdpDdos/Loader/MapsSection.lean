import XdpDdos.Loader.MapLimits
import XdpDdos.Loader.RelocOutcome

/-
  What `load_elf_maps_section` makes of an arbitrary maps
  section: it divides by zero, fills in the table, refuses a
  definition, or breaks another rule of C.

  Main declarations:
    * `NewFeature`, `MapsFill`, `MapsRefused`
    * `FillOutcome`, `fillOutcome`
    * `SectionOutcome`, `sectionOutcome`
-/

------------------------------------------------------------
-- One Symbol
------------------------------------------------------------

namespace XdpDdos

/- The definition of a symbol asks for newer features. -/
structure NewFeature
    (elf : Elf)
    (strtabidx : ℕ)
    (dataMaps : ElfData)
    (mapSzElf : ℤ)
    (sym : GElfSym) : Prop where
  named : (elf.strptr strtabidx sym.stName).isSome
  size_nonneg : 0 ≤ mapSzElf
  copied :
    mapSzElf = 0 ∨
      sym.stValue + min mapSzElf.toNat MAP_DEF_SIZE ≤
        dataMaps.dBuf.length
  new :
    newFeatureAt dataMaps mapSzElf.toNat sym.stValue = true

section

variable {elf : Elf}
variable {strtabidx : ℕ}
variable {dataMaps : ElfData}
variable {mapSzElf : ℤ}
variable {nrMaps : ℕ}

theorem FilledIn.not_newFeature
    {sym : GElfSym}
    (hFilled : FilledIn elf strtabidx dataMaps mapSzElf sym) :
    ¬ NewFeature elf strtabidx dataMaps mapSzElf sym := by
  intro hNew
  have hKnown := hFilled.known
  rw [hNew.new] at hKnown
  cases hKnown

/- Bytes that are not zero are found before the end. -/
theorem validateZero_false_iff
    {offset size : ℕ} :
    validateZero dataMaps (offset + MAP_DEF_SIZE)
        (size - MAP_DEF_SIZE) = .ok false ↔
      newFeatureAt dataMaps size offset = true := by
  rw [validateZero, newFeatureAt]
  split
  · rename_i hAny
    simp only [hAny]
  · rename_i hAny
    rw [Bool.not_eq_true] at hAny
    rw [hAny]
    split <;> simp

theorem validateZero_ne_divByZero
    (dataMaps : ElfData)
    (offset size : ℕ) :
    validateZero dataMaps offset size ≠
      .error .divByZero := by
  unfold validateZero
  intro hEq
  simp only at hEq
  split at hEq
  · cases hEq
  · split at hEq <;> cases hEq

theorem readMapDef_ne_divByZero
    (dataMaps : ElfData)
    (mapSzElf mapSzCopy : ℤ)
    (offset : ℕ) :
    Indexed.readMapDef dataMaps mapSzElf mapSzCopy offset ≠
      .error .divByZero := by
  unfold Indexed.readMapDef copyMapDef
  split
  · rw [except_ok_bind]
    by_cases hLarge : mapSzElf > MAP_DEF_SIZE
    · rw [if_pos hLarge]
      cases hValid :
          validateZero dataMaps (offset + MAP_DEF_SIZE)
            (mapSzElf.toNat - MAP_DEF_SIZE) with
      | error crash =>
          rintro hEq
          cases hEq
          exact validateZero_ne_divByZero _ _ _ hValid
      | ok valid =>
          intro hEq
          cases hEq
    · rw [if_neg hLarge]
      intro hEq
      cases hEq
  · intro hEq
    cases hEq

/- Newer features are those that are not known. -/
theorem readMapDef_false_iff
    {offset : ℕ} :
    (∃ mapDef,
      Indexed.readMapDef dataMaps mapSzElf
          (min mapSzElf MAP_DEF_SIZE) offset =
        .ok (mapDef, false)) ↔
      0 ≤ mapSzElf ∧
        (mapSzElf = 0 ∨
          offset + min mapSzElf.toNat MAP_DEF_SIZE ≤
            dataMaps.dBuf.length) ∧
        newFeatureAt dataMaps mapSzElf.toNat offset =
          true := by
  unfold Indexed.readMapDef copyMapDef
  split
  · rename_i hCopied
    have hInside :
        0 ≤ mapSzElf ∧
          (mapSzElf = 0 ∨
            offset + min mapSzElf.toNat MAP_DEF_SIZE ≤
              dataMaps.dBuf.length) := by
      simp only [MAP_DEF_SIZE] at hCopied ⊢
      omega
    rw [except_ok_bind, ← and_assoc]
    simp only [hInside, and_self, true_and]
    by_cases hLarge : mapSzElf > MAP_DEF_SIZE
    · rw [if_pos hLarge, ← validateZero_false_iff]
      cases validateZero dataMaps (offset + MAP_DEF_SIZE)
          (mapSzElf.toNat - MAP_DEF_SIZE) with
      | error crash =>
          constructor
          · rintro ⟨mapDef, hEq⟩
            cases hEq
          · intro hEq
            cases hEq
      | ok valid =>
          constructor
          · rintro ⟨mapDef, hEq⟩
            cases hEq
            rfl
          · intro hEq
            cases hEq
            exact ⟨_, rfl⟩
    · have hNone : mapSzElf.toNat - MAP_DEF_SIZE = 0 := by
        omega
      rw [if_neg hLarge, newFeatureAt, hNone, List.take_zero]
      constructor
      · rintro ⟨mapDef, hEq⟩
        cases hEq
      · intro hEq
        cases hEq
  · rename_i hCopied
    constructor
    · rintro ⟨mapDef, hEq⟩
      cases hEq
    · rintro ⟨hNonneg, hInside, _⟩
      refine absurd ?_ hCopied
      simp only [MAP_DEF_SIZE] at hInside ⊢
      omega

/- The entry of a symbol exists and is filled in. -/
def Fills
    (elf : Elf)
    (strtabidx : ℕ)
    (dataMaps : ElfData)
    (mapSzElf : ℤ)
    (entry : GElfSym × ℕ) : Prop :=
  FilledIn elf strtabidx dataMaps mapSzElf entry.1 ∧
    entry.2 < MAX_MAPS

/- It exists, and its definition is refused. -/
def FillRefused
    (elf : Elf)
    (strtabidx : ℕ)
    (dataMaps : ElfData)
    (mapSzElf : ℤ)
    (entry : GElfSym × ℕ) : Prop :=
  NewFeature elf strtabidx dataMaps mapSzElf entry.1 ∧
    entry.2 < MAX_MAPS

/- The three things that the loop does with a symbol. -/
inductive FillStep
    (elf : Elf)
    (strtabidx : ℕ)
    (dataMaps : ElfData)
    (mapSzElf : ℤ)
    (nrMaps : ℕ)
    (entry : GElfSym × ℕ)
    (l : List (GElfSym × ℕ))
    (maps : ℕ → BpfMapData) : Prop where
  | fills
      (hFills : Fills elf strtabidx dataMaps mapSzElf entry)
      (hRun :
        fillMaps elf strtabidx dataMaps mapSzElf
            (min mapSzElf MAP_DEF_SIZE) nrMaps (entry :: l)
            maps =
          fillMaps elf strtabidx dataMaps mapSzElf
            (min mapSzElf MAP_DEF_SIZE) nrMaps l
            (Function.update maps entry.2
              (copiedMap elf strtabidx dataMaps
                mapSzElf.toNat (maps entry.2) entry.1)))
  | refuses
      (maps' : ℕ → BpfMapData)
      (hRefused :
        FillRefused elf strtabidx dataMaps mapSzElf entry)
      (hRun :
        fillMaps elf strtabidx dataMaps mapSzElf
            (min mapSzElf MAP_DEF_SIZE) nrMaps (entry :: l)
            maps =
          .ok (-EFBIG, maps'))
  | crashes
      (crash : Crash)
      (hFills :
        ¬ Fills elf strtabidx dataMaps mapSzElf entry)
      (hRefused :
        ¬ FillRefused elf strtabidx dataMaps mapSzElf entry)
      (hCrash : crash ≠ .divByZero)
      (hRun :
        fillMaps elf strtabidx dataMaps mapSzElf
            (min mapSzElf MAP_DEF_SIZE) nrMaps (entry :: l)
            maps =
          .error crash)

theorem fillStep
    (elf : Elf)
    (strtabidx : ℕ)
    (dataMaps : ElfData)
    (mapSzElf : ℤ)
    (nrMaps : ℕ)
    (entry : GElfSym × ℕ)
    (l : List (GElfSym × ℕ))
    (maps : ℕ → BpfMapData) :
    FillStep elf strtabidx dataMaps mapSzElf nrMaps entry l
      maps := by
  rcases entry with ⟨sym, i⟩
  have hCons :=
    fillMaps_step elf strtabidx dataMaps mapSzElf
      (min mapSzElf MAP_DEF_SIZE) nrMaps sym i l maps
  cases hName : elf.strptr strtabidx sym.stName with
  | none =>
      rw [hName] at hCons
      have hUnnamed :
          ¬ (elf.strptr strtabidx sym.stName).isSome := by
        rw [hName]
        exact Bool.false_ne_true
      exact .crashes .nullPointer
        (fun hIs => hUnnamed hIs.1.named)
        (fun hIs => hUnnamed hIs.1.named) (by decide) hCons
  | some mapName =>
      have hNamed :
          (elf.strptr strtabidx sym.stName).isSome := by
        rw [hName]
        rfl
      simp only [hName] at hCons
      by_cases hLt : i < MAX_MAPS
      · rw [if_pos hLt] at hCons
        cases hRead :
            Indexed.readMapDef dataMaps mapSzElf
              (min mapSzElf MAP_DEF_SIZE) sym.stValue with
        | error crash =>
            rw [hRead] at hCons
            refine .crashes crash ?_ ?_ ?_ hCons
            · rintro ⟨hFilled, _⟩
              have hRead' := hFilled.readMapDef_eq
              simp only at hRead'
              rw [hRead] at hRead'
              cases hRead'
            · rintro ⟨hNew, _⟩
              rcases readMapDef_false_iff.mpr
                ⟨hNew.size_nonneg, hNew.copied, hNew.new⟩
                with ⟨mapDef, hRead'⟩
              rw [hRead] at hRead'
              cases hRead'
            · rintro rfl
              exact readMapDef_ne_divByZero _ _ _ _ hRead
        | ok read =>
            rcases read with ⟨mapDef, valid⟩
            cases valid with
            | true =>
                have hFilled :=
                  filledIn_of_readMapDef hNamed hRead
                refine .fills ⟨hFilled, hLt⟩ ?_
                rw [hCons, hFilled.readMapDef_eq,
                  except_ok_bind, copiedMap, hName]
                rfl
            | false =>
                rcases readMapDef_false_iff.mp ⟨_, hRead⟩
                  with ⟨hNonneg, hInside, hNew⟩
                rw [hRead, except_ok_bind] at hCons
                exact .refuses _
                  ⟨⟨hNamed, hNonneg, hInside, hNew⟩, hLt⟩
                  hCons
      · rw [if_neg hLt] at hCons
        exact .crashes .outOfRange (fun hIs => hLt hIs.2)
          (fun hIs => hLt hIs.2) (by decide) hCons

theorem Fills.not_refused
    {entry : GElfSym × ℕ}
    (hFills : Fills elf strtabidx dataMaps mapSzElf entry) :
    ¬ FillRefused elf strtabidx dataMaps mapSzElf entry :=
  fun hRefused => hFills.1.not_newFeature hRefused.1

------------------------------------------------------------
-- All Symbols
------------------------------------------------------------

/- The three ways in which the loop ends. -/
inductive FillOutcome
    (elf : Elf)
    (strtabidx : ℕ)
    (dataMaps : ElfData)
    (mapSzElf : ℤ)
    (nrMaps : ℕ)
    (l : List (GElfSym × ℕ))
    (maps : ℕ → BpfMapData) : Prop where
  | fills
      (hFills :
        ∀ entry ∈ l,
          Fills elf strtabidx dataMaps mapSzElf entry)
      (hRun :
        fillMaps elf strtabidx dataMaps mapSzElf
            (min mapSzElf MAP_DEF_SIZE) nrMaps l maps =
          .ok (nrMaps,
            fillTable
              (copiedMap elf strtabidx dataMaps
                mapSzElf.toNat) l maps))
  | refuses
      (maps' : ℕ → BpfMapData)
      (hRefused :
        Reaches (Fills elf strtabidx dataMaps mapSzElf)
          (FillRefused elf strtabidx dataMaps mapSzElf) l)
      (hRun :
        fillMaps elf strtabidx dataMaps mapSzElf
            (min mapSzElf MAP_DEF_SIZE) nrMaps l maps =
          .ok (-EFBIG, maps'))
  | crashes
      (crash : Crash)
      (hFills :
        ¬ ∀ entry ∈ l,
          Fills elf strtabidx dataMaps mapSzElf entry)
      (hRefused :
        ¬ Reaches (Fills elf strtabidx dataMaps mapSzElf)
          (FillRefused elf strtabidx dataMaps mapSzElf) l)
      (hCrash : crash ≠ .divByZero)
      (hRun :
        fillMaps elf strtabidx dataMaps mapSzElf
            (min mapSzElf MAP_DEF_SIZE) nrMaps l maps =
          .error crash)

theorem fillOutcome
    (elf : Elf)
    (strtabidx : ℕ)
    (dataMaps : ElfData)
    (mapSzElf : ℤ)
    (nrMaps : ℕ)
    (l : List (GElfSym × ℕ))
    (maps : ℕ → BpfMapData) :
    FillOutcome elf strtabidx dataMaps mapSzElf nrMaps l
      maps := by
  induction l generalizing maps with
  | nil => exact .fills (List.forall_mem_nil _) rfl
  | cons entry l ih =>
      cases fillStep elf strtabidx dataMaps mapSzElf nrMaps
          entry l maps with
      | fills hFills hRun =>
          cases ih (Function.update maps entry.2
            (copiedMap elf strtabidx dataMaps mapSzElf.toNat
              (maps entry.2) entry.1)) with
          | fills hAll hRun' =>
              exact .fills
                (List.forall_mem_cons.mpr ⟨hFills, hAll⟩)
                (hRun.trans hRun')
          | refuses maps' hRest hRun' =>
              exact .refuses maps' (Or.inr ⟨hFills, hRest⟩)
                (hRun.trans hRun')
          | crashes crash hNot hRest hCrash hRun' =>
              refine .crashes crash
                (fun hAll =>
                  hNot (List.forall_mem_cons.mp hAll).2) ?_
                hCrash (hRun.trans hRun')
              rintro (hHere | ⟨_, hTail⟩)
              · exact hFills.not_refused hHere
              · exact hRest hTail
      | refuses maps' hRefused hRun =>
          exact .refuses maps' (Or.inl hRefused) hRun
      | crashes crash hFills hRefused hCrash hRun =>
          refine .crashes crash
            (fun hAll =>
              hFills (List.forall_mem_cons.mp hAll).1) ?_
            hCrash hRun
          rintro (hHere | ⟨hHere, _⟩)
          · exact hRefused hHere
          · exact hFills hHere

end

------------------------------------------------------------
-- The Whole Section
------------------------------------------------------------

section

variable (elf : Elf)
variable (mapsShndx : ℕ)
variable (symtab : ElfData × ℕ)
variable (dataMaps : ElfData)

/- All of at most 32 symbols have an entry filled in. -/
structure MapsFill : Prop where
  count_ne : (symsIn symtab.1 mapsShndx).length ≠ 0
  count_le : (symsIn symtab.1 mapsShndx).length ≤ MAX_MAPS
  filled :
    ∀ sym ∈ symsIn symtab.1 mapsShndx,
      FilledInAmong elf mapsShndx symtab dataMaps sym

/-
  The symbols fit, and in the order of their offsets the
  first that is not filled in has a refused definition.
-/
structure MapsRefused : Prop where
  syms_fit : SymsFit symtab.1 mapsShndx
  refused :
    Reaches
      (Fills elf symtab.2 dataMaps
        (cInt (dataMaps.dSize /
          (symsIn symtab.1 mapsShndx).length)))
      (FillRefused elf symtab.2 dataMaps
        (cInt (dataMaps.dSize /
          (symsIn symtab.1 mapsShndx).length)))
      (sortedSyms (symsIn symtab.1 mapsShndx)).zipIdx

/- The four ways in which reading the section ends. -/
inductive SectionOutcome
    (maps : ℕ → BpfMapData) : Prop where
  | divides
      (hNone : (symsIn symtab.1 mapsShndx).length = 0)
      (hRun :
        loadElfMapsSection maps mapsShndx elf symtab.1
            symtab.2 =
          .error .divByZero)
  | fills
      (hFill : MapsFill elf mapsShndx symtab dataMaps)
      (hRun :
        loadElfMapsSection maps mapsShndx elf symtab.1
            symtab.2 =
          .ok (((symsIn symtab.1 mapsShndx).length : ℤ),
            filledTable elf mapsShndx symtab dataMaps maps))
  | refuses
      (maps' : ℕ → BpfMapData)
      (hRefused : MapsRefused elf mapsShndx symtab dataMaps)
      (hRun :
        loadElfMapsSection maps mapsShndx elf symtab.1
            symtab.2 =
          .ok (-EFBIG, maps'))
  | crashes
      (crash : Crash)
      (hSome : (symsIn symtab.1 mapsShndx).length ≠ 0)
      (hFill : ¬ MapsFill elf mapsShndx symtab dataMaps)
      (hRefused :
        ¬ MapsRefused elf mapsShndx symtab dataMaps)
      (hCrash : crash ≠ .divByZero)
      (hRun :
        loadElfMapsSection maps mapsShndx elf symtab.1
            symtab.2 =
          .error crash)

end

section

variable {elf : Elf}
variable {mapsShndx : ℕ}
variable {symtab : ElfData × ℕ}
variable {dataMaps : ElfData}

/- Entries for all symbols, among the first 32. -/
theorem fills_zipIdx_iff :
    (∀ entry ∈
        (sortedSyms (symsIn symtab.1 mapsShndx)).zipIdx,
      Fills elf symtab.2 dataMaps
        (cInt (dataMaps.dSize /
          (symsIn symtab.1 mapsShndx).length)) entry) ↔
      (symsIn symtab.1 mapsShndx).length ≤ MAX_MAPS ∧
        ∀ sym ∈ symsIn symtab.1 mapsShndx,
          FilledInAmong elf mapsShndx symtab dataMaps
            sym := by
  constructor
  · intro hAll
    constructor
    · by_contra hMany
      have hLt :
          MAX_MAPS <
            (sortedSyms
              (symsIn symtab.1 mapsShndx)).length := by
        rw [length_sortedSyms]
        omega
      have hHere :=
        hAll ((sortedSyms
            (symsIn symtab.1 mapsShndx))[MAX_MAPS], MAX_MAPS)
          (List.mem_zipIdx_iff_getElem?.mpr
            (List.getElem?_eq_getElem hLt))
      exact absurd hHere.2 (Nat.lt_irrefl _)
    · intro sym hMem
      rw [← mem_sortedSyms] at hMem
      rcases List.mem_iff_getElem?.mp hMem with ⟨i, hGet⟩
      exact (hAll (sym, i)
        (List.mem_zipIdx_iff_getElem?.mpr hGet)).1
  · rintro ⟨hFew, hFilled⟩ entry hMem
    have hGet := List.mem_zipIdx_iff_getElem?.mp hMem
    rcases List.getElem?_eq_some_iff.mp hGet with ⟨hLt, _⟩
    rw [length_sortedSyms] at hLt
    exact ⟨hFilled _ (mem_sortedSyms.mp
      (List.mem_of_getElem? hGet)), by omega⟩

theorem mapSymbols_ne_divByZero
    (symbols : ElfData)
    (mapsShndx : ℕ)
    (is : List ℕ)
    (sym : List GElfSym) :
    mapSymbols symbols mapsShndx is sym ≠
      .error .divByZero := by
  rw [mapSymbols_eq_ite]
  split
  · intro hEq
    cases hEq
  · intro hEq
    cases hEq

/- The call, for a section with data. -/
theorem loadElfMapsSection_of_data
    (hData :
      elf.scns[mapsShndx]?.bind ElfScn.data = some dataMaps)
    (maps : ℕ → BpfMapData) :
    loadElfMapsSection maps mapsShndx elf symtab.1
        symtab.2 = (do
      let sym ← mapSymbols symtab.1 mapsShndx
        (List.range (symtab.1.dSize / SYM_SIZE)) []
      if sym.length = 0 then .error .divByZero
      else
        fillMaps elf symtab.2 dataMaps
          (cInt (dataMaps.dSize / sym.length))
          (min (cInt (dataMaps.dSize / sym.length))
            MAP_DEF_SIZE)
          sym.length (sortedSyms sym).zipIdx maps) := by
  simp only [loadElfMapsSection, hData, sortedSyms]

/- Without any symbols it divides by their number. -/
theorem loadElfMapsSection_of_no_syms
    (hData :
      elf.scns[mapsShndx]?.bind ElfScn.data = some dataMaps)
    (maps : ℕ → BpfMapData)
    (hNone : symsIn symtab.1 mapsShndx = []) :
    loadElfMapsSection maps mapsShndx elf symtab.1
        symtab.2 =
      .error .divByZero := by
  have hFit : SymsFit symtab.1 mapsShndx :=
    Or.inl (by rw [hNone]; exact Nat.zero_le _)
  rw [loadElfMapsSection_of_data hData,
    mapSymbols_range_iff.mpr ⟨hFit, rfl⟩, except_ok_bind,
    hNone]
  rfl

theorem sectionOutcome
    (hData :
      elf.scns[mapsShndx]?.bind ElfScn.data = some dataMaps)
    (maps : ℕ → BpfMapData) :
    SectionOutcome elf mapsShndx symtab dataMaps maps := by
  have hLoad :
      loadElfMapsSection maps mapsShndx elf symtab.1
          symtab.2 = _ :=
    loadElfMapsSection_of_data hData maps
  cases hSyms :
      mapSymbols symtab.1 mapsShndx
        (List.range (symtab.1.dSize / SYM_SIZE)) [] with
  | error crash =>
      rw [hSyms] at hLoad
      have hNotFit : ¬ SymsFit symtab.1 mapsShndx := by
        intro hFit
        have hOk := mapSymbols_range_iff.mpr ⟨hFit, rfl⟩
        rw [hSyms] at hOk
        cases hOk
      refine .crashes crash ?_
        (fun hFill => hNotFit (Or.inl hFill.count_le))
        (fun hRefused => hNotFit hRefused.syms_fit) ?_ hLoad
      · intro hNone
        exact hNotFit (Or.inl (by omega))
      · rintro rfl
        exact mapSymbols_ne_divByZero _ _ _ _ hSyms
  | ok sym =>
      rcases mapSymbols_range_iff.mp hSyms with ⟨hFit, rfl⟩
      rw [hSyms, except_ok_bind] at hLoad
      by_cases hNone :
          (symsIn symtab.1 mapsShndx).length = 0
      · rw [if_pos hNone] at hLoad
        exact .divides hNone hLoad
      · rw [if_neg hNone] at hLoad
        cases fillOutcome elf symtab.2 dataMaps
            (cInt (dataMaps.dSize /
              (symsIn symtab.1 mapsShndx).length))
            (symsIn symtab.1 mapsShndx).length
            (sortedSyms (symsIn symtab.1 mapsShndx)).zipIdx
            maps with
        | fills hFills hRun =>
            rcases fills_zipIdx_iff.mp hFills with
              ⟨hFew, hFilled⟩
            exact .fills ⟨hNone, hFew, hFilled⟩
              (hLoad.trans hRun)
        | refuses maps' hRefused hRun =>
            exact .refuses maps' ⟨hFit, hRefused⟩
              (hLoad.trans hRun)
        | crashes crash hFills hRefused hCrash hRun =>
            exact .crashes crash hNone
              (fun hFill => hFills
                (fills_zipIdx_iff.mpr
                  ⟨hFill.count_le, hFill.filled⟩))
              (fun hIs => hRefused hIs.refused) hCrash
              (hLoad.trans hRun)

/- All its maps have an entry. -/
theorem MapsFill.index_lt
    (hFill : MapsFill elf mapsShndx symtab dataMaps) :
    ∀ i ∈ List.range (symsIn symtab.1 mapsShndx).length,
      i < MAX_MAPS :=
  fun _ hMem =>
    Nat.lt_of_lt_of_le (List.mem_range.mp hMem) hFill.count_le

/- A section that fills the table is returned for. -/
theorem MapsFill.load_eq
    (hFill : MapsFill elf mapsShndx symtab dataMaps)
    (hData :
      elf.scns[mapsShndx]?.bind ElfScn.data = some dataMaps)
    (maps : ℕ → BpfMapData) :
    loadElfMapsSection maps mapsShndx elf symtab.1
        symtab.2 =
      .ok (((symsIn symtab.1 mapsShndx).length : ℤ),
        filledTable elf mapsShndx symtab dataMaps maps) := by
  have hOutcome :
      SectionOutcome elf mapsShndx symtab dataMaps maps :=
    sectionOutcome hData maps
  cases hOutcome with
  | divides hNone hRun => exact absurd hNone hFill.count_ne
  | fills _ hRun => exact hRun
  | refuses maps' hRefused hRun =>
      have hAll :=
        fills_zipIdx_iff.mpr ⟨hFill.count_le, hFill.filled⟩
      exact absurd hAll
        (hRefused.refused.not_forall fun _ hNew hFills =>
          hFills.not_refused hNew)
  | crashes crash hSome hNot hRefused hCrash hRun =>
      exact absurd hFill hNot

/- And one that is refused is returned an error for. -/
theorem MapsRefused.load_eq
    (hRefused : MapsRefused elf mapsShndx symtab dataMaps)
    (hData :
      elf.scns[mapsShndx]?.bind ElfScn.data = some dataMaps)
    (maps : ℕ → BpfMapData) :
    ∃ maps',
      loadElfMapsSection maps mapsShndx elf symtab.1
          symtab.2 =
        .ok (-EFBIG, maps') := by
  have hOutcome :
      SectionOutcome elf mapsShndx symtab dataMaps maps :=
    sectionOutcome hData maps
  cases hOutcome with
  | divides hNone hRun =>
      have hReached := hRefused.refused
      have hSorted :
          (sortedSyms
            (symsIn symtab.1 mapsShndx)).zipIdx = [] := by
        rw [List.length_eq_zero_iff.mp hNone, sortedSyms,
          List.mergeSort_nil, List.zipIdx_nil]
      rw [hSorted] at hReached
      cases hReached
  | fills hFill hRun =>
      have hAll :=
        fills_zipIdx_iff.mpr ⟨hFill.count_le, hFill.filled⟩
      exact absurd hAll
        (hRefused.refused.not_forall fun _ hNew hFills =>
          hFills.not_refused hNew)
  | refuses maps' _ hRun => exact ⟨maps', hRun⟩
  | crashes crash hSome hFill hNot hCrash hRun =>
      exact absurd hRefused hNot

------------------------------------------------------------
-- Recorded Offsets
------------------------------------------------------------

/- The offsets recorded in a filled table. -/
theorem recordedOffsets_filledTable
    (maps : ℕ → BpfMapData) :
    recordedOffsets
        (filledTable elf mapsShndx symtab dataMaps maps)
        (symsIn symtab.1 mapsShndx).length =
      (sortedSyms (symsIn symtab.1 mapsShndx)).map
        GElfSym.stValue := by
  apply List.ext_getElem
  · rw [recordedOffsets, List.length_map, List.length_range,
      List.length_map, length_sortedSyms]
  · intro i hLt hLt'
    rw [List.length_map] at hLt'
    have hEntry :
        ((sortedSyms (symsIn symtab.1 mapsShndx))[i], i) ∈
          (sortedSyms
            (symsIn symtab.1 mapsShndx)).zipIdx :=
      List.mem_zipIdx_iff_getElem?.mpr
        (List.getElem?_eq_getElem hLt')
    simp only [recordedOffsets, List.getElem_map,
      List.getElem_range]
    rw [filledTable,
      fillTable_of_mem (nodup_zipIdx_sortedSyms _) hEntry]
    rfl

/- Descriptors do not matter for them. -/
theorem recordedOffsets_of_mapsGiven
    {g g' : LoaderGlobals}
    (hGiven : LoaderGlobals.MapsGiven g g')
    (nrMaps : ℕ) :
    recordedOffsets g'.mapData nrMaps =
      recordedOffsets g.mapData nrMaps := by
  apply List.map_congr_left
  intro i _
  exact (hGiven.same i).2.1

end

end XdpDdos
