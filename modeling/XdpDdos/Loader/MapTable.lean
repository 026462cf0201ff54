import XdpDdos.Loader.Relocation

/-
  Reading the maps section of an object whose map symbols
  tile it: the table has one map for each definition, in the
  order of the section, whatever the order of the symbols.

  Main declarations:
    * `TiledMaps`
    * `MapTable`
    * `loadElfMapsSection_eq`
    * `MapTable.findMap_eq`
-/

------------------------------------------------------------
-- Tiled Maps Sections
------------------------------------------------------------

namespace XdpDdos

/- The symbols that lie in section `shndx`. -/
def symsIn
    (symbols : ElfData)
    (shndx : ℕ) : List GElfSym :=
  ((List.range (symbols.dSize / SYM_SIZE)).filterMap
    (gelfGetsym symbols)).filter
      fun sym => sym.stShndx = shndx

/-
  One to 32 symbols of the maps section, with names, at the
  offsets of definitions that fill the section.
-/
structure TiledMaps
    (elf : Elf)
    (mapsShndx : ℕ)
    (symtab : ElfData × ℕ)
    (dataMaps : ElfData) : Prop where
  data_eq :
    elf.scns[mapsShndx]?.bind ElfScn.data = some dataMaps
  syms_pos : 1 ≤ (symsIn symtab.1 mapsShndx).length
  syms_le : (symsIn symtab.1 mapsShndx).length ≤ MAX_MAPS
  offsets :
    ((symsIn symtab.1 mapsShndx).map GElfSym.stValue).Perm
      ((List.range (symsIn symtab.1 mapsShndx).length).map
        (MAP_DEF_SIZE * ·))
  size_eq :
    dataMaps.dSize =
      MAP_DEF_SIZE * (symsIn symtab.1 mapsShndx).length
  buf_eq : dataMaps.dBuf.length = dataMaps.dSize
  named :
    ∀ sym ∈ symsIn symtab.1 mapsShndx,
      (elf.strptr symtab.2 sym.stName).isSome

/- What the table says about a map. -/
structure IsMapOf
    (elf : Elf)
    (strtabidx : ℕ)
    (dataMaps : ElfData)
    (sym : GElfSym)
    (map : BpfMapData) : Prop where
  name_eq : elf.strptr strtabidx sym.stName = some map.name
  elfOffset_eq : map.elfOffset = sym.stValue
  mapDef_eq :
    map.mapDef =
      decodeMapDef
        ((dataMaps.dBuf.drop sym.stValue).take MAP_DEF_SIZE)

/- Entry `i` is the map of the symbol at definition `i`. -/
def MapTable
    (elf : Elf)
    (mapsShndx : ℕ)
    (symtab : ElfData × ℕ)
    (dataMaps : ElfData)
    (maps : ℕ → BpfMapData) : Prop :=
  ∀ i < (symsIn symtab.1 mapsShndx).length,
    ∃ sym ∈ symsIn symtab.1 mapsShndx,
      sym.stValue = MAP_DEF_SIZE * i ∧
        IsMapOf elf symtab.2 dataMaps sym (maps i)

------------------------------------------------------------
-- Collecting and Sorting the Symbols
------------------------------------------------------------

/- The map symbols among the given entries of the table. -/
def mapSymsOf
    (symbols : ElfData)
    (mapsShndx : ℕ)
    (is : List ℕ) : List GElfSym :=
  (is.filterMap (gelfGetsym symbols)).filter
    fun sym => sym.stShndx = mapsShndx

theorem symsIn_eq
    (symbols : ElfData)
    (mapsShndx : ℕ) :
    symsIn symbols mapsShndx =
      mapSymsOf symbols mapsShndx
        (List.range (symbols.dSize / SYM_SIZE)) := rfl

theorem mapSymsOf_cons
    (symbols : ElfData)
    (mapsShndx : ℕ)
    (i : ℕ)
    (is : List ℕ) :
    mapSymsOf symbols mapsShndx (i :: is) =
      mapSymsOf symbols mapsShndx [i] ++
        mapSymsOf symbols mapsShndx is := by
  rw [← List.singleton_append, mapSymsOf,
    List.filterMap_append, List.filter_append]
  rfl

/- One entry of the symbol table is read. -/
theorem mapSymbols_cons
    (symbols : ElfData)
    (mapsShndx : ℕ)
    (i : ℕ)
    (is : List ℕ)
    (sym : List GElfSym) :
    mapSymbols symbols mapsShndx (i :: is) sym =
      if sym.length < MAX_MAPS + 1 then
        mapSymbols symbols mapsShndx is
          (sym ++ mapSymsOf symbols mapsShndx [i])
      else .error .assertFailed := by
  rw [mapSymbols]
  congr 1
  cases hSym : gelfGetsym symbols i with
  | none => simp [mapSymsOf, hSym]
  | some s =>
      by_cases hHere : s.stShndx = mapsShndx
      · simp [mapSymsOf, hSym, hHere]
      · simp [mapSymsOf, hSym, hHere]

/-
  The assertion fails if there are more than 32 map symbols
  before the last entry of the symbol table.
-/
theorem mapSymbols_eq_ite
    (symbols : ElfData)
    (mapsShndx : ℕ)
    (is : List ℕ)
    (sym : List GElfSym) :
    mapSymbols symbols mapsShndx is sym =
      if is = [] ∨
          sym.length +
            (mapSymsOf symbols mapsShndx
              is.dropLast).length ≤ MAX_MAPS then
        .ok (sym ++ mapSymsOf symbols mapsShndx is)
      else .error .assertFailed := by
  induction is generalizing sym with
  | nil => simp [mapSymbols, mapSymsOf]
  | cons i is ih =>
      rw [mapSymbols_cons, ih]
      rcases List.eq_nil_or_concat' is with rfl | ⟨l, k, rfl⟩
      · simp only [Nat.lt_succ_iff]
        simp [mapSymsOf]
      · have hDrop :
            (i :: (l ++ [k])).dropLast = i :: l := by
          rw [List.dropLast_cons_of_ne_nil
            (by simp), List.dropLast_concat]
        rw [hDrop, mapSymsOf_cons symbols mapsShndx i l,
          mapSymsOf_cons symbols mapsShndx i (l ++ [k])]
        simp only [List.dropLast_concat, List.append_assoc,
          List.length_append, List.append_eq_nil_iff,
          List.cons_ne_nil, and_false, false_or]
        by_cases hRoom :
            sym.length +
              ((mapSymsOf symbols mapsShndx [i]).length +
                (mapSymsOf symbols mapsShndx l).length) ≤
              MAX_MAPS
        · rw [if_pos hRoom, if_pos (by omega),
            if_pos (by omega)]
        · rw [if_neg hRoom]
          split
          · rw [if_neg (by omega)]
          · rfl

/- With at most 32 map symbols the scratch table suffices. -/
theorem mapSymbols_eq
    {symbols : ElfData}
    {mapsShndx : ℕ}
    {is : List ℕ}
    {sym : List GElfSym}
    (hRoom :
      sym.length + (mapSymsOf symbols mapsShndx is).length ≤
        MAX_MAPS) :
    mapSymbols symbols mapsShndx is sym =
      .ok (sym ++ mapSymsOf symbols mapsShndx is) := by
  rw [mapSymbols_eq_ite, if_pos]
  right
  have hSublist :
      (mapSymsOf symbols mapsShndx is.dropLast).Sublist
        (mapSymsOf symbols mapsShndx is) :=
    ((List.dropLast_sublist is).filterMap _).filter _
  have hLe := hSublist.length_le
  omega

/- The comparison orders symbols by their offset. -/
theorem cmpSymbols_le_zero
    (l r : GElfSym) :
    cmpSymbols l r ≤ 0 ↔ l.stValue ≤ r.stValue := by
  unfold cmpSymbols
  split
  · constructor
    · intro _
      omega
    · intro _
      decide
  · split
    · constructor
      · intro hOne
        exact absurd hOne (by decide)
      · intro hLe
        omega
    · constructor
      · intro _
        omega
      · intro _
        decide

/- The symbols in the order of the section. -/
def sortedSyms
    (syms : List GElfSym) : List GElfSym :=
  syms.mergeSort fun l r => decide (cmpSymbols l r ≤ 0)

theorem mem_sortedSyms
    {syms : List GElfSym}
    {sym : GElfSym} :
    sym ∈ sortedSyms syms ↔ sym ∈ syms :=
  (List.mergeSort_perm _ _).mem_iff

@[simp] theorem length_sortedSyms
    (syms : List GElfSym) :
    (sortedSyms syms).length = syms.length :=
  (List.mergeSort_perm _ _).length_eq

/- Sorting puts symbols at the indices of their offsets. -/
theorem stValue_sortedSyms
    {syms : List GElfSym}
    {size : ℕ}
    (hOffsets :
      (syms.map GElfSym.stValue).Perm
        ((List.range syms.length).map (size * ·))) :
    (sortedSyms syms).map GElfSym.stValue =
      (List.range syms.length).map (size * ·) := by
  have hSorted :
      (sortedSyms syms).Pairwise
        (fun l r => l.stValue ≤ r.stValue) := by
    have hPairwise :
        (sortedSyms syms).Pairwise
          (fun l r => decide (cmpSymbols l r ≤ 0) = true) := by
      apply List.pairwise_mergeSort
      · intro a b c hab hbc
        simp only [decide_eq_true_eq,
          cmpSymbols_le_zero] at hab hbc ⊢
        omega
      · intro a b
        simp only [Bool.or_eq_true, decide_eq_true_eq,
          cmpSymbols_le_zero]
        omega
    apply hPairwise.imp
    intro l r hLe
    rwa [decide_eq_true_eq, cmpSymbols_le_zero] at hLe
  apply List.Perm.eq_of_pairwise
  · intro a b _ _ hab hba
    exact Nat.le_antisymm hab hba
  · exact List.pairwise_map.mpr hSorted
  · rw [List.pairwise_map]
    apply List.pairwise_lt_range.imp
    intro i j hLt
    exact Nat.mul_le_mul_left size (Nat.le_of_lt hLt)
  · exact ((List.mergeSort_perm _ _).map _).trans hOffsets

/- The symbol at an index is that of the definition there. -/
theorem stValue_of_mem_zipIdx
    {syms : List GElfSym}
    {size : ℕ}
    (hOffsets :
      (syms.map GElfSym.stValue).Perm
        ((List.range syms.length).map (size * ·)))
    {sym : GElfSym}
    {i : ℕ}
    (hMem : (sym, i) ∈ (sortedSyms syms).zipIdx) :
    sym.stValue = size * i ∧ i < syms.length := by
  have hGet : (sortedSyms syms)[i]? = some sym :=
    List.mem_zipIdx_iff_getElem?.mp hMem
  rcases List.getElem?_eq_some_iff.mp hGet with ⟨hLt, hEq⟩
  rw [length_sortedSyms] at hLt
  have hValue :
      ((sortedSyms syms).map GElfSym.stValue)[i]? =
        some sym.stValue := by
    rw [List.getElem?_map, hGet]
    rfl
  rw [stValue_sortedSyms hOffsets, List.getElem?_map,
    List.getElem?_range hLt] at hValue
  exact ⟨(Option.some.inj hValue).symm, hLt⟩

------------------------------------------------------------
-- Filling the Table
------------------------------------------------------------

/- Rework the entries of a table at the given indices. -/
def fillTable
    {α β : Type}
    (f : β → α → β)
    (l : List (α × ℕ))
    (t : ℕ → β) : ℕ → β :=
  l.foldl
    (fun t entry =>
      Function.update t entry.2 (f (t entry.2) entry.1))
    t

theorem fillTable_of_notMem
    {α β : Type}
    {f : β → α → β}
    {l : List (α × ℕ)}
    {t : ℕ → β}
    {i : ℕ}
    (hNone : i ∉ l.map Prod.snd) :
    fillTable f l t i = t i := by
  induction l generalizing t with
  | nil => rfl
  | cons entry l ih =>
      rw [List.map_cons, List.mem_cons, not_or] at hNone
      rcases hNone with ⟨hHead, hTail⟩
      rw [fillTable, List.foldl_cons, ← fillTable,
        ih hTail, Function.update_of_ne hHead]

/- Distinct indices are reworked once. -/
theorem fillTable_of_mem
    {α β : Type}
    {f : β → α → β}
    {l : List (α × ℕ)}
    {t : ℕ → β}
    {a : α}
    {i : ℕ}
    (hNodup : (l.map Prod.snd).Nodup)
    (hMem : (a, i) ∈ l) :
    fillTable f l t i = f (t i) a := by
  induction l generalizing t with
  | nil => cases hMem
  | cons entry l ih =>
      rw [List.map_cons, List.nodup_cons] at hNodup
      rcases hNodup with ⟨hFresh, hRest⟩
      rw [fillTable, List.foldl_cons, ← fillTable]
      rcases List.mem_cons.mp hMem with rfl | hTail
      · rw [fillTable_of_notMem hFresh, Function.update_self]
      · have hNe : i ≠ entry.2 := by
          intro hEq
          have hHere : i ∈ l.map Prod.snd :=
            List.mem_map_of_mem hTail
          exact hFresh (hEq ▸ hHere)
        rw [ih hRest hTail, Function.update_of_ne hNe]

/- A map entry filled in from its symbol. -/
def filledMap
    (elf : Elf)
    (strtabidx : ℕ)
    (dataMaps : ElfData)
    (map : BpfMapData)
    (sym : GElfSym) : BpfMapData :=
  { map with
    name := (elf.strptr strtabidx sym.stName).getD []
    elfOffset := sym.stValue
    mapDef :=
      decodeMapDef
        ((dataMaps.dBuf.drop sym.stValue).take
          MAP_DEF_SIZE) }

/- Fill in the entries of a list of symbols with indices. -/
def filledMaps
    (elf : Elf)
    (strtabidx : ℕ)
    (dataMaps : ElfData)
    (l : List (GElfSym × ℕ))
    (maps : ℕ → BpfMapData) : ℕ → BpfMapData :=
  l.foldl
    (fun maps entry =>
      Function.update maps entry.2
        (filledMap elf strtabidx dataMaps (maps entry.2)
          entry.1))
    maps

/- An entry filled in from a definition of some size. -/
def copiedMap
    (elf : Elf)
    (strtabidx : ℕ)
    (dataMaps : ElfData)
    (size : ℕ)
    (map : BpfMapData)
    (sym : GElfSym) : BpfMapData :=
  { map with
    name := (elf.strptr strtabidx sym.stName).getD []
    elfOffset := sym.stValue
    mapDef :=
      decodeMapDef
        ((dataMaps.dBuf.drop sym.stValue).take
          (min size MAP_DEF_SIZE)) }

/- A definition uses features that the loader cannot know. -/
def newFeatureAt
    (dataMaps : ElfData)
    (size offset : ℕ) : Bool :=
  ((dataMaps.dBuf.drop (offset + MAP_DEF_SIZE)).take
    (size - MAP_DEF_SIZE)).any (· ≠ 0)

/- A symbol with an entry, a name and a definition. -/
structure EntryFits
    (elf : Elf)
    (strtabidx : ℕ)
    (dataMaps : ElfData)
    (size : ℕ)
    (entry : GElfSym × ℕ) : Prop where
  index_lt : entry.2 < MAX_MAPS
  named : (elf.strptr strtabidx entry.1.stName).isSome
  inside : entry.1.stValue + size ≤ dataMaps.dBuf.length

section

variable {elf : Elf}
variable {strtabidx : ℕ}
variable {dataMaps : ElfData}
variable {size nrMaps : ℕ}

/- The definition of such a symbol lies in the buffer. -/
theorem EntryFits.copyMapDef_eq
    {entry : GElfSym × ℕ}
    (hFits : EntryFits elf strtabidx dataMaps size entry) :
    copyMapDef dataMaps entry.1.stValue
        (min size MAP_DEF_SIZE : ℕ) =
      .ok (decodeMapDef
        ((dataMaps.dBuf.drop entry.1.stValue).take
          (min size MAP_DEF_SIZE))) := by
  have hInside := hFits.inside
  have hLe := Nat.min_le_left size MAP_DEF_SIZE
  rw [copyMapDef, if_pos]
  · rw [Int.toNat_natCast]
  · refine Or.inr ⟨Int.natCast_nonneg _, ?_⟩
    rw [Int.toNat_natCast]
    omega

/- The bytes behind the loader's own size are checked. -/
theorem EntryFits.validateZero_eq
    {entry : GElfSym × ℕ}
    (hFits : EntryFits elf strtabidx dataMaps size entry) :
    (if (size : ℤ) > MAP_DEF_SIZE then
        validateZero dataMaps
          (entry.1.stValue + MAP_DEF_SIZE)
          ((size : ℤ).toNat - MAP_DEF_SIZE)
      else .ok true) =
      .ok (!newFeatureAt dataMaps size entry.1.stValue) := by
  have hInside := hFits.inside
  rw [Int.toNat_natCast]
  by_cases hLarge : (size : ℤ) > MAP_DEF_SIZE
  · rw [if_pos hLarge, validateZero, newFeatureAt]
    have hLength :
        ¬ ((dataMaps.dBuf.drop
            (entry.1.stValue + MAP_DEF_SIZE)).take
              (size - MAP_DEF_SIZE)).length <
          size - MAP_DEF_SIZE := by
      rw [List.length_take, List.length_drop]
      omega
    simp only [hLength, if_false]
    split
    · rename_i hAny
      rw [hAny]
      rfl
    · rename_i hAny
      rw [Bool.not_eq_true] at hAny
      rw [hAny]
      rfl
  · have hNone : size - MAP_DEF_SIZE = 0 := by
      omega
    rw [if_neg hLarge, newFeatureAt, hNone, List.take_zero]
    rfl

/- One symbol fills its entry, and may end the loading. -/
theorem fillMaps_cons
    {entry : GElfSym × ℕ}
    (hFits : EntryFits elf strtabidx dataMaps size entry)
    (l : List (GElfSym × ℕ))
    (maps : ℕ → BpfMapData) :
    fillMaps elf strtabidx dataMaps size
        (min size MAP_DEF_SIZE : ℕ) nrMaps (entry :: l)
        maps =
      if newFeatureAt dataMaps size entry.1.stValue then
        .ok (-EFBIG,
          Function.update maps entry.2
            (copiedMap elf strtabidx dataMaps size
              (maps entry.2) entry.1))
      else
        fillMaps elf strtabidx dataMaps size
          (min size MAP_DEF_SIZE : ℕ) nrMaps l
          (Function.update maps entry.2
            (copiedMap elf strtabidx dataMaps size
              (maps entry.2) entry.1)) := by
  rcases Option.isSome_iff_exists.mp hFits.named with
    ⟨mapName, hMapName⟩
  have hCopy := hFits.copyMapDef_eq
  have hValid := hFits.validateZero_eq
  rcases entry with ⟨sym, i⟩
  simp only at hMapName hCopy hValid ⊢
  have hIndex : ¬ i ≥ MAX_MAPS :=
    Nat.not_le.mpr hFits.index_lt
  simp only [fillMaps, hIndex, if_false, hMapName, hCopy,
    except_ok_bind, copiedMap, Option.getD_some]
  by_cases hLarge : (size : ℤ) > MAP_DEF_SIZE
  · rw [if_pos hLarge] at hValid ⊢
    rw [hValid]
    cases newFeatureAt dataMaps size sym.stValue with
    | true => rfl
    | false => rfl
  · rw [if_neg hLarge] at hValid ⊢
    -- a definition of at most 28 bytes has no byte to check
    have hKnown := Except.ok.inj hValid
    rw [eq_comm, Bool.not_eq_true'] at hKnown
    rw [hKnown]
    rfl

/- Definitions without new features are all copied. -/
theorem fillMaps_of_known
    {l : List (GElfSym × ℕ)}
    {maps : ℕ → BpfMapData}
    (hEntries :
      ∀ entry ∈ l,
        EntryFits elf strtabidx dataMaps size entry)
    (hKnown :
      ∀ entry ∈ l,
        newFeatureAt dataMaps size entry.1.stValue = false) :
    fillMaps elf strtabidx dataMaps size
        (min size MAP_DEF_SIZE : ℕ) nrMaps l maps =
      .ok (nrMaps,
        fillTable (copiedMap elf strtabidx dataMaps size) l
          maps) := by
  induction l generalizing maps with
  | nil => rfl
  | cons entry l ih =>
      rw [fillMaps_cons (hEntries entry List.mem_cons_self),
        hKnown entry List.mem_cons_self]
      simp only [Bool.false_eq_true, if_false]
      rw [ih
        (fun entry hMem =>
          hEntries entry (List.mem_cons_of_mem _ hMem))
        (fun entry hMem =>
          hKnown entry (List.mem_cons_of_mem _ hMem))]
      rfl

/- One definition with a new feature stops the loading. -/
theorem fillMaps_of_new
    {l : List (GElfSym × ℕ)}
    {maps : ℕ → BpfMapData}
    (hEntries :
      ∀ entry ∈ l,
        EntryFits elf strtabidx dataMaps size entry)
    (hNew :
      ∃ entry ∈ l,
        newFeatureAt dataMaps size entry.1.stValue = true) :
    ∃ maps',
      fillMaps elf strtabidx dataMaps size
          (min size MAP_DEF_SIZE : ℕ) nrMaps l maps =
        .ok (-EFBIG, maps') := by
  induction l generalizing maps with
  | nil =>
      rcases hNew with ⟨entry, hMem, _⟩
      cases hMem
  | cons entry l ih =>
      rw [fillMaps_cons (hEntries entry List.mem_cons_self)]
      cases hHere :
          newFeatureAt dataMaps size entry.1.stValue with
      | true => exact ⟨_, rfl⟩
      | false =>
          simp only [Bool.false_eq_true, if_false]
          apply ih fun entry hMem =>
            hEntries entry (List.mem_cons_of_mem _ hMem)
          rcases hNew with ⟨entry', hMem, hFeature⟩
          rcases List.mem_cons.mp hMem with rfl | hTail
          · rw [hHere] at hFeature
            cases hFeature
          · exact ⟨entry', hTail, hFeature⟩

/- Definitions of the loader's own size are all copied. -/
theorem fillMaps_eq
    {l : List (GElfSym × ℕ)}
    {maps : ℕ → BpfMapData}
    (hEntries :
      ∀ entry ∈ l,
        EntryFits elf strtabidx dataMaps MAP_DEF_SIZE
          entry) :
    fillMaps elf strtabidx dataMaps MAP_DEF_SIZE MAP_DEF_SIZE
        nrMaps l maps =
      .ok (nrMaps,
        filledMaps elf strtabidx dataMaps l maps) := by
  apply fillMaps_of_known hEntries
  intro entry _
  rw [newFeatureAt, Nat.sub_self, List.take_zero]
  rfl

end

theorem filledMaps_of_notMem
    {elf : Elf}
    {strtabidx : ℕ}
    {dataMaps : ElfData}
    {l : List (GElfSym × ℕ)}
    {maps : ℕ → BpfMapData}
    {i : ℕ}
    (hNone : i ∉ l.map Prod.snd) :
    filledMaps elf strtabidx dataMaps l maps i = maps i :=
  fillTable_of_notMem hNone

/- Every symbol fills in the entry at its index. -/
theorem filledMaps_of_mem
    {elf : Elf}
    {strtabidx : ℕ}
    {dataMaps : ElfData}
    {l : List (GElfSym × ℕ)}
    {maps : ℕ → BpfMapData}
    {sym : GElfSym}
    {i : ℕ}
    (hNodup : (l.map Prod.snd).Nodup)
    (hMem : (sym, i) ∈ l) :
    filledMaps elf strtabidx dataMaps l maps i =
      filledMap elf strtabidx dataMaps (maps i) sym :=
  fillTable_of_mem hNodup hMem

------------------------------------------------------------
-- The Table of a Tiled Section
------------------------------------------------------------

/- The indices of the sorted symbols are distinct. -/
theorem nodup_zipIdx_sortedSyms
    (syms : List GElfSym) :
    ((sortedSyms syms).zipIdx.map Prod.snd).Nodup := by
  rw [List.zipIdx_map_snd]
  exact List.nodup_range' _

section

variable {elf : Elf}
variable {mapsShndx : ℕ}
variable {symtab : ElfData × ℕ}
variable {dataMaps : ElfData}

/- Each symbol has an entry, a name and a definition. -/
theorem TiledMaps.entries_fit
    (hTiled : TiledMaps elf mapsShndx symtab dataMaps) :
    ∀ entry ∈ (sortedSyms
        (symsIn symtab.1 mapsShndx)).zipIdx,
      EntryFits elf symtab.2 dataMaps MAP_DEF_SIZE
        entry := by
  rintro ⟨sym, i⟩ hMem
  rcases stValue_of_mem_zipIdx hTiled.offsets hMem with
    ⟨hValue, hIdx⟩
  have hLe := hTiled.syms_le
  refine ⟨by simp only; omega, ?_, ?_⟩
  · apply hTiled.named
    rw [← mem_sortedSyms]
    exact List.mem_of_getElem?
      (List.mem_zipIdx_iff_getElem?.mp hMem)
  · simp only [hValue, hTiled.buf_eq, hTiled.size_eq,
      MAP_DEF_SIZE]
    omega

/- The filled entries are the table of the section. -/
theorem TiledMaps.mapTable
    (hTiled : TiledMaps elf mapsShndx symtab dataMaps)
    (maps : ℕ → BpfMapData) :
    MapTable elf mapsShndx symtab dataMaps
      (filledMaps elf symtab.2 dataMaps
        (sortedSyms (symsIn symtab.1 mapsShndx)).zipIdx
        maps) := by
  intro i hIdx
  rw [← length_sortedSyms] at hIdx
  have hMem :
      ((sortedSyms (symsIn symtab.1 mapsShndx))[i], i) ∈
        (sortedSyms (symsIn symtab.1 mapsShndx)).zipIdx :=
    List.mem_zipIdx_iff_getElem?.mpr
      (List.getElem?_eq_getElem hIdx)
  have hSym := mem_sortedSyms.mp (List.getElem_mem hIdx)
  rcases Option.isSome_iff_exists.mp
    (hTiled.named _ hSym) with ⟨mapName, hMapName⟩
  refine ⟨_, hSym,
    (stValue_of_mem_zipIdx hTiled.offsets hMem).1, ?_⟩
  rw [filledMaps_of_mem (nodup_zipIdx_sortedSyms _) hMem]
  exact
    { name_eq := by simp only [filledMap, hMapName,
        Option.getD_some]
      elfOffset_eq := rfl
      mapDef_eq := rfl }

/- Filling in entries gives no map a descriptor. -/
theorem fd_filledMaps
    (strtabidx : ℕ)
    (syms : List GElfSym)
    (maps : ℕ → BpfMapData)
    (i : ℕ) :
    (filledMaps elf strtabidx dataMaps
        (sortedSyms syms).zipIdx maps i).fd =
      (maps i).fd := by
  by_cases hListed :
      i ∈ (sortedSyms syms).zipIdx.map Prod.snd
  · rcases List.mem_map.mp hListed with
      ⟨⟨sym, j⟩, hMem, rfl⟩
    rw [filledMaps_of_mem (nodup_zipIdx_sortedSyms _) hMem]
    rfl
  · rw [filledMaps_of_notMem hListed]

/-
  The section of a tiled object is read into a table of its
  maps; descriptors are left alone.
-/
theorem loadElfMapsSection_eq
    (hTiled : TiledMaps elf mapsShndx symtab dataMaps)
    (maps : ℕ → BpfMapData) :
    ∃ maps',
      loadElfMapsSection maps mapsShndx elf symtab.1
          symtab.2 =
        .ok (((symsIn symtab.1 mapsShndx).length : ℕ),
          maps') ∧
      MapTable elf mapsShndx symtab dataMaps maps' ∧
      ∀ i, (maps' i).fd = (maps i).fd := by
  have hSyms :
      mapSymbols symtab.1 mapsShndx
          (List.range (symtab.1.dSize / SYM_SIZE)) [] =
        .ok (symsIn symtab.1 mapsShndx) := by
    have hRoom := hTiled.syms_le
    rw [mapSymbols_eq (by simpa [symsIn_eq] using hRoom)]
    rfl
  have hCount : (symsIn symtab.1 mapsShndx).length ≠ 0 := by
    have hPos := hTiled.syms_pos
    omega
  have hSize :
      cInt (dataMaps.dSize /
          (symsIn symtab.1 mapsShndx).length) =
        MAP_DEF_SIZE := by
    rw [hTiled.size_eq, Nat.mul_div_cancel _ (by omega)]
    rfl
  refine ⟨filledMaps elf symtab.2 dataMaps
    (sortedSyms (symsIn symtab.1 mapsShndx)).zipIdx maps,
    ?_, hTiled.mapTable maps, fd_filledMaps _ _ maps⟩
  simp only [loadElfMapsSection, hTiled.data_eq, hSyms,
    except_ok_bind, hCount, if_false, hSize]
  exact fillMaps_eq hTiled.entries_fit

end

------------------------------------------------------------
-- Looking Up a Symbol
------------------------------------------------------------

/- Two entries that differ in their descriptors at most. -/
def BpfMapData.SameMap (map map' : BpfMapData) : Prop :=
  map'.name = map.name ∧
    map'.elfOffset = map.elfOffset ∧
    map'.mapDef = map.mapDef

section

variable {elf : Elf}
variable {mapsShndx : ℕ}
variable {symtab : ElfData × ℕ}
variable {dataMaps : ElfData}
variable {maps maps' : ℕ → BpfMapData}

theorem MapTable.of_sameMap
    (hTable : MapTable elf mapsShndx symtab dataMaps maps)
    (hSame : ∀ i, (maps i).SameMap (maps' i)) :
    MapTable elf mapsShndx symtab dataMaps maps' := by
  intro i hIdx
  rcases hTable i hIdx with ⟨sym, hMem, hValue, hMap⟩
  rcases hSame i with ⟨hName, hOffset, hDef⟩
  exact ⟨sym, hMem, hValue,
    { name_eq := hMap.name_eq.trans (congrArg some hName.symm)
      elfOffset_eq := hOffset.trans hMap.elfOffset_eq
      mapDef_eq := hDef.trans hMap.mapDef_eq }⟩

/- Symbols that tile the section differ in their offsets. -/
theorem TiledMaps.sym_inj
    (hTiled : TiledMaps elf mapsShndx symtab dataMaps)
    {sym sym' : GElfSym}
    (hMem : sym ∈ symsIn symtab.1 mapsShndx)
    (hMem' : sym' ∈ symsIn symtab.1 mapsShndx)
    (hValue : sym.stValue = sym'.stValue) :
    sym = sym' := by
  have hRange :
      ((List.range (symsIn symtab.1 mapsShndx).length).map
        (MAP_DEF_SIZE * ·)).Nodup := by
    apply List.Nodup.map _ List.nodup_range
    intro i j hEq
    simp only [MAP_DEF_SIZE] at hEq
    omega
  have hNodup := hTiled.offsets.nodup_iff.mpr hRange
  exact List.inj_on_of_nodup_map hNodup hMem hMem' hValue

/- The search finds the map that a symbol names. -/
theorem MapTable.findMap_eq
    (hTable : MapTable elf mapsShndx symtab dataMaps maps)
    (hTiled : TiledMaps elf mapsShndx symtab dataMaps)
    {sym : GElfSym}
    (hMem : sym ∈ symsIn symtab.1 mapsShndx) :
    ∃ i < (symsIn symtab.1 mapsShndx).length,
      findMap maps (symsIn symtab.1 mapsShndx).length
          sym.stValue = some i ∧
        IsMapOf elf symtab.2 dataMaps sym (maps i) := by
  have hOffset :
      sym.stValue ∈
        (List.range (symsIn symtab.1 mapsShndx).length).map
          (MAP_DEF_SIZE * ·) :=
    hTiled.offsets.mem_iff.mp (List.mem_map_of_mem hMem)
  rcases List.mem_map.mp hOffset with ⟨i, hIdx, hValue⟩
  rw [List.mem_range] at hIdx
  rcases hTable i hIdx with ⟨sym', hMem', hValue', hMap⟩
  have hSym : sym = sym' :=
    hTiled.sym_inj hMem hMem' (hValue.symm.trans hValue'.symm)
  subst hSym
  refine ⟨i, hIdx, ?_, hMap⟩
  rw [findMap, List.find?_range_eq_some]
  refine ⟨by simpa using hMap.elfOffset_eq,
    List.mem_range.mpr hIdx, ?_⟩
  -- an earlier entry has another offset
  intro j hLt
  rcases hTable j (Nat.lt_trans hLt hIdx) with
    ⟨other, _, hOther, hOtherMap⟩
  simp only [hOtherMap.elfOffset_eq, hOther, ← hValue,
    MAP_DEF_SIZE, Bool.not_eq_eq_eq_not, Bool.not_true,
    decide_eq_false_iff_not]
  omega

end

end XdpDdos
