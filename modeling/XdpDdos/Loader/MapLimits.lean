import XdpDdos.Loader.TableIndices

/-
  When the tables of maps are not overrun.

  The assertion allows 33 map symbols if the last of them is
  the last entry of the symbol table, but the tables have 32
  entries.  The index of an inner map is not checked at all.

  Main declarations:
    * `FilledIn`, `TablesSafe`, `TablesFit`
    * `Indexed.fillMaps_obeys_iff`
    * `tablesSafe_iff`
-/

------------------------------------------------------------
-- Entries That Are Filled In
------------------------------------------------------------

namespace XdpDdos

/-
  The entry of a symbol is filled in from a definition of the
  given size, and the loading goes on.
-/
structure FilledIn
    (elf : Elf)
    (strtabidx : ℕ)
    (dataMaps : ElfData)
    (mapSzElf : ℤ)
    (sym : GElfSym) : Prop where
  named : (elf.strptr strtabidx sym.stName).isSome
  size_nonneg : 0 ≤ mapSzElf
  copied :
    mapSzElf = 0 ∨
      sym.stValue + min mapSzElf.toNat MAP_DEF_SIZE ≤
        dataMaps.dBuf.length
  checked :
    MAP_DEF_SIZE < mapSzElf →
      sym.stValue + mapSzElf.toNat ≤ dataMaps.dBuf.length
  known :
    newFeatureAt dataMaps mapSzElf.toNat sym.stValue = false

section

variable {elf : Elf}
variable {strtabidx : ℕ}
variable {dataMaps : ElfData}
variable {mapSzElf : ℤ}
variable {nrMaps : ℕ}

/- The bytes behind the loader's own size are all zero. -/
theorem validateZero_true_iff
    {offset size : ℕ}
    (hLarge : MAP_DEF_SIZE < size) :
    validateZero dataMaps (offset + MAP_DEF_SIZE)
        (size - MAP_DEF_SIZE) = .ok true ↔
      offset + size ≤ dataMaps.dBuf.length ∧
        newFeatureAt dataMaps size offset = false := by
  rw [validateZero, newFeatureAt]
  simp only [List.length_take, List.length_drop]
  split
  · rename_i hAny
    rw [hAny]
    simp
  · rename_i hAny
    rw [Bool.not_eq_true] at hAny
    rw [hAny]
    split
    · simp only [reduceCtorEq, and_true, false_iff]
      omega
    · simp only [and_true, true_iff]
      omega

theorem FilledIn.readMapDef_eq
    {sym : GElfSym}
    (hFilled : FilledIn elf strtabidx dataMaps mapSzElf sym) :
    Indexed.readMapDef dataMaps mapSzElf
        (min mapSzElf MAP_DEF_SIZE) sym.stValue =
      .ok (decodeMapDef
        ((dataMaps.dBuf.drop sym.stValue).take
          (min mapSzElf.toNat MAP_DEF_SIZE)), true) := by
  have hNonneg := hFilled.size_nonneg
  have hCopied := hFilled.copied
  have hToNat :
      (min mapSzElf (MAP_DEF_SIZE : ℤ)).toNat =
        min mapSzElf.toNat MAP_DEF_SIZE := by
    omega
  have hCopy :
      copyMapDef dataMaps sym.stValue
          (min mapSzElf MAP_DEF_SIZE) =
        .ok (decodeMapDef
          ((dataMaps.dBuf.drop sym.stValue).take
            (min mapSzElf.toNat MAP_DEF_SIZE))) := by
    rw [copyMapDef, hToNat, if_pos]
    simp only [MAP_DEF_SIZE] at hCopied ⊢
    omega
  rw [Indexed.readMapDef, hCopy, except_ok_bind]
  by_cases hLarge : mapSzElf > MAP_DEF_SIZE
  · rw [if_pos hLarge, (validateZero_true_iff (by omega)).mpr
      ⟨hFilled.checked hLarge, hFilled.known⟩]
    rfl
  · rw [if_neg hLarge]
    rfl

theorem filledIn_of_readMapDef
    {sym : GElfSym}
    {mapDef : BpfMapDef}
    (hNamed : (elf.strptr strtabidx sym.stName).isSome)
    (hRead :
      Indexed.readMapDef dataMaps mapSzElf
          (min mapSzElf MAP_DEF_SIZE) sym.stValue =
        .ok (mapDef, true)) :
    FilledIn elf strtabidx dataMaps mapSzElf sym := by
  rw [Indexed.readMapDef, copyMapDef] at hRead
  split at hRead
  · rename_i hCopied
    rw [except_ok_bind] at hRead
    have hNonneg : 0 ≤ mapSzElf := by
      simp only [MAP_DEF_SIZE] at hCopied
      omega
    have hInside :
        mapSzElf = 0 ∨
          sym.stValue + min mapSzElf.toNat MAP_DEF_SIZE ≤
            dataMaps.dBuf.length := by
      simp only [MAP_DEF_SIZE] at hCopied ⊢
      omega
    by_cases hLarge : mapSzElf > MAP_DEF_SIZE
    · rw [if_pos hLarge] at hRead
      cases hValid :
          validateZero dataMaps (sym.stValue + MAP_DEF_SIZE)
            (mapSzElf.toNat - MAP_DEF_SIZE) with
      | error crash =>
          rw [hValid] at hRead
          cases hRead
      | ok valid =>
          rw [hValid] at hRead
          cases hRead
          rcases (validateZero_true_iff (by omega)).mp hValid
            with ⟨hChecked, hKnown⟩
          exact ⟨hNamed, hNonneg, hInside,
            fun _ => hChecked, hKnown⟩
    · have hNone : mapSzElf.toNat - MAP_DEF_SIZE = 0 := by
        omega
      refine ⟨hNamed, hNonneg, hInside,
        fun hIs => absurd hIs hLarge, ?_⟩
      rw [newFeatureAt, hNone, List.take_zero]
      rfl
  · cases hRead

------------------------------------------------------------
-- The Loop That Fills Them In
------------------------------------------------------------

/- Anything may halt; an index must be that of an entry. -/
def SafeIndices
    {α : Type}
    (p : TableProg α) : Prop :=
  p.Obeys TableOp.InRange fun _ => True

namespace Indexed

/- A program that uses an index first. -/
theorem safeIndices_index
    {α : Type}
    {table : Table}
    {i : ℕ}
    {f : Unit → TableProg α} :
    SafeIndices (index table i >>= f) ↔
      i < table.size ∧ SafeIndices (f ()) := by
  constructor
  · intro hSafe
    exact ⟨hSafe.1, hSafe.2 ()⟩
  · intro hSafe
    exact ⟨hSafe.1, fun _ => hSafe.2⟩

theorem leaves_index
    {α : Type}
    {P : α → Prop}
    {table : Table}
    {i : ℕ}
    {f : Unit → TableProg α} :
    (index table i >>= f).Leaves P ↔ (f ()).Leaves P := by
  constructor
  · intro hLeaves
    exact hLeaves ()
  · intro hLeaves _
    exact hLeaves

/- The loop comes past a symbol that is filled in. -/
theorem fillMaps_of_filledIn
    {sym : GElfSym}
    (hFilled : FilledIn elf strtabidx dataMaps mapSzElf sym)
    (i : ℕ)
    (l : List (GElfSym × ℕ))
    (maps : ℕ → BpfMapData) :
    Indexed.fillMaps elf strtabidx dataMaps mapSzElf
        (min mapSzElf MAP_DEF_SIZE) nrMaps ((sym, i) :: l)
        maps = (do
      index .sym i
      index .mapData i
      Indexed.fillMaps elf strtabidx dataMaps mapSzElf
        (min mapSzElf MAP_DEF_SIZE) nrMaps l
        (Function.update maps i
          (copiedMap elf strtabidx dataMaps mapSzElf.toNat
            (maps i) sym))) := by
  rcases Option.isSome_iff_exists.mp hFilled.named with
    ⟨mapName, hMapName⟩
  simp only [Indexed.fillMaps, hMapName,
    hFilled.readMapDef_eq, CallProg.ofExcept_ok,
    CallProg.ret_bind, if_true, copiedMap, Option.getD_some]

/- And it ends behind a symbol that is not. -/
theorem fillMaps_of_not_filledIn
    {sym : GElfSym}
    (hNot : ¬ FilledIn elf strtabidx dataMaps mapSzElf sym)
    (nrMaps i : ℕ)
    (l : List (GElfSym × ℕ))
    (maps : ℕ → BpfMapData) :
    ∃ p : TableProg (ℤ × (ℕ → BpfMapData)),
      Indexed.fillMaps elf strtabidx dataMaps mapSzElf
          (min mapSzElf MAP_DEF_SIZE) nrMaps ((sym, i) :: l)
          maps = (do
        index .sym i
        if (elf.strptr strtabidx sym.stName).isSome then do
          index .mapData i
          p
        else p) ∧
      SafeIndices p ∧
      p.Leaves fun r => r.1 = -(EFBIG : ℤ) := by
  cases hName : elf.strptr strtabidx sym.stName with
  | none =>
      refine ⟨.halt (.crash .nullPointer), ?_, trivial,
        trivial⟩
      simp only [Indexed.fillMaps, hName]
      rfl
  | some mapName =>
      cases hRead :
          Indexed.readMapDef dataMaps mapSzElf
            (min mapSzElf MAP_DEF_SIZE) sym.stValue with
      | error crash =>
          refine ⟨.halt (.crash crash), ?_, trivial, trivial⟩
          simp only [Indexed.fillMaps, hName, hRead]
          rfl
      | ok read =>
          rcases read with ⟨mapDef, valid⟩
          cases valid with
          | true =>
              have hSome :
                  (elf.strptr strtabidx
                    sym.stName).isSome := by
                rw [hName]
                rfl
              exact absurd
                (filledIn_of_readMapDef hSome hRead) hNot
          | false =>
              refine ⟨.ret (-EFBIG,
                Function.update maps i
                  { maps i with
                    name := mapName
                    elfOffset := sym.stValue
                    mapDef := mapDef }),
                ?_, trivial, rfl⟩
              simp only [Indexed.fillMaps, hName, hRead]
              rfl

/-
  The indices into `map_data` are those of the symbols that
  have a name and come behind none that is not filled in.
-/
theorem safeIndices_fillMaps_iff
    {l : List (GElfSym × ℕ)}
    (hScratch : ∀ entry ∈ l, entry.2 < MAX_MAPS + 1)
    (maps : ℕ → BpfMapData) :
    SafeIndices
        (Indexed.fillMaps elf strtabidx dataMaps mapSzElf
          (min mapSzElf MAP_DEF_SIZE) nrMaps l maps) ↔
      ∀ j entry, l[j]? = some entry →
        (∀ before ∈ l.take j,
          FilledIn elf strtabidx dataMaps mapSzElf
            before.1) →
        (elf.strptr strtabidx entry.1.stName).isSome →
          entry.2 < MAX_MAPS := by
  induction l generalizing maps with
  | nil =>
      refine iff_of_true trivial ?_
      intro j entry hGet
      cases hGet
  | cons entry l ih =>
      rcases entry with ⟨sym, i⟩
      have hHere : i < Table.sym.size :=
        hScratch (sym, i) List.mem_cons_self
      have hRest :
          ∀ entry ∈ l, entry.2 < MAX_MAPS + 1 :=
        fun entry hMem =>
          hScratch entry (List.mem_cons_of_mem _ hMem)
      by_cases hFilled :
          FilledIn elf strtabidx dataMaps mapSzElf sym
      · rw [fillMaps_of_filledIn hFilled, safeIndices_index,
          safeIndices_index, ih hRest]
        constructor
        · rintro ⟨_, hRoom, hAll⟩ j entry hGet hBefore hNamed
          cases j with
          | zero =>
              cases hGet
              exact hRoom
          | succ j =>
              rw [List.take_succ_cons,
                List.forall_mem_cons] at hBefore
              exact hAll j entry hGet hBefore.2 hNamed
        · intro hAll
          refine ⟨hHere,
            hAll 0 _ rfl (List.forall_mem_nil _)
              hFilled.named, ?_⟩
          intro j entry hGet hBefore hNamed
          apply hAll (j + 1) entry hGet _ hNamed
          rw [List.take_succ_cons, List.forall_mem_cons]
          exact ⟨hFilled, hBefore⟩
      · rcases fillMaps_of_not_filledIn
          hFilled nrMaps i l maps with ⟨p, hEq, hSafe, _⟩
        rw [hEq, safeIndices_index]
        constructor
        · rintro ⟨_, hRun⟩ j entry hGet hBefore hNamed
          cases j with
          | zero =>
              cases hGet
              rw [if_pos hNamed, safeIndices_index] at hRun
              exact hRun.1
          | succ j =>
              rw [List.take_succ_cons,
                List.forall_mem_cons] at hBefore
              exact absurd hBefore.1 hFilled
        · intro hAll
          refine ⟨hHere, ?_⟩
          by_cases hNamed :
              (elf.strptr strtabidx sym.stName).isSome
          · rw [if_pos hNamed, safeIndices_index]
            exact ⟨hAll 0 _ rfl (List.forall_mem_nil _)
              hNamed, hSafe⟩
          · rw [if_neg hNamed]
            exact hSafe

/- What the loop returns, if it does. -/
theorem leaves_fillMaps
    (l : List (GElfSym × ℕ))
    (maps : ℕ → BpfMapData) :
    (Indexed.fillMaps elf strtabidx dataMaps mapSzElf
        (min mapSzElf MAP_DEF_SIZE) nrMaps l maps).Leaves
      fun r =>
        r.1 = -(EFBIG : ℤ) ∨
          r = ((nrMaps : ℤ),
            fillTable
              (copiedMap elf strtabidx dataMaps
                mapSzElf.toNat) l maps) ∧
          ∀ entry ∈ l,
            FilledIn elf strtabidx dataMaps mapSzElf
              entry.1 := by
  induction l generalizing maps with
  | nil => exact Or.inr ⟨rfl, List.forall_mem_nil _⟩
  | cons entry l ih =>
      rcases entry with ⟨sym, i⟩
      by_cases hFilled :
          FilledIn elf strtabidx dataMaps mapSzElf sym
      · rw [fillMaps_of_filledIn hFilled, leaves_index,
          leaves_index]
        refine (ih _).mono ?_
        rintro r (hFail | ⟨hReturn, hAll⟩)
        · exact Or.inl hFail
        · refine Or.inr ⟨hReturn, ?_⟩
          rw [List.forall_mem_cons]
          exact ⟨hFilled, hAll⟩
      · rcases fillMaps_of_not_filledIn
          hFilled nrMaps i l maps with ⟨p, hEq, _, hLeaves⟩
        rw [hEq, leaves_index]
        split
        · rw [leaves_index]
          exact hLeaves.mono fun r hFail => Or.inl hFail
        · exact hLeaves.mono fun r hFail => Or.inl hFail

/- If all symbols are filled in the loop does return. -/
theorem of_leaves_fillMaps
    {P : ℤ × (ℕ → BpfMapData) → Prop}
    {l : List (GElfSym × ℕ)}
    {maps : ℕ → BpfMapData}
    (hFilled :
      ∀ entry ∈ l,
        FilledIn elf strtabidx dataMaps mapSzElf entry.1)
    (hLeaves :
      (Indexed.fillMaps elf strtabidx dataMaps mapSzElf
        (min mapSzElf MAP_DEF_SIZE) nrMaps l maps).Leaves
          P) :
    P (nrMaps,
      fillTable
        (copiedMap elf strtabidx dataMaps mapSzElf.toNat) l
        maps) := by
  induction l generalizing maps with
  | nil => exact hLeaves
  | cons entry l ih =>
      rcases entry with ⟨sym, i⟩
      rw [List.forall_mem_cons] at hFilled
      rw [fillMaps_of_filledIn hFilled.1, leaves_index,
        leaves_index] at hLeaves
      exact ih hFilled.2 hLeaves

------------------------------------------------------------
-- The Loop That Reads the Symbols
------------------------------------------------------------

/- The assertion protects the scratch table. -/
theorem safeIndices_mapSymbols
    (symbols : ElfData)
    (mapsShndx : ℕ)
    (is : List ℕ)
    (sym : List GElfSym) :
    SafeIndices
      (Indexed.mapSymbols symbols mapsShndx is sym) := by
  induction is generalizing sym with
  | nil => trivial
  | cons i is ih =>
      rw [Indexed.mapSymbols]
      split
      · rename_i hRoom
        rw [safeIndices_index]
        refine ⟨hRoom, ?_⟩
        cases gelfGetsym symbols i with
        | none => exact ih sym
        | some s =>
            simp only
            split
            · exact ih sym
            · exact ih (sym ++ [s])
      · trivial

/- It returns what the loop without indices returns. -/
theorem leaves_mapSymbols_iff
    {symbols : ElfData}
    {mapsShndx : ℕ}
    {is : List ℕ}
    {sym : List GElfSym}
    {P : List GElfSym → Prop} :
    (Indexed.mapSymbols symbols mapsShndx is sym).Leaves P ↔
      ∀ sym',
        XdpDdos.mapSymbols symbols mapsShndx is sym =
            .ok sym' →
          P sym' := by
  induction is generalizing sym with
  | nil =>
      constructor
      · intro hLeaves sym' hEq
        cases hEq
        exact hLeaves
      · intro hAll
        exact hAll sym rfl
  | cons i is ih =>
      rw [Indexed.mapSymbols, XdpDdos.mapSymbols]
      split
      · rw [leaves_index]
        cases gelfGetsym symbols i with
        | none => exact ih
        | some s =>
            simp only
            split
            · exact ih
            · exact ih
      · refine iff_of_true trivial ?_
        intro sym' hEq
        cases hEq

end Indexed

end

------------------------------------------------------------
-- Creating the Maps
------------------------------------------------------------

section

variable {υ : Type}

/- An entry with the same definition may be stored. -/
theorem mapDef_setMapData
    {g : LoaderGlobals}
    {i : ℕ}
    {map : BpfMapData}
    (hDef : map.mapDef = (g.mapData i).mapDef)
    (j : ℕ) :
    ((g.setMapData i map).mapData j).mapDef =
      (g.mapData j).mapDef := by
  by_cases hHere : j = i
  · subst hHere
    rw [← hDef, LoaderGlobals.setMapData]
    simp only [Function.update_self]
  · simp only [LoaderGlobals.setMapData,
      Function.update_of_ne hHere]

/- So creating a map keeps all definitions. -/
theorem mapDef_created
    {g : LoaderGlobals}
    {i : ℕ}
    {map map' : BpfMapData}
    (hDef : map.mapDef = (g.mapData i).mapDef)
    (hDef' : map'.mapDef = (g.mapData i).mapDef)
    (fd : ℤ)
    (j : ℕ) :
    ((((g.setMapData i map).setMapFd i fd).setMapData i
        map').mapData j).mapDef =
      (g.mapData j).mapDef := by
  have hFirst :
      (((g.setMapData i map).setMapFd i fd).mapData
          i).mapDef =
        (g.mapData i).mapDef :=
    mapDef_setMapData hDef i
  exact (mapDef_setMapData (hDef'.trans hFirst.symm) j).trans
    (mapDef_setMapData hDef j)

namespace Indexed

/- A part without indices uses none that is out of range. -/
theorem safeIndices_part
    {α : Type}
    (p : LoadProg α) :
    SafeIndices (part p) := by
  induction p with
  | ret value => trivial
  | halt how => trivial
  | call op next ih =>
      exact ⟨trivial, fun answer => ih answer⟩

theorem safeIndices_createMap_iff
    (map : BpfMapData)
    (mapFd : ℕ → ℤ) :
    SafeIndices (createMap map mapFd) ↔
      map.mapDef.InnerInTable := by
  unfold createMap BpfMapDef.InnerInTable
  simp only
  split
  · rename_i hInner
    rw [safeIndices_index]
    constructor
    · rintro ⟨hRoom, _⟩ _
      exact hRoom
    · intro hRoom
      exact ⟨hRoom hInner, trivial, fun _ => trivial⟩
  · rename_i hPlain
    refine iff_of_true ⟨trivial, fun _ => trivial⟩ ?_
    intro hInner
    exact absurd hInner hPlain

/- The kernel may create the map and return 0. -/
theorem of_leaves_createMap
    {map : BpfMapData}
    {mapFd : ℕ → ℤ}
    {P : ℤ → Prop}
    (hLeaves : (createMap map mapFd).Leaves P) :
    P 0 := by
  unfold createMap at hLeaves
  simp only at hLeaves
  split at hLeaves
  · exact hLeaves () (0 : ℤ)
  · exact hLeaves (0 : ℤ)

/- Maps at indices in the tables, with inner maps there. -/
theorem safeIndices_loadMaps
    (fixupMap : Option (FixupMapCb υ))
    {is : List ℕ}
    (g : LoaderGlobals)
    (u : υ)
    (hRoom : ∀ i ∈ is, i < MAX_MAPS)
    (hInner : ∀ i ∈ is, (g.mapData i).mapDef.InnerInTable) :
    SafeIndices (loadMaps fixupMap is g u) := by
  induction is generalizing g u with
  | nil => trivial
  | cons i is ih =>
      rw [List.forall_mem_cons] at hRoom hInner
      rw [loadMaps]
      refine safeIndices_index.mpr ⟨hRoom.1, ?_⟩
      apply (safeIndices_part _).bind
      rintro ⟨fd, u⟩
      simp only
      split
      · refine safeIndices_index.mpr
          ⟨hRoom.1, ih _ _ hRoom.2 ?_⟩
        intro j hMem
        rw [LoaderGlobals.setMapFd, mapDef_setMapData]
        · exact hInner.2 j hMem
        · rfl
      · apply CallProg.Obeys.bind
          ((safeIndices_createMap_iff _ _).mpr hInner.1)
        intro fd'
        refine safeIndices_index.mpr ⟨hRoom.1, ?_⟩
        split
        · trivial
        · apply ih _ _ hRoom.2
          intro j hMem
          simp only [apply_ite LoaderGlobals.mapData, ite_self]
          rw [mapDef_created]
          · exact hInner.2 j hMem
          · rfl
          · rfl

/- Without a callback all inner maps must be in the table. -/
theorem inner_of_safeIndices_loadMaps
    {is : List ℕ}
    {g : LoaderGlobals}
    {u : υ}
    (hSafe :
      SafeIndices
        (loadMaps (none : Option (FixupMapCb υ)) is g u)) :
    ∀ i ∈ is, (g.mapData i).mapDef.InnerInTable := by
  induction is generalizing g with
  | nil => exact List.forall_mem_nil _
  | cons i is ih =>
      rw [loadMaps, safeIndices_index] at hSafe
      have hCreate := hSafe.2
      simp only [fixupMapFd, part, CallProg.pure_eq_ret,
        CallProg.embed, CallProg.ret_bind, Option.isSome_none,
        Bool.false_eq_true, false_and, if_false] at hCreate
      rcases CallProg.obeys_bind_iff.mp hCreate with
        ⟨hHere, hRest⟩
      have hInner := (safeIndices_createMap_iff _ _).mp hHere
      refine List.forall_mem_cons.mpr ⟨hInner, ?_⟩
      have hNext := (of_leaves_createMap hRest).2 ()
      rw [if_neg (by decide)] at hNext
      intro j hMem
      have hTail := ih hNext j hMem
      simp only [apply_ite LoaderGlobals.mapData,
        ite_self] at hTail
      rw [mapDef_created] at hTail
      · exact hTail
      · rfl
      · rfl

end Indexed

end

------------------------------------------------------------
-- Objects That Fit the Tables
------------------------------------------------------------

/- The last entry of the symbol table is a map symbol. -/
def EndsInMapSym
    (symbols : ElfData)
    (mapsShndx : ℕ) : Prop :=
  mapSymsOf symbols mapsShndx
    [symbols.dSize / SYM_SIZE - 1] ≠ []

section

variable (elf : Elf)
variable (mapsShndx : ℕ)
variable (symtab : ElfData × ℕ)
variable (dataMaps : ElfData)

/- The symbol is filled in from its part of the section. -/
def FilledInAmong
    (sym : GElfSym) : Prop :=
  FilledIn elf symtab.2 dataMaps
    (cInt (dataMaps.dSize /
      (symsIn symtab.1 mapsShndx).length)) sym

/- Symbols for 33 maps, and the last one is reached. -/
structure Overfull : Prop where
  count_eq :
    (symsIn symtab.1 mapsShndx).length = MAX_MAPS + 1
  ends : EndsInMapSym symtab.1 mapsShndx
  filled :
    ∀ sym ∈ (sortedSyms (symsIn symtab.1 mapsShndx)).take
        MAX_MAPS,
      FilledInAmong elf mapsShndx symtab dataMaps sym
  named :
    ∃ sym ∈ (sortedSyms (symsIn symtab.1 mapsShndx))[
        MAX_MAPS]?,
      (elf.strptr symtab.2 sym.stName).isSome

/-
  The symbols are not overfull; and if all of them are filled
  in, their definitions name inner maps in the table.
-/
structure TablesFit : Prop where
  not_overfull : ¬ Overfull elf mapsShndx symtab dataMaps
  inner_ok :
    (symsIn symtab.1 mapsShndx).length ≤ MAX_MAPS →
      (∀ sym ∈ symsIn symtab.1 mapsShndx,
        FilledInAmong elf mapsShndx symtab dataMaps sym) →
      ∀ sym ∈ symsIn symtab.1 mapsShndx,
        (decodeMapDef
          ((dataMaps.dBuf.drop sym.stValue).take
            (min (cInt (dataMaps.dSize /
              (symsIn symtab.1 mapsShndx).length)).toNat
              MAP_DEF_SIZE))).InnerInTable

/- The table that the filled in symbols give. -/
def filledTable
    (maps : ℕ → BpfMapData) : ℕ → BpfMapData :=
  fillTable
    (copiedMap elf symtab.2 dataMaps
      (cInt (dataMaps.dSize /
        (symsIn symtab.1 mapsShndx).length)).toNat)
    (sortedSyms (symsIn symtab.1 mapsShndx)).zipIdx maps

end

/-
  In every run of the part of `do_load_bpf_file` for the maps
  section, the indices are those of entries, and a count that
  `load_elf_maps_section` returns is at most 32.
-/
structure TablesSafe
    (elf : Elf)
    (mapsShndx : ℕ)
    (symtab : ElfData × ℕ) : Prop where
  count_le :
    ∀ (maps : ℕ → BpfMapData) (σ : Type)
      (handler : CallProg.Handler TableOp TableOp.Resp σ)
      (s s' : σ) (ret : ℤ) (maps' : ℕ → BpfMapData),
      (Indexed.loadElfMapsSection maps mapsShndx elf symtab.1
          symtab.2).run handler s =
        (.returned (ret, maps'), s') →
      ret ≤ MAX_MAPS
  in_range :
    ∀ (υ : Type) (fixupMap : Option (FixupMapCb υ))
      (g : LoaderGlobals) (u : υ) (σ : Type)
      (handler : CallProg.Handler TableOp TableOp.Resp σ)
      (s : σ),
      ∀ call ∈ (Indexed.loadMapsOf fixupMap elf symtab
          mapsShndx g u).trace handler s,
        call.1.InRange

------------------------------------------------------------
-- Reading the Section
------------------------------------------------------------

/- The symbol table has at most one map symbol too many. -/
def SymsFit
    (symbols : ElfData)
    (mapsShndx : ℕ) : Prop :=
  (symsIn symbols mapsShndx).length ≤ MAX_MAPS ∨
    (symsIn symbols mapsShndx).length = MAX_MAPS + 1 ∧
      EndsInMapSym symbols mapsShndx

/- When the assertion holds for the whole symbol table. -/
theorem mapSymbols_range_iff
    {symbols : ElfData}
    {mapsShndx : ℕ}
    {sym : List GElfSym} :
    mapSymbols symbols mapsShndx
        (List.range (symbols.dSize / SYM_SIZE)) [] =
        .ok sym ↔
      SymsFit symbols mapsShndx ∧
        symsIn symbols mapsShndx = sym := by
  have hFits :
      (List.range (symbols.dSize / SYM_SIZE) = [] ∨
        ([] : List GElfSym).length +
          (mapSymsOf symbols mapsShndx
            (List.range
              (symbols.dSize / SYM_SIZE)).dropLast).length ≤
          MAX_MAPS) ↔
        SymsFit symbols mapsShndx := by
    unfold SymsFit EndsInMapSym
    rw [symsIn_eq]
    cases symbols.dSize / SYM_SIZE with
    | zero =>
        exact iff_of_true (Or.inl rfl)
          (Or.inl (Nat.zero_le _))
    | succ last =>
        have hSplit :
            mapSymsOf symbols mapsShndx
                (List.range (last + 1)) =
              mapSymsOf symbols mapsShndx
                  (List.range last) ++
                mapSymsOf symbols mapsShndx [last] := by
          rw [List.range_succ, mapSymsOf,
            List.filterMap_append, List.filter_append]
          rfl
        have hOne :
            (mapSymsOf symbols mapsShndx [last]).length ≤
              1 :=
          Nat.le_trans (List.length_filter_le _ _)
            (List.length_filterMap_le _ _)
        rw [hSplit, List.range_succ, List.dropLast_concat,
          List.length_append, Nat.add_sub_cancel,
          ← List.length_pos_iff]
        simp only [List.append_eq_nil_iff, List.cons_ne_nil,
          and_false, false_or, List.length_nil, Nat.zero_add]
        omega
  rw [mapSymbols_eq_ite]
  by_cases hSyms : SymsFit symbols mapsShndx
  · rw [if_pos (hFits.mpr hSyms), List.nil_append,
      ← symsIn_eq]
    simp only [Except.ok.injEq, hSyms, true_and]
  · rw [if_neg (fun hIs => hSyms (hFits.mp hIs))]
    simp only [reduceCtorEq, hSyms, false_and]

section

variable {elf : Elf}
variable {mapsShndx : ℕ}
variable {symtab : ElfData × ℕ}
variable {dataMaps : ElfData}

/- The indices into a list of symbols with their numbers. -/
theorem getElem?_zipIdx_eq_some
    {l : List GElfSym}
    {j : ℕ}
    {entry : GElfSym × ℕ} :
    l.zipIdx[j]? = some entry ↔
      l[j]? = some entry.1 ∧ entry.2 = j := by
  rw [List.getElem?_zipIdx, Option.map_eq_some_iff]
  constructor
  · rintro ⟨sym, hGet, rfl⟩
    exact ⟨hGet, Nat.zero_add j⟩
  · rintro ⟨hGet, hIdx⟩
    exact ⟨entry.1, hGet, by rw [Nat.zero_add, ← hIdx]⟩

/- Filling in is safe if 33 entries are not reached. -/
theorem safeIndices_sorted_iff
    (hSyms : SymsFit symtab.1 mapsShndx)
    (maps : ℕ → BpfMapData) :
    SafeIndices
        (Indexed.fillMaps elf symtab.2 dataMaps
          (cInt (dataMaps.dSize /
            (symsIn symtab.1 mapsShndx).length))
          (min (cInt (dataMaps.dSize /
            (symsIn symtab.1 mapsShndx).length))
            MAP_DEF_SIZE)
          (symsIn symtab.1 mapsShndx).length
          (sortedSyms (symsIn symtab.1 mapsShndx)).zipIdx
          maps) ↔
      ¬ Overfull elf mapsShndx symtab dataMaps := by
  have hLength := length_sortedSyms (symsIn symtab.1 mapsShndx)
  have hScratch :
      ∀ entry ∈
          (sortedSyms (symsIn symtab.1 mapsShndx)).zipIdx,
        entry.2 < MAX_MAPS + 1 := by
    intro entry hMem
    have hGet := List.mem_zipIdx_iff_getElem?.mp hMem
    rcases List.getElem?_eq_some_iff.mp hGet with ⟨hLt, _⟩
    unfold SymsFit at hSyms
    omega
  rw [Indexed.safeIndices_fillMaps_iff hScratch]
  constructor
  · intro hAll hOver
    rcases hOver.named with ⟨sym, hGet, hNamed⟩
    have hRoom :=
      hAll MAX_MAPS (sym, MAX_MAPS)
        (getElem?_zipIdx_eq_some.mpr ⟨hGet, rfl⟩) (by
          intro before hMem
          apply hOver.filled
          have hFst := List.mem_map_of_mem (f := Prod.fst) hMem
          rw [List.map_take, List.zipIdx_map_fst] at hFst
          exact hFst) hNamed
    exact absurd hRoom (Nat.lt_irrefl _)
  · intro hNot j entry hGet hBefore hNamed
    rcases getElem?_zipIdx_eq_some.mp hGet with ⟨hSym, rfl⟩
    rcases List.getElem?_eq_some_iff.mp hSym with ⟨hLt, _⟩
    by_contra hFull
    apply hNot
    have hLast : entry.2 = MAX_MAPS := by
      unfold SymsFit at hSyms
      omega
    rw [hLast] at hSym hBefore
    refine ⟨?_, ?_, ?_, ⟨entry.1, hSym, hNamed⟩⟩
    · unfold SymsFit at hSyms
      omega
    · rcases hSyms with hFew | ⟨_, hEnds⟩
      · omega
      · exact hEnds
    · intro sym hMem
      rw [← List.zipIdx_map_fst 0 (sortedSyms _),
        ← List.map_take] at hMem
      rcases List.mem_map.mp hMem with ⟨before, hBelow, rfl⟩
      exact hBefore before hBelow

theorem not_overfull_of_length
    (hNone : (symsIn symtab.1 mapsShndx).length = 0) :
    ¬ Overfull elf mapsShndx symtab dataMaps := by
  intro hOver
  rw [hOver.count_eq] at hNone
  cases hNone

/- Symbols that are all filled in are not overfull. -/
theorem TablesFit.length_le
    (hFit : TablesFit elf mapsShndx symtab dataMaps)
    (hSyms : SymsFit symtab.1 mapsShndx)
    (hFilled :
      ∀ sym ∈ symsIn symtab.1 mapsShndx,
        FilledInAmong elf mapsShndx symtab dataMaps sym) :
    (symsIn symtab.1 mapsShndx).length ≤ MAX_MAPS := by
  rcases hSyms with hFew | ⟨hCount, hEnds⟩
  · exact hFew
  · have hLt :
        MAX_MAPS <
          (sortedSyms (symsIn symtab.1 mapsShndx)).length := by
      rw [length_sortedSyms, hCount]
      exact Nat.lt_succ_self _
    refine absurd ⟨hCount, hEnds, ?_, ?_⟩ hFit.not_overfull
    · intro sym hMem
      exact hFilled sym
        (mem_sortedSyms.mp (List.mem_of_mem_take hMem))
    · exact ⟨_, List.getElem?_eq_getElem hLt,
        (hFilled _
          (mem_sortedSyms.mp (List.getElem_mem hLt))).named⟩

section

variable
  (hData :
    elf.scns[mapsShndx]?.bind ElfScn.data = some dataMaps)

include hData

/- Reading the section is safe if it is not overfull. -/
theorem safeIndices_section_iff
    (maps : ℕ → BpfMapData) :
    SafeIndices
        (Indexed.loadElfMapsSection maps mapsShndx elf
          symtab.1 symtab.2) ↔
      ¬ Overfull elf mapsShndx symtab dataMaps := by
  simp only [Indexed.loadElfMapsSection, hData]
  rw [SafeIndices, CallProg.obeys_bind_iff,
    Indexed.leaves_mapSymbols_iff]
  refine (and_iff_right
    (Indexed.safeIndices_mapSymbols _ _ _ _)).trans ?_
  constructor
  · intro hAll
    by_cases hSyms : SymsFit symtab.1 mapsShndx
    · have hFill :=
        hAll _ (mapSymbols_range_iff.mpr ⟨hSyms, rfl⟩)
      split at hFill
      · rename_i hNone
        exact not_overfull_of_length hNone
      · exact (safeIndices_sorted_iff hSyms maps).mp hFill
    · intro hOver
      exact hSyms (Or.inr ⟨hOver.count_eq, hOver.ends⟩)
  · intro hNot sym hEq
    rcases mapSymbols_range_iff.mp hEq with ⟨hSyms, rfl⟩
    split
    · trivial
    · exact (safeIndices_sorted_iff hSyms maps).mpr hNot

/- What is returned for the section, if anything is. -/
theorem leaves_section
    (maps : ℕ → BpfMapData) :
    (Indexed.loadElfMapsSection maps mapsShndx elf symtab.1
        symtab.2).Leaves fun r =>
      r.1 = -(EFBIG : ℤ) ∨
        SymsFit symtab.1 mapsShndx ∧
          (∀ sym ∈ symsIn symtab.1 mapsShndx,
            FilledInAmong elf mapsShndx symtab dataMaps
              sym) ∧
          r = (((symsIn symtab.1 mapsShndx).length : ℤ),
            filledTable elf mapsShndx symtab dataMaps
              maps) := by
  simp only [Indexed.loadElfMapsSection, hData]
  apply CallProg.Leaves.bind
    (Indexed.leaves_mapSymbols_iff.mpr fun sym hEq =>
      mapSymbols_range_iff.mp hEq)
  rintro sym ⟨hSyms, rfl⟩
  split
  · trivial
  · apply (Indexed.leaves_fillMaps _ maps).mono
    rintro r (hFail | ⟨hReturn, hFilled⟩)
    · exact Or.inl hFail
    · refine Or.inr ⟨hSyms, ?_, hReturn⟩
      intro sym hMem
      rw [← mem_sortedSyms] at hMem
      rcases List.mem_iff_getElem?.mp hMem with ⟨i, hGet⟩
      exact hFilled (sym, i)
        (List.mem_zipIdx_iff_getElem?.mpr hGet)

/- A section that is filled in is returned for. -/
theorem of_leaves_section
    {maps : ℕ → BpfMapData}
    {P : ℤ × (ℕ → BpfMapData) → Prop}
    (hSyms : SymsFit symtab.1 mapsShndx)
    (hSome : (symsIn symtab.1 mapsShndx).length ≠ 0)
    (hFilled :
      ∀ sym ∈ symsIn symtab.1 mapsShndx,
        FilledInAmong elf mapsShndx symtab dataMaps sym)
    (hLeaves :
      (Indexed.loadElfMapsSection maps mapsShndx elf symtab.1
        symtab.2).Leaves P) :
    P (((symsIn symtab.1 mapsShndx).length : ℤ),
      filledTable elf mapsShndx symtab dataMaps maps) := by
  simp only [Indexed.loadElfMapsSection, hData] at hLeaves
  have hRest :=
    Indexed.leaves_mapSymbols_iff.mp
      (CallProg.leaves_of_bind hLeaves) _
      (mapSymbols_range_iff.mpr ⟨hSyms, rfl⟩)
  rw [if_neg hSome] at hRest
  apply Indexed.of_leaves_fillMaps _ hRest
  intro entry hMem
  apply hFilled
  rw [← mem_sortedSyms]
  exact List.mem_of_getElem?
    (List.mem_zipIdx_iff_getElem?.mp hMem)

end

/- The definition in an entry of the filled table. -/
theorem mapDef_filledTable
    (maps : ℕ → BpfMapData)
    {sym : GElfSym}
    {i : ℕ}
    (hMem :
      (sym, i) ∈ (sortedSyms
        (symsIn symtab.1 mapsShndx)).zipIdx) :
    (filledTable elf mapsShndx symtab dataMaps maps i).mapDef =
      decodeMapDef
        ((dataMaps.dBuf.drop sym.stValue).take
          (min (cInt (dataMaps.dSize /
            (symsIn symtab.1 mapsShndx).length)).toNat
            MAP_DEF_SIZE)) := by
  rw [filledTable,
    fillTable_of_mem (nodup_zipIdx_sortedSyms _) hMem]
  rfl

------------------------------------------------------------
-- Safety of the Tables
------------------------------------------------------------

/- An object that fits the tables never overruns them. -/
theorem TablesFit.safeIndices
    (hData :
      elf.scns[mapsShndx]?.bind ElfScn.data = some dataMaps)
    (hFit : TablesFit elf mapsShndx symtab dataMaps)
    {υ : Type}
    (fixupMap : Option (FixupMapCb υ))
    (g : LoaderGlobals)
    (u : υ) :
    SafeIndices
      (Indexed.loadMapsOf fixupMap elf symtab mapsShndx g
        u) := by
  rw [Indexed.loadMapsOf, SafeIndices,
    CallProg.obeys_bind_iff]
  refine ⟨(safeIndices_section_iff hData _).mpr
    hFit.not_overfull, ?_⟩
  apply (leaves_section hData g.mapData).mono
  rintro ⟨ret, maps⟩ hReturn
  simp only at hReturn ⊢
  split
  · trivial
  · rename_i hDone
    rcases hReturn with hFail | ⟨hSyms, hFilled, hEq⟩
    · rw [hFail] at hDone
      exact absurd (by decide) hDone
    · cases hEq
      apply CallProg.Obeys.bind
      · rw [Int.toNat_natCast]
        have hFew := hFit.length_le hSyms hFilled
        apply Indexed.safeIndices_loadMaps
        · intro i hMem
          rw [List.mem_range] at hMem
          omega
        · intro i hMem
          rw [List.mem_range] at hMem
          rw [← length_sortedSyms] at hMem
          have hEntry :
              ((sortedSyms
                (symsIn symtab.1 mapsShndx))[i], i) ∈
                (sortedSyms
                  (symsIn symtab.1 mapsShndx)).zipIdx :=
            List.mem_zipIdx_iff_getElem?.mpr
              (List.getElem?_eq_getElem hMem)
          rw [mapDef_filledTable g.mapData hEntry]
          exact hFit.inner_ok hFew hFilled _
            (mem_sortedSyms.mp (List.getElem_mem hMem))
      · rintro ⟨ret, g, u⟩
        simp only
        split
        · trivial
        · cases ({ g with mapDataCount :=
              ((symsIn symtab.1 mapsShndx).length :
                ℤ).toNat }.setProcessed mapsShndx) with
          | error crash => trivial
          | ok g' => trivial

/- And a count that is returned is at most 32. -/
theorem TablesFit.count_le
    (hData :
      elf.scns[mapsShndx]?.bind ElfScn.data = some dataMaps)
    (hFit : TablesFit elf mapsShndx symtab dataMaps)
    (maps : ℕ → BpfMapData) :
    (Indexed.loadElfMapsSection maps mapsShndx elf symtab.1
        symtab.2).Leaves fun r => r.1 ≤ (MAX_MAPS : ℤ) := by
  apply (leaves_section hData maps).mono
  rintro r (hFail | ⟨hSyms, hFilled, rfl⟩)
  · rw [hFail]
    decide
  · have hFew := hFit.length_le hSyms hFilled
    exact Int.ofNat_le.mpr hFew

/- Runs that stay in the tables are of objects that fit. -/
theorem TablesSafe.fit
    (hSafe : TablesSafe elf mapsShndx symtab)
    (hData :
      elf.scns[mapsShndx]?.bind ElfScn.data =
        some dataMaps) :
    TablesFit elf mapsShndx symtab dataMaps := by
  have hIndices :
      SafeIndices
        (Indexed.loadMapsOf (none : Option (FixupMapCb Unit))
          elf symtab mapsShndx LoaderGlobals.start ()) := by
    apply CallProg.obeys_iff_forall_run.mpr
    intro σ handler s
    exact ⟨hSafe.in_range Unit none LoaderGlobals.start () σ
      handler s, fun _ _ => trivial⟩
  rw [Indexed.loadMapsOf, SafeIndices,
    CallProg.obeys_bind_iff] at hIndices
  rcases hIndices with ⟨hSection, hRest⟩
  refine ⟨(safeIndices_section_iff hData _).mp hSection, ?_⟩
  intro hFew hFilled sym hMem
  have hSome : (symsIn symtab.1 mapsShndx).length ≠ 0 := by
    intro hNone
    rw [List.length_eq_zero_iff.mp hNone] at hMem
    cases hMem
  have hLoad :=
    of_leaves_section hData (Or.inl hFew) hSome hFilled hRest
  simp only at hLoad
  rw [if_neg (by omega), CallProg.obeys_bind_iff] at hLoad
  -- the entry of the symbol is one of those created
  rw [← mem_sortedSyms] at hMem
  rcases List.mem_iff_getElem?.mp hMem with ⟨i, hGet⟩
  rcases List.getElem?_eq_some_iff.mp hGet with ⟨hLt, _⟩
  rw [length_sortedSyms] at hLt
  have hInner :=
    Indexed.inner_of_safeIndices_loadMaps hLoad.1 i (by
      rw [Int.toNat_natCast, List.mem_range]
      exact hLt)
  have hEntry :
      (sym, i) ∈ (sortedSyms
        (symsIn symtab.1 mapsShndx)).zipIdx :=
    List.mem_zipIdx_iff_getElem?.mpr hGet
  simp only at hInner
  rw [mapDef_filledTable _ hEntry] at hInner
  exact hInner

end

/-
  The tables of maps are not overrun exactly if the maps
  section, when the object has one that can be read, fits.
-/
theorem tablesSafe_iff
    (elf : Elf)
    (mapsShndx : ℕ)
    (symtab : ElfData × ℕ) :
    TablesSafe elf mapsShndx symtab ↔
      ∀ dataMaps,
        elf.scns[mapsShndx]?.bind ElfScn.data =
            some dataMaps →
          TablesFit elf mapsShndx symtab dataMaps := by
  constructor
  · intro hSafe dataMaps hData
    exact hSafe.fit hData
  · intro hFit
    cases hData : elf.scns[mapsShndx]?.bind ElfScn.data with
    | none =>
        constructor
        · intro maps σ handler s s' ret maps' hRun
          simp only [Indexed.loadElfMapsSection, hData]
            at hRun
          cases hRun
          decide
        · intro υ fixupMap g u σ handler s call hMem
          simp only [Indexed.loadMapsOf,
            Indexed.loadElfMapsSection, hData] at hMem
          cases hMem
    | some dataMaps =>
        have hHere := hFit dataMaps hData
        constructor
        · intro maps σ handler s s' ret maps' hRun
          exact (hHere.count_le hData maps).of_run hRun
        · intro υ fixupMap g u σ handler s
          exact (hHere.safeIndices hData fixupMap g u).trace s

------------------------------------------------------------
-- Thirty-Three Maps
------------------------------------------------------------

/- One map too many, with the symbols in order. -/
def fullMaps : ElfData where
  dBuf :=
    (List.range 33).flatMap fun _ =>
      mapDefBytes MapId.blacklist.mapDef
  dSize := MAP_DEF_SIZE * 33

def fullElf : Elf where
  scns :=
    [⟨none, ⟨0, 0, 0, 0, 0, 0⟩, none, []⟩,
      plainScn "maps" SHT_PROGBITS 3 0 0 0 fullMaps.dBuf]
  strptr := fun _ _ => some "blacklist".toList

def fullSymtab : ElfData where
  dBuf :=
    symBytes 0 0 0 ++
      (List.range 33).flatMap fun k =>
        symBytes (k + 1) 1 (MAP_DEF_SIZE * k)
  dSize := SYM_SIZE * 34

/- The symbols are where the definitions are. -/
theorem stValues_fullSymtab :
    (symsIn fullSymtab 1).map GElfSym.stValue =
      (List.range 33).map (MAP_DEF_SIZE * ·) := by
  decide +kernel

theorem length_symsIn_fullSymtab :
    (symsIn fullSymtab 1).length = MAX_MAPS + 1 := by
  have hLength :=
    congrArg List.length stValues_fullSymtab
  rw [List.length_map, List.length_map, List.length_range]
    at hLength
  exact hLength

/- All the definitions can be read. -/
theorem filledIn_fullElf
    {sym : GElfSym}
    (hMem : sym ∈ symsIn fullSymtab 1) :
    FilledInAmong fullElf 1 (fullSymtab, 2) fullMaps sym := by
  have hSize :
      cInt (fullMaps.dSize / (symsIn fullSymtab 1).length) =
        MAP_DEF_SIZE := by
    rw [length_symsIn_fullSymtab]
    decide
  have hLength :
      fullMaps.dBuf.length = MAP_DEF_SIZE * 33 := by
    decide +kernel
  have hHere :
      sym.stValue + MAP_DEF_SIZE ≤ fullMaps.dBuf.length := by
    have hValue : sym.stValue ∈ _ :=
      List.mem_map_of_mem hMem
    rw [stValues_fullSymtab] at hValue
    rcases List.mem_map.mp hValue with ⟨k, hRange, hEq⟩
    rw [List.mem_range] at hRange
    rw [hLength, ← hEq]
    unfold MAP_DEF_SIZE
    omega
  unfold FilledInAmong
  simp only
  rw [hSize]
  refine ⟨rfl, by decide, Or.inr ?_, fun _ => ?_, ?_⟩
  · rw [Int.toNat_natCast, Nat.min_self]
    exact hHere
  · rw [Int.toNat_natCast]
    exact hHere
  · rw [Int.toNat_natCast, newFeatureAt, Nat.sub_self,
      List.take_zero]
    rfl

/- The entry of `map_data` for the last map does not exist. -/
theorem fullElf_overrun :
    ¬ TablesSafe fullElf 1 (fullSymtab, 2) := by
  intro hSafe
  have hData :
      fullElf.scns[1]?.bind ElfScn.data = some fullMaps := by
    decide +kernel
  have hCount := length_symsIn_fullSymtab
  have hLt :
      MAX_MAPS < (sortedSyms (symsIn fullSymtab 1)).length := by
    rw [length_sortedSyms, hCount]
    exact Nat.lt_succ_self _
  apply (hSafe.fit hData).not_overfull
  refine ⟨hCount, by unfold EndsInMapSym; decide +kernel, ?_,
    ⟨_, List.getElem?_eq_getElem hLt, rfl⟩⟩
  intro sym hMem
  exact filledIn_fullElf
    (mem_sortedSyms.mp (List.mem_of_mem_take hMem))

end XdpDdos
