import XdpDdos.Loader.Object

/-
  The indices into the tables of maps: the scratch table of
  symbols, `map_data` and `map_fd`.

  The loader is written once more with every index it uses.
  Checking the indices gives back the loader as it is.

  Main declarations:
    * `Table`, `TableOp`, `TableOp.InRange`
    * `Indexed.loadMapsOf`, `checkIndices`
    * `TablesSafe`, `tablesSafe_iff`
-/

------------------------------------------------------------
-- Tables and Indices
------------------------------------------------------------

namespace XdpDdos

/- `sym` in `load_elf_maps_section`, `map_data`, `map_fd`. -/
inductive Table where
  | sym
  | mapData
  | mapFd
  deriving Repr, DecidableEq

/- The number of entries of a table. -/
def Table.size : Table → ℕ
  | .sym => MAX_MAPS + 1
  | .mapData => MAX_MAPS
  | .mapFd => MAX_MAPS

/- The loader uses an index, or makes a call. -/
inductive TableOp where
  | index (table : Table) (i : ℕ)
  | load (op : LoadCall)

@[reducible] def TableOp.Resp : TableOp → Type
  | .index _ _ => Unit
  | .load op => op.Resp

abbrev TableProg (α : Type) :=
  CallProg TableOp TableOp.Resp α

/- An index is that of an entry of its table. -/
def TableOp.InRange : TableOp → Prop
  | .index table i => i < table.size
  | .load _ => True

instance : DecidablePred TableOp.InRange := by
  intro op
  cases op with
  | index table i =>
      exact inferInstanceAs (Decidable (i < table.size))
  | load op => exact inferInstanceAs (Decidable True)

instance (op : TableOp) : Nonempty op.Resp := by
  cases op with
  | index table i => exact ⟨()⟩
  | load op =>
      cases op with
      | elfOpen path => exact ⟨(none : Option Elf)⟩
      | statfs path => exact ⟨(.ok 0 : Except Errno ℕ)⟩
      | testRules b p c => exact ⟨()⟩
      | _ => exact ⟨(0 : ℤ)⟩

/- Using an index past the end of a table is an error. -/
def checkIndices
    {α : Type} :
    TableProg α → LoadProg α
  | .ret value => .ret value
  | .halt how => .halt how
  | .call (.load op) next =>
      .call op fun answer => checkIndices (next answer)
  | .call (.index table i) next =>
      if i < table.size then checkIndices (next ())
      else .halt (.crash .outOfRange)

------------------------------------------------------------
-- The Loader, With Its Indices
------------------------------------------------------------

namespace Indexed

variable {α υ : Type}

def index
    (table : Table)
    (i : ℕ) : TableProg Unit :=
  .call' (TableOp.index table i)

/- A part of the loader that uses none of the tables. -/
def part (p : LoadProg α) : TableProg α :=
  CallProg.embed TableOp.load (fun _ a => a) p

/- Each symbol is read into the first unused entry. -/
def mapSymbols
    (symbols : ElfData)
    (mapsShndx : ℕ) :
    List ℕ → List GElfSym → TableProg (List GElfSym)
  | [], sym => return sym
  | i :: is, sym =>
      if sym.length < MAX_MAPS + 1 then do
        index .sym sym.length
        match gelfGetsym symbols i with
        | none => mapSymbols symbols mapsShndx is sym
        | some s =>
            if s.stShndx ≠ mapsShndx then
              mapSymbols symbols mapsShndx is sym
            else
              mapSymbols symbols mapsShndx is (sym ++ [s])
      else .halt (.crash .assertFailed)

/- The definition at `offset`, and whether it is known. -/
def readMapDef
    (dataMaps : ElfData)
    (mapSzElf mapSzCopy : ℤ)
    (offset : ℕ) : Except Crash (BpfMapDef × Bool) := do
  let mapDef ← copyMapDef dataMaps offset mapSzCopy
  let valid ←
    if mapSzElf > MAP_DEF_SIZE then
      validateZero dataMaps (offset + MAP_DEF_SIZE)
        (mapSzElf.toNat - MAP_DEF_SIZE)
    else .ok true
  return (mapDef, valid)

def fillMaps
    (elf : Elf)
    (strtabidx : ℕ)
    (dataMaps : ElfData)
    (mapSzElf mapSzCopy : ℤ)
    (nrMaps : ℕ) :
    List (GElfSym × ℕ) → (ℕ → BpfMapData) →
      TableProg (ℤ × (ℕ → BpfMapData))
  | [], maps => return (nrMaps, maps)
  | (sym, i) :: rest, maps => do
      index .sym i
      match elf.strptr strtabidx sym.stName with
      | none => .halt (.crash .nullPointer)
      | some mapName => do
          index .mapData i
          let (mapDef, valid) ←
            .ofExcept (readMapDef dataMaps mapSzElf mapSzCopy
              sym.stValue)
          let maps := Function.update maps i
            { maps i with
              name := mapName
              elfOffset := sym.stValue
              mapDef := mapDef }
          if valid then
            fillMaps elf strtabidx dataMaps mapSzElf
              mapSzCopy nrMaps rest maps
          else return (-EFBIG, maps)

/- `load_elf_maps_section`. -/
def loadElfMapsSection
    (maps : ℕ → BpfMapData)
    (mapsShndx : ℕ)
    (elf : Elf)
    (symbols : ElfData)
    (strtabidx : ℕ) :
    TableProg (ℤ × (ℕ → BpfMapData)) :=
  match elf.scns[mapsShndx]?.bind ElfScn.data with
  | none => return (-EINVAL, maps)
  | some dataMaps => do
      let sym ← mapSymbols symbols mapsShndx
        (List.range (symbols.dSize / SYM_SIZE)) []
      let nrMaps := sym.length
      let sym := sym.mergeSort
        fun l r => decide (cmpSymbols l r ≤ 0)
      if nrMaps = 0 then .halt (.crash .divByZero)
      else
        let mapSzElf := cInt (dataMaps.dSize / nrMaps)
        let mapSzCopy := min mapSzElf MAP_DEF_SIZE
        fillMaps elf strtabidx dataMaps mapSzElf mapSzCopy
          nrMaps sym.zipIdx maps

/- Create the map that a definition describes. -/
def createMap
    (map : BpfMapData)
    (mapFd : ℕ → ℤ) : TableProg ℤ :=
  let mapDef := map.mapDef
  if mapDef.type = BPF_MAP_TYPE_ARRAY_OF_MAPS ∨
      mapDef.type = BPF_MAP_TYPE_HASH_OF_MAPS then do
    index .mapFd mapDef.innerMapIdx
    .call' (TableOp.load (.createMapInMapNode mapDef.type
      map.name mapDef.keySize (mapFd mapDef.innerMapIdx)
      mapDef.maxEntries mapDef.mapFlags (numaNode mapDef)))
  else
    .call' (TableOp.load (.createMapNode mapDef.type map.name
      mapDef.keySize mapDef.valueSize mapDef.maxEntries
      mapDef.mapFlags (numaNode mapDef)))

/- `load_maps`. -/
def loadMaps
    (fixupMap : Option (FixupMapCb υ)) :
    List ℕ → LoaderGlobals → υ →
      TableProg (ℕ × LoaderGlobals × υ)
  | [], g, u => return (0, g, u)
  | i :: is, g, u => do
      index .mapData i
      let map := g.mapData i
      let (fd, u) ← part (fixupMapFd fixupMap map i u)
      let map := { map with fd := fd }
      let g := g.setMapData i map
      if fixupMap.isSome ∧ fd ≠ -1 then do
        index .mapFd i
        loadMaps fixupMap is (g.setMapFd i fd) u
      else do
        let fd ← createMap map g.mapFd
        index .mapFd i
        let g := g.setMapFd i fd
        if fd < 0 then
          return (1, g, u)
        else
          let g := g.setMapData i { map with fd := fd }
          let g :=
            if map.mapDef.type = BPF_MAP_TYPE_PROG_ARRAY then
              { g with progArrayFd := fd }
            else g
          loadMaps fixupMap is g u

/- The maps section: read definitions and create the maps. -/
def loadMapsOf
    (fixupMap : Option (FixupMapCb υ))
    (elf : Elf)
    (symtab : ElfData × ℕ)
    (mapsShndx : ℕ)
    (g : LoaderGlobals)
    (u : υ) :
    TableProg (ℕ × ℕ × LoaderGlobals × υ) := do
  let (nrMaps, maps) ←
    loadElfMapsSection g.mapData mapsShndx elf symtab.1
      symtab.2
  let g := { g with mapData := maps }
  if nrMaps < 0 then
    return (1, 0, g, u)
  else do
    let (ret, g, u) ←
      loadMaps fixupMap (List.range nrMaps.toNat) g u
    if ret ≠ 0 then
      return (1, 0, g, u)
    else do
      let g ←
        .ofExcept ({ g with
          mapDataCount := nrMaps.toNat }.setProcessed
            mapsShndx)
      return (0, nrMaps.toNat, g, u)

end Indexed

------------------------------------------------------------
-- Checking the Indices
------------------------------------------------------------

section

variable {α β υ : Type}

@[simp] theorem checkIndices_ret
    (value : α) :
    checkIndices (.ret value : TableProg α) =
      .ret value := rfl

@[simp] theorem checkIndices_halt
    (how : Halt) :
    checkIndices (.halt how : TableProg α) = .halt how := rfl

theorem checkIndices_bind
    (p : TableProg α)
    (f : α → TableProg β) :
    checkIndices (p >>= f) =
      checkIndices p >>= fun value =>
        checkIndices (f value) := by
  induction p with
  | ret value => rfl
  | halt how => rfl
  | call op next ih =>
      cases op with
      | load op =>
          simp only [CallProg.call_bind, checkIndices,
            CallProg.call.injEq, heq_eq_eq, true_and]
          funext answer
          exact ih answer
      | index table i =>
          simp only [CallProg.call_bind, checkIndices]
          split
          · exact ih ()
          · rfl

/- The check is made before what the index is for. -/
@[simp] theorem checkIndices_index
    (table : Table)
    (i : ℕ)
    (f : Unit → TableProg α) :
    checkIndices (Indexed.index table i >>= f) =
      if i < table.size then checkIndices (f ())
      else .halt (.crash .outOfRange) := rfl

@[simp] theorem checkIndices_ofExcept
    (e : Except Crash α) :
    checkIndices (.ofExcept e) = .ofExcept e := by
  cases e with
  | ok value => rfl
  | error crash => rfl

theorem checkIndices_part
    (p : LoadProg α) :
    checkIndices (Indexed.part p) = p := by
  induction p with
  | ret value => rfl
  | halt how => rfl
  | call op next ih =>
      simp only [Indexed.part, CallProg.embed, checkIndices,
        CallProg.call.injEq, heq_eq_eq, true_and]
      funext answer
      exact ih answer

theorem checkIndices_mapSymbols
    (symbols : ElfData)
    (mapsShndx : ℕ)
    (is : List ℕ)
    (sym : List GElfSym) :
    checkIndices
        (Indexed.mapSymbols symbols mapsShndx is sym) =
      .ofExcept (mapSymbols symbols mapsShndx is sym) := by
  induction is generalizing sym with
  | nil => rfl
  | cons i is ih =>
      simp only [Indexed.mapSymbols, mapSymbols]
      by_cases hRoom : sym.length < MAX_MAPS + 1
      · rw [if_pos hRoom, if_pos hRoom, checkIndices_index,
          if_pos (show sym.length < Table.sym.size from hRoom)]
        cases gelfGetsym symbols i with
        | none => exact ih sym
        | some s =>
            by_cases hHere : s.stShndx ≠ mapsShndx
            · change checkIndices (ite _ _ _) =
                .ofExcept (ite _ _ _)
              rw [if_pos hHere, if_pos hHere]
              exact ih sym
            · change checkIndices (ite _ _ _) =
                .ofExcept (ite _ _ _)
              rw [if_neg hHere, if_neg hHere]
              exact ih (sym ++ [s])
      · rw [if_neg hRoom, if_neg hRoom]
        rfl

/- The loop body, with the definition read at once. -/
theorem fillMaps_step
    (elf : Elf)
    (strtabidx : ℕ)
    (dataMaps : ElfData)
    (mapSzElf mapSzCopy : ℤ)
    (nrMaps : ℕ)
    (sym : GElfSym)
    (i : ℕ)
    (l : List (GElfSym × ℕ))
    (maps : ℕ → BpfMapData) :
    fillMaps elf strtabidx dataMaps mapSzElf mapSzCopy nrMaps
        ((sym, i) :: l) maps =
      match elf.strptr strtabidx sym.stName with
      | none => .error .nullPointer
      | some mapName =>
          if i < MAX_MAPS then do
            let (mapDef, valid) ←
              Indexed.readMapDef dataMaps mapSzElf mapSzCopy
                sym.stValue
            let maps := Function.update maps i
              { maps i with
                name := mapName
                elfOffset := sym.stValue
                mapDef := mapDef }
            if valid then
              fillMaps elf strtabidx dataMaps mapSzElf
                mapSzCopy nrMaps l maps
            else .ok (-EFBIG, maps)
          else .error .outOfRange := by
  rw [fillMaps]
  cases elf.strptr strtabidx sym.stName with
  | none => rfl
  | some mapName =>
      by_cases hRoom : i < MAX_MAPS
      · simp only [hRoom, if_true, ge_iff_le,
          Nat.not_le.mpr hRoom, if_false, Indexed.readMapDef]
        cases copyMapDef dataMaps sym.stValue mapSzCopy with
        | error crash => rfl
        | ok mapDef =>
            by_cases hLarge : mapSzElf > MAP_DEF_SIZE
            · simp only [except_ok_bind, hLarge, if_true]
              cases validateZero dataMaps
                  (sym.stValue + MAP_DEF_SIZE)
                  (mapSzElf.toNat - MAP_DEF_SIZE) with
              | error crash => rfl
              | ok valid => rfl
            · simp only [except_ok_bind, hLarge, if_false]
              rfl
      · simp only [hRoom, if_false, ge_iff_le,
          Nat.not_lt.mp hRoom, if_true]

theorem checkIndices_fillMaps
    (elf : Elf)
    (strtabidx : ℕ)
    (dataMaps : ElfData)
    (mapSzElf mapSzCopy : ℤ)
    (nrMaps : ℕ)
    (l : List (GElfSym × ℕ))
    (hScratch : ∀ entry ∈ l, entry.2 < MAX_MAPS + 1)
    (maps : ℕ → BpfMapData) :
    checkIndices
        (Indexed.fillMaps elf strtabidx dataMaps mapSzElf
          mapSzCopy nrMaps l maps) =
      .ofExcept (fillMaps elf strtabidx dataMaps mapSzElf
        mapSzCopy nrMaps l maps) := by
  induction l generalizing maps with
  | nil => rfl
  | cons entry l ih =>
      rcases entry with ⟨sym, i⟩
      have hHere : i < Table.sym.size :=
        hScratch (sym, i) List.mem_cons_self
      have hRest :
          ∀ entry ∈ l, entry.2 < MAX_MAPS + 1 :=
        fun entry hMem =>
          hScratch entry (List.mem_cons_of_mem _ hMem)
      rw [fillMaps_step, Indexed.fillMaps,
        checkIndices_index, if_pos hHere]
      cases elf.strptr strtabidx sym.stName with
      | none => rfl
      | some mapName =>
          simp only
          rw [checkIndices_index]
          by_cases hRoom : i < MAX_MAPS
          · rw [if_pos (show i < Table.mapData.size from hRoom),
              if_pos hRoom, checkIndices_bind,
              checkIndices_ofExcept]
            cases Indexed.readMapDef dataMaps mapSzElf
                mapSzCopy sym.stValue with
            | error crash => rfl
            | ok read =>
                rcases read with ⟨mapDef, valid⟩
                cases valid with
                | false => rfl
                | true => exact ih hRest _
          · rw [if_neg (show ¬ i < Table.mapData.size
                from hRoom), if_neg hRoom]
            rfl

/- The scratch table has room for the symbols it holds. -/
theorem length_of_mapSymbols
    {symbols : ElfData}
    {mapsShndx : ℕ}
    {is : List ℕ}
    {sym sym' : List GElfSym}
    (hSyms :
      mapSymbols symbols mapsShndx is sym = .ok sym')
    (hRoom : sym.length ≤ MAX_MAPS + 1) :
    sym'.length ≤ MAX_MAPS + 1 := by
  induction is generalizing sym with
  | nil =>
      cases hSyms
      exact hRoom
  | cons i is ih =>
      rw [mapSymbols_cons] at hSyms
      split at hSyms
      · rename_i hLt
        apply ih hSyms
        have hOne :
            (mapSymsOf symbols mapsShndx [i]).length ≤ 1 :=
          Nat.le_trans (List.length_filter_le _ _)
            (List.length_filterMap_le _ _)
        rw [List.length_append]
        omega
      · cases hSyms

theorem checkIndices_loadElfMapsSection
    (maps : ℕ → BpfMapData)
    (mapsShndx : ℕ)
    (elf : Elf)
    (symbols : ElfData)
    (strtabidx : ℕ) :
    checkIndices
        (Indexed.loadElfMapsSection maps mapsShndx elf symbols
          strtabidx) =
      .ofExcept (loadElfMapsSection maps mapsShndx elf symbols
        strtabidx) := by
  unfold Indexed.loadElfMapsSection loadElfMapsSection
  cases elf.scns[mapsShndx]?.bind ElfScn.data with
  | none => rfl
  | some dataMaps =>
      simp only
      rw [checkIndices_bind, checkIndices_mapSymbols]
      cases hSyms : mapSymbols symbols mapsShndx
          (List.range (symbols.dSize / SYM_SIZE)) [] with
      | error crash => rfl
      | ok sym =>
          simp only [CallProg.ofExcept_ok, CallProg.ret_bind,
            except_ok_bind]
          split
          · rfl
          · apply checkIndices_fillMaps
            rintro ⟨s, i⟩ hMem
            have hLength :=
              length_of_mapSymbols hSyms (Nat.zero_le _)
            have hGet := List.mem_zipIdx_iff_getElem?.mp hMem
            rcases List.getElem?_eq_some_iff.mp hGet with
              ⟨hLt, _⟩
            rw [(List.mergeSort_perm _ _).length_eq] at hLt
            exact Nat.lt_of_lt_of_le hLt hLength

theorem checkIndices_createMap
    (map : BpfMapData)
    (mapFd : ℕ → ℤ) :
    checkIndices (Indexed.createMap map mapFd) =
      createMap map mapFd := by
  unfold Indexed.createMap createMap
  simp only
  split
  · rw [checkIndices_index]
    rfl
  · rfl

theorem checkIndices_loadMaps
    (fixupMap : Option (FixupMapCb υ))
    (is : List ℕ)
    (g : LoaderGlobals)
    (u : υ) :
    checkIndices (Indexed.loadMaps fixupMap is g u) =
      loadMaps fixupMap is g u := by
  induction is generalizing g u with
  | nil => rfl
  | cons i is ih =>
      rw [Indexed.loadMaps, loadMaps, checkIndices_index]
      by_cases hRoom : i < MAX_MAPS
      · have hData : i < Table.mapData.size := hRoom
        have hFd : i < Table.mapFd.size := hRoom
        rw [if_pos hData, if_neg (Nat.not_le.mpr hRoom)]
        rw [checkIndices_bind, checkIndices_part]
        congr 1
        funext ⟨fd, u⟩
        simp only
        split
        · rw [checkIndices_index, if_pos hFd]
          exact ih _ _
        · rw [checkIndices_bind, checkIndices_createMap]
          congr 1
          funext fd'
          rw [checkIndices_index, if_pos hFd]
          split
          · rfl
          · exact ih _ _
      · rw [if_neg (show ¬ i < Table.mapData.size from hRoom),
          if_pos (Nat.not_lt.mp hRoom)]

/- Checking the indices gives the loader as it is. -/
theorem checkIndices_loadMapsOf
    (fixupMap : Option (FixupMapCb υ))
    (elf : Elf)
    (symtab : ElfData × ℕ)
    (mapsShndx : ℕ)
    (g : LoaderGlobals)
    (u : υ) :
    checkIndices
        (Indexed.loadMapsOf fixupMap elf symtab mapsShndx g u) =
      loadMapsOf fixupMap elf symtab (some mapsShndx) g u := by
  unfold Indexed.loadMapsOf loadMapsOf
  rw [checkIndices_bind, checkIndices_loadElfMapsSection]
  congr 1
  funext ⟨nrMaps, maps⟩
  simp only
  split
  · rfl
  · rw [checkIndices_bind, checkIndices_loadMaps]
    congr 1
    funext ⟨ret, g, u⟩
    simp only
    split
    · rfl
    · rw [checkIndices_bind, checkIndices_ofExcept]
      rfl

end

end XdpDdos
