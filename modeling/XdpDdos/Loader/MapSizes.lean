import XdpDdos.Loader.Object

/-
  Reading a maps section whose definitions have a size that
  need not be the loader's own: short definitions are padded
  with zeros, and the rest of long ones must be zero.

  Main declarations:
    * `MapSource`, `SizedMaps`
    * `SizedMaps.entry_eq`
    * `loadElfMapsSection_decodes`
-/

------------------------------------------------------------
-- Definitions of Any Size
------------------------------------------------------------

namespace XdpDdos

/- A map as it stands in the object file. -/
structure MapSource where
  name : CStr
  bytes : ByteSeq

namespace MapSource

/- The part that the loader knows, followed by zeros. -/
def mapDef (src : MapSource) : BpfMapDef :=
  decodeMapDef
    (src.bytes.take MAP_DEF_SIZE ++
      List.replicate (MAP_DEF_SIZE - src.bytes.length) 0)

/- A byte behind that part is set. -/
def NewFeature (src : MapSource) : Prop :=
  ∃ b ∈ src.bytes.drop MAP_DEF_SIZE, b ≠ 0

end MapSource

/-
  One to 32 definitions of `size` bytes fill the section, and
  the symbols of the section are one for each of them.
-/
structure SizedMaps
    (elf : Elf)
    (mapsShndx : ℕ)
    (symtab : ElfData × ℕ)
    (dataMaps : ElfData)
    (size : ℕ)
    (srcs : List MapSource) : Prop where
  data_eq :
    elf.scns[mapsShndx]?.bind ElfScn.data = some dataMaps
  srcs_pos : 1 ≤ srcs.length
  srcs_le : srcs.length ≤ MAX_MAPS
  size_pos : 1 ≤ size
  size_lt : size < 2 ^ 31
  bytes_length : ∀ src ∈ srcs, src.bytes.length = size
  buf_eq : dataMaps.dBuf = srcs.flatMap MapSource.bytes
  size_eq : dataMaps.dSize = srcs.length * size
  syms :
    ((symsIn symtab.1 mapsShndx).map fun sym =>
        (elf.strptr symtab.2 sym.stName, sym.stValue)).Perm
      (srcs.zipIdx.map fun entry =>
        (some entry.1.name, size * entry.2))

------------------------------------------------------------
-- One Definition in the Section
------------------------------------------------------------

/- Pieces of one length start at the multiples of it. -/
theorem drop_flatMap_of_length
    {α β : Type}
    {f : α → List β}
    {l : List α}
    {size i : ℕ}
    {x : α}
    (hLength : ∀ y ∈ l, (f y).length = size)
    (hGet : l[i]? = some x) :
    ∃ rest, (l.flatMap f).drop (size * i) = f x ++ rest := by
  induction l generalizing i with
  | nil => simp at hGet
  | cons y l ih =>
      have hHead := hLength y List.mem_cons_self
      rw [List.flatMap_cons]
      cases i with
      | zero =>
          rw [List.getElem?_cons_zero] at hGet
          cases hGet
          exact ⟨l.flatMap f, rfl⟩
      | succ i =>
          rw [List.getElem?_cons_succ] at hGet
          have hSplit :
              size * (i + 1) = (f y).length + size * i := by
            rw [hHead, Nat.mul_succ, Nat.add_comm]
          rw [hSplit, List.drop_append, List.drop_eq_nil_of_le
            (by omega), List.nil_append,
            Nat.add_sub_cancel_left]
          exact ih
            (fun z hMem =>
              hLength z (List.mem_cons_of_mem _ hMem))
            hGet

/- Zeros that follow a definition leave it as it is. -/
theorem decodeMapDef_append_zeros
    (bytes : ByteSeq)
    (n : ℕ) :
    decodeMapDef (bytes ++ List.replicate n 0) =
      decodeMapDef bytes := by
  have hByte (off : ℕ) :
      (bytes ++ List.replicate n 0 : ByteSeq).byteAt off =
        bytes.byteAt off := by
    simp only [ByteSeq.byteAt, List.getD_eq_getElem?_getD,
      List.getElem?_append]
    split
    · rfl
    · rename_i hPast
      rw [List.getElem?_eq_none (Nat.le_of_not_lt hPast),
        List.getElem?_replicate]
      split
      · rfl
      · rfl
  simp only [decodeMapDef, ByteSeq.le32At, hByte]

section

variable {elf : Elf}
variable {mapsShndx : ℕ}
variable {symtab : ElfData × ℕ}
variable {dataMaps : ElfData}
variable {size : ℕ}
variable {srcs : List MapSource}

/- The buffer at the offset of a definition starts with it. -/
theorem SizedMaps.drop_dBuf
    (hMaps :
      SizedMaps elf mapsShndx symtab dataMaps size srcs)
    {i : ℕ}
    {src : MapSource}
    (hGet : srcs[i]? = some src) :
    ∃ rest,
      dataMaps.dBuf.drop (size * i) = src.bytes ++ rest := by
  rw [hMaps.buf_eq]
  exact drop_flatMap_of_length hMaps.bytes_length hGet

/- What is copied there is the definition. -/
theorem SizedMaps.decode_eq
    (hMaps :
      SizedMaps elf mapsShndx symtab dataMaps size srcs)
    {i : ℕ}
    {src : MapSource}
    (hGet : srcs[i]? = some src) :
    decodeMapDef
        ((dataMaps.dBuf.drop (size * i)).take
          (min size MAP_DEF_SIZE)) =
      src.mapDef := by
  rcases hMaps.drop_dBuf hGet with ⟨rest, hRest⟩
  have hLength :=
    hMaps.bytes_length src (List.mem_of_getElem? hGet)
  rw [MapSource.mapDef, decodeMapDef_append_zeros, hRest,
    List.take_append_of_le_length (by omega)]
  congr 1
  rcases Nat.le_total size MAP_DEF_SIZE with hLe | hGe
  · rw [Nat.min_eq_left hLe, List.take_of_length_le (by omega),
      List.take_of_length_le (by omega)]
  · rw [Nat.min_eq_right hGe]

/- The bytes that are checked are those behind its part. -/
theorem SizedMaps.newFeatureAt_iff
    (hMaps :
      SizedMaps elf mapsShndx symtab dataMaps size srcs)
    {i : ℕ}
    {src : MapSource}
    (hGet : srcs[i]? = some src) :
    newFeatureAt dataMaps size (size * i) = true ↔
      src.NewFeature := by
  rcases hMaps.drop_dBuf hGet with ⟨rest, hRest⟩
  have hLength :=
    hMaps.bytes_length src (List.mem_of_getElem? hGet)
  have hBytes :
      (dataMaps.dBuf.drop (size * i + MAP_DEF_SIZE)).take
          (size - MAP_DEF_SIZE) =
        src.bytes.drop MAP_DEF_SIZE := by
    rw [← List.drop_drop, hRest, List.drop_append,
      List.take_append_of_le_length
        (by rw [List.length_drop]; omega)]
    apply List.take_of_length_le
    rw [List.length_drop]
    omega
  rw [newFeatureAt, hBytes]
  simp [MapSource.NewFeature]

------------------------------------------------------------
-- The Symbols of the Section
------------------------------------------------------------

/- There are as many symbols as definitions. -/
theorem SizedMaps.length_syms
    (hMaps :
      SizedMaps elf mapsShndx symtab dataMaps size srcs) :
    (symsIn symtab.1 mapsShndx).length = srcs.length := by
  simpa using hMaps.syms.length_eq

/- Their offsets are those of the definitions. -/
theorem SizedMaps.offsets
    (hMaps :
      SizedMaps elf mapsShndx symtab dataMaps size srcs) :
    ((symsIn symtab.1 mapsShndx).map GElfSym.stValue).Perm
      ((List.range (symsIn symtab.1 mapsShndx).length).map
        (size * ·)) := by
  have hValues := hMaps.syms.map Prod.snd
  rw [List.map_map, List.map_map] at hValues
  have hRange :
      srcs.zipIdx.map
          (Prod.snd ∘ fun entry =>
            (some entry.1.name, size * entry.2)) =
        (List.range srcs.length).map (size * ·) := by
    have hIdx : srcs.zipIdx.map Prod.snd =
        List.range srcs.length := by
      rw [List.zipIdx_map_snd, List.range_eq_range']
    rw [← hIdx, List.map_map]
    rfl
  rw [hRange] at hValues
  rw [hMaps.length_syms]
  exact hValues

/- The symbol of an entry names the definition there. -/
theorem SizedMaps.entry_eq
    (hMaps :
      SizedMaps elf mapsShndx symtab dataMaps size srcs)
    {sym : GElfSym}
    {i : ℕ}
    (hMem :
      (sym, i) ∈ (sortedSyms
        (symsIn symtab.1 mapsShndx)).zipIdx) :
    ∃ src,
      srcs[i]? = some src ∧
        sym.stValue = size * i ∧
        elf.strptr symtab.2 sym.stName = some src.name := by
  have hValue := (stValue_of_mem_zipIdx hMaps.offsets hMem).1
  have hSym : sym ∈ symsIn symtab.1 mapsShndx :=
    mem_sortedSyms.mp
      (List.mem_of_getElem?
        (List.mem_zipIdx_iff_getElem?.mp hMem))
  have hSource :
      (elf.strptr symtab.2 sym.stName, sym.stValue) ∈
        srcs.zipIdx.map fun entry =>
          (some entry.1.name, size * entry.2) :=
    hMaps.syms.mem_iff.mp
      (List.mem_map_of_mem
        (f := fun sym =>
          (elf.strptr symtab.2 sym.stName, sym.stValue))
        hSym)
  rcases List.mem_map.mp hSource with
    ⟨⟨src, j⟩, hEntry, hEq⟩
  rw [Prod.mk.injEq] at hEq
  rcases hEq with ⟨hName, hOffset⟩
  -- the offsets of two definitions differ
  have hIdx : j = i := by
    rw [hValue] at hOffset
    exact Nat.eq_of_mul_eq_mul_left hMaps.size_pos hOffset
  subst hIdx
  exact ⟨src, List.mem_zipIdx_iff_getElem?.mp hEntry, hValue,
    hName.symm⟩

/- Each definition has a symbol among the sorted ones. -/
theorem SizedMaps.exists_entry
    (hMaps :
      SizedMaps elf mapsShndx symtab dataMaps size srcs)
    {i : ℕ}
    (hLt : i < srcs.length) :
    ∃ sym,
      (sym, i) ∈ (sortedSyms
        (symsIn symtab.1 mapsShndx)).zipIdx := by
  rw [← hMaps.length_syms, ← length_sortedSyms] at hLt
  exact ⟨_, List.mem_zipIdx_iff_getElem?.mpr
    (List.getElem?_eq_getElem hLt)⟩

/- Every symbol has an entry, a name and its bytes. -/
theorem SizedMaps.entries_fit
    (hMaps :
      SizedMaps elf mapsShndx symtab dataMaps size srcs) :
    ∀ entry ∈ (sortedSyms
        (symsIn symtab.1 mapsShndx)).zipIdx,
      EntryFits elf symtab.2 dataMaps size entry := by
  rintro ⟨sym, i⟩ hMem
  rcases hMaps.entry_eq hMem with ⟨src, hGet, hValue, hName⟩
  rcases List.getElem?_eq_some_iff.mp hGet with ⟨hLt, _⟩
  refine ⟨Nat.lt_of_lt_of_le hLt hMaps.srcs_le, ?_, ?_⟩
  · rw [hName]
    rfl
  · rcases hMaps.drop_dBuf hGet with ⟨rest, hRest⟩
    have hLength :=
      hMaps.bytes_length src (List.mem_of_getElem? hGet)
    have hSize := hMaps.size_pos
    have hDrop := congrArg List.length hRest
    rw [List.length_drop, List.length_append, hLength]
      at hDrop
    simp only [hValue]
    omega

------------------------------------------------------------
-- Reading the Section
------------------------------------------------------------

/- The section is read by filling in the sorted symbols. -/
theorem SizedMaps.loadElfMapsSection_eq
    (hMaps :
      SizedMaps elf mapsShndx symtab dataMaps size srcs)
    (maps : ℕ → BpfMapData) :
    loadElfMapsSection maps mapsShndx elf symtab.1 symtab.2 =
      fillMaps elf symtab.2 dataMaps size
        (min size MAP_DEF_SIZE : ℕ) srcs.length
        (sortedSyms (symsIn symtab.1 mapsShndx)).zipIdx
        maps := by
  have hPos := hMaps.srcs_pos
  have hSyms :
      mapSymbols symtab.1 mapsShndx
          (List.range (symtab.1.dSize / SYM_SIZE)) [] =
        .ok (symsIn symtab.1 mapsShndx) := by
    have hRoom := hMaps.srcs_le
    rw [← hMaps.length_syms] at hRoom
    rw [mapSymbols_eq (by simpa [symsIn_eq] using hRoom)]
    rfl
  have hCount : srcs.length ≠ 0 := by
    omega
  have hSize : cInt (dataMaps.dSize / srcs.length) = size := by
    rw [hMaps.size_eq, Nat.mul_div_cancel_left _ (by omega)]
    exact cInt_of_lt hMaps.size_lt
  have hCopy :
      ((min size MAP_DEF_SIZE : ℕ) : ℤ) =
        min (size : ℤ) MAP_DEF_SIZE := by
    omega
  simp only [loadElfMapsSection, hMaps.data_eq, hSyms,
    except_ok_bind, hMaps.length_syms, hCount, if_false,
    hSize, hCopy]
  rfl

/-
  Definitions of every size are decoded, unless one of them
  asks for a feature that the loader does not know.
-/
theorem loadElfMapsSection_decodes
    (hMaps :
      SizedMaps elf mapsShndx symtab dataMaps size srcs)
    (maps : ℕ → BpfMapData) :
    ∃ ret maps',
      loadElfMapsSection maps mapsShndx elf symtab.1
          symtab.2 = .ok (ret, maps') ∧
      ((∃ src ∈ srcs, src.NewFeature) → ret = -EFBIG) ∧
      ((∀ src ∈ srcs, ¬ src.NewFeature) →
        ret = srcs.length ∧
          ∀ i src, srcs[i]? = some src →
            (maps' i).name = src.name ∧
              (maps' i).elfOffset = i * size ∧
              (maps' i).mapDef = src.mapDef) := by
  rw [hMaps.loadElfMapsSection_eq]
  by_cases hNew : ∃ src ∈ srcs, src.NewFeature
  · have hEntry :
        ∃ entry ∈ (sortedSyms
            (symsIn symtab.1 mapsShndx)).zipIdx,
          newFeatureAt dataMaps size entry.1.stValue =
            true := by
      rcases hNew with ⟨src, hMem, hFeature⟩
      rcases List.mem_iff_getElem?.mp hMem with ⟨i, hGet⟩
      rcases List.getElem?_eq_some_iff.mp hGet with ⟨hLt, _⟩
      rcases hMaps.exists_entry hLt with ⟨sym, hSym⟩
      rcases hMaps.entry_eq hSym with ⟨_, _, hValue, _⟩
      refine ⟨(sym, i), hSym, ?_⟩
      simp only [hValue]
      exact (hMaps.newFeatureAt_iff hGet).mpr hFeature
    have hStop :
        ∃ maps',
          fillMaps elf symtab.2 dataMaps size
              (min size MAP_DEF_SIZE : ℕ) srcs.length
              (sortedSyms
                (symsIn symtab.1 mapsShndx)).zipIdx maps =
            .ok (-EFBIG, maps') :=
      fillMaps_of_new hMaps.entries_fit hEntry
    rcases hStop with ⟨maps', hFill⟩
    refine ⟨_, maps', hFill, fun _ => rfl, ?_⟩
    intro hNone
    rcases hNew with ⟨src, hMem, hFeature⟩
    exact absurd hFeature (hNone src hMem)
  · have hKnown :
        ∀ entry ∈ (sortedSyms
            (symsIn symtab.1 mapsShndx)).zipIdx,
          newFeatureAt dataMaps size entry.1.stValue =
            false := by
      rintro ⟨sym, i⟩ hMem
      rcases hMaps.entry_eq hMem with ⟨src, hGet, hValue, _⟩
      rw [← Bool.not_eq_true, hValue,
        hMaps.newFeatureAt_iff hGet]
      intro hFeature
      exact hNew ⟨src, List.mem_of_getElem? hGet, hFeature⟩
    refine ⟨_, _, fillMaps_of_known hMaps.entries_fit hKnown,
      fun hSome => absurd hSome hNew, fun _ => ⟨rfl, ?_⟩⟩
    intro i src hGet
    rcases List.getElem?_eq_some_iff.mp hGet with ⟨hLt, _⟩
    rcases hMaps.exists_entry hLt with ⟨sym, hSym⟩
    rcases hMaps.entry_eq hSym with
      ⟨src', hGet', hValue, hName⟩
    rw [hGet] at hGet'
    cases hGet'
    rw [fillTable_of_mem (nodup_zipIdx_sortedSyms _) hSym,
      copiedMap, hName, hValue]
    exact ⟨rfl, Nat.mul_comm size i, hMaps.decode_eq hGet⟩

end

------------------------------------------------------------
-- A File with the Older Layout
------------------------------------------------------------

/- Two definitions that end before `inner_map_idx`. -/
def olderMaps : List MapSource :=
  [⟨"blacklist".toList,
      (mapDefBytes MapId.blacklist.mapDef).take 20⟩,
    ⟨"verdict_cnt".toList,
      (mapDefBytes MapId.verdictCnt.mapDef).take 20⟩]

def olderElf : Elf where
  scns :=
    [⟨none, ⟨0, 0, 0, 0, 0, 0⟩, none, []⟩,
      plainScn "maps" SHT_PROGBITS 3 0 0 0
        (olderMaps.flatMap MapSource.bytes)]
  strptr := fun _ stName =>
    [some [], some "blacklist".toList,
      some "verdict_cnt".toList].getD stName none

/- The symbols come last to first, with one of another. -/
def olderSymtab : ElfData where
  dBuf :=
    symBytes 0 0 0 ++ symBytes 2 1 20 ++ symBytes 1 3 0 ++
      symBytes 1 1 0
  dSize := 96

theorem olderElf_sizedMaps :
    SizedMaps olderElf 1 (olderSymtab, 4)
      ⟨olderMaps.flatMap MapSource.bytes, 40⟩ 20
      olderMaps where
  data_eq := by decide +kernel
  srcs_pos := by decide +kernel
  srcs_le := by decide +kernel
  size_pos := by decide +kernel
  size_lt := by decide +kernel
  bytes_length := by decide +kernel
  buf_eq := rfl
  size_eq := by decide +kernel
  syms := by decide +kernel

theorem olderMaps_decoded :
    ∃ maps',
      loadElfMapsSection LoaderGlobals.start.mapData 1
          olderElf olderSymtab 4 = .ok (2, maps') ∧
        ∀ i src, olderMaps[i]? = some src →
          (maps' i).name = src.name ∧
            (maps' i).elfOffset = i * 20 ∧
            (maps' i).mapDef = src.mapDef := by
  rcases loadElfMapsSection_decodes olderElf_sizedMaps
    LoaderGlobals.start.mapData with
    ⟨ret, maps', hLoad, _, hKnown⟩
  have hNone : ∀ src ∈ olderMaps, ¬ src.NewFeature := by
    unfold MapSource.NewFeature
    decide +kernel
  rcases hKnown hNone with ⟨rfl, hEntries⟩
  exact ⟨maps', hLoad, hEntries⟩

end XdpDdos
