import XdpDdos.Loader.Object

/-
  Which symbols a relocation entry may name.

  The maps section is recognised by its index when its
  symbols are collected, but an entry's symbol is compared by
  its value only.  So an entry for another section is applied
  whenever a map was recorded at the same offset.

  Main declarations:
    * `ReloCall`, `ReloCall.Outside`
    * `ReloCall.OnlyMapReferences`
    * `onlyMapReferences_iff`
-/

------------------------------------------------------------
-- Calls of parse_relo_and_apply
------------------------------------------------------------

namespace XdpDdos

/-
  The arguments of a call, and the index of the maps section,
  if the object has one.  The call is not given the index.
-/
structure ReloCall where
  data : ElfData
  symbols : ElfData
  shdr : GElfShdr
  insn : ByteSeq
  maps : ℕ → BpfMapData
  nrMaps : ℕ
  mapsShndx : Option ℕ

namespace ReloCall

/- The call itself. -/
def run (c : ReloCall) : Except Crash (ℕ × ByteSeq) :=
  parseReloAndApply c.data c.symbols c.shdr c.insn c.maps
    c.nrMaps

/- The number of entries that it comes to, at most. -/
def nrels (c : ReloCall) : ℕ :=
  (cInt (c.shdr.shSize / c.shdr.shEntsize)).toNat

/- The offsets of the maps that are recorded. -/
def offsets (c : ReloCall) : List ℕ :=
  recordedOffsets c.maps c.nrMaps

/- Entry `k` is for a load, and its value is an offset. -/
def Applies
    (c : ReloCall)
    (k : ℕ) : Prop :=
  EntryApplies c.data c.symbols c.offsets c.insn k

/- Entry `k` is for another instruction or no offset. -/
def Refused
    (c : ReloCall)
    (k : ℕ) : Prop :=
  EntryRefused c.data c.symbols c.offsets c.insn k

/- The instructions when entry `k` has been applied. -/
def AppliedTo
    (c : ReloCall)
    (k : ℕ)
    (insn : ByteSeq) : Prop :=
  applyRels c.data c.symbols c.maps c.nrMaps
    (List.range (k + 1)) c.insn = .ok (0, insn)

/- Entry `k` names a symbol elsewhere, or none at all. -/
def Outside
    (c : ReloCall)
    (k : ℕ) : Prop :=
  ∃ rel, gelfGetrel c.data k = some rel ∧
    ∀ sym ∈ gelfGetsym c.symbols rel.sym,
      some sym.stShndx ≠ c.mapsShndx

/- The call returns an error. -/
def Fails (c : ReloCall) : Prop :=
  ∃ ret insn, c.run = .ok (ret, insn) ∧ ret ≠ 0

/-
  If entry `k` is applied, then its symbol is in the maps
  section, and its instruction gets the descriptor of a map
  recorded at the offset of the symbol.
-/
def TakesMapFd
    (c : ReloCall)
    (k : ℕ) : Prop :=
  ∀ insn, c.AppliedTo k insn →
    ∃ e ∈ relRead? c.data c.symbols k,
      some e.sym.stShndx = c.mapsShndx ∧
        ∃ mapIdx < c.nrMaps,
          (c.maps mapIdx).elfOffset = e.sym.stValue ∧
            (insnAt insn e.insnIdx).imm =
              BitVec.ofInt 32 (c.maps mapIdx).fd

/- Only references to maps become descriptors. -/
structure OnlyMapReferences (c : ReloCall) : Prop where
  applied : ∀ k < c.nrels, c.TakesMapFd k
  outside : ∀ k < c.nrels, c.Outside k → c.Fails

------------------------------------------------------------
-- The Entries That Are Applied
------------------------------------------------------------

variable {c : ReloCall}

theorem appliedTo_iff
    {k : ℕ}
    {insn : ByteSeq} :
    c.AppliedTo k insn ↔
      (∀ i ≤ k, c.Applies i) ∧
        insn = patchAll c.maps c.nrMaps
          ((List.range (k + 1)).filterMap
            (relRead? c.data c.symbols)) c.insn := by
  rw [AppliedTo, applyRels_zero_iff]
  simp only [List.mem_range, Nat.lt_succ_iff, Applies, offsets]

/- The call goes on with the entries after `k`. -/
theorem AppliedTo.run_eq
    {k : ℕ}
    {insn : ByteSeq}
    (hApplied : c.AppliedTo k insn)
    (hLt : k < c.nrels) :
    c.run =
      applyRels c.data c.symbols c.maps c.nrMaps
        (List.range' (k + 1) (c.nrels - (k + 1))) insn := by
  have hEntsize : c.shdr.shEntsize ≠ 0 := by
    intro hZero
    rw [nrels, hZero, Nat.div_zero] at hLt
    exact absurd hLt (Nat.not_lt_zero k)
  have hSplit :
      List.range c.nrels =
        List.range (k + 1) ++
          List.range' (k + 1) (c.nrels - (k + 1)) := by
    have hAppend :=
      List.range'_append_1 (s := 0) (m := k + 1)
        (n := c.nrels - (k + 1))
    rw [Nat.zero_add, Nat.add_sub_cancel' hLt] at hAppend
    rw [List.range_eq_range', List.range_eq_range', hAppend]
  rw [run, parseReloAndApply, if_neg hEntsize]
  change applyRels c.data c.symbols c.maps c.nrMaps
    (List.range c.nrels) c.insn = _
  rw [hSplit]
  exact applyRels_append hApplied

/- An applied entry stores a descriptor that was recorded. -/
theorem imm_of_applies
    {k : ℕ}
    {insn : ByteSeq}
    {e : RelEntry}
    (hApplied : c.AppliedTo k insn)
    (hEntry : relRead? c.data c.symbols k = some e) :
    ∃ mapIdx < c.nrMaps,
      (c.maps mapIdx).elfOffset = e.sym.stValue ∧
        (insnAt insn e.insnIdx).imm =
          BitVec.ofInt 32 (c.maps mapIdx).fd := by
  rcases appliedTo_iff.mp hApplied with ⟨hAll, rfl⟩
  rcases hAll k (Nat.le_refl k) with
    ⟨e', hEntry', hInsn, _, hRecorded⟩
  have hSame : e' = e :=
    Option.some.inj (hEntry'.symm.trans hEntry)
  subst hSame
  rcases Option.isSome_iff_exists.mp
    (findMap_isSome_iff.mpr hRecorded) with ⟨mapIdx, hMap⟩
  rcases List.find?_range_eq_some.mp hMap with
    ⟨hOffset, hMem, _⟩
  refine ⟨mapIdx, List.mem_range.mp hMem,
    of_decide_eq_true hOffset, ?_⟩
  -- entry `k` is the last of them to be applied
  rw [List.range_succ, List.filterMap_append,
    List.filterMap_cons_some hEntry, List.filterMap_nil,
    patchAll_append]
  have hKept :
      HasInsn
        (patchAll c.maps c.nrMaps
          ((List.range k).filterMap
            (relRead? c.data c.symbols)) c.insn)
        e'.insnIdx := by
    simpa [HasInsn] using hInsn
  rw [patchAll, List.foldl_cons, List.foldl_nil,
    insnAt_patchInsn hKept, if_pos rfl]
  simp only [BpfInsn.withMapFd, symFd, hMap]

/- An entry that can be read names its symbol only. -/
theorem outside_iff_of_entry
    {k : ℕ}
    {e : RelEntry}
    (hEntry : relRead? c.data c.symbols k = some e) :
    c.Outside k ↔ some e.sym.stShndx ≠ c.mapsShndx := by
  rcases Option.bind_eq_some_iff.mp hEntry with
    ⟨rel, hRel, hSymMap⟩
  rcases Option.map_eq_some_iff.mp hSymMap with
    ⟨sym, hSym, rfl⟩
  constructor
  · rintro ⟨rel', hRel', hElsewhere⟩
    rw [hRel] at hRel'
    cases hRel'
    exact hElsewhere sym hSym
  · intro hElsewhere
    refine ⟨rel, hRel, ?_⟩
    intro sym' hSym'
    rw [hSym] at hSym'
    cases hSym'
    exact hElsewhere

/- An entry that is outside is not applied as it should. -/
theorem Outside.not_takesMapFd
    {k : ℕ}
    (hOutside : c.Outside k)
    (hApplies : ∀ i ≤ k, c.Applies i) :
    ¬ c.TakesMapFd k := by
  intro hTakes
  rcases hTakes _ (appliedTo_iff.mpr ⟨hApplies, rfl⟩) with
    ⟨e, hEntry, hHere, _⟩
  exact (outside_iff_of_entry hEntry).mp hOutside hHere

/- The call fails at the first entry that it refuses. -/
theorem fails_iff :
    c.Fails ↔
      ∃ j < c.nrels,
        (∀ i < j, c.Applies i) ∧ c.Refused j := by
  by_cases hEntsize : c.shdr.shEntsize = 0
  · have hNone : c.nrels = 0 := by
      rw [nrels, hEntsize, Nat.div_zero]
      rfl
    rw [Fails, run, parseReloAndApply, if_pos hEntsize, hNone]
    constructor
    · rintro ⟨ret, insn, hRun, _⟩
      cases hRun
    · rintro ⟨j, hLt, _⟩
      exact absurd hLt (Nat.not_lt_zero j)
  · rw [Fails, run, parseReloAndApply, if_neg hEntsize]
    change (∃ ret insn,
      applyRels c.data c.symbols c.maps c.nrMaps
        (List.range c.nrels) c.insn = .ok (ret, insn) ∧
          ret ≠ 0) ↔ _
    rw [applyRels_nonzero_iff, reaches_range_iff]
    rfl

end ReloCall

/-
  A call turns only references to maps into descriptors
  exactly if each entry that is for another section, or for
  none, comes after the first entry that the call refuses,
  or is that entry.
-/
theorem onlyMapReferences_iff
    (c : ReloCall) :
    c.OnlyMapReferences ↔
      ∀ k < c.nrels, c.Outside k →
        ∃ j ≤ k,
          (∀ i < j, c.Applies i) ∧ c.Refused j := by
  constructor
  · intro hOnly k hLt hOutside
    rcases ReloCall.fails_iff.mp
      (hOnly.outside k hLt hOutside) with
      ⟨j, _, hBefore, hRefused⟩
    refine ⟨j, ?_, hBefore, hRefused⟩
    -- otherwise entry `k` is applied before the failure
    by_contra hAfter
    apply hOutside.not_takesMapFd _ (hOnly.applied k hLt)
    intro i hLe
    exact hBefore i (by omega)
  · intro hStops
    constructor
    · intro k hLt insn hApplied
      have hAll := (ReloCall.appliedTo_iff.mp hApplied).1
      rcases hAll k (Nat.le_refl k) with ⟨e, hEntry, _⟩
      refine ⟨e, hEntry, ?_,
        ReloCall.imm_of_applies hApplied hEntry⟩
      by_contra hElsewhere
      rcases hStops k hLt
        ((ReloCall.outside_iff_of_entry hEntry).mpr
          hElsewhere) with
        ⟨j, hLe, _, hRefused⟩
      exact (hAll j hLe).not_refused hRefused
    · intro k hLt hOutside
      rcases hStops k hLt hOutside with
        ⟨j, hLe, hBefore, hRefused⟩
      exact ReloCall.fails_iff.mpr
        ⟨j, by omega, hBefore, hRefused⟩

------------------------------------------------------------
-- A Reference to Constant Data
------------------------------------------------------------

/-
  A program that loads the address of the first constant in
  `.rodata`.  The only map is at the start of its section.
-/
def rodataElf : Elf where
  scns :=
    [⟨none, ⟨0, 0, 0, 0, 0, 0⟩, none, []⟩,
      plainScn "maps" SHT_PROGBITS 3 0 0 0
        (mapDefBytes MapId.blacklist.mapDef),
      plainScn ".symtab" SHT_SYMTAB 0 6 1 SYM_SIZE
        (symBytes 0 0 0 ++ symBytes 1 1 0 ++
          symBytes 2 5 0),
      plainScn "xdp_prog" SHT_PROGBITS 6 0 0 0
        (leBytes INSN_SIZE 0x118 ++ leBytes INSN_SIZE 0 ++
          leBytes INSN_SIZE 0x95),
      plainScn ".relxdp_prog" SHT_REL 0 2 3 REL_SIZE
        (relBytes 0 2),
      plainScn ".rodata" SHT_PROGBITS 2 0 0 0
        (leBytes 8 42)]
  strptr := fun _ stName =>
    [some [], some "blacklist".toList,
      some "limit".toList].getD stName none

/- Section `i`, which is in the file. -/
def rodataSec (i : ℕ) : Sec :=
  (rodataElf.getSec i).getD
    ⟨[], ⟨0, 0, 0, 0, 0, 0⟩, ⟨[], 0⟩, []⟩

def rodataCall (maps : ℕ → BpfMapData) : ReloCall where
  data := (rodataSec 4).data
  symbols := (rodataSec 2).data
  shdr := (rodataSec 4).shdr
  insn := (rodataSec 3).data.dBuf
  maps := maps
  nrMaps := 1
  mapsShndx := some 1

theorem rodataElf_tiledMaps :
    TiledMaps rodataElf 1 ((rodataSec 2).data, 6)
      (rodataSec 1).data where
  data_eq := by decide +kernel
  syms_pos := by decide +kernel
  syms_le := by decide +kernel
  offsets := by decide +kernel
  size_eq := by decide +kernel
  buf_eq := by decide +kernel
  named := by decide +kernel

/- The constant's address becomes the map's descriptor. -/
theorem rodata_reference_applied :
    ∃ maps,
      loadElfMapsSection LoaderGlobals.start.mapData 1
          rodataElf (rodataSec 2).data 6 = .ok (1, maps) ∧
        ¬ (rodataCall maps).OnlyMapReferences := by
  rcases loadElfMapsSection_eq rodataElf_tiledMaps
    LoaderGlobals.start.mapData with
    ⟨maps, hLoad, hTable, _⟩
  refine ⟨maps, hLoad, ?_⟩
  have hSym :
      (⟨1, 1, 0⟩ : GElfSym) ∈
        symsIn (rodataSec 2).data 1 := by
    decide +kernel
  rcases hTable.findMap_eq rodataElf_tiledMaps hSym with
    ⟨mapIdx, _, hMap, _⟩
  have hRead :
      relRead? (rodataSec 4).data (rodataSec 2).data 0 =
        some ⟨0, ⟨2, 5, 0⟩⟩ := by
    decide +kernel
  have hInsn : HasInsn (rodataSec 3).data.dBuf 0 := by
    decide +kernel
  have hCode :
      (insnAt (rodataSec 3).data.dBuf 0).code = LD_IMM64 := by
    decide +kernel
  have hNrels :
      0 < (cInt ((rodataSec 4).shdr.shSize /
        (rodataSec 4).shdr.shEntsize)).toNat := by
    decide +kernel
  have hElsewhere : some 5 ≠ some 1 := by
    decide
  have hApplies : (rodataCall maps).Applies 0 :=
    ⟨_, hRead, hInsn, hCode,
      findMap_isSome_iff.mp
        (Option.isSome_iff_exists.mpr ⟨mapIdx, hMap⟩)⟩
  have hOutside : (rodataCall maps).Outside 0 :=
    (ReloCall.outside_iff_of_entry hRead).mpr hElsewhere
  intro hOnly
  apply hOutside.not_takesMapFd _ (hOnly.applied 0 hNrels)
  intro i hLe
  rw [Nat.le_zero.mp hLe]
  exact hApplies

end XdpDdos
