import XdpDdos.Lib.FirstStop
import XdpDdos.Loader.BpfLoad

/-
  What relocation does to the instructions of a program.

  Applying an entry patches one instruction.  A list of
  entries for distinct instructions patches each of them and
  leaves all others as they are in the file.

  Main declarations:
    * `RelEntry`, `relocAt?`, `relRead?`, `relInsn?`
    * `patchInsn`, `patchAll`
    * `EntryApplies`, `EntryUnmatched`, `EntryRefused`
    * `EntriesEnd`
    * `applyRels_zero_iff`, `applyRels_nonzero_iff`
    * `applyRels_ok_iff`, `applyRels_eq`
-/

------------------------------------------------------------
-- Entries
------------------------------------------------------------

namespace XdpDdos

/- A relocation entry: its instruction and its symbol. -/
structure RelEntry where
  insnIdx : ℕ
  sym : GElfSym
  deriving Repr, DecidableEq

/- Entry `i` of a relocation section. -/
def relocAt?
    (data symbols : ElfData)
    (i : ℕ) : Option RelEntry :=
  (gelfGetrel data i).bind fun rel =>
    (gelfGetsym symbols rel.sym).map fun sym =>
      ⟨rel.rOffset / INSN_SIZE, sym⟩

/- The instruction with a map's descriptor in it. -/
def BpfInsn.withMapFd
    (insn : BpfInsn)
    (fd : ℤ) : BpfInsn :=
  { insn with
    srcReg := BPF_PSEUDO_MAP_FD
    imm := BitVec.ofInt 32 fd }

/- The entry is for a 64-bit load and names a known map. -/
structure RelEntry.Valid
    (e : RelEntry)
    (maps : ℕ → BpfMapData)
    (nrMaps : ℕ)
    (insn : ByteSeq) : Prop where
  insnIdx_lt : e.insnIdx < 2 ^ 32
  hasInsn : HasInsn insn e.insnIdx
  code_eq : (insnAt insn e.insnIdx).code = LD_IMM64
  map_isSome : (findMap maps nrMaps e.sym.stValue).isSome

/- The descriptor of the map that a symbol names. -/
def symFd
    (maps : ℕ → BpfMapData)
    (nrMaps : ℕ)
    (sym : GElfSym) : ℤ :=
  match findMap maps nrMaps sym.stValue with
  | some mapIdx => (maps mapIdx).fd
  | none => -1

/- Store a descriptor in one instruction. -/
def patchInsn
    (maps : ℕ → BpfMapData)
    (nrMaps : ℕ)
    (insn : ByteSeq)
    (e : RelEntry) : ByteSeq :=
  setImm (setSrcReg insn e.insnIdx BPF_PSEUDO_MAP_FD)
    e.insnIdx (BitVec.ofInt 32 (symFd maps nrMaps e.sym))

/- Store the descriptors of a list of entries, in order. -/
def patchAll
    (maps : ℕ → BpfMapData)
    (nrMaps : ℕ)
    (es : List RelEntry)
    (insn : ByteSeq) : ByteSeq :=
  es.foldl (patchInsn maps nrMaps) insn

------------------------------------------------------------
-- Patched Instructions
------------------------------------------------------------

variable {maps : ℕ → BpfMapData}
variable {nrMaps : ℕ}

@[simp] theorem length_patchInsn
    (insn : ByteSeq)
    (e : RelEntry) :
    (patchInsn maps nrMaps insn e).length = insn.length := by
  simp [patchInsn]

@[simp] theorem length_patchAll
    (es : List RelEntry)
    (insn : ByteSeq) :
    (patchAll maps nrMaps es insn).length = insn.length := by
  induction es generalizing insn with
  | nil => rfl
  | cons e es ih =>
      exact (ih _).trans (length_patchInsn insn e)

theorem patchAll_append
    (es es' : List RelEntry)
    (insn : ByteSeq) :
    patchAll maps nrMaps (es ++ es') insn =
      patchAll maps nrMaps es'
        (patchAll maps nrMaps es insn) :=
  List.foldl_append

/- One entry patches one instruction. -/
theorem insnAt_patchInsn
    {insn : ByteSeq}
    {e : RelEntry}
    (hInsn : HasInsn insn e.insnIdx)
    (idx : ℕ) :
    insnAt (patchInsn maps nrMaps insn e) idx =
      if idx = e.insnIdx then
        (insnAt insn e.insnIdx).withMapFd
          (symFd maps nrMaps e.sym)
      else insnAt insn idx := by
  have hInsn' :
      HasInsn (setSrcReg insn e.insnIdx BPF_PSEUDO_MAP_FD)
        e.insnIdx := by
    simpa [HasInsn] using hInsn
  rw [patchInsn, insnAt_setImm _ hInsn',
    insnAt_setSrcReg _ hInsn, insnAt_setSrcReg _ hInsn]
  by_cases hHere : idx = e.insnIdx
  · rw [if_pos hHere, if_pos hHere, if_pos rfl]
    rfl
  · rw [if_neg hHere, if_neg hHere, if_neg hHere]

/- Instructions without an entry stay as in the file. -/
theorem insnAt_patchAll_of_notMem
    {es : List RelEntry}
    {insn : ByteSeq}
    {idx : ℕ}
    (hInsns : ∀ e ∈ es, HasInsn insn e.insnIdx)
    (hNone : ∀ e ∈ es, e.insnIdx ≠ idx) :
    insnAt (patchAll maps nrMaps es insn) idx =
      insnAt insn idx := by
  induction es generalizing insn with
  | nil => rfl
  | cons e es ih =>
      have hHead := hInsns e (List.mem_cons_self)
      have hTail :
          insnAt (patchAll maps nrMaps es
              (patchInsn maps nrMaps insn e)) idx =
            insnAt (patchInsn maps nrMaps insn e) idx := by
        apply ih
        · intro e' he'
          simpa [HasInsn] using
            hInsns e' (List.mem_cons_of_mem e he')
        · intro e' he'
          exact hNone e' (List.mem_cons_of_mem e he')
      rw [patchAll, List.foldl_cons]
      rw [patchAll] at hTail
      rw [hTail, insnAt_patchInsn hHead, if_neg]
      exact fun hEq => hNone e List.mem_cons_self hEq.symm

/- Each instruction with an entry gets its descriptor. -/
theorem insnAt_patchAll_of_mem
    {es : List RelEntry}
    {insn : ByteSeq}
    {e : RelEntry}
    (hInsns : ∀ e ∈ es, HasInsn insn e.insnIdx)
    (hNodup : (es.map RelEntry.insnIdx).Nodup)
    (hMem : e ∈ es) :
    insnAt (patchAll maps nrMaps es insn) e.insnIdx =
      (insnAt insn e.insnIdx).withMapFd
        (symFd maps nrMaps e.sym) := by
  induction es generalizing insn with
  | nil => cases hMem
  | cons head es ih =>
      have hHead := hInsns head List.mem_cons_self
      have hRest :
          ∀ e' ∈ es,
            HasInsn (patchInsn maps nrMaps insn head)
              e'.insnIdx := by
        intro e' he'
        simpa [HasInsn] using
          hInsns e' (List.mem_cons_of_mem head he')
      rcases List.nodup_cons.mp hNodup with
        ⟨hFresh, hNodupRest⟩
      have hOther (e' : RelEntry) (he' : e' ∈ es) :
          e'.insnIdx ≠ head.insnIdx := by
        intro hEq
        exact hFresh (hEq ▸ List.mem_map_of_mem he')
      rw [patchAll, List.foldl_cons, ← patchAll]
      rcases List.mem_cons.mp hMem with rfl | hTail
      · rw [insnAt_patchAll_of_notMem hRest hOther,
          insnAt_patchInsn hHead, if_pos rfl]
      · rw [ih hRest hNodupRest hTail,
          insnAt_patchInsn hHead, if_neg (hOther e hTail)]

/- A patch keeps the entries that are still to come valid. -/
theorem RelEntry.Valid.patchInsn
    {insn : ByteSeq}
    {e e' : RelEntry}
    (hValid' : e'.Valid maps nrMaps insn)
    (hValid : e.Valid maps nrMaps insn) :
    e'.Valid maps nrMaps (patchInsn maps nrMaps insn e) where
  insnIdx_lt := hValid'.insnIdx_lt
  hasInsn := by
    simpa [HasInsn] using hValid'.hasInsn
  code_eq := by
    rw [insnAt_patchInsn hValid.hasInsn]
    split
    · exact hValid.code_eq
    · exact hValid'.code_eq
  map_isSome := hValid'.map_isSome

theorem RelEntry.Valid.patchAll
    {insn : ByteSeq}
    {es : List RelEntry}
    {e' : RelEntry}
    (hValid' : e'.Valid maps nrMaps insn)
    (hValid : ∀ e ∈ es, e.Valid maps nrMaps insn) :
    e'.Valid maps nrMaps (patchAll maps nrMaps es insn) := by
  induction es generalizing insn with
  | nil => exact hValid'
  | cons e es ih =>
      have hHead := hValid e List.mem_cons_self
      apply ih (hValid'.patchInsn hHead)
      intro e'' he''
      exact (hValid e'' (List.mem_cons_of_mem e he'')).patchInsn
        hHead

------------------------------------------------------------
-- Opcodes
------------------------------------------------------------

/- The same instructions, but for their operands. -/
structure SameOpcodes (insn insn' : ByteSeq) : Prop where
  length_eq : insn'.length = insn.length
  code_eq :
    ∀ idx, (insnAt insn' idx).code = (insnAt insn idx).code

namespace SameOpcodes

variable {insn insn' insn'' : ByteSeq}

theorem refl (insn : ByteSeq) : SameOpcodes insn insn where
  length_eq := rfl
  code_eq := fun _ => rfl

theorem trans
    (hFirst : SameOpcodes insn insn')
    (hSecond : SameOpcodes insn' insn'') :
    SameOpcodes insn insn'' where
  length_eq := hSecond.length_eq.trans hFirst.length_eq
  code_eq := fun idx =>
    (hSecond.code_eq idx).trans (hFirst.code_eq idx)

theorem hasInsn_iff
    (hSame : SameOpcodes insn insn')
    (idx : ℕ) :
    HasInsn insn' idx ↔ HasInsn insn idx := by
  simp only [HasInsn, hSame.length_eq]

theorem setSrcReg
    {idx : ℕ}
    (hInsn : HasInsn insn idx)
    (reg : BitVec 4) :
    SameOpcodes insn (setSrcReg insn idx reg) where
  length_eq := length_setSrcReg insn idx reg
  code_eq := by
    intro idx'
    rw [insnAt_setSrcReg reg hInsn]
    split
    · rename_i hHere
      rw [hHere]
    · rfl

theorem patchInsn
    {e : RelEntry}
    (hInsn : HasInsn insn e.insnIdx) :
    SameOpcodes insn (patchInsn maps nrMaps insn e) where
  length_eq := length_patchInsn insn e
  code_eq := by
    intro idx
    rw [insnAt_patchInsn hInsn]
    split
    · rename_i hHere
      rw [hHere]
      rfl
    · rfl

end SameOpcodes

------------------------------------------------------------
-- What the Loop Does with an Entry
------------------------------------------------------------

/-
  Entry `i` as the loop reads it: the index is computed in an
  `unsigned int`.
-/
def relRead?
    (data symbols : ElfData)
    (i : ℕ) : Option RelEntry :=
  (gelfGetrel data i).bind fun rel =>
    (gelfGetsym symbols rel.sym).map fun sym =>
      ⟨rel.rOffset / INSN_SIZE % 2 ^ 32, sym⟩

/- The instruction of entry `i`, read in the same way. -/
def relInsn?
    (data : ElfData)
    (i : ℕ) : Option ℕ :=
  (gelfGetrel data i).map fun rel =>
    rel.rOffset / INSN_SIZE % 2 ^ 32

/- The offsets of the recorded maps. -/
def recordedOffsets
    (maps : ℕ → BpfMapData)
    (nrMaps : ℕ) : List ℕ :=
  (List.range nrMaps).map fun mapIdx =>
    (maps mapIdx).elfOffset

theorem findMap_isSome_iff
    {offset : ℕ} :
    (findMap maps nrMaps offset).isSome ↔
      offset ∈ recordedOffsets maps nrMaps := by
  rw [findMap, List.find?_isSome]
  simp only [recordedOffsets, List.mem_map, decide_eq_true_eq]

/- The loop applies the entry. -/
structure RelEntry.Applies
    (e : RelEntry)
    (offsets : List ℕ)
    (insn : ByteSeq) : Prop where
  hasInsn : HasInsn insn e.insnIdx
  code_eq : (insnAt insn e.insnIdx).code = LD_IMM64
  recorded : e.sym.stValue ∈ offsets

/- Entry `i` can be read, and the loop applies it. -/
def EntryApplies
    (data symbols : ElfData)
    (offsets : List ℕ)
    (insn : ByteSeq)
    (i : ℕ) : Prop :=
  ∃ e ∈ relRead? data symbols i, e.Applies offsets insn

/-
  The symbol of entry `i` is at none of the offsets.  It has
  to be readable if there is one to compare it with.
-/
def EntryUnmatched
    (data symbols : ElfData)
    (offsets : List ℕ)
    (i : ℕ) : Prop :=
  ∀ v ∈ offsets,
    ∃ e ∈ relRead? data symbols i, e.sym.stValue ≠ v

/-
  The loop ends with an error at entry `i`: the instruction
  is no 64-bit load, or the symbol is that of no map.
-/
def EntryRefused
    (data symbols : ElfData)
    (offsets : List ℕ)
    (insn : ByteSeq)
    (i : ℕ) : Prop :=
  ∃ idx ∈ relInsn? data i, HasInsn insn idx ∧
    ((insnAt insn idx).code ≠ LD_IMM64 ∨
      EntryUnmatched data symbols offsets i)

section

variable {data symbols : ElfData}
variable {offsets offsets' : List ℕ}
variable {insn insn' : ByteSeq}
variable {i : ℕ}

theorem relInsn?_of_relRead?
    {e : RelEntry}
    (hEntry : relRead? data symbols i = some e) :
    relInsn? data i = some e.insnIdx := by
  rcases Option.bind_eq_some_iff.mp hEntry with
    ⟨rel, hRel, hSymMap⟩
  rcases Option.map_eq_some_iff.mp hSymMap with
    ⟨sym, _, rfl⟩
  rw [relInsn?, hRel, Option.map_some]

/- An entry that can be read has one symbol to compare. -/
theorem entryUnmatched_iff
    {e : RelEntry}
    (hEntry : relRead? data symbols i = some e) :
    EntryUnmatched data symbols offsets i ↔
      e.sym.stValue ∉ offsets := by
  constructor
  · intro hUnmatched hMem
    rcases hUnmatched _ hMem with ⟨e', hEntry', hDiffers⟩
    have hSame : e' = e :=
      Option.some.inj (hEntry'.symm.trans hEntry)
    rw [hSame] at hDiffers
    exact hDiffers rfl
  · intro hNone v hMem
    refine ⟨e, hEntry, ?_⟩
    rintro rfl
    exact hNone hMem

/- What is said of an entry that can be read, in terms of it. -/
theorem entryApplies_iff
    {e : RelEntry}
    (hEntry : relRead? data symbols i = some e) :
    EntryApplies data symbols offsets insn i ↔
      e.Applies offsets insn := by
  simp [EntryApplies, hEntry]

theorem not_entryApplies_of_none
    (hEntry : relRead? data symbols i = none) :
    ¬ EntryApplies data symbols offsets insn i := by
  rintro ⟨e, hSome, _⟩
  rw [hEntry] at hSome
  cases hSome

theorem entryRefused_iff
    {idx : ℕ}
    (hIdx : relInsn? data i = some idx) :
    EntryRefused data symbols offsets insn i ↔
      HasInsn insn idx ∧
        ((insnAt insn idx).code ≠ LD_IMM64 ∨
          EntryUnmatched data symbols offsets i) := by
  simp [EntryRefused, hIdx]

/- Nothing is both applied and refused. -/
theorem EntryApplies.not_refused
    (hApplies : EntryApplies data symbols offsets insn i) :
    ¬ EntryRefused data symbols offsets insn i := by
  rcases hApplies with ⟨e, hEntry, hApplies⟩
  rw [entryRefused_iff (relInsn?_of_relRead? hEntry),
    entryUnmatched_iff hEntry]
  rintro ⟨_, hCode | hNone⟩
  · exact hCode hApplies.code_eq
  · exact hNone hApplies.recorded

/- Only opcodes and recorded offsets matter for entries. -/
theorem entryApplies_congr
    (hSame : SameOpcodes insn insn')
    (hOffsets : ∀ v, v ∈ offsets' ↔ v ∈ offsets)
    (i : ℕ) :
    EntryApplies data symbols offsets' insn' i ↔
      EntryApplies data symbols offsets insn i := by
  unfold EntryApplies
  refine exists_congr fun e => and_congr_right fun _ => ?_
  constructor
  · rintro ⟨hHas, hCode, hMap⟩
    rw [hSame.hasInsn_iff] at hHas
    rw [hSame.code_eq] at hCode
    exact ⟨hHas, hCode, (hOffsets _).mp hMap⟩
  · rintro ⟨hHas, hCode, hMap⟩
    rw [← hSame.hasInsn_iff] at hHas
    rw [← hSame.code_eq] at hCode
    exact ⟨hHas, hCode, (hOffsets _).mpr hMap⟩

theorem entryRefused_congr
    (hSame : SameOpcodes insn insn')
    (hOffsets : ∀ v, v ∈ offsets' ↔ v ∈ offsets)
    (i : ℕ) :
    EntryRefused data symbols offsets' insn' i ↔
      EntryRefused data symbols offsets insn i := by
  unfold EntryRefused EntryUnmatched
  refine exists_congr fun idx => and_congr_right fun _ => ?_
  rw [hSame.hasInsn_iff, hSame.code_eq]
  simp only [hOffsets]

/- The loop body, in terms of what is read of the entry. -/
theorem applyRels_cons
    (data symbols : ElfData)
    (maps : ℕ → BpfMapData)
    (nrMaps : ℕ)
    (insn : ByteSeq)
    (i : ℕ)
    (is : List ℕ) :
    applyRels data symbols maps nrMaps (i :: is) insn =
      match relInsn? data i with
      | none => .error .uninitialised
      | some idx =>
          if ¬ HasInsn insn idx then .error .outOfRange
          else if (insnAt insn idx).code ≠ LD_IMM64 then
            .ok (1, insn)
          else
            match relRead? data symbols i with
            | none =>
                if nrMaps = 0 then
                  .ok (1, setSrcReg insn idx
                    BPF_PSEUDO_MAP_FD)
                else .error .uninitialised
            | some e =>
                match findMap maps nrMaps e.sym.stValue with
                | none =>
                    .ok (1, setSrcReg insn idx
                      BPF_PSEUDO_MAP_FD)
                | some _ =>
                    applyRels data symbols maps nrMaps is
                      (patchInsn maps nrMaps insn e) := by
  unfold relRead? relInsn?
  cases hRel : gelfGetrel data i with
  | none => simp only [applyRels, hRel, Option.map_none]
  | some rel =>
      simp only [applyRels, hRel, Option.bind_some,
        Option.map_some]
      refine ite_congr rfl (fun _ => rfl) fun _ => ?_
      refine ite_congr rfl (fun _ => rfl) fun _ => ?_
      cases gelfGetsym symbols rel.sym with
      | none =>
          by_cases hNone : nrMaps = 0
          · simp only [matchMap, hNone, if_true,
              Option.map_none]
          · simp only [matchMap, hNone, if_false,
              Option.map_none]
      | some sym =>
          simp only [matchMap, Option.map_some]
          cases hMap : findMap maps nrMaps sym.stValue with
          | none => rfl
          | some mapIdx => simp only [patchInsn, symFd, hMap]

theorem applyRels_cons_of_applies
    {e : RelEntry}
    (is : List ℕ)
    (hEntry : relRead? data symbols i = some e)
    (hApplies : e.Applies (recordedOffsets maps nrMaps) insn) :
    applyRels data symbols maps nrMaps (i :: is) insn =
      applyRels data symbols maps nrMaps is
        (patchInsn maps nrMaps insn e) := by
  rcases Option.isSome_iff_exists.mp
    (findMap_isSome_iff.mpr hApplies.recorded) with
    ⟨mapIdx, hMap⟩
  simp only [applyRels_cons, relInsn?_of_relRead? hEntry,
    hEntry, hApplies.hasInsn, hApplies.code_eq, hMap,
    not_true_eq_false, ne_eq, if_false]

/- The three things that the loop does with an entry. -/
inductive EntryStep
    (data symbols : ElfData)
    (maps : ℕ → BpfMapData)
    (nrMaps : ℕ)
    (insn : ByteSeq)
    (i : ℕ)
    (is : List ℕ) : Prop where
  | applies
      (e : RelEntry)
      (hEntry : relRead? data symbols i = some e)
      (hApplies : e.Applies (recordedOffsets maps nrMaps) insn)
      (hRun :
        applyRels data symbols maps nrMaps (i :: is) insn =
          applyRels data symbols maps nrMaps is
            (patchInsn maps nrMaps insn e))
  | refused
      (insn' : ByteSeq)
      (hRefused :
        EntryRefused data symbols
          (recordedOffsets maps nrMaps) insn i)
      (hSame : SameOpcodes insn insn')
      (hRun :
        applyRels data symbols maps nrMaps (i :: is) insn =
          .ok (1, insn'))
  | crashes
      (crash : Crash)
      (hApplies :
        ¬ EntryApplies data symbols
          (recordedOffsets maps nrMaps) insn i)
      (hRefused :
        ¬ EntryRefused data symbols
          (recordedOffsets maps nrMaps) insn i)
      (hCrash : crash ≠ .divByZero)
      (hRun :
        applyRels data symbols maps nrMaps (i :: is) insn =
          .error crash)

/- Without maps the symbol is not looked at. -/
theorem entryUnmatched_of_no_maps
    (hNone : nrMaps = 0) :
    EntryUnmatched data symbols
      (recordedOffsets maps nrMaps) i := by
  intro v hMem
  rw [recordedOffsets, hNone] at hMem
  cases hMem

/- With maps it is, so that it has to be there. -/
theorem not_entryUnmatched_of_none
    (hMaps : nrMaps ≠ 0)
    (hEntry : relRead? data symbols i = none) :
    ¬ EntryUnmatched data symbols
      (recordedOffsets maps nrMaps) i := by
  intro hUnmatched
  have hFirst :
      (maps 0).elfOffset ∈ recordedOffsets maps nrMaps :=
    List.mem_map.mpr ⟨0,
      List.mem_range.mpr (Nat.pos_of_ne_zero hMaps), rfl⟩
  rcases hUnmatched _ hFirst with ⟨e, hSome, _⟩
  rw [hEntry] at hSome
  cases hSome

/- An entry for a 64-bit load is looked up among the maps. -/
theorem entryStep_of_load
    {idx : ℕ}
    {is : List ℕ}
    (hIdx : relInsn? data i = some idx)
    (hInsn : HasInsn insn idx)
    (hCode : (insnAt insn idx).code = LD_IMM64)
    (hRun :
      applyRels data symbols maps nrMaps (i :: is) insn =
        match relRead? data symbols i with
        | none =>
            if nrMaps = 0 then
              .ok (1, setSrcReg insn idx BPF_PSEUDO_MAP_FD)
            else .error .uninitialised
        | some e =>
            match findMap maps nrMaps e.sym.stValue with
            | none =>
                .ok (1, setSrcReg insn idx BPF_PSEUDO_MAP_FD)
            | some _ =>
                applyRels data symbols maps nrMaps is
                  (patchInsn maps nrMaps insn e)) :
    EntryStep data symbols maps nrMaps insn i is := by
  have hRefused :
      EntryUnmatched data symbols
          (recordedOffsets maps nrMaps) i →
        EntryRefused data symbols
          (recordedOffsets maps nrMaps) insn i :=
    fun hUnmatched => (entryRefused_iff hIdx).mpr
      ⟨hInsn, Or.inr hUnmatched⟩
  cases hEntry : relRead? data symbols i with
  | none =>
      rw [hEntry] at hRun
      by_cases hNone : nrMaps = 0
      · rw [if_pos hNone] at hRun
        exact .refused _
          (hRefused (entryUnmatched_of_no_maps hNone))
          (.setSrcReg hInsn _) hRun
      · rw [if_neg hNone] at hRun
        refine .crashes _ (not_entryApplies_of_none hEntry)
          ?_ (by decide) hRun
        rw [entryRefused_iff hIdx]
        rintro ⟨_, hOther | hUnmatched⟩
        · exact hOther hCode
        · exact not_entryUnmatched_of_none hNone hEntry
            hUnmatched
  | some e =>
      simp only [hEntry] at hRun
      have hSameIdx : idx = e.insnIdx :=
        Option.some.inj
          (hIdx.symm.trans (relInsn?_of_relRead? hEntry))
      cases hMap : findMap maps nrMaps e.sym.stValue with
      | none =>
          rw [hMap] at hRun
          refine .refused _ (hRefused ?_)
            (.setSrcReg hInsn _) hRun
          rw [entryUnmatched_iff hEntry, ← findMap_isSome_iff,
            hMap]
          exact Bool.false_ne_true
      | some mapIdx =>
          have hRecorded :
              e.sym.stValue ∈ recordedOffsets maps nrMaps := by
            rw [← findMap_isSome_iff, hMap]
            rfl
          have hApplies :
              e.Applies (recordedOffsets maps nrMaps) insn :=
            ⟨hSameIdx ▸ hInsn, hSameIdx ▸ hCode, hRecorded⟩
          exact .applies e hEntry hApplies
            (applyRels_cons_of_applies is hEntry hApplies)

theorem entryStep
    (data symbols : ElfData)
    (maps : ℕ → BpfMapData)
    (nrMaps : ℕ)
    (insn : ByteSeq)
    (i : ℕ)
    (is : List ℕ) :
    EntryStep data symbols maps nrMaps insn i is := by
  have hCons :=
    applyRels_cons data symbols maps nrMaps insn i is
  cases hIdx : relInsn? data i with
  | none =>
      rw [hIdx] at hCons
      refine .crashes _ ?_ ?_ (by decide) hCons
      · rintro ⟨e, hEntry, _⟩
        rw [relInsn?_of_relRead? hEntry] at hIdx
        cases hIdx
      · rintro ⟨idx, hSome, _⟩
        rw [hIdx] at hSome
        cases hSome
  | some idx =>
      simp only [hIdx] at hCons
      by_cases hInsn : HasInsn insn idx
      · rw [if_neg (not_not.mpr hInsn)] at hCons
        by_cases hCode : (insnAt insn idx).code = LD_IMM64
        · rw [if_neg (not_not.mpr hCode)] at hCons
          exact entryStep_of_load hIdx hInsn hCode hCons
        · rw [if_pos hCode] at hCons
          exact .refused _
            ((entryRefused_iff hIdx).mpr
              ⟨hInsn, Or.inl hCode⟩)
            (.refl insn) hCons
      · rw [if_pos hInsn] at hCons
        refine .crashes _ ?_ ?_ (by decide) hCons
        · rintro ⟨e, hEntry, hApplies⟩
          rw [relInsn?_of_relRead? hEntry] at hIdx
          cases hIdx
          exact hInsn hApplies.hasInsn
        · rw [entryRefused_iff hIdx]
          exact fun hRefused => hInsn hRefused.1

------------------------------------------------------------
-- The Loop Over the Entries
------------------------------------------------------------

/- The entries behind one are as they were before its patch. -/
theorem entries_patchInsn
    {e : RelEntry}
    (hInsn : HasInsn insn e.insnIdx)
    (i : ℕ) :
    (EntryApplies data symbols offsets
        (patchInsn maps nrMaps insn e) i ↔
      EntryApplies data symbols offsets insn i) ∧
    (EntryRefused data symbols offsets
        (patchInsn maps nrMaps insn e) i ↔
      EntryRefused data symbols offsets insn i) :=
  ⟨entryApplies_congr (.patchInsn hInsn) (fun _ => Iff.rfl) i,
    entryRefused_congr (.patchInsn hInsn) (fun _ => Iff.rfl)
      i⟩

/- The loop succeeds exactly if all entries are applied. -/
theorem applyRels_zero_iff
    {is : List ℕ} :
    applyRels data symbols maps nrMaps is insn =
        .ok (0, insn') ↔
      (∀ i ∈ is,
        EntryApplies data symbols
          (recordedOffsets maps nrMaps) insn i) ∧
      insn' = patchAll maps nrMaps
        (is.filterMap (relRead? data symbols)) insn := by
  induction is generalizing insn with
  | nil =>
      simp [applyRels, patchAll, eq_comm]
  | cons i is ih =>
      rw [List.forall_mem_cons]
      cases entryStep data symbols maps nrMaps insn i is with
      | applies e hEntry hApplies hRun =>
          have hHead :
              EntryApplies data symbols
                (recordedOffsets maps nrMaps) insn i :=
            ⟨e, hEntry, hApplies⟩
          rw [hRun, ih, List.filterMap_cons_some hEntry]
          simp only [hHead, true_and,
            entries_patchInsn hApplies.hasInsn]
          rfl
      | refused insn'' hRefused hSame hRun =>
          rw [hRun]
          constructor
          · intro hEq
            cases hEq
          · rintro ⟨⟨hApplies, _⟩, _⟩
            exact absurd hRefused hApplies.not_refused
      | crashes crash hApplies hRefused hCrash hRun =>
          rw [hRun]
          constructor
          · intro hEq
            cases hEq
          · rintro ⟨⟨hHead, _⟩, _⟩
            exact absurd hHead hApplies

/- After entries that are applied the loop goes on. -/
theorem applyRels_append
    {is is' : List ℕ}
    (hApplied :
      applyRels data symbols maps nrMaps is insn =
        .ok (0, insn')) :
    applyRels data symbols maps nrMaps (is ++ is') insn =
      applyRels data symbols maps nrMaps is' insn' := by
  induction is generalizing insn with
  | nil =>
      cases hApplied
      rfl
  | cons i is ih =>
      rcases (applyRels_zero_iff.mp hApplied).1 i
        List.mem_cons_self with ⟨e, hEntry, hApplies⟩
      rw [applyRels_cons_of_applies is hEntry hApplies]
        at hApplied
      rw [List.cons_append,
        applyRels_cons_of_applies _ hEntry hApplies]
      exact ih hApplied

/-
  The loop returns an error exactly if it comes to an entry
  that it refuses, having applied all entries before it.
-/
theorem applyRels_nonzero_iff
    {is : List ℕ} :
    (∃ ret insn',
      applyRels data symbols maps nrMaps is insn =
          .ok (ret, insn') ∧
        ret ≠ 0) ↔
      Reaches
        (EntryApplies data symbols
          (recordedOffsets maps nrMaps) insn)
        (EntryRefused data symbols
          (recordedOffsets maps nrMaps) insn) is := by
  induction is generalizing insn with
  | nil =>
      constructor
      · rintro ⟨ret, insn', hRun, hRet⟩
        cases hRun
        exact absurd rfl hRet
      · intro hNone
        cases hNone
  | cons i is ih =>
      cases entryStep data symbols maps nrMaps insn i is with
      | applies e hEntry hApplies hRun =>
          have hHead :
              EntryApplies data symbols
                (recordedOffsets maps nrMaps) insn i :=
            ⟨e, hEntry, hApplies⟩
          rw [hRun, ih, Reaches]
          simp only [hHead, hHead.not_refused, true_and,
            false_or]
          exact reaches_congr
            (fun k _ => (entries_patchInsn hApplies.hasInsn
              k).1)
            (fun k _ => (entries_patchInsn hApplies.hasInsn
              k).2)
      | refused insn'' hRefused hSame hRun =>
          constructor
          · intro _
            exact Or.inl hRefused
          · intro _
            exact ⟨1, insn'', hRun, Nat.one_ne_zero⟩
      | crashes crash hApplies hRefused hCrash hRun =>
          rw [hRun]
          constructor
          · rintro ⟨ret, insn', hEq, _⟩
            cases hEq
          · rintro (hHere | ⟨hHead, _⟩)
            · exact absurd hHere hRefused
            · exact absurd hHead hApplies

/- The loop over the entries comes to an end. -/
def EntriesEnd
    (data symbols : ElfData)
    (offsets : List ℕ)
    (insn : ByteSeq)
    (is : List ℕ) : Prop :=
  (∀ i ∈ is, EntryApplies data symbols offsets insn i) ∨
    Reaches (EntryApplies data symbols offsets insn)
      (EntryRefused data symbols offsets insn) is

/- Whatever it returns, the opcodes are as they were. -/
theorem sameOpcodes_of_applyRels
    {is : List ℕ}
    {ret : ℕ}
    (hRun :
      applyRels data symbols maps nrMaps is insn =
        .ok (ret, insn')) :
    SameOpcodes insn insn' := by
  induction is generalizing insn with
  | nil =>
      cases hRun
      exact .refl _
  | cons i is ih =>
      cases entryStep data symbols maps nrMaps insn i is with
      | applies e hEntry hApplies hStep =>
          rw [hStep] at hRun
          exact (SameOpcodes.patchInsn hApplies.hasInsn).trans
            (ih hRun)
      | refused insn'' hRefused hSame hStep =>
          rw [hStep] at hRun
          cases hRun
          exact hSame
      | crashes crash hApplies hRefused hCrash hStep =>
          rw [hStep] at hRun
          cases hRun

/- A crash is not one on a division. -/
theorem applyRels_ne_divByZero
    (data symbols : ElfData)
    (maps : ℕ → BpfMapData)
    (nrMaps : ℕ)
    (is : List ℕ)
    (insn : ByteSeq) :
    applyRels data symbols maps nrMaps is insn ≠
      .error .divByZero := by
  induction is generalizing insn with
  | nil =>
      intro hEq
      cases hEq
  | cons i is ih =>
      cases entryStep data symbols maps nrMaps insn i is with
      | applies e hEntry hApplies hStep =>
          rw [hStep]
          exact ih _
      | refused insn'' hRefused hSame hStep =>
          rw [hStep]
          intro hEq
          cases hEq
      | crashes crash hApplies hRefused hCrash hStep =>
          rw [hStep]
          intro hEq
          cases hEq
          exact hCrash rfl

/- The loop returns exactly if it comes to an end. -/
theorem applyRels_ok_iff
    {is : List ℕ} :
    (∃ ret insn',
      applyRels data symbols maps nrMaps is insn =
        .ok (ret, insn')) ↔
      EntriesEnd data symbols (recordedOffsets maps nrMaps)
        insn is := by
  constructor
  · rintro ⟨ret, insn', hRun⟩
    by_cases hRet : ret = 0
    · subst hRet
      exact Or.inl (applyRels_zero_iff.mp hRun).1
    · exact Or.inr
        (applyRels_nonzero_iff.mp ⟨ret, insn', hRun, hRet⟩)
  · rintro (hAll | hRefused)
    · exact ⟨0, _, applyRels_zero_iff.mpr ⟨hAll, rfl⟩⟩
    · rcases applyRels_nonzero_iff.mpr hRefused with
        ⟨ret, insn', hRun, _⟩
      exact ⟨ret, insn', hRun⟩

theorem entriesEnd_congr
    (hSame : SameOpcodes insn insn')
    (hOffsets : ∀ v, v ∈ offsets' ↔ v ∈ offsets)
    (is : List ℕ) :
    EntriesEnd data symbols offsets' insn' is ↔
      EntriesEnd data symbols offsets insn is := by
  unfold EntriesEnd
  simp only [entryApplies_congr hSame hOffsets]
  rw [reaches_congr
    (fun i _ => entryApplies_congr hSame hOffsets i)
    (fun i _ => entryRefused_congr hSame hOffsets i)]

/- The same, with opcodes as those of `insn`. -/
theorem applyRels_ok_iff_of_same
    {is : List ℕ}
    (hSame : SameOpcodes insn insn') :
    (∃ ret insn'',
      applyRels data symbols maps nrMaps is insn' =
        .ok (ret, insn'')) ↔
      EntriesEnd data symbols (recordedOffsets maps nrMaps)
        insn is :=
  applyRels_ok_iff.trans
    (entriesEnd_congr hSame (fun _ => Iff.rfl) is)

end

/- Read with the index as it is in the file. -/
theorem relRead?_of_relocAt?
    {data symbols : ElfData}
    {i : ℕ}
    {e : RelEntry}
    (hEntry : relocAt? data symbols i = some e)
    (hIdx : e.insnIdx < 2 ^ 32) :
    relRead? data symbols i = some e := by
  unfold relocAt? at hEntry
  unfold relRead?
  rcases Option.bind_eq_some_iff.mp hEntry with
    ⟨rel, hRel, hSymMap⟩
  rcases Option.map_eq_some_iff.mp hSymMap with
    ⟨sym, hSym, rfl⟩
  rw [hRel, Option.bind_some, hSym, Option.map_some,
    Nat.mod_eq_of_lt hIdx]

/- Valid entries are all applied. -/
theorem applyRels_eq
    {data symbols : ElfData}
    {is : List ℕ}
    {insn : ByteSeq}
    (hValid :
      ∀ i ∈ is, ∃ e, relocAt? data symbols i = some e ∧
        e.Valid maps nrMaps insn) :
    applyRels data symbols maps nrMaps is insn =
      .ok (0, patchAll maps nrMaps
        (is.filterMap (relocAt? data symbols)) insn) := by
  have hRead :
      ∀ i ∈ is,
        relRead? data symbols i =
          relocAt? data symbols i := by
    intro i hMem
    rcases hValid i hMem with ⟨e, hEntry, hHere⟩
    rw [hEntry]
    exact relRead?_of_relocAt? hEntry hHere.insnIdx_lt
  rw [applyRels_zero_iff, List.filterMap_congr hRead]
  refine ⟨?_, rfl⟩
  intro i hMem
  rcases hValid i hMem with ⟨e, hEntry, hHere⟩
  exact ⟨e, (hRead i hMem).trans hEntry, hHere.hasInsn,
    hHere.code_eq, findMap_isSome_iff.mp hHere.map_isSome⟩

end XdpDdos
