import XdpDdos.Lib.ByteSeq

/-
  What the loader sees of an object file: the sections that
  libelf hands out, and the 64-bit little-endian records in
  their buffers.

  Main declarations:
    * `TableStr`, `Elf`, `Elf.getSec`, `Elf.setBuf`
    * `gelfGetsym`, `gelfGetrel`
    * `BpfInsn`, `insnAt`, `setSrcReg`, `setImm`
-/

------------------------------------------------------------
-- Sections
------------------------------------------------------------

namespace XdpDdos

def SHT_PROGBITS : ℕ := 1

def SHT_SYMTAB : ℕ := 2

def SHT_REL : ℕ := 9

/- The bit of `SHF_EXECINSTR` in the section flags. -/
def SHF_EXECINSTR_BIT : ℕ := 2

/- The fields of a section header that the loader reads. -/
structure GElfShdr where
  shType : ℕ
  shFlags : BitVec 64
  shSize : ℕ
  shLink : ℕ
  shInfo : ℕ
  shEntsize : ℕ
  deriving Repr, DecidableEq

/- A section's buffer, and the size libelf gives for it. -/
structure ElfData where
  dBuf : ByteSeq
  dSize : ℕ
  deriving Repr, DecidableEq

/-
  A string of a string table, and what the table holds
  behind the NUL of the string.
-/
structure TableStr where
  str : CStr
  behind : CStr
  deriving Repr, DecidableEq

/-
  A section: its name in the section string table, its
  header, its data if libelf returns one block for it, and
  what the string table holds behind the name.
-/
structure ElfScn where
  shname : Option CStr
  shdr : GElfShdr
  data : Option ElfData
  behind : CStr := []
  deriving Repr, DecidableEq

/-
  An opened object; section 0 is the null section.  The
  string tables are read through `elf_strptr`.
-/
structure Elf where
  scns : List ElfScn
  strptr : ℕ → ℕ → Option CStr

/- A section with a name and data. -/
structure Sec where
  shname : CStr
  shdr : GElfShdr
  data : ElfData
  behind : CStr := []
  deriving Repr, DecidableEq

/- The name, as a pointer into the string table. -/
def Sec.event (sec : Sec) : TableStr :=
  ⟨sec.shname, sec.behind⟩

namespace Elf

/- `e_shnum`. -/
def shnum (elf : Elf) : ℕ :=
  elf.scns.length

/- `get_sec`; `none` is any nonzero return value. -/
def getSec
    (elf : Elf)
    (i : ℕ) : Option Sec :=
  match elf.scns[i]? with
  | none => none
  | some scn =>
      match scn.shname with
      | none => none
      | some shname =>
          if scn.shdr.shSize = 0 then none
          else
            match scn.data with
            | none => none
            | some data =>
                some ⟨shname, scn.shdr, data, scn.behind⟩

/- Sections share their buffers: an edit stays visible. -/
def setBuf
    (elf : Elf)
    (i : ℕ)
    (buf : ByteSeq) : Elf :=
  { elf with
    scns := elf.scns.modify i fun scn =>
      { scn with
        data := scn.data.map fun data =>
          { data with dBuf := buf } } }

@[simp] theorem shnum_setBuf
    (elf : Elf)
    (i : ℕ)
    (buf : ByteSeq) :
    (elf.setBuf i buf).shnum = elf.shnum := by
  simp [setBuf, shnum]

/- An edit changes the buffer of its own section only. -/
theorem getSec_setBuf
    (elf : Elf)
    (i j : ℕ)
    (buf : ByteSeq) :
    (elf.setBuf i buf).getSec j =
      if j = i then
        (elf.getSec j).map fun sec =>
          { sec with data := { sec.data with dBuf := buf } }
      else elf.getSec j := by
  unfold getSec setBuf
  simp only [List.getElem?_modify]
  by_cases hHere : j = i
  · subst hHere
    cases hScn : elf.scns[j]? with
    | none => simp
    | some scn =>
        rcases scn with ⟨shname, shdr, data, behind⟩
        cases shname with
        | none => simp
        | some shname =>
            by_cases hSize : shdr.shSize = 0
            · simp [hSize]
            · cases data with
              | none => simp [hSize]
              | some data => simp [hSize]
  · have hNe : i ≠ j := fun hEq => hHere hEq.symm
    simp [hHere, hNe]

end Elf

------------------------------------------------------------
-- Symbols and Relocation Entries
------------------------------------------------------------

/- `sizeof(GElf_Sym)`. -/
def SYM_SIZE : ℕ := 24

/- `sizeof(GElf_Rel)`. -/
def REL_SIZE : ℕ := 16

/- The fields of a symbol that the loader reads. -/
structure GElfSym where
  stName : ℕ
  stShndx : ℕ
  stValue : ℕ
  deriving Repr, DecidableEq

/- A relocation entry. -/
structure GElfRel where
  rOffset : ℕ
  rInfo : BitVec 64
  deriving Repr, DecidableEq

/- `gelf_getsym`; `none` past the end of the table. -/
def gelfGetsym
    (data : ElfData)
    (ndx : ℕ) : Option GElfSym :=
  if SYM_SIZE * (ndx + 1) ≤ data.dBuf.length then
    let off := SYM_SIZE * ndx
    some
      { stName := (data.dBuf.le32At off).toNat
        stShndx := (data.dBuf.le16At (off + 6)).toNat
        stValue := (data.dBuf.le64At (off + 8)).toNat }
  else none

/- `gelf_getrel`; `none` past the end of the table. -/
def gelfGetrel
    (data : ElfData)
    (ndx : ℕ) : Option GElfRel :=
  if REL_SIZE * (ndx + 1) ≤ data.dBuf.length then
    let off := REL_SIZE * ndx
    some
      { rOffset := (data.dBuf.le64At off).toNat
        rInfo := data.dBuf.le64At (off + 8) }
  else none

/- `GELF_R_SYM`: the symbol index is the high word. -/
def GElfRel.sym (rel : GElfRel) : ℕ :=
  (rel.rInfo >>> 32).toNat

------------------------------------------------------------
-- Instructions
------------------------------------------------------------

/- `sizeof(struct bpf_insn)`. -/
def INSN_SIZE : ℕ := 8

/- `BPF_LD | BPF_IMM | BPF_DW`. -/
def LD_IMM64 : Byte := 0x18

/- Marks the immediate as a map file descriptor. -/
def BPF_PSEUDO_MAP_FD : BitVec 4 := 1

/- `struct bpf_insn`. -/
structure BpfInsn where
  code : Byte
  dstReg : BitVec 4
  srcReg : BitVec 4
  off : BitVec 16
  imm : BitVec 32
  deriving Repr, DecidableEq

/- The instruction at index `idx` of a buffer. -/
def insnAt
    (insn : ByteSeq)
    (idx : ℕ) : BpfInsn where
  code := insn.byteAt (INSN_SIZE * idx)
  dstReg := (insn.byteAt (INSN_SIZE * idx + 1)).extractLsb' 0 4
  srcReg := (insn.byteAt (INSN_SIZE * idx + 1)).extractLsb' 4 4
  off := insn.le16At (INSN_SIZE * idx + 2)
  imm := insn.le32At (INSN_SIZE * idx + 4)

/- Write the source register field, the byte's high half. -/
def setSrcReg
    (insn : ByteSeq)
    (idx : ℕ)
    (reg : BitVec 4) : ByteSeq :=
  insn.setByte (INSN_SIZE * idx + 1)
    (reg ++
      (insn.byteAt (INSN_SIZE * idx + 1)).extractLsb' 0 4)

/- Write the immediate field. -/
def setImm
    (insn : ByteSeq)
    (idx : ℕ)
    (imm : BitVec 32) : ByteSeq :=
  insn.setLe32 (INSN_SIZE * idx + 4) imm

/- The instruction lies inside the buffer. -/
def HasInsn
    (insn : ByteSeq)
    (idx : ℕ) : Prop :=
  INSN_SIZE * (idx + 1) ≤ insn.length

instance
    (insn : ByteSeq)
    (idx : ℕ) :
    Decidable (HasInsn insn idx) := by
  unfold HasInsn
  infer_instance

@[simp] theorem length_setSrcReg
    (insn : ByteSeq)
    (idx : ℕ)
    (reg : BitVec 4) :
    (setSrcReg insn idx reg).length = insn.length := by
  simp [setSrcReg]

@[simp] theorem length_setImm
    (insn : ByteSeq)
    (idx : ℕ)
    (imm : BitVec 32) :
    (setImm insn idx imm).length = insn.length := by
  simp [setImm]

/- An instruction is determined by its eight bytes. -/
theorem insnAt_congr
    {insn insn' : ByteSeq}
    {idx : ℕ}
    (hBytes :
      ∀ k < INSN_SIZE,
        insn'.byteAt (INSN_SIZE * idx + k) =
          insn.byteAt (INSN_SIZE * idx + k)) :
    insnAt insn' idx = insnAt insn idx := by
  have hFirst := hBytes 0 (Nat.zero_lt_succ 7)
  rw [Nat.add_zero] at hFirst
  simp (disch := decide) only [insnAt, ByteSeq.le16At,
    ByteSeq.le32At, Nat.add_assoc, Nat.reduceAdd, hFirst,
    hBytes]

/- The edit writes one field of one instruction. -/
theorem insnAt_setSrcReg
    {insn : ByteSeq}
    {idx : ℕ}
    (reg : BitVec 4)
    (hInsn : HasInsn insn idx)
    (idx' : ℕ) :
    insnAt (setSrcReg insn idx reg) idx' =
      if idx' = idx then
        { insnAt insn idx with srcReg := reg }
      else insnAt insn idx' := by
  simp only [HasInsn, INSN_SIZE] at hInsn
  by_cases hHere : idx' = idx
  · subst hHere
    have hWritten :
        (setSrcReg insn idx' reg).byteAt
            (INSN_SIZE * idx' + 1) =
          reg ++ (insn.byteAt
            (INSN_SIZE * idx' + 1)).extractLsb' 0 4 :=
      ByteSeq.byteAt_setByte_self _ (by
        simp only [INSN_SIZE]
        omega)
    have hKept (off : ℕ) (hOff : off ≠ INSN_SIZE * idx' + 1) :
        (setSrcReg insn idx' reg).byteAt off =
          insn.byteAt off :=
      ByteSeq.byteAt_setByte_of_ne _ _ hOff
    rw [if_pos rfl]
    simp only [insnAt, hWritten, ByteSeq.le16At,
      ByteSeq.le32At, BpfInsn.mk.injEq]
    refine ⟨hKept _ (by omega), ?_, ?_, ?_, ?_⟩
    · ext i hi
      grind
    · ext i hi
      grind
    · rw [hKept _ (by omega), hKept _ (by omega)]
    · rw [hKept _ (by omega), hKept _ (by omega),
        hKept _ (by omega), hKept _ (by omega)]
  · rw [if_neg hHere]
    apply insnAt_congr
    intro k hk
    apply ByteSeq.byteAt_setByte_of_ne
    simp only [INSN_SIZE] at hk ⊢
    omega

theorem insnAt_setImm
    {insn : ByteSeq}
    {idx : ℕ}
    (imm : BitVec 32)
    (hInsn : HasInsn insn idx)
    (idx' : ℕ) :
    insnAt (setImm insn idx imm) idx' =
      if idx' = idx then
        { insnAt insn idx with imm := imm }
      else insnAt insn idx' := by
  simp only [HasInsn, INSN_SIZE] at hInsn
  by_cases hHere : idx' = idx
  · subst hHere
    have hWritten :
        (setImm insn idx' imm).le32At
          (INSN_SIZE * idx' + 4) = imm :=
      ByteSeq.le32At_setLe32 _ (by
        simp only [INSN_SIZE]
        omega)
    have hKept (off : ℕ) (hOff : off < INSN_SIZE * idx' + 4) :
        (setImm insn idx' imm).byteAt off =
          insn.byteAt off :=
      ByteSeq.byteAt_setLe32_of_disjoint _ _ (Or.inl hOff)
    rw [if_pos rfl]
    simp only [insnAt, hWritten, ByteSeq.le16At,
      BpfInsn.mk.injEq, and_true]
    refine ⟨hKept _ (by omega), ?_, ?_, ?_⟩
    · rw [hKept _ (by omega)]
    · rw [hKept _ (by omega)]
    · rw [hKept _ (by omega), hKept _ (by omega)]
  · rw [if_neg hHere]
    apply insnAt_congr
    intro k hk
    apply ByteSeq.byteAt_setLe32_of_disjoint
    simp only [INSN_SIZE] at hk ⊢
    omega

end XdpDdos
