import Mathlib.Algebra.Group.Int.Defs
import Mathlib.Algebra.Group.Nat.Defs
import Mathlib.Data.List.Basic

/-
  Byte strings with bounds-checked little-endian loads.

  A load answers `none` exactly when one of its bytes lies
  outside the string, so a program over byte strings that
  never gets `none` never reads out of bounds.

  Main declarations:
    * `ByteSeq.load8`, `ByteSeq.load16`, `ByteSeq.load32`
    * `ByteSeq.load16_of_le`, `ByteSeq.load32_of_le`
    * `ByteSeq.byteAt_append_right`
    * `ByteSeq.setByte`, `ByteSeq.setLe32`
    * `ByteSeq.le32At_setLe32`
-/

------------------------------------------------------------
-- Byte Strings
------------------------------------------------------------

namespace XdpDdos

/- One byte of memory. -/
abbrev Byte :=
  BitVec 8

/- A finite stretch of memory, lowest address first. -/
abbrev ByteSeq :=
  List Byte

/- The characters of a C string. -/
abbrev CStr :=
  List Char

/- A word determines its high and its low part. -/
theorem append_eq_append_iff
    {w v : ℕ}
    {hi hi' : BitVec w}
    {lo lo' : BitVec v} :
    hi ++ lo = hi' ++ lo' ↔ hi = hi' ∧ lo = lo' := by
  constructor
  · intro hEq
    constructor
    · have hHigh := congrArg (BitVec.extractLsb' v w) hEq
      simpa [BitVec.extractLsb'_append_eq_left] using hHigh
    · have hLow := congrArg (BitVec.extractLsb' 0 v) hEq
      simpa [BitVec.extractLsb'_append_eq_right] using hLow
  · rintro ⟨rfl, rfl⟩
    rfl

/- Exchange the two bytes of a halfword. -/
def swap16
    (w : BitVec 16) : BitVec 16 :=
  w.extractLsb' 0 8 ++ w.extractLsb' 8 8

@[simp] theorem swap16_append
    (hi lo : Byte) :
    swap16 (hi ++ lo : BitVec 16) = lo ++ hi := by
  unfold swap16
  ext i hi'
  grind

@[simp] theorem swap16_swap16
    (w : BitVec 16) :
    swap16 (swap16 w) = w := by
  unfold swap16
  ext i hi
  grind

namespace ByteSeq

------------------------------------------------------------
-- Checked Loads
------------------------------------------------------------

/- Load the byte at `off`. -/
def load8
    (bs : ByteSeq)
    (off : ℕ) : Option Byte :=
  bs[off]?

/- Load the little-endian halfword at `off`. -/
def load16
    (bs : ByteSeq)
    (off : ℕ) : Option (BitVec 16) :=
  match bs[off]?, bs[off + 1]? with
  | some b₀, some b₁ => some (b₁ ++ b₀)
  | _, _ => none

/- Load the little-endian word at `off`. -/
def load32
    (bs : ByteSeq)
    (off : ℕ) : Option (BitVec 32) :=
  match bs.load16 off, bs.load16 (off + 2) with
  | some lo, some hi => some (hi ++ lo)
  | _, _ => none

------------------------------------------------------------
-- Total Reads
------------------------------------------------------------

/- The byte at `off`, zero past the end. -/
def byteAt
    (bs : ByteSeq)
    (off : ℕ) : Byte :=
  bs.getD off 0

/- The big-endian (network order) halfword at `off`. -/
def be16At
    (bs : ByteSeq)
    (off : ℕ) : BitVec 16 :=
  bs.byteAt off ++ bs.byteAt (off + 1)

/- The little-endian word at `off`. -/
def le32At
    (bs : ByteSeq)
    (off : ℕ) : BitVec 32 :=
  (bs.byteAt (off + 3) ++ bs.byteAt (off + 2)) ++
    (bs.byteAt (off + 1) ++ bs.byteAt off)

/- The little-endian halfword at `off`. -/
def le16At
    (bs : ByteSeq)
    (off : ℕ) : BitVec 16 :=
  bs.byteAt (off + 1) ++ bs.byteAt off

/- The little-endian doubleword at `off`. -/
def le64At
    (bs : ByteSeq)
    (off : ℕ) : BitVec 64 :=
  bs.le32At (off + 4) ++ bs.le32At off

private theorem getElem?_eq_byteAt
    {bs : ByteSeq}
    {off : ℕ}
    (hOff : off < bs.length) :
    bs[off]? = some (bs.byteAt off) := by
  simp [byteAt, List.getD_eq_getElem?_getD, hOff]

/- A byte inside the string is loaded. -/
theorem load8_of_lt
    {bs : ByteSeq}
    {off : ℕ}
    (hOff : off < bs.length) :
    bs.load8 off = some (bs.byteAt off) :=
  getElem?_eq_byteAt hOff

/- A halfword inside the string is loaded, low byte first. -/
theorem load16_of_le
    {bs : ByteSeq}
    {off : ℕ}
    (hOff : off + 2 ≤ bs.length) :
    bs.load16 off = some (swap16 (bs.be16At off)) := by
  have hLow : bs[off]? = some (bs.byteAt off) :=
    getElem?_eq_byteAt (by omega)
  have hHigh : bs[off + 1]? = some (bs.byteAt (off + 1)) :=
    getElem?_eq_byteAt (by omega)
  simp [load16, hLow, hHigh, be16At]

/- A word inside the string is loaded. -/
theorem load32_of_le
    {bs : ByteSeq}
    {off : ℕ}
    (hOff : off + 4 ≤ bs.length) :
    bs.load32 off = some (bs.le32At off) := by
  have hLow :
      bs.load16 off = some (swap16 (bs.be16At off)) :=
    load16_of_le (by omega)
  have hHigh :
      bs.load16 (off + 2) =
        some (swap16 (bs.be16At (off + 2))) :=
    load16_of_le (by omega)
  simp [load32, hLow, hHigh, le32At, be16At]

------------------------------------------------------------
-- Reads Behind a Prefix
------------------------------------------------------------

/- Bytes behind a prefix are those of the suffix. -/
theorem byteAt_append_right
    (front back : ByteSeq)
    (off : ℕ) :
    (front ++ back).byteAt (front.length + off) =
      back.byteAt off := by
  have hGet :
      (front ++ back)[front.length + off]? = back[off]? := by
    rw [List.getElem?_append_right (by omega),
      Nat.add_sub_cancel_left]
  simp only [byteAt, List.getD_eq_getElem?_getD, hGet]

theorem be16At_append_right
    (front back : ByteSeq)
    (off : ℕ) :
    (front ++ back).be16At (front.length + off) =
      back.be16At off := by
  simp only [be16At, Nat.add_assoc, byteAt_append_right]

theorem le32At_append_right
    (front back : ByteSeq)
    (off : ℕ) :
    (front ++ back).le32At (front.length + off) =
      back.le32At off := by
  simp only [le32At, Nat.add_assoc, byteAt_append_right]

------------------------------------------------------------
-- Stores
------------------------------------------------------------

/- Store a byte. -/
def setByte
    (bs : ByteSeq)
    (off : ℕ)
    (b : Byte) : ByteSeq :=
  bs.set off b

/- Store a word, low byte first. -/
def setLe32
    (bs : ByteSeq)
    (off : ℕ)
    (w : BitVec 32) : ByteSeq :=
  (((bs.setByte off (w.extractLsb' 0 8)).setByte (off + 1)
      (w.extractLsb' 8 8)).setByte (off + 2)
    (w.extractLsb' 16 8)).setByte (off + 3)
  (w.extractLsb' 24 8)

@[simp] theorem length_setByte
    (bs : ByteSeq)
    (off : ℕ)
    (b : Byte) :
    (bs.setByte off b).length = bs.length :=
  List.length_set

@[simp] theorem length_setLe32
    (bs : ByteSeq)
    (off : ℕ)
    (w : BitVec 32) :
    (bs.setLe32 off w).length = bs.length := by
  simp [setLe32]

/- A stored byte is read back. -/
theorem byteAt_setByte_self
    {bs : ByteSeq}
    {off : ℕ}
    (b : Byte)
    (hOff : off < bs.length) :
    (bs.setByte off b).byteAt off = b := by
  simp [setByte, byteAt, List.getD_eq_getElem?_getD, hOff]

/- Other bytes stay. -/
theorem byteAt_setByte_of_ne
    (bs : ByteSeq)
    {off off' : ℕ}
    (b : Byte)
    (hNe : off' ≠ off) :
    (bs.setByte off b).byteAt off' = bs.byteAt off' := by
  simp [setByte, byteAt, List.getD_eq_getElem?_getD,
    List.getElem?_set_ne hNe.symm]

/- Bytes outside a stored word stay. -/
theorem byteAt_setLe32_of_disjoint
    (bs : ByteSeq)
    {off off' : ℕ}
    (w : BitVec 32)
    (hDisjoint : off' < off ∨ off + 4 ≤ off') :
    (bs.setLe32 off w).byteAt off' = bs.byteAt off' := by
  unfold setLe32
  rw [byteAt_setByte_of_ne _ _ (by omega),
    byteAt_setByte_of_ne _ _ (by omega),
    byteAt_setByte_of_ne _ _ (by omega),
    byteAt_setByte_of_ne _ _ (by omega)]

/- A stored word is read back. -/
theorem le32At_setLe32
    {bs : ByteSeq}
    {off : ℕ}
    (w : BitVec 32)
    (hOff : off + 4 ≤ bs.length) :
    (bs.setLe32 off w).le32At off = w := by
  have h0 :
      (bs.setLe32 off w).byteAt off =
        w.extractLsb' 0 8 := by
    unfold setLe32
    rw [byteAt_setByte_of_ne _ _ (by omega),
      byteAt_setByte_of_ne _ _ (by omega),
      byteAt_setByte_of_ne _ _ (by omega),
      byteAt_setByte_self _ (by omega)]
  have h1 :
      (bs.setLe32 off w).byteAt (off + 1) =
        w.extractLsb' 8 8 := by
    unfold setLe32
    rw [byteAt_setByte_of_ne _ _ (by omega),
      byteAt_setByte_of_ne _ _ (by omega),
      byteAt_setByte_self _ (by simp; omega)]
  have h2 :
      (bs.setLe32 off w).byteAt (off + 2) =
        w.extractLsb' 16 8 := by
    unfold setLe32
    rw [byteAt_setByte_of_ne _ _ (by omega),
      byteAt_setByte_self _ (by simp; omega)]
  have h3 :
      (bs.setLe32 off w).byteAt (off + 3) =
        w.extractLsb' 24 8 := by
    unfold setLe32
    rw [byteAt_setByte_self _ (by simp; omega)]
  rw [le32At, h0, h1, h2, h3]
  ext i hi
  grind

end ByteSeq

end XdpDdos
