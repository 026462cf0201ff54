import Mathlib.Data.BitVec

/-
  Readings of a growing count in a word of `w` bits.

  The difference of two readings never exceeds the growth of
  the count.  A reading taken for zero spoils this, unless
  the count read as zero at some moment in between.

  Main declarations:
    * `ReadsZeroBetween`
    * `toNat_ofNat_sub_le`
    * `toNat_ofNat_le_sub_iff`
    * `toNat_zero_sub_le_sub_iff`
-/

------------------------------------------------------------
-- Counts That Read as Zero
------------------------------------------------------------

namespace XdpDdos

/- Some count from `a` to `b` has all `w` low bits zero. -/
def ReadsZeroBetween (w a b : ℕ) : Prop :=
  ∃ k, a ≤ 2 ^ w * k ∧ 2 ^ w * k ≤ b

theorem ReadsZeroBetween.eq_zero
    {w a b : ℕ}
    (hZero : ReadsZeroBetween w a b)
    (hSmall : b < 2 ^ w) :
    a = 0 := by
  rcases hZero with ⟨k, hFrom, hTo⟩
  have hFirst : k = 0 := by
    by_contra hPos
    have hOne : 2 ^ w * 1 ≤ 2 ^ w * k :=
      Nat.mul_le_mul_left _ (Nat.one_le_iff_ne_zero.mpr hPos)
    omega
  rw [hFirst] at hFrom
  omega

------------------------------------------------------------
-- Differences of Readings
------------------------------------------------------------

variable {w a b : ℕ}

/- Two readings differ by the growth, modulo the word. -/
theorem ofNat_sub_ofNat
    (hLe : a ≤ b) :
    BitVec.ofNat w b - BitVec.ofNat w a =
      BitVec.ofNat w (b - a) := by
  rw [sub_eq_iff_eq_add, ← BitVec.ofNat_add,
    Nat.sub_add_cancel hLe]

theorem toNat_ofNat_sub_le
    (hLe : a ≤ b) :
    (BitVec.ofNat w b - BitVec.ofNat w a).toNat ≤ b - a := by
  rw [ofNat_sub_ofNat hLe, BitVec.toNat_ofNat]
  exact Nat.mod_le _ _

/- A reading after one that was taken for zero. -/
theorem toNat_ofNat_le_sub_iff
    (hLe : a ≤ b) :
    (BitVec.ofNat w b).toNat ≤ b - a ↔
      ReadsZeroBetween w a b := by
  have hSplit := Nat.div_add_mod b (2 ^ w)
  rw [BitVec.toNat_ofNat]
  constructor
  · intro hBound
    exact ⟨b / 2 ^ w, by omega, by omega⟩
  · rintro ⟨k, hFrom, hTo⟩
    have hQuot : k ≤ b / 2 ^ w :=
      (Nat.le_div_iff_mul_le (Nat.two_pow_pos w)).mpr
        (by rwa [Nat.mul_comm])
    have hMul : 2 ^ w * k ≤ 2 ^ w * (b / 2 ^ w) :=
      Nat.mul_le_mul_left _ hQuot
    omega

/- A reading taken for zero, after a true one. -/
theorem toNat_zero_sub_le_sub_iff
    (hLe : a ≤ b) :
    (0 - BitVec.ofNat w a).toNat ≤ b - a ↔
      ReadsZeroBetween w a b := by
  have hPow := Nat.two_pow_pos w
  have hSplit := Nat.div_add_mod a (2 ^ w)
  have hLow := Nat.mod_lt a hPow
  have hValue :
      (0 - BitVec.ofNat w a).toNat =
        (2 ^ w - a % 2 ^ w) % 2 ^ w := by
    rw [BitVec.toNat_sub, BitVec.toNat_ofNat]
    simp
  rw [hValue]
  by_cases hZero : a % 2 ^ w = 0
  · -- `a` itself reads as zero
    rw [hZero, Nat.sub_zero, Nat.mod_self]
    exact iff_of_true (Nat.zero_le _)
      ⟨a / 2 ^ w, by omega, by omega⟩
  · have hNext :
        2 ^ w * (a / 2 ^ w + 1) = a + (2 ^ w - a % 2 ^ w) := by
      rw [Nat.mul_add]
      omega
    rw [Nat.mod_eq_of_lt (by omega)]
    constructor
    · intro hBound
      exact ⟨a / 2 ^ w + 1, by omega, by omega⟩
    · rintro ⟨k, hFrom, hTo⟩
      have hQuot : a / 2 ^ w + 1 ≤ k := by
        by_contra hLt
        have hMul : 2 ^ w * k ≤ 2 ^ w * (a / 2 ^ w) :=
          Nat.mul_le_mul_left _ (by omega)
        omega
      have hMul :
          2 ^ w * (a / 2 ^ w + 1) ≤ 2 ^ w * k :=
        Nat.mul_le_mul_left _ hQuot
      omega

end XdpDdos
