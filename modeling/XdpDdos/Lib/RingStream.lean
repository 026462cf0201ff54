import Mathlib.Data.List.Basic
import Mathlib.Data.Nat.Notation

/-
  A ring of cells that holds the last part of a stream.

  The element at position `p` of the stream is in the cell
  `p % n` of a ring with `n` cells, as long as it was not
  overwritten by the one at position `p + n`.

  Main declarations:
    * `ringWrite`, `ringWrite_congr`
    * `HoldsStream`
    * `HoldsStream.write`, `HoldsStream.set`
    * `HoldsStream.read`
    * `mod_eq_iff_of_le`
-/

------------------------------------------------------------
-- Cells and Positions
------------------------------------------------------------

namespace XdpDdos

variable {α : Type}

/- Write elements from a position on, around the end. -/
def ringWrite
    (cells : List α)
    (pos : ℕ) : List α → List α
  | [] => cells
  | x :: xs =>
      ringWrite (cells.set (pos % cells.length) x) (pos + 1) xs

@[simp] theorem length_ringWrite
    (cells : List α)
    (pos : ℕ)
    (xs : List α) :
    (ringWrite cells pos xs).length = cells.length := by
  induction xs generalizing cells pos with
  | nil => rfl
  | cons x xs ih => rw [ringWrite, ih, List.length_set]

/- Only the cell of a position matters. -/
theorem ringWrite_congr
    (cells : List α)
    {pos pos' : ℕ}
    (hCell : pos % cells.length = pos' % cells.length)
    (xs : List α) :
    ringWrite cells pos xs = ringWrite cells pos' xs := by
  induction xs generalizing cells pos pos' with
  | nil => rfl
  | cons x xs ih =>
      rw [ringWrite, ringWrite, hCell]
      apply ih
      rw [List.length_set, Nat.add_mod, hCell, ← Nat.add_mod]

/- Two positions less than a round apart. -/
theorem mod_eq_iff_of_le
    {n p q : ℕ}
    (hLe : p ≤ q)
    (hNear : q - p < n) :
    p % n = q % n ↔ p = q := by
  constructor
  · intro hCell
    have hDvd : n ∣ q - p :=
      Nat.dvd_of_mod_eq_zero (Nat.sub_mod_eq_zero_of_mod_eq hCell.symm)
    have hZero := Nat.eq_zero_of_dvd_of_lt hDvd hNear
    omega
  · exact fun hEq => hEq ▸ rfl

/- The cells that follow a cell up to the end. -/
theorem add_mod_of_lt
    {n p i : ℕ}
    (hFits : p % n + i < n) :
    (p + i) % n = p % n + i := by
  have hSmall : i % n = i := Nat.mod_eq_of_lt (by omega)
  rw [Nat.add_mod, hSmall, Nat.mod_eq_of_lt hFits]

/- The first cell follows the last one. -/
theorem add_mod_end
    {n : ℕ}
    (hPos : 0 < n)
    (p : ℕ) :
    (p + (n - p % n)) % n = 0 := by
  have hLt := Nat.mod_lt p hPos
  have hDiv := Nat.div_add_mod p n
  have hSum : p + (n - p % n) = n * (p / n) + n := by
    omega
  rw [hSum, Nat.mul_add_mod, Nat.mod_self]

------------------------------------------------------------
-- The Last Part of a Stream
------------------------------------------------------------

/- From position `tail` on the stream is in the cells. -/
def HoldsStream
    (cells stream : List α)
    (tail : ℕ) : Prop :=
  ∀ p x, tail ≤ p → stream[p]? = some x →
    cells[p % cells.length]? = some x

namespace HoldsStream

variable {cells stream : List α}
variable {tail : ℕ}

/- What is behind the end of a stream need not be held. -/
theorem nil
    (cells stream : List α) :
    HoldsStream cells stream stream.length := by
  intro p x hTail hElem
  rw [List.getElem?_eq_none hTail] at hElem
  cases hElem

theorem later
    {tail' : ℕ}
    (hHolds : HoldsStream cells stream tail)
    (hLe : tail ≤ tail') :
    HoldsStream cells stream tail' :=
  fun p x hTail => hHolds p x (Nat.le_trans hLe hTail)

/- A cell that holds nothing is set. -/
theorem set
    {i : ℕ}
    (hHolds : HoldsStream cells stream tail)
    (hFree :
      ∀ p, tail ≤ p → p < stream.length →
        p % cells.length ≠ i)
    (x : α) :
    HoldsStream (cells.set i x) stream tail := by
  intro p y hTail hElem
  rcases List.getElem?_eq_some_iff.mp hElem with ⟨hLt, _⟩
  rw [List.length_set,
    List.getElem?_set_ne (hFree p hTail hLt).symm]
  exact hHolds p y hTail hElem

/- One more element. -/
theorem push
    (hHolds : HoldsStream cells stream tail)
    (hLe : tail ≤ stream.length)
    (hRoom : stream.length - tail < cells.length)
    (x : α) :
    HoldsStream
      (cells.set (stream.length % cells.length) x)
      (stream ++ [x]) tail := by
  have hFree :
      ∀ p, tail ≤ p → p < stream.length →
        p % cells.length ≠ stream.length % cells.length := by
    intro p hTail hLt hCell
    have hEq :=
      (mod_eq_iff_of_le (Nat.le_of_lt hLt) (by omega)).mp hCell
    omega
  intro p y hTail hElem
  by_cases hOld : p < stream.length
  · rw [List.getElem?_append_left hOld] at hElem
    exact hHolds.set hFree x p y hTail hElem
  · rcases List.getElem?_eq_some_iff.mp hElem with ⟨hLt, hEq⟩
    have hLast : p = stream.length := by
      rw [List.length_append, List.length_singleton] at hLt
      omega
    subst hLast
    rw [List.getElem_concat_length rfl] at hEq
    have hCell :
        stream.length % cells.length < cells.length :=
      Nat.mod_lt _ (by omega)
    rw [List.length_set, List.getElem?_set_self hCell, hEq]

/- More elements, as long as there is room. -/
theorem write
    (hHolds : HoldsStream cells stream tail)
    (hLe : tail ≤ stream.length)
    (xs : List α)
    (hRoom :
      stream.length + xs.length - tail ≤ cells.length) :
    HoldsStream (ringWrite cells stream.length xs)
      (stream ++ xs) tail := by
  induction xs generalizing cells stream with
  | nil =>
      rw [List.append_nil]
      exact hHolds
  | cons x xs ih =>
      rw [List.length_cons] at hRoom
      have hPushed := hHolds.push hLe (by omega) x
      have hLength :
          (stream ++ [x]).length = stream.length + 1 := by
        rw [List.length_append, List.length_singleton]
      have hRest :=
        ih hPushed (by omega)
          (by rw [hLength, List.length_set]; omega)
      rw [hLength, List.append_assoc] at hRest
      exact hRest

/- Elements that are in cells next to each other. -/
theorem read
    {p k : ℕ}
    (hHolds : HoldsStream cells stream tail)
    (hTail : tail ≤ p)
    (hEnd : p + k ≤ stream.length)
    (hFits : p % cells.length + k ≤ cells.length) :
    (cells.drop (p % cells.length)).take k =
      (stream.drop p).take k := by
  apply List.ext_getElem?
  intro i
  by_cases hIn : i < k
  · rw [List.getElem?_take_of_lt hIn,
      List.getElem?_take_of_lt hIn, List.getElem?_drop,
      List.getElem?_drop]
    have hElem := List.getElem?_eq_getElem
      (l := stream) (i := p + i) (by omega)
    have hCell := hHolds (p + i) _ (by omega) hElem
    rw [add_mod_of_lt (by omega)] at hCell
    rw [hCell, hElem]
  · have hOut := Nat.not_lt.mp hIn
    rw [List.getElem?_take_eq_none hOut,
      List.getElem?_take_eq_none hOut]

end HoldsStream

end XdpDdos
