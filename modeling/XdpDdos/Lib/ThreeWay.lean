import Mathlib.Data.List.Basic
import Mathlib.Data.Int.Notation

/-
  Sorting and searching by a comparison that returns a number
  with a sign, as `qsort` and a binary search in C do.

  Main declarations:
    * `Consistent`, `CorrectSort`
    * `sortOr`, `correctSort_sortOr`
    * `bsearch`, `bsearch_of_zero`, `bsearch_of_pivot`,
      `bsearch_middle`
-/

------------------------------------------------------------
-- Sorting
------------------------------------------------------------

namespace XdpDdos

variable {α : Type}

/- On the elements of `l`, a comparison is a total order. -/
structure Consistent
    (cmp : α → α → ℤ)
    (l : List α) : Prop where
  flip :
    ∀ a ∈ l, ∀ b ∈ l, cmp a b ≤ 0 ↔ 0 ≤ cmp b a
  trans :
    ∀ a ∈ l, ∀ b ∈ l, ∀ c ∈ l,
      cmp a b ≤ 0 → cmp b c ≤ 0 → cmp a c ≤ 0

/-
  A sort that is right if the comparison is consistent; of
  another comparison nothing is known.
-/
def CorrectSort
    (sort : (α → α → ℤ) → List α → List α) : Prop :=
  ∀ cmp l, Consistent cmp l →
    (sort cmp l).Perm l ∧
      (sort cmp l).Pairwise fun a b => cmp a b ≤ 0

/- Compare elements of a list. -/
def leOn
    (cmp : α → α → ℤ)
    (l : List α)
    (a b : { a // a ∈ l }) : Bool :=
  cmp a.1 b.1 ≤ 0

/- Such a sort, with `other` for other comparisons. -/
noncomputable def sortOr
    (other : List α)
    (cmp : α → α → ℤ)
    (l : List α) : List α :=
  open Classical in
  if Consistent cmp l then
    (l.attach.mergeSort (leOn cmp l)).map Subtype.val
  else other

theorem sortOr_of_not
    {cmp : α → α → ℤ}
    {l : List α}
    (hNot : ¬ Consistent cmp l)
    (other : List α) :
    sortOr other cmp l = other :=
  if_neg hNot

theorem correctSort_sortOr
    (other : List α) :
    CorrectSort (sortOr other) := by
  intro cmp l hCmp
  rw [sortOr, if_pos hCmp]
  constructor
  · have hPerm :=
      (List.mergeSort_perm l.attach (leOn cmp l)).map
        Subtype.val
    rw [List.attach_map_subtype_val] at hPerm
    exact hPerm
  · have hTrans :
        ∀ a b c, leOn cmp l a b = true →
          leOn cmp l b c = true → leOn cmp l a c = true := by
      intro a b c hab hbc
      exact decide_eq_true
        (hCmp.trans _ a.2 _ b.2 _ c.2
          (of_decide_eq_true hab) (of_decide_eq_true hbc))
    have hTotal :
        ∀ a b, (leOn cmp l a b || leOn cmp l b a) = true := by
      intro a b
      rw [Bool.or_eq_true]
      by_cases hab : cmp a.1 b.1 ≤ 0
      · exact .inl (decide_eq_true hab)
      · rw [hCmp.flip _ a.2 _ b.2, Int.not_le] at hab
        exact .inr (decide_eq_true (Int.le_of_lt hab))
    rw [List.pairwise_map]
    apply (List.pairwise_mergeSort hTrans hTotal l.attach).imp
    intro a b hLe
    exact of_decide_eq_true hLe

------------------------------------------------------------
-- Searching
------------------------------------------------------------

/- Where a search ends: at a hit, or with an empty range. -/
inductive SearchEnd where
  | found (mid : ℕ)
  | ended (start : ℕ)
  deriving Repr, DecidableEq

/-
  Binary search from `start` to before `stop`.  The sign of
  `result mid` tells on which side of `mid` to go on.
-/
def bsearch
    (result : ℕ → ℤ)
    (start stop : ℕ) : SearchEnd :=
  if start < stop then
    let mid := start + (stop - start) / 2
    if result mid < 0 then bsearch result start mid
    else if 0 < result mid then
      bsearch result (mid + 1) stop
    else .found mid
  else .ended start
termination_by stop - start

variable {result : ℕ → ℤ}
variable {start stop p : ℕ}

/- A hit is within the range. -/
theorem bsearch_found
    {mid : ℕ}
    (hFound : bsearch result start stop = .found mid) :
    start ≤ mid ∧ mid < stop ∧ result mid = 0 := by
  fun_induction bsearch result start stop with
  | case1 start stop hLt mid' hNeg ih =>
      have hRest := ih hFound
      omega
  | case2 start stop hLt mid' hNeg hPos ih =>
      have hRest := ih hFound
      omega
  | case3 start stop hLt mid' hNeg hPos =>
      rw [SearchEnd.found.injEq] at hFound
      rw [← hFound]
      omega
  | case4 => cases hFound

theorem bsearch_ended
    (hLe : start ≤ stop)
    (hEnded : bsearch result start stop = .ended p) :
    start ≤ p ∧ p ≤ stop := by
  fun_induction bsearch result start stop with
  | case1 start stop hLt mid hNeg ih =>
      have hRest := ih (by omega) hEnded
      omega
  | case2 start stop hLt mid hNeg hPos ih =>
      have hRest := ih (by omega) hEnded
      omega
  | case3 => cases hEnded
  | case4 start stop hNot =>
      cases hEnded
      omega

/- The one place with result 0 is found. -/
theorem bsearch_of_zero
    (hStart : start ≤ p)
    (hStop : p < stop)
    (hZero : result p = 0)
    (hBefore : ∀ i, start ≤ i → i < p → 0 < result i)
    (hBehind : ∀ i, p < i → i < stop → result i < 0) :
    bsearch result start stop = .found p := by
  fun_induction bsearch result start stop with
  | case1 start stop hLt mid hNeg ih =>
      have hLeft : p < mid := by
        by_contra hNot
        rcases Nat.lt_or_eq_of_le (Nat.not_lt.mp hNot) with
          hBelow | hEq
        · have hPos := hBefore mid (by omega) hBelow
          omega
        · rw [hEq] at hNeg
          omega
      exact ih hStart hLeft hBefore fun i hGt hBelow =>
        hBehind i hGt (by omega)
  | case2 start stop hLt mid hNeg hPos ih =>
      have hRight : mid < p := by
        by_contra hNot
        rcases Nat.lt_or_eq_of_le (Nat.not_lt.mp hNot) with
          hAbove | hEq
        · have hNeg' := hBehind mid hAbove (by omega)
          omega
        · rw [← hEq] at hPos
          omega
      exact ih hRight hStop
        (fun i hGe hBelow => hBefore i (by omega) hBelow)
        hBehind
  | case3 start stop hLt mid hNeg hPos =>
      rcases Nat.lt_trichotomy mid p with hBelow | hEq | hAbove
      · have hPos' := hBefore mid (by omega) hBelow
        omega
      · rw [hEq]
      · have hNeg' := hBehind mid hAbove (by omega)
        omega
  | case4 start stop hNot => omega

/- Without one, the search ends where the sign changes. -/
theorem bsearch_of_pivot
    (hStart : start ≤ p)
    (hStop : p ≤ stop)
    (hBefore : ∀ i, start ≤ i → i < p → 0 < result i)
    (hBehind : ∀ i, p ≤ i → i < stop → result i < 0) :
    bsearch result start stop = .ended p := by
  fun_induction bsearch result start stop with
  | case1 start stop hLt mid hNeg ih =>
      have hLeft : p ≤ mid := by
        by_contra hNot
        have hPos := hBefore mid (by omega) (by omega)
        omega
      exact ih hStart hLeft hBefore fun i hGe hBelow =>
        hBehind i hGe (by omega)
  | case2 start stop hLt mid hNeg hPos ih =>
      have hRight : mid + 1 ≤ p := by
        by_contra hNot
        have hNeg' := hBehind mid (by omega) (by omega)
        omega
      exact ih hRight hStop
        (fun i hGe hBelow => hBefore i (by omega) hBelow)
        hBehind
  | case3 start stop hLt mid hNeg hPos =>
      rcases Nat.lt_or_ge mid p with hBelow | hAbove
      · have hPos' := hBefore mid (by omega) hBelow
        omega
      · have hNeg' := hBehind mid hAbove (by omega)
        omega
  | case4 start stop hNot =>
      rw [Nat.le_antisymm hStart (by omega)]

/- The middle of the range is looked at first. -/
theorem bsearch_middle
    (hPos : 0 < stop)
    (hZero : result (stop / 2) = 0) :
    bsearch result 0 stop = .found (stop / 2) := by
  rw [bsearch, if_pos hPos, Nat.sub_zero, Nat.zero_add]
  simp only [hZero, Int.lt_irrefl, if_false]

end XdpDdos
