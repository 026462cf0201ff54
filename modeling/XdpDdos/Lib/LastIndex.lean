import Mathlib.Data.List.Range

/-
  The last index below a bound that has a property, and loops
  that overwrite a value at each such index.

  Main declarations:
    * `LastBelow`, `exists_lastBelow_or`
    * `foldl_range_lastBelow`
-/

------------------------------------------------------------
-- The Last Index
------------------------------------------------------------

namespace XdpDdos

/- The last index below `n` with the property. -/
structure LastBelow
    (p : ℕ → Prop)
    (n i : ℕ) : Prop where
  lt : i < n
  holds : p i
  last : ∀ j, i < j → j < n → ¬ p j

section

variable {p q : ℕ → Prop}
variable {n i : ℕ}

theorem LastBelow.unique
    {j : ℕ}
    (hLast : LastBelow p n i)
    (hOther : LastBelow p n j) :
    i = j := by
  rcases Nat.lt_trichotomy i j with hLt | hEq | hGt
  · exact absurd hOther.holds (hLast.last j hLt hOther.lt)
  · exact hEq
  · exact absurd hLast.holds (hOther.last i hGt hLast.lt)

/- It is the last one also among fewer that have it. -/
theorem LastBelow.of_imp
    (hLast : LastBelow p n i)
    (hImp : ∀ j, q j → p j)
    (hHere : q i) :
    LastBelow q n i where
  lt := hLast.lt
  holds := hHere
  last := fun j hGt hLt hHolds =>
    hLast.last j hGt hLt (hImp j hHolds)

theorem LastBelow.succ
    (hLast : LastBelow p n i)
    (hNot : ¬ p n) :
    LastBelow p (n + 1) i where
  lt := Nat.lt_succ_of_lt hLast.lt
  holds := hLast.holds
  last := by
    intro j hGt hLt
    rcases Nat.lt_succ_iff_lt_or_eq.mp hLt with hBelow | rfl
    · exact hLast.last j hGt hBelow
    · exact hNot

theorem lastBelow_self
    (hHere : p n) :
    LastBelow p (n + 1) n where
  lt := Nat.lt_succ_self n
  holds := hHere
  last := fun _ hGt hLt =>
    absurd hGt (Nat.not_lt.mpr (Nat.le_of_lt_succ hLt))

/- There is a last one, unless there is none. -/
theorem exists_lastBelow_or
    (p : ℕ → Prop)
    (n : ℕ) :
    (∃ i, LastBelow p n i) ∨ ∀ i < n, ¬ p i := by
  induction n with
  | zero =>
      right
      intro i hLt
      cases hLt
  | succ n ih =>
      by_cases hHere : p n
      · exact .inl ⟨n, lastBelow_self hHere⟩
      · rcases ih with ⟨i, hLast⟩ | hNone
        · exact .inl ⟨i, hLast.succ hHere⟩
        · right
          intro i hLt
          rcases Nat.lt_succ_iff_lt_or_eq.mp hLt with
            hBelow | rfl
          · exact hNone i hBelow
          · exact hHere

/- A loop that overwrites a value keeps the last one. -/
theorem foldl_range_lastBelow
    [DecidablePred p]
    {α : Type}
    (f : ℕ → α)
    (init : α)
    (n : ℕ) :
    let value :=
      (List.range n).foldl
        (fun a i => if p i then f i else a) init
    (∀ i, LastBelow p n i → value = f i) ∧
      ((∀ i < n, ¬ p i) → value = init) := by
  induction n with
  | zero =>
      refine ⟨?_, fun _ => rfl⟩
      intro i hLast
      cases hLast.lt
  | succ n ih =>
      rw [List.range_succ, List.foldl_append]
      by_cases hHere : p n
      · simp only [List.foldl_cons, List.foldl_nil, hHere,
          if_true]
        constructor
        · intro i hLast
          rw [hLast.unique (lastBelow_self hHere)]
        · intro hNone
          exact absurd hHere (hNone n (Nat.lt_succ_self n))
      · simp only [List.foldl_cons, List.foldl_nil, hHere,
          if_false]
        constructor
        · intro i hLast
          have hLt : i < n := by
            rcases Nat.lt_succ_iff_lt_or_eq.mp hLast.lt with
              hBelow | rfl
            · exact hBelow
            · exact absurd hLast.holds hHere
          refine ih.1 i ⟨hLt, hLast.holds, ?_⟩
          intro j hGt hBelow
          exact hLast.last j hGt (Nat.lt_succ_of_lt hBelow)
        · intro hNone
          exact ih.2 fun i hLt =>
            hNone i (Nat.lt_succ_of_lt hLt)

end

end XdpDdos
