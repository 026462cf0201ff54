import Mathlib.Data.List.Basic

/-
  Loops over a list that pass some elements and stop at the
  first one that they do not pass.

  What a loop ends with is decided by the first element that
  is not passed; `Reaches Pass Stop` says that this element
  satisfies `Stop`.

  Main declarations:
    * `Reaches`, `reaches_iff`
    * `Reaches.not_forall`, `Reaches.and`
    * `reaches_range_iff`
-/

------------------------------------------------------------
-- The First Element That Is Not Passed
------------------------------------------------------------

namespace XdpDdos

variable {α : Type}
variable {Pass Stop Stop' : α → Prop}
variable {l : List α}

/- All elements before one that satisfies `Stop` are passed. -/
def Reaches (Pass Stop : α → Prop) : List α → Prop
  | [] => False
  | a :: l => Stop a ∨ Pass a ∧ Reaches Pass Stop l

theorem reaches_iff :
    Reaches Pass Stop l ↔
      ∃ l₁ a l₂, l = l₁ ++ a :: l₂ ∧
        (∀ b ∈ l₁, Pass b) ∧ Stop a := by
  induction l with
  | nil =>
      constructor
      · intro hReaches
        cases hReaches
      · rintro ⟨l₁, a, l₂, hSplit, _⟩
        exact absurd hSplit.symm (List.append_ne_nil_of_right_ne_nil
          l₁ (List.cons_ne_nil a l₂))
  | cons b l ih =>
      rw [Reaches, ih]
      constructor
      · rintro (hStop | ⟨hPass, l₁, a, l₂, rfl, hAll, hStop⟩)
        · exact ⟨[], b, l, rfl, List.forall_mem_nil _, hStop⟩
        · exact ⟨b :: l₁, a, l₂, rfl,
            List.forall_mem_cons.mpr ⟨hPass, hAll⟩, hStop⟩
      · rintro ⟨l₁, a, l₂, hSplit, hAll, hStop⟩
        cases l₁ with
        | nil =>
            cases hSplit
            exact Or.inl hStop
        | cons c l₁ =>
            cases hSplit
            rw [List.forall_mem_cons] at hAll
            exact Or.inr ⟨hAll.1, l₁, a, l₂, rfl, hAll.2,
              hStop⟩

theorem Reaches.imp
    {Pass' : α → Prop}
    (hReaches : Reaches Pass Stop l)
    (hPass : ∀ a ∈ l, Pass a → Pass' a)
    (hStop : ∀ a ∈ l, Stop a → Stop' a) :
    Reaches Pass' Stop' l := by
  induction l with
  | nil => exact hReaches
  | cons a l ih =>
      rw [List.forall_mem_cons] at hPass hStop
      rcases hReaches with hHere | ⟨hFirst, hRest⟩
      · exact Or.inl (hStop.1 hHere)
      · exact Or.inr ⟨hPass.1 hFirst,
          ih hRest hPass.2 hStop.2⟩

theorem reaches_congr
    {Pass' : α → Prop}
    (hPass : ∀ a ∈ l, Pass a ↔ Pass' a)
    (hStop : ∀ a ∈ l, Stop a ↔ Stop' a) :
    Reaches Pass Stop l ↔ Reaches Pass' Stop' l := by
  constructor
  · intro hReaches
    exact hReaches.imp (fun a hMem => (hPass a hMem).mp)
      (fun a hMem => (hStop a hMem).mp)
  · intro hReaches
    exact hReaches.imp (fun a hMem => (hPass a hMem).mpr)
      (fun a hMem => (hStop a hMem).mpr)

/- Then not all are passed, if nothing that stops is. -/
theorem Reaches.not_forall
    (hReaches : Reaches Pass Stop l)
    (hStop : ∀ a, Stop a → ¬ Pass a) :
    ¬ ∀ a ∈ l, Pass a := by
  induction l with
  | nil => cases hReaches
  | cons a l ih =>
      intro hAll
      rw [List.forall_mem_cons] at hAll
      rcases hReaches with hHere | ⟨_, hRest⟩
      · exact hStop a hHere hAll.1
      · exact ih hRest hAll.2

/- The first element that is not passed is unique. -/
theorem Reaches.and
    (hReaches : Reaches Pass Stop l)
    (hReaches' : Reaches Pass Stop' l)
    (hStop : ∀ a, Stop a → ¬ Pass a)
    (hStop' : ∀ a, Stop' a → ¬ Pass a) :
    Reaches Pass (fun a => Stop a ∧ Stop' a) l := by
  induction l with
  | nil => cases hReaches
  | cons a l ih =>
      rcases hReaches with hHere | ⟨hPass, hRest⟩
      · rcases hReaches' with hHere' | ⟨hPass', _⟩
        · exact Or.inl ⟨hHere, hHere'⟩
        · exact absurd hPass' (hStop a hHere)
      · rcases hReaches' with hHere' | ⟨_, hRest'⟩
        · exact absurd hPass (hStop' a hHere')
        · exact Or.inr ⟨hPass, ih hRest hRest'⟩

/- A loop that counts up to `n`. -/
theorem reaches_range_iff
    {Pass Stop : ℕ → Prop}
    {n : ℕ} :
    Reaches Pass Stop (List.range n) ↔
      ∃ j < n, (∀ i < j, Pass i) ∧ Stop j := by
  rw [reaches_iff]
  constructor
  · rintro ⟨l₁, j, l₂, hSplit, hAll, hStop⟩
    have hLength := congrArg List.length hSplit
    rw [List.length_range, List.length_append,
      List.length_cons] at hLength
    have hFirst : l₁ = List.range l₁.length := by
      have hTake := congrArg (List.take l₁.length) hSplit
      rw [List.take_range, List.take_left,
        Nat.min_eq_left (by omega)] at hTake
      exact hTake.symm
    have hIdx : j = l₁.length := by
      have hGet :=
        congrArg (fun l : List ℕ => l[l₁.length]?) hSplit
      simp only [List.getElem?_append_right (Nat.le_refl _),
        Nat.sub_self, List.getElem?_cons_zero,
        List.getElem?_range (show l₁.length < n by omega)]
        at hGet
      exact (Option.some.inj hGet).symm
    refine ⟨j, by omega, ?_, hStop⟩
    intro i hLt
    apply hAll
    rw [hFirst, List.mem_range]
    omega
  · rintro ⟨j, hLt, hAll, hStop⟩
    refine ⟨List.range j, j,
      (List.range (n - j - 1)).map (j + 1 + ·), ?_, ?_, hStop⟩
    · have hN : n = j + (1 + (n - j - 1)) := by
        omega
      conv => lhs; rw [hN]
      rw [List.range_add, List.range_add]
      simp [Nat.add_assoc]
    · intro i hMem
      exact hAll i (List.mem_range.mp hMem)

end XdpDdos
