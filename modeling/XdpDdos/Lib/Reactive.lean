import Mathlib.Algebra.BigOperators.Group.List.Basic

/-
  Systems that answer one event at a time.

  A ghost is a value computed along a run from what each
  step started in, received and answered.  Invariants and
  simulations are proven for one step and hold of every run.

  Main declarations:
    * `Reactive.final`, `Reactive.ghost`
    * `Reactive.final_append`, `Reactive.ghost_append`
    * `Reactive.AllSteps`, `Reactive.Always`
    * `Reactive.always_iff_allSteps`
    * `Reactive.final_invariant`, `Reactive.final_of_always`
    * `Reactive.ghost_simulation`
    * `Reactive.ghost_simulation_of_allSteps`
    * `Reactive.final_eq_add_weights`
    * `Reactive.final_ranked`
-/

------------------------------------------------------------
-- Runs
------------------------------------------------------------

namespace XdpDdos

/- One step answers an event and moves to a new state. -/
structure Reactive (σ ε ρ : Type) where
  step : σ → ε → ρ × σ

namespace Reactive

variable {σ ε ρ τ : Type}

/- The state after a sequence of events. -/
def final
    (sys : Reactive σ ε ρ) : σ → List ε → σ
  | s, [] => s
  | s, e :: es => final sys (sys.step s e).2 es

/- The ghost after a sequence of events. -/
def ghost
    (sys : Reactive σ ε ρ)
    (update : σ → ε → ρ → τ → τ) : σ → τ → List ε → τ
  | _, t, [] => t
  | s, t, e :: es =>
      ghost sys update (sys.step s e).2
        (update s e (sys.step s e).1 t) es

@[simp] theorem final_cons
    (sys : Reactive σ ε ρ)
    (s : σ)
    (e : ε)
    (es : List ε) :
    sys.final s (e :: es) =
      sys.final (sys.step s e).2 es := rfl

@[simp] theorem ghost_cons
    (sys : Reactive σ ε ρ)
    (update : σ → ε → ρ → τ → τ)
    (s : σ)
    (t : τ)
    (e : ε)
    (es : List ε) :
    sys.ghost update s t (e :: es) =
      sys.ghost update (sys.step s e).2
        (update s e (sys.step s e).1 t) es := rfl

/- A run in two parts. -/
theorem final_append
    (sys : Reactive σ ε ρ)
    (s : σ)
    (es es' : List ε) :
    sys.final s (es ++ es') =
      sys.final (sys.final s es) es' := by
  induction es generalizing s with
  | nil => rfl
  | cons e es ih => exact ih (sys.step s e).2

theorem ghost_append
    (sys : Reactive σ ε ρ)
    (update : σ → ε → ρ → τ → τ)
    (s : σ)
    (t : τ)
    (es es' : List ε) :
    sys.ghost update s t (es ++ es') =
      sys.ghost update (sys.final s es)
        (sys.ghost update s t es) es' := by
  induction es generalizing s t with
  | nil => rfl
  | cons e es ih => exact ih (sys.step s e).2 _

/- A ghost that no step makes smaller only grows. -/
theorem le_ghost
    [Preorder τ]
    (sys : Reactive σ ε ρ)
    {update : σ → ε → ρ → τ → τ}
    (hGrow : ∀ s e answer t, t ≤ update s e answer t)
    (s : σ)
    (t : τ)
    (es : List ε) :
    t ≤ sys.ghost update s t es := by
  induction es generalizing s t with
  | nil => exact le_refl t
  | cons e es ih =>
      exact le_trans (hGrow s e (sys.step s e).1 t)
        (ih (sys.step s e).2 _)

/- A condition on state and event holds at every step. -/
def AllSteps
    (sys : Reactive σ ε ρ)
    (cond : σ → ε → Prop) : σ → List ε → Prop
  | _, [] => True
  | s, e :: es =>
      cond s e ∧ AllSteps sys cond (sys.step s e).2 es

/- A property holds in every state of the run. -/
def Always
    (sys : Reactive σ ε ρ)
    (P : σ → Prop) : σ → List ε → Prop
  | s, [] => P s
  | s, e :: es => P s ∧ Always sys P (sys.step s e).2 es

instance Always.decidable
    (sys : Reactive σ ε ρ)
    (P : σ → Prop)
    [DecidablePred P] :
    (s : σ) → (es : List ε) → Decidable (sys.Always P s es)
  | s, [] => inferInstanceAs (Decidable (P s))
  | s, e :: es =>
      have := Always.decidable sys P (sys.step s e).2 es
      inferInstanceAs (Decidable (P s ∧ _))

------------------------------------------------------------
-- From One Step to Every Run
------------------------------------------------------------

/- What every step preserves holds after every run. -/
theorem final_invariant
    (sys : Reactive σ ε ρ)
    (Inv : σ → Prop)
    (hStep : ∀ s e, Inv s → Inv (sys.step s e).2)
    {s : σ}
    (hInit : Inv s)
    (es : List ε) :
    Inv (sys.final s es) := by
  induction es generalizing s with
  | nil => exact hInit
  | cons e es ih => exact ih (hStep s e hInit)

theorem Always.init
    {sys : Reactive σ ε ρ}
    {P : σ → Prop}
    {s : σ}
    {es : List ε}
    (hAlways : sys.Always P s es) :
    P s := by
  cases es with
  | nil => exact hAlways
  | cons e es => exact hAlways.1

theorem Always.and
    {sys : Reactive σ ε ρ}
    {P Q : σ → Prop}
    {s : σ}
    {es : List ε}
    (hLeft : sys.Always P s es)
    (hRight : sys.Always Q s es) :
    sys.Always (fun s => P s ∧ Q s) s es := by
  induction es generalizing s with
  | nil => exact ⟨hLeft, hRight⟩
  | cons e es ih =>
      exact ⟨⟨hLeft.1, hRight.1⟩, ih hLeft.2 hRight.2⟩

/-
  What a step preserves as long as a property holds, a run
  preserves in all states of which the property holds.
-/
theorem final_of_always
    (sys : Reactive σ ε ρ)
    (P Inv : σ → Prop)
    (hStep :
      ∀ s e, P s → P (sys.step s e).2 → Inv s →
        Inv (sys.step s e).2)
    {s : σ}
    {es : List ε}
    (hAlways : sys.Always P s es)
    (hInit : Inv s) :
    Inv (sys.final s es) := by
  induction es generalizing s with
  | nil => exact hInit
  | cons e es ih =>
      rcases hAlways with ⟨hHere, hRest⟩
      exact ih hRest (hStep s e hHere hRest.init hInit)

/-
  Where a step preserves an invariant exactly if it meets a
  condition, the invariant holds in every state of a run
  exactly if all steps of the run meet the condition.
-/
theorem always_iff_allSteps
    (sys : Reactive σ ε ρ)
    (cond : σ → ε → Prop)
    (Inv : σ → Prop)
    (hStep :
      ∀ s e, Inv s → (Inv (sys.step s e).2 ↔ cond s e))
    {s : σ}
    (hInit : Inv s)
    (es : List ε) :
    sys.Always Inv s es ↔ sys.AllSteps cond s es := by
  induction es generalizing s with
  | nil => exact iff_of_true hInit trivial
  | cons e es ih =>
      have hHere := hStep s e hInit
      constructor
      · rintro ⟨_, hRest⟩
        exact ⟨hHere.mp hRest.init,
          (ih hRest.init).mp hRest⟩
      · rintro ⟨hCond, hRest⟩
        have hNext := hHere.mpr hCond
        exact ⟨hInit, (ih hNext).mpr hRest⟩

/-
  A relation between state and ghost that every step
  re-establishes holds between them after every run.
-/
theorem ghost_simulation
    (sys : Reactive σ ε ρ)
    (update : σ → ε → ρ → τ → τ)
    (Rel : σ → τ → Prop)
    (hStep :
      ∀ s t e, Rel s t →
        Rel (sys.step s e).2
          (update s e (sys.step s e).1 t))
    {s : σ}
    {t : τ}
    (hInit : Rel s t)
    (es : List ε) :
    Rel (sys.final s es) (sys.ghost update s t es) := by
  induction es generalizing s t with
  | nil => exact hInit
  | cons e es ih => exact ih (hStep s t e hInit)

/- A condition that always holds holds at every step. -/
theorem allSteps_of_forall
    (sys : Reactive σ ε ρ)
    {cond : σ → ε → Prop}
    (hCond : ∀ s e, cond s e)
    (s : σ)
    (es : List ε) :
    sys.AllSteps cond s es := by
  induction es generalizing s with
  | nil => trivial
  | cons e es ih => exact ⟨hCond s e, ih _⟩

/-
  A relation that every step meeting a condition
  re-establishes holds after every run whose steps meet it.
-/
theorem ghost_simulation_of_allSteps
    (sys : Reactive σ ε ρ)
    (update : σ → ε → ρ → τ → τ)
    (cond : σ → ε → Prop)
    (Rel : σ → τ → Prop)
    (hStep :
      ∀ s t e, cond s e → Rel s t →
        Rel (sys.step s e).2
          (update s e (sys.step s e).1 t))
    {s : σ}
    {t : τ}
    {es : List ε}
    (hCond : sys.AllSteps cond s es)
    (hInit : Rel s t) :
    Rel (sys.final s es) (sys.ghost update s t es) := by
  induction es generalizing s t with
  | nil => exact hInit
  | cons e es ih =>
      rcases hCond with ⟨hHere, hRest⟩
      exact ih hRest (hStep s t e hHere hInit)

/-
  An observation to which every step adds the weight of its
  event grows along a run by the sum of the weights.
-/
theorem final_eq_add_weights
    {M : Type}
    [AddCommMonoid M]
    (sys : Reactive σ ε ρ)
    (Inv : σ → Prop)
    (cond : σ → ε → Prop)
    (obs : σ → M)
    (weight : ε → M)
    (hKeep : ∀ s e, Inv s → Inv (sys.step s e).2)
    (hStep :
      ∀ s e, Inv s → cond s e →
        obs (sys.step s e).2 = obs s + weight e)
    {s : σ}
    {es : List ε}
    (hInit : Inv s)
    (hCond : sys.AllSteps cond s es) :
    obs (sys.final s es) = obs s + (es.map weight).sum := by
  induction es generalizing s with
  | nil => exact (add_zero (obs s)).symm
  | cons e es ih =>
      rcases hCond with ⟨hHere, hRest⟩
      rw [final_cons, ih (hKeep s e hInit) hRest,
        hStep s e hInit hHere, List.map_cons, List.sum_cons,
        add_assoc]

/-
  A rank that no step makes larger, and that the events of
  one kind make smaller, is down to zero after as many.
-/
theorem final_ranked
    [DecidableEq ε]
    [BEq ε]
    [LawfulBEq ε]
    (sys : Reactive σ ε ρ)
    (own : ε)
    (Ranked : σ → ℕ → Prop)
    (hStep :
      ∀ s e rank, Ranked s rank →
        ∃ rank', rank' ≤ (if e = own then rank - 1 else rank) ∧
          Ranked (sys.step s e).2 rank')
    {s : σ}
    {rank : ℕ}
    (hInit : Ranked s rank)
    (es : List ε) :
    ∃ rank', rank' ≤ rank - es.count own ∧
      Ranked (sys.final s es) rank' := by
  induction es generalizing s rank with
  | nil => exact ⟨rank, Nat.le_refl rank, hInit⟩
  | cons e es ih =>
      rcases hStep s e rank hInit with ⟨rank₁, hLe₁, hRanked₁⟩
      rcases ih hRanked₁ with ⟨rank₂, hLe₂, hRanked₂⟩
      refine ⟨rank₂, ?_, hRanked₂⟩
      by_cases hOwn : e = own
      · subst hOwn
        rw [if_pos rfl] at hLe₁
        rw [List.count_cons_self]
        omega
      · rw [if_neg hOwn] at hLe₁
        rw [List.count_cons_of_ne hOwn]
        omega

end Reactive

end XdpDdos
