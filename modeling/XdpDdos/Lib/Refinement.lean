import XdpDdos.Lib.Reactive

/-
  Refinement of a labelled transition relation.

  A relation between the states of a reactive system and the
  states of a transition relation that every step of the
  system can be matched in carries over to whole runs, with
  the same events and the same responses.

  Main declarations:
    * `Reactive.trace`
    * `Lts`, `Lts.Run`, `Lts.Run.invariant`
    * `Reactive.refines`
-/

------------------------------------------------------------
-- Traces
------------------------------------------------------------

namespace XdpDdos

variable {σ α ε ρ : Type}

namespace Reactive

/- The events of a run, each with its response. -/
def trace
    (sys : Reactive σ ε ρ) : σ → List ε → List (ε × ρ)
  | _, [] => []
  | s, e :: es =>
      (e, (sys.step s e).1) :: trace sys (sys.step s e).2 es

/- The events of a trace are those of the run. -/
theorem mem_of_mem_trace
    (sys : Reactive σ ε ρ)
    {s : σ}
    {es : List ε}
    {label : ε × ρ}
    (hMem : label ∈ sys.trace s es) :
    label.1 ∈ es := by
  induction es generalizing s with
  | nil => cases hMem
  | cons e es ih =>
      rcases List.mem_cons.mp hMem with rfl | hTail
      · exact List.mem_cons_self
      · exact List.mem_cons_of_mem e (ih hTail)

/- A condition on the events alone. -/
theorem allSteps_of_mem
    (sys : Reactive σ ε ρ)
    {cond : ε → Prop}
    {es : List ε}
    (hCond : ∀ e ∈ es, cond e)
    (s : σ) :
    sys.AllSteps (fun _ => cond) s es := by
  induction es generalizing s with
  | nil => trivial
  | cons e es ih =>
      exact ⟨hCond e List.mem_cons_self,
        ih (fun e' hMem =>
          hCond e' (List.mem_cons_of_mem e hMem)) _⟩

end Reactive

------------------------------------------------------------
-- Transition Relations
------------------------------------------------------------

/- What an event and its response may do to a state. -/
abbrev Lts (α ε ρ : Type) :=
  α → ε → ρ → α → Prop

namespace Lts

/- A run of the relation along a trace. -/
inductive Run
    (step : Lts α ε ρ) : α → List (ε × ρ) → α → Prop where
  | nil (a : α) : Run step a [] a
  | cons
      {a a₁ a₂ : α}
      {e : ε}
      {r : ρ}
      {labels : List (ε × ρ)}
      (hStep : step a e r a₁)
      (hRest : Run step a₁ labels a₂) :
      Run step a ((e, r) :: labels) a₂

namespace Run

variable {step : Lts α ε ρ}
variable {a a' : α}
variable {labels : List (ε × ρ)}

/-
  What steps with certain labels preserve holds after a run
  along such labels.
-/
theorem invariant
    {P : ε → ρ → Prop}
    {Inv : α → Prop}
    (hKeep :
      ∀ a e r a', P e r → Inv a → step a e r a' → Inv a')
    (hRun : Run step a labels a')
    (hLabels : ∀ label ∈ labels, P label.1 label.2)
    (hInit : Inv a) :
    Inv a' := by
  induction hRun with
  | nil a => exact hInit
  | cons hStep _ ih =>
      have hHere := hLabels _ List.mem_cons_self
      have hTail := fun label hMem =>
        hLabels label (List.mem_cons_of_mem _ hMem)
      exact ih hTail (hKeep _ _ _ _ hHere hInit hStep)

end Run

end Lts

------------------------------------------------------------
-- Refinement
------------------------------------------------------------

/-
  If every step of the system is matched from related states
  by a step of the relation, every run is matched by a run.
-/
theorem Reactive.refines
    (sys : Reactive σ ε ρ)
    {step : Lts α ε ρ}
    {Rel : σ → α → Prop}
    (hStep :
      ∀ s a e, Rel s a →
        ∃ a', step a e (sys.step s e).1 a' ∧
          Rel (sys.step s e).2 a')
    {s : σ}
    {a : α}
    (hInit : Rel s a)
    (es : List ε) :
    ∃ a', Lts.Run step a (sys.trace s es) a' ∧
      Rel (sys.final s es) a' := by
  induction es generalizing s a with
  | nil => exact ⟨a, .nil a, hInit⟩
  | cons e es ih =>
      rcases hStep s a e hInit with ⟨a₁, hHere, hRel⟩
      rcases ih hRel with ⟨a', hRest, hFinal⟩
      exact ⟨a', .cons hHere hRest, hFinal⟩

end XdpDdos
