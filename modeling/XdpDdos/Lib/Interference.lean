import XdpDdos.Lib.CallProg
import XdpDdos.Lib.Refinement

/-
  Programs whose environment changes between their calls.

  A program that is run one call at a time, while others
  change the state, sees a sequence of states.  What it
  returns is judged by the states it may have seen.

  Main declarations:
    * `CallProg.Tolerates`, `Tolerates.bind`
    * `CallProg.Guarantees`
    * `SeenInOrder`
    * `Reactive.visited`
-/

------------------------------------------------------------
-- Tolerating Interference
------------------------------------------------------------

namespace XdpDdos

variable {Op : Type}
variable {Resp : Op → Type}
variable {α β σ : Type}

namespace CallProg

/-
  Whatever states there are between its calls, a program does
  not halt, and returns what satisfies `P` for the states
  there were up to then, after those of `seen`.
-/
def Tolerates
    (handler : Handler Op Resp σ)
    (P : List σ → α → Prop) :
    CallProg Op Resp α → List σ → Prop
  | ret value, seen => ∀ more, P (seen ++ more) value
  | halt _, _ => False
  | call op next, seen =>
      ∀ more s,
        Tolerates handler P (next (handler op s).1)
          (seen ++ more ++ [s])

namespace Tolerates

variable {handler : Handler Op Resp σ}
variable {P : List σ → α → Prop}
variable {p : CallProg Op Resp α}
variable {seen : List σ}

/- Some time later the same is true. -/
theorem later
    (hTolerates : p.Tolerates handler P seen)
    (more : List σ) :
    p.Tolerates handler P (seen ++ more) := by
  cases p with
  | ret value =>
      intro more'
      rw [List.append_assoc]
      exact hTolerates (more ++ more')
  | halt how => exact hTolerates
  | call op next =>
      intro more' s
      rw [List.append_assoc seen]
      exact hTolerates (more ++ more') s

theorem mono
    {Q : List σ → α → Prop}
    (hTolerates : p.Tolerates handler P seen)
    (hImp : ∀ seen value, P seen value → Q seen value) :
    p.Tolerates handler Q seen := by
  induction p generalizing seen with
  | ret value => exact fun more => hImp _ _ (hTolerates more)
  | halt how => exact hTolerates
  | call op next ih =>
      exact fun more s => ih _ (hTolerates more s)

/- A sequence, judged by what its second part returns. -/
theorem bind
    {Q : List σ → β → Prop}
    {f : α → CallProg Op Resp β}
    (hFirst :
      p.Tolerates handler
        (fun seen value => (f value).Tolerates handler Q seen)
        seen) :
    (p >>= f).Tolerates handler Q seen := by
  induction p generalizing seen with
  | ret value =>
      have hHere := hFirst []
      rw [List.append_nil] at hHere
      exact hHere
  | halt how => exact hFirst
  | call op next ih =>
      intro more s
      exact ih _ (hFirst more s)

/- A program that never halts, judged by its values alone. -/
theorem of_leaves
    {R : α → Prop}
    (hHalts : p.HaltsAs fun _ => False)
    (hLeaves : p.Leaves R)
    (hJudge : ∀ more value, R value → P (seen ++ more) value) :
    p.Tolerates handler P seen := by
  induction p generalizing seen with
  | ret value => exact fun more => hJudge more value hLeaves
  | halt how => exact hHalts
  | call op next ih =>
      intro more s
      apply ih _ (hHalts.2 _) (hLeaves _)
      intro more' value hValue
      rw [List.append_assoc seen, List.append_assoc]
      exact hJudge (more ++ [s] ++ more') value hValue

end Tolerates

end CallProg

------------------------------------------------------------
-- Assumptions and Guarantees
------------------------------------------------------------

namespace CallProg

/-
  As long as its answers satisfy `A`, a program makes calls
  that satisfy `G` only.
-/
def Guarantees
    (A : (op : Op) → Resp op → Prop)
    (G : Op → Prop) : CallProg Op Resp α → Prop
  | ret _ => True
  | halt _ => True
  | call op next =>
      G op ∧
        ∀ answer, A op answer → Guarantees A G (next answer)

theorem Guarantees.bind
    {A : (op : Op) → Resp op → Prop}
    {G : Op → Prop}
    {p : CallProg Op Resp α}
    {f : α → CallProg Op Resp β}
    (hFirst : p.Guarantees A G)
    (hSecond : ∀ value, (f value).Guarantees A G) :
    (p >>= f).Guarantees A G := by
  induction p with
  | ret value => exact hSecond value
  | halt how => trivial
  | call op next ih =>
      exact ⟨hFirst.1, fun answer hAnswer =>
        ih answer (hFirst.2 answer hAnswer)⟩

end CallProg

------------------------------------------------------------
-- The Order of States
------------------------------------------------------------

/- Two states were seen, the second not before the first. -/
def SeenInOrder
    (seen : List σ)
    (s s' : σ) : Prop :=
  ∃ front back, seen = front ++ s :: back ∧ s' ∈ s :: back

theorem SeenInOrder.later
    {seen : List σ}
    {s s' : σ}
    (hSeen : SeenInOrder seen s s')
    (more : List σ) :
    SeenInOrder (seen ++ more) s s' := by
  rcases hSeen with ⟨front, back, rfl, hMem⟩
  refine ⟨front, back ++ more, ?_, ?_⟩
  · rw [List.append_assoc, List.cons_append]
  · rw [← List.cons_append]
    exact List.mem_append_left _ hMem

/- The last state was seen, and none after it. -/
theorem seenInOrder_last
    (seen : List σ)
    (s : σ) :
    SeenInOrder (seen ++ [s]) s s :=
  ⟨seen, [], rfl, List.mem_singleton.mpr rfl⟩

/- A state that was seen, and the last one. -/
theorem SeenInOrder.next
    {seen : List σ}
    {s s' : σ}
    (hSeen : SeenInOrder seen s s)
    (more : List σ) :
    SeenInOrder (seen ++ more ++ [s']) s s' := by
  rcases hSeen with ⟨front, back, rfl, _⟩
  refine ⟨front, back ++ more ++ [s'], ?_, ?_⟩
  · simp only [List.append_assoc, List.cons_append]
  · exact List.mem_cons_of_mem s
      (List.mem_append_right _ (List.mem_singleton.mpr rfl))

/- What was seen at the first moment was seen there twice. -/
theorem SeenInOrder.of_twice
    {seen : List σ}
    {s₀ s s' : σ}
    (hSeen : SeenInOrder (s₀ :: s₀ :: seen) s s') :
    SeenInOrder (s₀ :: seen) s s' := by
  rcases hSeen with ⟨front, back, hEq, hMem⟩
  cases front with
  | nil =>
      cases hEq
      rcases List.mem_cons.mp hMem with rfl | hBack
      · exact ⟨[], seen, rfl, List.mem_cons_self⟩
      · exact ⟨[], seen, rfl, hBack⟩
  | cons first front =>
      rw [List.cons_append] at hEq
      injection hEq with _ hRest
      exact ⟨front, back, hRest, hMem⟩

/- So were what the states map to. -/
theorem SeenInOrder.map
    (f : σ → α)
    {seen : List σ}
    {s s' : σ}
    (hSeen : SeenInOrder seen s s') :
    SeenInOrder (seen.map f) (f s) (f s') := by
  rcases hSeen with ⟨front, back, rfl, hMem⟩
  refine ⟨front.map f, back.map f, ?_, ?_⟩
  · rw [List.map_append, List.map_cons]
  · rw [← List.map_cons]
    exact List.mem_map_of_mem hMem

/- Both of them were seen. -/
theorem SeenInOrder.mem
    {seen : List σ}
    {s s' : σ}
    (hSeen : SeenInOrder seen s s') :
    s ∈ seen ∧ s' ∈ seen := by
  rcases hSeen with ⟨front, back, rfl, hMem⟩
  exact ⟨List.mem_append_right _ List.mem_cons_self,
    List.mem_append_right _ hMem⟩

------------------------------------------------------------
-- The States of a Run
------------------------------------------------------------

/- The state before each event of a run. -/
def Reactive.visited
    {ε ρ : Type}
    (sys : Reactive σ ε ρ) : σ → List ε → List σ
  | _, [] => []
  | s, e :: es => s :: visited sys (sys.step s e).2 es

/- What every step preserves holds in all states of a run. -/
theorem Reactive.visited_invariant
    {ε ρ : Type}
    (sys : Reactive σ ε ρ)
    {Inv : σ → Prop}
    (hStep : ∀ s e, Inv s → Inv (sys.step s e).2)
    {s : σ}
    (hInit : Inv s)
    (es : List ε) :
    ∀ s' ∈ sys.visited s es, Inv s' := by
  induction es generalizing s with
  | nil =>
      intro s' hMem
      cases hMem
  | cons e es ih =>
      intro s' hMem
      rcases List.mem_cons.mp hMem with rfl | hTail
      · exact hInit
      · exact ih (hStep s e hInit) s' hTail

end XdpDdos
