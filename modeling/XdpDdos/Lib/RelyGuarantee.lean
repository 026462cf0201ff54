import XdpDdos.Lib.Interleaving

/-
  Hoare rules for programs that share their state.

  Between any two calls of a program others may change the
  state.  An assertion that they keep is stable, and a
  program is proven call by call from stable assertions.  A
  program with loops that may go on forever is given by
  blocks, each of which ends with the label of the next one.

  Main declarations:
    * `World`, `World.Stable`
    * `CallProg.Meets`, `CallProg.Triple`
    * `Triple.ret`, `Triple.call'`, `Triple.bind`
    * `Meets.others`, `Meets.access`, `Meets.jump`
-/

------------------------------------------------------------
-- What Others May Do
------------------------------------------------------------

namespace XdpDdos

/-
  What others may do to the state between two calls, what a
  call may do, and which calls and halts are allowed.
-/
structure World
    (Op : Type)
    (Resp : Op → Type)
    (σ : Type) where
  others : σ → σ → Prop
  others_refl : ∀ s, others s s
  others_trans : ∀ {s s' s''},
    others s s' → others s' s'' → others s s''
  access : (op : Op) → σ → Resp op → σ → Prop
  allows : Op → σ → Prop
  mayHalt : Halt → σ → Prop

variable {Op : Type}
variable {Resp : Op → Type}
variable {α β σ : Type}

/- Others keep an assertion. -/
def World.Stable
    (W : World Op Resp σ)
    (P : σ → Prop) : Prop :=
  ∀ s s', W.others s s' → P s → P s'

/- A fact that does not depend on the state. -/
theorem World.Stable.pure_and
    {W : World Op Resp σ}
    {P : σ → Prop}
    (fact : Prop)
    (hStable : W.Stable P) :
    W.Stable fun s => fact ∧ P s :=
  fun s s' hOthers hBoth =>
    ⟨hBoth.1, hStable s s' hOthers hBoth.2⟩

------------------------------------------------------------
-- Programs among Others
------------------------------------------------------------

namespace CallProg

/-
  Whatever others do, all calls of a program are allowed, it
  halts only where it may, and `Q` holds when it returns.
-/
def Meets
    (W : World Op Resp σ)
    (Q : α → σ → Prop) : CallProg Op Resp α → σ → Prop
  | ret value, s => ∀ s', W.others s s' → Q value s'
  | halt how, s => ∀ s', W.others s s' → W.mayHalt how s'
  | call op next, s =>
      ∀ s', W.others s s' →
        W.allows op s' ∧
          ∀ answer s'', W.access op s' answer s'' →
            Meets W Q (next answer) s''

/- Started from `P`, a program meets `Q`. -/
def Triple
    (W : World Op Resp σ)
    (P : σ → Prop)
    (p : CallProg Op Resp α)
    (Q : α → σ → Prop) : Prop :=
  ∀ s, P s → p.Meets W Q s

section

variable {W : World Op Resp σ}
variable {P : σ → Prop}
variable {Q : α → σ → Prop}
variable {p : CallProg Op Resp α}

------------------------------------------------------------
-- The Rules
------------------------------------------------------------

namespace Triple

theorem ret
    {value : α}
    (hStable : W.Stable P)
    (hPost : ∀ s, P s → Q value s) :
    Triple W P (.ret value) Q :=
  fun _ hPre _ hOthers => hPost _ (hStable _ _ hOthers hPre)

theorem halt
    {how : Halt}
    (hStable : W.Stable P)
    (hMay : ∀ s, P s → W.mayHalt how s) :
    Triple W P (.halt how) Q :=
  fun _ hPre _ hOthers => hMay _ (hStable _ _ hOthers hPre)

theorem call
    {op : Op}
    {next : Resp op → CallProg Op Resp α}
    {M : Resp op → σ → Prop}
    (hStable : W.Stable P)
    (hAllowed : ∀ s, P s → W.allows op s)
    (hAccess :
      ∀ s answer s', P s → W.access op s answer s' →
        M answer s')
    (hNext : ∀ answer, Triple W (M answer) (next answer) Q) :
    Triple W P (.call op next) Q := by
  intro s hPre s' hOthers
  have hHere := hStable s s' hOthers hPre
  exact ⟨hAllowed s' hHere, fun answer s'' hAnswered =>
    hNext answer s'' (hAccess s' answer s'' hHere hAnswered)⟩

/- A single call. -/
theorem call'
    {op : Op}
    {M : Resp op → σ → Prop}
    (hStable : W.Stable P)
    (hKeep : ∀ answer, W.Stable (M answer))
    (hAllowed : ∀ s, P s → W.allows op s)
    (hAccess :
      ∀ s answer s', P s → W.access op s answer s' →
        M answer s') :
    Triple W P (.call' op) M :=
  .call hStable hAllowed hAccess fun answer =>
    .ret (hKeep answer) fun _ hHere => hHere

/- What is weaker before, or stronger after. -/
theorem mono
    {P' : σ → Prop}
    {Q' : α → σ → Prop}
    (hTriple : Triple W P' p Q')
    (hPre : ∀ s, P s → P' s)
    (hPost : ∀ value s, Q' value s → Q value s) :
    Triple W P p Q := by
  intro s hHere
  have hMeets := hTriple s (hPre s hHere)
  clear hTriple hHere
  induction p generalizing s with
  | ret value =>
      exact fun s' hOthers => hPost _ _ (hMeets s' hOthers)
  | halt how => exact hMeets
  | call op next ih =>
      intro s' hOthers
      rcases hMeets s' hOthers with ⟨hAllowed, hNext⟩
      exact ⟨hAllowed, fun answer s'' hAccess =>
        ih answer s'' (hNext answer s'' hAccess)⟩

theorem bind
    {M : α → σ → Prop}
    {R : β → σ → Prop}
    {f : α → CallProg Op Resp β}
    (hFirst : Triple W P p M)
    (hSecond : ∀ value, Triple W (M value) (f value) R) :
    Triple W P (p >>= f) R := by
  intro s hHere
  have hMeets := hFirst s hHere
  clear hFirst hHere
  induction p generalizing s with
  | ret value =>
      exact hSecond value s (hMeets s (W.others_refl s))
  | halt how => exact hMeets
  | call op next ih =>
      intro s' hOthers
      rcases hMeets s' hOthers with ⟨hAllowed, hNext⟩
      exact ⟨hAllowed, fun answer s'' hAccess =>
        ih answer s'' (hNext answer s'' hAccess)⟩

/- A first part whose value is known. -/
theorem bind_eq
    {value : α}
    {M : σ → Prop}
    {R : β → σ → Prop}
    {f : α → CallProg Op Resp β}
    (hFirst :
      Triple W P p fun value' s => value' = value ∧ M s)
    (hSecond : Triple W M (f value) R) :
    Triple W P (p >>= f) R := by
  apply hFirst.bind
  intro value' s hHere
  rw [hHere.1]
  exact hSecond s hHere.2

end Triple

------------------------------------------------------------
-- Programs Step by Step
------------------------------------------------------------

/- How a program halts that does nothing else. -/
def halted? : CallProg Op Resp α → Option Halt
  | halt how => some how
  | _ => none

theorem exists_of_nextCall?
    {op : Op}
    (hNext : p.nextCall? = some op) :
    ∃ next, p = .call op next := by
  cases p with
  | ret value => cases hNext
  | halt how => cases hNext
  | call op' next =>
      cases hNext
      exact ⟨next, rfl⟩

theorem eq_of_halted?
    {how : Halt}
    (hHalted : p.halted? = some how) :
    p = .halt how := by
  cases p with
  | ret value => cases hHalted
  | halt how' =>
      cases hHalted
      rfl
  | call op next => cases hHalted

namespace Meets

variable {s s' : σ}

/- A program that others go before. -/
theorem others
    (hMeets : p.Meets W Q s)
    (hOthers : W.others s s') :
    p.Meets W Q s' := by
  cases p with
  | ret value =>
      exact fun s'' hMore =>
        hMeets s'' (W.others_trans hOthers hMore)
  | halt how =>
      exact fun s'' hMore =>
        hMeets s'' (W.others_trans hOthers hMore)
  | call op next =>
      exact fun s'' hMore =>
        hMeets s'' (W.others_trans hOthers hMore)

/- A program that makes its next call. -/
theorem access
    {op : Op}
    {next : Resp op → CallProg Op Resp α}
    {answer : Resp op}
    (hMeets : (CallProg.call op next).Meets W Q s)
    (hAccess : W.access op s answer s') :
    (next answer).Meets W Q s' :=
  (hMeets s (W.others_refl s)).2 answer s' hAccess

theorem allows
    {op : Op}
    {next : Resp op → CallProg Op Resp α}
    (hMeets : (CallProg.call op next).Meets W Q s) :
    W.allows op s :=
  (hMeets s (W.others_refl s)).1

theorem mayHalt
    {how : Halt}
    (hMeets :
      (CallProg.halt how : CallProg Op Resp α).Meets W Q s) :
    W.mayHalt how s :=
  hMeets s (W.others_refl s)

/- A block that has ended, and the one that it names. -/
theorem jump
    {L : Type}
    {block : L → CallProg Op Resp L}
    {Inv : L → σ → Prop}
    (hBlocks : ∀ l, Triple W (Inv l) (block l) Inv)
    {l : L}
    (hMeets :
      (CallProg.ret l : CallProg Op Resp L).Meets W Inv s) :
    (block l).Meets W Inv s :=
  hBlocks l s (hMeets s (W.others_refl s))

end Meets

end

end CallProg

end XdpDdos
