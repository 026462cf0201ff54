import Mathlib.Data.Nat.Notation

/-
  Programs that issue calls to their environment.

  A program is a tree: it returns, ends its process, or
  issues one call and continues with the answer.  The same
  tree is run against a deterministic handler here, and one
  call at a time against a shared state by an interleaving.

  Main declarations:
    * `CallProg`, `CallProg.call'`
    * `CallProg.run`, `CallProg.run_bind`
    * `CallProg.Returns`, `CallProg.trace`
    * `CallProg.Leaves`, `CallProg.Obeys`
    * `CallProg.Obeys.invariant`, `CallProg.Obeys.simulation`
    * `CallProg.embed`, `CallProg.run_embed`
-/

------------------------------------------------------------
-- Call Trees
------------------------------------------------------------

namespace XdpDdos

/- What an access outside the rules of C ran into. -/
inductive Crash where
  | outOfRange
  | divByZero
  | assertFailed
  | uninitialised
  | nullPointer
  deriving Repr, DecidableEq

/- How a process ends before its program returns. -/
inductive Halt where
  | exit (status : ℕ)
  | crash (kind : Crash)
  deriving Repr, DecidableEq

/- A program over calls `op : Op` answered in `Resp op`. -/
inductive CallProg
    (Op : Type)
    (Resp : Op → Type)
    (α : Type) where
  | ret (value : α)
  | halt (how : Halt)
  | call (op : Op) (next : Resp op → CallProg Op Resp α)

/- How a run ends. -/
inductive Outcome (α : Type) where
  | returned (value : α)
  | halted (how : Halt)
  deriving Repr, DecidableEq

@[simp] theorem except_pure
    {ε α : Type}
    (value : α) :
    (pure value : Except ε α) = .ok value := rfl

@[simp] theorem except_ok_bind
    {ε α β : Type}
    (value : α)
    (f : α → Except ε β) :
    (Except.ok value >>= f) = f value := rfl

namespace CallProg

variable {Op : Type}
variable {Resp : Op → Type}
variable {α β γ σ τ : Type}

/- Sequence two programs; a halt skips the second one. -/
def bind
    (p : CallProg Op Resp α)
    (f : α → CallProg Op Resp β) : CallProg Op Resp β :=
  match p with
  | ret value => f value
  | halt how => halt how
  | call op next => call op (fun answer => bind (next answer) f)

instance : Monad (CallProg Op Resp) where
  pure := ret
  bind := bind

/- The program that issues one call and returns its answer. -/
def call'
    (op : Op) : CallProg Op Resp (Resp op) :=
  call op ret

/- A computation without calls, which may crash. -/
def ofExcept :
    Except Crash α → CallProg Op Resp α
  | .ok value => ret value
  | .error kind => halt (.crash kind)

@[simp] theorem pure_eq_ret
    (value : α) :
    (pure value : CallProg Op Resp α) = ret value := rfl

@[simp] theorem ret_bind
    (value : α)
    (f : α → CallProg Op Resp β) :
    (ret value >>= f) = f value := rfl

@[simp] theorem call_bind
    (op : Op)
    (next : Resp op → CallProg Op Resp α)
    (f : α → CallProg Op Resp β) :
    (call op next >>= f) =
      call op (fun answer => next answer >>= f) := rfl

@[simp] theorem call'_bind
    (op : Op)
    (f : Resp op → CallProg Op Resp β) :
    (call' op >>= f) = call op f := rfl

@[simp] theorem ofExcept_ok
    (value : α) :
    (ofExcept (.ok value) : CallProg Op Resp α) =
      ret value := rfl

/- Sequencing is associative. -/
theorem bind_assoc
    (p : CallProg Op Resp α)
    (f : α → CallProg Op Resp β)
    (g : β → CallProg Op Resp γ) :
    (p >>= f) >>= g = p >>= fun value => f value >>= g := by
  induction p with
  | ret value => rfl
  | halt how => rfl
  | call op next ih =>
      simp only [call_bind, call.injEq, heq_eq_eq, true_and]
      funext answer
      exact ih answer

------------------------------------------------------------
-- Deterministic Runs
------------------------------------------------------------

/- The environment's answer to each call, with its effect. -/
abbrev Handler
    (Op : Type)
    (Resp : Op → Type)
    (σ : Type) :=
  (op : Op) → σ → Resp op × σ

/- Run a program against a handler. -/
def run
    (handler : Handler Op Resp σ) :
    CallProg Op Resp α → σ → Outcome α × σ
  | ret value, s => (.returned value, s)
  | halt how, s => (.halted how, s)
  | call op next, s =>
      run handler (next (handler op s).1) (handler op s).2

@[simp] theorem run_ret
    (handler : Handler Op Resp σ)
    (value : α)
    (s : σ) :
    run handler (ret value) s = (.returned value, s) := rfl

@[simp] theorem run_call
    (handler : Handler Op Resp σ)
    (op : Op)
    (next : Resp op → CallProg Op Resp α)
    (s : σ) :
    run handler (call op next) s =
      run handler (next (handler op s).1)
        (handler op s).2 := rfl

/- Running a sequence runs its parts one after the other. -/
theorem run_bind
    (handler : Handler Op Resp σ)
    (p : CallProg Op Resp α)
    (f : α → CallProg Op Resp β)
    (s : σ) :
    run handler (p >>= f) s =
      match run handler p s with
      | (.returned value, s') => run handler (f value) s'
      | (.halted how, s') => (.halted how, s') := by
  induction p generalizing s with
  | ret value => rfl
  | halt how => rfl
  | call op next ih =>
      simpa using ih (handler op s).1 (handler op s).2

/- A sequence goes on with what its first part returned. -/
theorem run_bind_of_returned
    {handler : Handler Op Resp σ}
    {p : CallProg Op Resp α}
    {s s' : σ}
    {value : α}
    (hRun : run handler p s = (.returned value, s'))
    (f : α → CallProg Op Resp β) :
    run handler (p >>= f) s = run handler (f value) s' := by
  rw [run_bind, hRun]

/- A sequence goes on with the answer to its first call. -/
theorem run_call'_of_answer
    (handler : Handler Op Resp σ)
    (op : Op)
    {s s' : σ}
    {answer : Resp op}
    (hAnswer : handler op s = (answer, s'))
    (f : Resp op → CallProg Op Resp β) :
    run handler (call' op >>= f) s =
      run handler (f answer) s' := by
  rw [call'_bind, run_call, hAnswer]

------------------------------------------------------------
-- Runs with Their Calls
------------------------------------------------------------

/- A call and the answer it got. -/
abbrev Answered
    (Op : Type)
    (Resp : Op → Type) :=
  (op : Op) × Resp op

/- A run from `s` makes the calls `calls`, then returns. -/
inductive Returns
    (handler : Handler Op Resp σ) :
    CallProg Op Resp α → σ →
      List (Answered Op Resp) → α → σ → Prop where
  | ret
      (value : α)
      (s : σ) :
      Returns handler (.ret value) s [] value s
  | call
      {op : Op}
      {next : Resp op → CallProg Op Resp α}
      {s s' : σ}
      {calls : List (Answered Op Resp)}
      {value : α}
      (hNext :
        Returns handler (next (handler op s).1)
          (handler op s).2 calls value s') :
      Returns handler (.call op next) s
        (⟨op, (handler op s).1⟩ :: calls) value s'

variable {handler : Handler Op Resp σ}

namespace Returns

/- Parts that return make a sequence that returns. -/
theorem bind
    {p : CallProg Op Resp α}
    {f : α → CallProg Op Resp β}
    {s s₁ s₂ : σ}
    {calls₁ calls₂ : List (Answered Op Resp)}
    {a : α}
    {b : β}
    (hFirst : Returns handler p s calls₁ a s₁)
    (hSecond : Returns handler (f a) s₁ calls₂ b s₂) :
    Returns handler (p >>= f) s (calls₁ ++ calls₂) b s₂ := by
  induction hFirst with
  | ret value s => exact hSecond
  | call hNext ih => exact .call (ih hSecond)

theorem run_eq
    {p : CallProg Op Resp α}
    {s s' : σ}
    {calls : List (Answered Op Resp)}
    {value : α}
    (hReturns : Returns handler p s calls value s') :
    run handler p s = (.returned value, s') := by
  induction hReturns with
  | ret value s => rfl
  | call hNext ih => exact ih

/- A sequence that returns has parts that return. -/
theorem of_bind
    {p : CallProg Op Resp α}
    {f : α → CallProg Op Resp β}
    {s s₂ : σ}
    {calls : List (Answered Op Resp)}
    {b : β}
    (hReturns : Returns handler (p >>= f) s calls b s₂) :
    ∃ a s₁ calls₁ calls₂,
      Returns handler p s calls₁ a s₁ ∧
        Returns handler (f a) s₁ calls₂ b s₂ ∧
          calls = calls₁ ++ calls₂ := by
  induction p generalizing s calls with
  | ret value =>
      exact ⟨value, s, [], calls, .ret _ _, hReturns, rfl⟩
  | halt how => cases hReturns
  | call op next ih =>
      cases hReturns with
      | call hNext =>
          rcases ih _ hNext with
            ⟨a, s₁, calls₁, calls₂, hFirst, hSecond, hCalls⟩
          exact ⟨a, s₁, _ :: calls₁, calls₂, .call hFirst,
            hSecond, congrArg _ hCalls⟩

end Returns

/- A program that returns its calls too. -/
def withCalls :
    CallProg Op Resp α →
      CallProg Op Resp (α × List (Answered Op Resp))
  | ret value => ret (value, [])
  | halt how => halt how
  | call op next =>
      call op fun answer =>
        bind (withCalls (next answer)) fun r =>
          ret (r.1, ⟨op, answer⟩ :: r.2)

theorem Returns.withCalls
    {p : CallProg Op Resp α}
    {s s' : σ}
    {calls : List (Answered Op Resp)}
    {value : α}
    (hReturns : Returns handler p s calls value s') :
    Returns handler p.withCalls s calls (value, calls) s' := by
  induction hReturns with
  | ret value s => exact .ret _ _
  | @call op next s s' calls value hNext ih =>
      let answer := (handler op s).1
      have hBind :=
        ih.bind (.ret (value, ⟨op, answer⟩ :: calls) s')
          (f := fun r => CallProg.ret (r.1, ⟨op, answer⟩ :: r.2))
      rw [List.append_nil] at hBind
      exact .call hBind

/- The calls of a run, also of one that halts. -/
def trace
    (handler : Handler Op Resp σ) :
    CallProg Op Resp α → σ → List (Answered Op Resp)
  | ret _, _ => []
  | halt _, _ => []
  | call op next, s =>
      ⟨op, (handler op s).1⟩ ::
        trace handler (next (handler op s).1) (handler op s).2

theorem Returns.trace_bind
    {p : CallProg Op Resp α}
    {s s' : σ}
    {calls : List (Answered Op Resp)}
    {value : α}
    (hReturns : Returns handler p s calls value s')
    (f : α → CallProg Op Resp β) :
    trace handler (p >>= f) s =
      calls ++ trace handler (f value) s' := by
  induction hReturns with
  | ret value s => rfl
  | call hNext ih =>
      rw [call_bind, trace, ih, List.cons_append]

theorem forall_trace
    {P : Answered Op Resp → Prop}
    (hAll : ∀ op s, P ⟨op, (handler op s).1⟩)
    (p : CallProg Op Resp α)
    (s : σ) :
    ∀ call ∈ trace handler p s, P call := by
  induction p generalizing s with
  | ret value =>
      intro call hMem
      cases hMem
  | halt how =>
      intro call hMem
      cases hMem
  | call op next ih =>
      intro call hMem
      rcases List.mem_cons.mp hMem with rfl | hTail
      · exact hAll op s
      · exact ih (handler op s).1 (handler op s).2 call hTail

/- The calls of a sequence are those of its parts. -/
theorem trace_bind
    (p : CallProg Op Resp α)
    (f : α → CallProg Op Resp β)
    (s : σ) :
    trace handler (p >>= f) s =
      trace handler p s ++
        match run handler p s with
        | (.returned value, s') => trace handler (f value) s'
        | (.halted _, _) => [] := by
  induction p generalizing s with
  | ret value => rfl
  | halt how => rfl
  | call op next ih =>
      rw [call_bind, trace, ih, trace, List.cons_append,
        run_call]

/- Of its first part, and of the second if it is run. -/
theorem mem_trace_bind_left
    {p : CallProg Op Resp α}
    {s : σ}
    {call : Answered Op Resp}
    (hMem : call ∈ trace handler p s)
    (f : α → CallProg Op Resp β) :
    call ∈ trace handler (p >>= f) s := by
  rw [trace_bind]
  exact List.mem_append_left _ hMem

theorem mem_trace_bind_right
    {p : CallProg Op Resp α}
    {s s' : σ}
    {value : α}
    (hRun : run handler p s = (.returned value, s'))
    {f : α → CallProg Op Resp β}
    {call : Answered Op Resp}
    (hMem : call ∈ trace handler (f value) s') :
    call ∈ trace handler (p >>= f) s := by
  rw [trace_bind, hRun]
  exact List.mem_append_right _ hMem

/- What holds of all calls of a sequence holds of the first. -/
theorem forall_trace_of_bind
    {P : Answered Op Resp → Prop}
    {p : CallProg Op Resp α}
    {f : α → CallProg Op Resp β}
    {s : σ}
    (hAll : ∀ call ∈ trace handler (p >>= f) s, P call) :
    ∀ call ∈ trace handler p s, P call :=
  fun call hMem => hAll call (mem_trace_bind_left hMem f)

/- And of the calls behind a first part that returns. -/
theorem forall_trace_of_returned
    {P : Answered Op Resp → Prop}
    {p : CallProg Op Resp α}
    {s s' : σ}
    {value : α}
    (hRun : run handler p s = (.returned value, s'))
    {f : α → CallProg Op Resp β}
    (hAll : ∀ call ∈ trace handler (p >>= f) s, P call) :
    ∀ call ∈ trace handler (f value) s', P call :=
  fun call hMem => hAll call (mem_trace_bind_right hRun hMem)

------------------------------------------------------------
-- What Every Run Returns
------------------------------------------------------------

/- Whatever the answers are, a returned value satisfies `P`. -/
def Leaves (P : α → Prop) : CallProg Op Resp α → Prop
  | ret value => P value
  | halt _ => True
  | call _ next => ∀ answer, Leaves P (next answer)

theorem leaves_true
    {P : α → Prop}
    (hAll : ∀ value, P value)
    (p : CallProg Op Resp α) :
    p.Leaves P := by
  induction p with
  | ret value => exact hAll value
  | halt how => trivial
  | call op next ih =>
      intro answer
      exact ih answer

theorem Leaves.mono
    {P Q : α → Prop}
    {p : CallProg Op Resp α}
    (hLeaves : p.Leaves P)
    (hImp : ∀ value, P value → Q value) :
    p.Leaves Q := by
  induction p with
  | ret value => exact hImp value hLeaves
  | halt how => trivial
  | call op next ih =>
      intro answer
      exact ih answer (hLeaves answer)

theorem Leaves.and
    {P Q : α → Prop}
    {p : CallProg Op Resp α}
    (hFirst : p.Leaves P)
    (hSecond : p.Leaves Q) :
    p.Leaves fun value => P value ∧ Q value := by
  induction p with
  | ret value => exact ⟨hFirst, hSecond⟩
  | halt how => trivial
  | call op next ih =>
      intro answer
      exact ih answer (hFirst answer) (hSecond answer)

theorem Leaves.bind
    {P : α → Prop}
    {Q : β → Prop}
    {p : CallProg Op Resp α}
    {f : α → CallProg Op Resp β}
    (hFirst : p.Leaves P)
    (hSecond : ∀ value, P value → (f value).Leaves Q) :
    (p >>= f).Leaves Q := by
  induction p with
  | ret value => exact hSecond value hFirst
  | halt how => trivial
  | call op next ih =>
      intro answer
      exact ih answer (hFirst answer)

/- A sequence leaves what its second part leaves. -/
theorem leaves_of_bind
    {Q : β → Prop}
    {p : CallProg Op Resp α}
    {f : α → CallProg Op Resp β}
    (hLeaves : (p >>= f).Leaves Q) :
    p.Leaves fun value => (f value).Leaves Q := by
  induction p with
  | ret value => exact hLeaves
  | halt how => trivial
  | call op next ih =>
      intro answer
      exact ih answer (hLeaves answer)

/- Continuations matter only on values that are returned. -/
theorem Leaves.bind_congr
    {P : α → Prop}
    {p : CallProg Op Resp α}
    {f f' : α → CallProg Op Resp β}
    (hFirst : p.Leaves P)
    (hSame : ∀ value, P value → f value = f' value) :
    (p >>= f) = (p >>= f') := by
  induction p with
  | ret value => exact hSame value hFirst
  | halt how => rfl
  | call op next ih =>
      simp only [call_bind, call.injEq, heq_eq_eq, true_and]
      funext answer
      exact ih answer (hFirst answer)

theorem Leaves.of_run
    {P : α → Prop}
    {p : CallProg Op Resp α}
    (hLeaves : p.Leaves P)
    {s s' : σ}
    {value : α}
    (hRun : run handler p s = (.returned value, s')) :
    P value := by
  induction p generalizing s with
  | ret v =>
      cases hRun
      exact hLeaves
  | halt how => cases hRun
  | call op next ih => exact ih _ (hLeaves _) hRun

------------------------------------------------------------
-- What Every Run Does
------------------------------------------------------------

/- Every call satisfies `P`, and every halt satisfies `Q`. -/
def Obeys
    (P : Op → Prop)
    (Q : Halt → Prop) : CallProg Op Resp α → Prop
  | ret _ => True
  | halt how => Q how
  | call op next => P op ∧ ∀ answer, (next answer).Obeys P Q

namespace Obeys

variable {P : Op → Prop}
variable {Q : Halt → Prop}

theorem bind
    {p : CallProg Op Resp α}
    {f : α → CallProg Op Resp β}
    (hFirst : p.Obeys P Q)
    (hSecond : ∀ value, (f value).Obeys P Q) :
    (p >>= f).Obeys P Q := by
  induction p with
  | ret value => exact hSecond value
  | halt how => exact hFirst
  | call op next ih =>
      exact ⟨hFirst.1, fun answer =>
        ih answer (hFirst.2 answer)⟩

theorem trace
    {p : CallProg Op Resp α}
    (hObeys : p.Obeys P Q)
    (s : σ) :
    ∀ call ∈ trace handler p s, P call.1 := by
  induction p generalizing s with
  | ret value =>
      intro call hMem
      cases hMem
  | halt how =>
      intro call hMem
      cases hMem
  | call op next ih =>
      intro call hMem
      rcases List.mem_cons.mp hMem with rfl | hTail
      · exact hObeys.1
      · exact ih _ (hObeys.2 _) _ call hTail

theorem run
    {p : CallProg Op Resp α}
    (hObeys : p.Obeys P Q)
    {s : σ}
    {how : Halt}
    (hHalts : (run handler p s).1 = .halted how) :
    Q how := by
  induction p generalizing s with
  | ret value => cases hHalts
  | halt how' =>
      cases hHalts
      exact hObeys
  | call op next ih => exact ih _ (hObeys.2 _) hHalts

end Obeys

/- A sequence obeys if both parts do, on returned values. -/
theorem obeys_bind_iff
    {P : Op → Prop}
    {Q : Halt → Prop}
    {p : CallProg Op Resp α}
    {f : α → CallProg Op Resp β} :
    (p >>= f).Obeys P Q ↔
      p.Obeys P Q ∧
        p.Leaves fun value => (f value).Obeys P Q := by
  induction p with
  | ret value => simp only [ret_bind, Obeys, Leaves, true_and]
  | halt how => exact ⟨fun hQ => ⟨hQ, trivial⟩, And.left⟩
  | call op next ih =>
      simp only [call_bind, Obeys, Leaves, ih, forall_and,
        and_assoc]

/- A computation without calls obeys if its crash does. -/
theorem obeys_ofExcept_iff
    {P : Op → Prop}
    {Q : Halt → Prop}
    {e : Except Crash α} :
    (ofExcept e : CallProg Op Resp α).Obeys P Q ↔
      ∀ kind, e = .error kind → Q (.crash kind) := by
  cases e with
  | ok value =>
      refine iff_of_true trivial ?_
      intro kind hEq
      cases hEq
  | error kind =>
      constructor
      · intro hHalt kind' hEq
        cases hEq
        exact hHalt
      · intro hAll
        exact hAll kind rfl

/- Only halts that satisfy `Q`, whatever the answers are. -/
abbrev HaltsAs
    (Q : Halt → Prop)
    (p : CallProg Op Resp α) : Prop :=
  p.Obeys (fun _ => True) Q

/- A sequence, when the first part leaves values in `R`. -/
theorem Obeys.bind_leaves
    {P : Op → Prop}
    {Q : Halt → Prop}
    {R : α → Prop}
    {p : CallProg Op Resp α}
    {f : α → CallProg Op Resp β}
    (hFirst : p.Obeys P Q)
    (hLeaves : p.Leaves R)
    (hSecond : ∀ value, R value → (f value).Obeys P Q) :
    (p >>= f).Obeys P Q :=
  obeys_bind_iff.mpr ⟨hFirst, hLeaves.mono hSecond⟩

/- The same, with what the whole sequence leaves. -/
theorem Obeys.bind_both
    {P : Op → Prop}
    {Q : Halt → Prop}
    {R : α → Prop}
    {S : β → Prop}
    {p : CallProg Op Resp α}
    {f : α → CallProg Op Resp β}
    (hFirst : p.Obeys P Q)
    (hLeaves : p.Leaves R)
    (hSecond :
      ∀ value, R value →
        (f value).Obeys P Q ∧ (f value).Leaves S) :
    (p >>= f).Obeys P Q ∧ (p >>= f).Leaves S := by
  constructor
  · exact hFirst.bind_leaves hLeaves
      fun value hValue => (hSecond value hValue).1
  · exact hLeaves.bind
      fun value hValue => (hSecond value hValue).2

/- A run as one part of a larger state. -/
private theorem run_part
    {handler' : Handler Op Resp τ}
    {put : σ → τ}
    (hPart :
      ∀ op s,
        handler' op (put s) =
          ((handler op s).1, put (handler op s).2))
    (p : CallProg Op Resp α)
    (s : σ) :
    (run handler' p (put s)).1 = (run handler p s).1 ∧
      trace handler' p (put s) = trace handler p s := by
  induction p generalizing s with
  | ret value => exact ⟨rfl, rfl⟩
  | halt how => exact ⟨rfl, rfl⟩
  | call op next ih =>
      simp only [run, trace, hPart]
      exact ⟨(ih _ _).1, by rw [(ih _ _).2]⟩

/- Answer one call as wished, the others by a handler. -/
private noncomputable def firstAnswer
    [∀ op, Nonempty (Resp op)]
    (handler : Handler Op Resp σ)
    (s : σ)
    (op : Op)
    (answer : Resp op) : Handler Op Resp (Option σ) :=
  open Classical in
  fun op' st =>
    match st with
    | some s => ((handler op' s).1, some (handler op' s).2)
    | none =>
        (if hSame : op' = op then hSame ▸ answer
          else Classical.choice inferInstance, some s)

/-
  A program obeys exactly if all of its runs do, in every
  environment.
-/
theorem obeys_iff_forall_run
    [∀ op, Nonempty (Resp op)]
    {P : Op → Prop}
    {Q : Halt → Prop}
    {p : CallProg Op Resp α} :
    p.Obeys P Q ↔
      ∀ (σ : Type) (handler : Handler Op Resp σ) (s : σ),
        (∀ call ∈ trace handler p s, P call.1) ∧
          ∀ how, (run handler p s).1 = .halted how →
            Q how := by
  constructor
  · intro hObeys σ handler s
    exact ⟨hObeys.trace s, fun how => hObeys.run⟩
  · intro hAll
    induction p with
    | ret value => trivial
    | halt how =>
        have hHere :=
          hAll Unit
            (fun _ _ => (Classical.choice inferInstance, ()))
            ()
        exact hHere.2 how rfl
    | call op next ih =>
        constructor
        · have hHere :=
            hAll Unit
              (fun _ _ => (Classical.choice inferInstance, ()))
              ()
          exact hHere.1 _ List.mem_cons_self
        · intro answer
          apply ih
          intro σ handler s
          have hFirst :=
            hAll (Option σ) (firstAnswer handler s op answer)
              none
          have hAnswer :
              firstAnswer handler s op answer op none =
                (answer, some s) := by
            simp only [firstAnswer, dif_pos]
          have hPart :=
            run_part
              (fun op' s' => rfl :
                ∀ op' s',
                  firstAnswer handler s op answer op'
                      (some s') =
                    ((handler op' s').1,
                      some (handler op' s').2))
              (next answer) s
          simp only [run, trace, hAnswer, hPart] at hFirst
          refine ⟨fun call hMem => ?_, hFirst.2⟩
          exact hFirst.1 call (List.mem_cons_of_mem _ hMem)

------------------------------------------------------------
-- Invariants and Simulations
------------------------------------------------------------

/- What the calls of a program keep, its runs keep. -/
theorem Obeys.invariant
    {P : Op → Prop}
    {Q : Halt → Prop}
    {Inv : σ → Prop}
    (hKeep : ∀ op s, P op → Inv s → Inv (handler op s).2)
    {p : CallProg Op Resp α}
    (hObeys : p.Obeys P Q)
    {s : σ}
    (hInit : Inv s) :
    Inv (CallProg.run handler p s).2 := by
  induction p generalizing s with
  | ret value => exact hInit
  | halt how => exact hInit
  | call op next ih =>
      exact ih _ (hObeys.2 _) (hKeep op s hObeys.1 hInit)

/-
  Handlers that answer the calls of a program alike, and keep
  a relation between their states, run it alike.
-/
theorem Obeys.simulation
    {P : Op → Prop}
    {Q : Halt → Prop}
    {handler' : Handler Op Resp τ}
    {Rel : σ → τ → Prop}
    (hCall :
      ∀ op s t, P op → Rel s t →
        (handler' op t).1 = (handler op s).1 ∧
          Rel (handler op s).2 (handler' op t).2)
    {p : CallProg Op Resp α}
    (hObeys : p.Obeys P Q)
    {s : σ}
    {t : τ}
    (hRel : Rel s t) :
    (CallProg.run handler' p t).1 =
        (CallProg.run handler p s).1 ∧
      Rel (CallProg.run handler p s).2
        (CallProg.run handler' p t).2 := by
  induction p generalizing s t with
  | ret value => exact ⟨rfl, hRel⟩
  | halt how => exact ⟨rfl, hRel⟩
  | call op next ih =>
      rcases hCall op s t hObeys.1 hRel with ⟨hAnswer, hNext⟩
      rw [run_call, run_call, hAnswer]
      exact ih _ (hObeys.2 _) hNext

------------------------------------------------------------
-- Programs over More Calls
------------------------------------------------------------

variable {Op' : Type}
variable {Resp' : Op' → Type}

/- A program whose calls are some of a larger set of calls. -/
def embed
    (inj : Op → Op')
    (answer : (op : Op) → Resp' (inj op) → Resp op) :
    CallProg Op Resp α → CallProg Op' Resp' α
  | ret value => ret value
  | halt how => halt how
  | call op next =>
      call (inj op) (fun a =>
        embed inj answer (next (answer op a)))

theorem embed_bind
    (inj : Op → Op')
    (answer : (op : Op) → Resp' (inj op) → Resp op)
    (p : CallProg Op Resp α)
    (f : α → CallProg Op Resp β) :
    embed inj answer (p >>= f) =
      embed inj answer p >>= fun value =>
        embed inj answer (f value) := by
  induction p with
  | ret value => rfl
  | halt how => rfl
  | call op next ih =>
      simp only [call_bind, embed, call.injEq, heq_eq_eq,
        true_and]
      funext a
      exact ih _

theorem Obeys.embed
    {P : Op → Prop}
    {P' : Op' → Prop}
    {Q : Halt → Prop}
    {inj : Op → Op'}
    {answer : (op : Op) → Resp' (inj op) → Resp op}
    (hCalls : ∀ op, P op → P' (inj op))
    {p : CallProg Op Resp α}
    (hObeys : p.Obeys P Q) :
    (CallProg.embed inj answer p).Obeys P' Q := by
  induction p with
  | ret value => trivial
  | halt how => exact hObeys
  | call op next ih =>
      exact ⟨hCalls op hObeys.1, fun a =>
        ih _ (hObeys.2 _)⟩

theorem Leaves.embed
    {P : α → Prop}
    {inj : Op → Op'}
    {answer : (op : Op) → Resp' (inj op) → Resp op}
    {p : CallProg Op Resp α}
    (hLeaves : p.Leaves P) :
    (CallProg.embed inj answer p).Leaves P := by
  induction p with
  | ret value => exact hLeaves
  | halt how => trivial
  | call op next ih =>
      intro a
      exact ih _ (hLeaves _)

/-
  A handler that answers the embedded calls on a part of its
  state runs an embedded program as the part's handler does.
-/
theorem run_embed
    (inj : Op → Op')
    (answer : (op : Op) → Resp' (inj op) → Resp op)
    (handler : Handler Op Resp σ)
    (handler' : Handler Op' Resp' τ)
    (put : σ → τ)
    (hCall :
      ∀ op s,
        answer op (handler' (inj op) (put s)).1 =
            (handler op s).1 ∧
          (handler' (inj op) (put s)).2 =
            put (handler op s).2)
    (p : CallProg Op Resp α)
    (s : σ) :
    run handler' (embed inj answer p) (put s) =
      ((run handler p s).1, put (run handler p s).2) := by
  induction p generalizing s with
  | ret value => rfl
  | halt how => rfl
  | call op next ih =>
      rcases hCall op s with ⟨hAnswer, hState⟩
      rw [embed, run_call, run_call, hAnswer, hState]
      exact ih _ _

end CallProg

end XdpDdos
