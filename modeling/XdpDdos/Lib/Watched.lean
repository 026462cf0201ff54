import XdpDdos.Lib.CallProg
import XdpDdos.Lib.FirstStop

/-
  Programs that note which positions they use.

  A use is noted before it takes place.  Forgetting the notes
  gives the program as it is; keeping them tells whether it
  stays in range.

  Main declarations:
    * `Watched`, `CallProg.note`, `CallProg.watch`
    * `CallProg.forget`, `CallProg.run_forget`
    * `CallProg.KeepsIn`, `CallProg.Overruns`
    * `CallProg.Continues`
    * `LoopStep`, `loop_verdict`
-/

------------------------------------------------------------
-- Notes
------------------------------------------------------------

namespace XdpDdos

/- A position is used, or a call is made. -/
inductive Watched (Use Op : Type) where
  | use (u : Use)
  | call (op : Op)

namespace Watched

variable {Use Op : Type}

@[reducible] def Resp (Resp : Op → Type) :
    Watched Use Op → Type
  | .use _ => Unit
  | .call op => Resp op

/- Only positions can be out of range. -/
def Keeps (P : Use → Prop) : Watched Use Op → Prop
  | .use u => P u
  | .call _ => True

instance
    {P : Use → Prop}
    [DecidablePred P] :
    DecidablePred (Keeps P : Watched Use Op → Prop) := by
  intro op
  cases op with
  | use u => exact inferInstanceAs (Decidable (P u))
  | call op => exact inferInstanceAs (Decidable True)

end Watched

/- A program that makes notes between its calls. -/
abbrev WatchedProg
    (Use Op : Type)
    (Resp : Op → Type)
    (α : Type) :=
  CallProg (Watched Use Op) (Watched.Resp Resp) α

namespace CallProg

variable {Use Op : Type}
variable {Resp : Op → Type}
variable {α β σ : Type}

def note (u : Use) : WatchedProg Use Op Resp Unit :=
  .call' (Watched.use u)

/- A part that has nothing to note. -/
def watch (p : CallProg Op Resp α) :
    WatchedProg Use Op Resp α :=
  embed Watched.call (fun _ answer => answer) p

/- The program without its notes. -/
def forget :
    WatchedProg Use Op Resp α → CallProg Op Resp α
  | .ret value => .ret value
  | .halt how => .halt how
  | .call (.use _) next => forget (next ())
  | .call (.call op) next =>
      .call op fun answer => forget (next answer)

/- The environment does not see the notes. -/
def watched
    (handler : Handler Op Resp σ) :
    Handler (Watched Use Op) (Watched.Resp Resp) σ
  | .use _, s => ((), s)
  | .call op, s => handler op s

------------------------------------------------------------
-- Forgetting Them
------------------------------------------------------------

@[simp] theorem forget_note_bind
    (u : Use)
    (f : Unit → WatchedProg Use Op Resp α) :
    forget (note u >>= f) = forget (f ()) := rfl

theorem forget_bind
    (p : WatchedProg Use Op Resp α)
    (f : α → WatchedProg Use Op Resp β) :
    forget (p >>= f) =
      forget p >>= fun value => forget (f value) := by
  induction p with
  | ret value => rfl
  | halt how => rfl
  | call op next ih =>
      cases op with
      | use u => exact ih ()
      | call op =>
          simp only [call_bind, forget, call.injEq,
            heq_eq_eq, true_and]
          funext answer
          exact ih answer

@[simp] theorem forget_ofExcept
    (e : Except Crash α) :
    forget (.ofExcept e : WatchedProg Use Op Resp α) =
      .ofExcept e := by
  cases e with
  | ok value => rfl
  | error crash => rfl

@[simp] theorem forget_watch
    (p : CallProg Op Resp α) :
    forget (watch p : WatchedProg Use Op Resp α) = p := by
  induction p with
  | ret value => rfl
  | halt how => rfl
  | call op next ih =>
      simp only [watch, embed, forget, call.injEq, heq_eq_eq,
        true_and]
      funext answer
      exact ih answer

/- Notes do not matter for how a run ends. -/
theorem run_forget
    (p : WatchedProg Use Op Resp α)
    (handler : Handler Op Resp σ)
    (s : σ) :
    (forget p).run handler s = p.run (watched handler) s := by
  induction p generalizing s with
  | ret value => rfl
  | halt how => rfl
  | call op next ih =>
      cases op with
      | use u => exact ih () s
      | call op => exact ih _ _

theorem run_watch
    (p : CallProg Op Resp α)
    (handler : Handler Op Resp σ)
    (s : σ) :
    (watch p : WatchedProg Use Op Resp α).run
        (watched handler) s =
      p.run handler s := by
  rw [← run_forget, forget_watch]

/- Nor for what is returned. -/
theorem leaves_of_forget
    {R : α → Prop}
    {p : WatchedProg Use Op Resp α}
    (hLeaves : (forget p).Leaves R) :
    p.Leaves R := by
  induction p with
  | ret value => exact hLeaves
  | halt how => trivial
  | call op next ih =>
      cases op with
      | use u =>
          rintro ⟨⟩
          exact ih () hLeaves
      | call op =>
          intro answer
          exact ih answer (hLeaves answer)

------------------------------------------------------------
-- Staying in Range
------------------------------------------------------------

/- All uses satisfy `P`, whatever the answers are. -/
def KeepsIn
    (P : Use → Prop)
    (p : WatchedProg Use Op Resp α) : Prop :=
  p.Obeys (Watched.Keeps P) fun _ => True

/- The run uses a position out of range, and crashes. -/
structure Overruns
    (P : Use → Prop)
    (handler :
      Handler (Watched Use Op) (Watched.Resp Resp) σ)
    (p : WatchedProg Use Op Resp α)
    (s : σ) : Prop where
  bad : ∃ call ∈ p.trace handler s, ¬ call.1.Keeps P
  crash : ∃ kind, (p.run handler s).1 = .halted (.crash kind)

/- Whatever the answers are. -/
def AlwaysOverruns
    (P : Use → Prop)
    (p : WatchedProg Use Op Resp α) : Prop :=
  ∀ (σ : Type)
    (handler :
      Handler (Watched Use Op) (Watched.Resp Resp) σ)
    (s : σ),
    Overruns P handler p s

/- The program uses positions in range, and goes on as `q`. -/
inductive Continues
    (P : Use → Prop) :
    WatchedProg Use Op Resp α →
      WatchedProg Use Op Resp α → Prop where
  | refl
      (p : WatchedProg Use Op Resp α) :
      Continues P p p
  | use
      {u : Use}
      {next : Unit → WatchedProg Use Op Resp α}
      {q : WatchedProg Use Op Resp α}
      (hUse : P u)
      (hNext : Continues P (next ()) q) :
      Continues P (.call (.use u) next) q

section

variable {P : Use → Prop}
variable {u : Use}
variable {p q : WatchedProg Use Op Resp α}
variable {f : α → WatchedProg Use Op Resp β}
variable {handler :
  Handler (Watched Use Op) (Watched.Resp Resp) σ}
variable {s s' : σ}

theorem keepsIn_note_bind
    {f : Unit → WatchedProg Use Op Resp β}
    (hUse : P u)
    (hRest : KeepsIn P (f ())) :
    KeepsIn P (note u >>= f) :=
  ⟨hUse, fun _ => hRest⟩

theorem keepsIn_watch
    (p : CallProg Op Resp α) :
    KeepsIn P (watch p) := by
  induction p with
  | ret value => trivial
  | halt how => trivial
  | call op next ih =>
      exact ⟨trivial, fun answer => ih answer⟩

theorem keepsIn_ofExcept
    (e : Except Crash α) :
    KeepsIn P
      (.ofExcept e : WatchedProg Use Op Resp α) :=
  obeys_ofExcept_iff.mpr fun _ _ => trivial

/- A use out of range that ends the program. -/
theorem alwaysOverruns_note
    {f : Unit → WatchedProg Use Op Resp β}
    (hUse : ¬ P u)
    (hCrash : ∃ kind, f () = .halt (.crash kind)) :
    AlwaysOverruns P (note u >>= f) := by
  intro σ handler s
  rcases hCrash with ⟨kind, hCrash⟩
  refine ⟨⟨⟨.use u, ()⟩, List.mem_cons_self, hUse⟩, kind, ?_⟩
  change ((f ()).run handler _).1 = _
  rw [hCrash]
  rfl

theorem Overruns.bind
    (hOver : Overruns P handler p s)
    (f : α → WatchedProg Use Op Resp β) :
    Overruns P handler (p >>= f) s := by
  rcases hOver with ⟨⟨call, hMem, hBad⟩, kind, hCrash⟩
  refine ⟨⟨call, mem_trace_bind_left hMem f, hBad⟩, kind, ?_⟩
  rw [run_bind]
  cases hRun : p.run handler s with
  | mk outcome s' =>
      rw [hRun] at hCrash
      cases hCrash
      rfl

theorem AlwaysOverruns.bind
    (hOver : AlwaysOverruns P p)
    (f : α → WatchedProg Use Op Resp β) :
    AlwaysOverruns P (p >>= f) :=
  fun σ handler s => (hOver σ handler s).bind f

theorem Overruns.of_returned
    {value : α}
    (hRun : p.run handler s = (.returned value, s'))
    (hOver : Overruns P handler (f value) s') :
    Overruns P handler (p >>= f) s := by
  rcases hOver with ⟨⟨call, hMem, hBad⟩, kind, hCrash⟩
  refine ⟨⟨call, mem_trace_bind_right hRun hMem, hBad⟩, kind,
    ?_⟩
  rw [run_bind_of_returned hRun]
  exact hCrash

namespace Continues

theorem trans
    {r : WatchedProg Use Op Resp α}
    (hFirst : Continues P p q)
    (hSecond : Continues P q r) :
    Continues P p r := by
  induction hFirst with
  | refl p => exact hSecond
  | use hUse hNext ih => exact .use hUse (ih hSecond)

theorem bind
    (hFirst : Continues P p q)
    (f : α → WatchedProg Use Op Resp β) :
    Continues P (p >>= f) (q >>= f) := by
  induction hFirst with
  | refl p => exact .refl _
  | use hUse hNext ih => exact .use hUse ih

theorem keepsIn
    (hFirst : Continues P p q)
    (hKeeps : KeepsIn P q) :
    KeepsIn P p := by
  induction hFirst with
  | refl p => exact hKeeps
  | use hUse hNext ih => exact ⟨hUse, fun _ => ih hKeeps⟩

theorem run_eq
    (hFirst : Continues P p q)
    (handler : Handler Op Resp σ)
    (s : σ) :
    p.run (watched handler) s = q.run (watched handler) s := by
  induction hFirst with
  | refl p => rfl
  | use hUse hNext ih => exact ih

theorem mem_trace
    {call : Answered (Watched Use Op) (Watched.Resp Resp)}
    (hFirst : Continues P p q)
    {handler : Handler Op Resp σ}
    (hMem : call ∈ q.trace (watched handler) s) :
    call ∈ p.trace (watched handler) s := by
  induction hFirst with
  | refl p => exact hMem
  | use hUse hNext ih =>
      exact List.mem_cons_of_mem _ (ih hMem)

theorem overruns
    (hFirst : Continues P p q)
    {handler : Handler Op Resp σ}
    (hOver : Overruns P (watched handler) q s) :
    Overruns P (watched handler) p s := by
  rcases hOver with ⟨⟨call, hMem, hBad⟩, hCrash⟩
  refine ⟨⟨call, hFirst.mem_trace hMem, hBad⟩, ?_⟩
  rw [hFirst.run_eq]
  exact hCrash

theorem alwaysOverruns
    (hFirst : Continues P p q)
    (hOver : AlwaysOverruns P q) :
    AlwaysOverruns P p := by
  induction hFirst with
  | refl p => exact hOver
  | use hUse hNext ih =>
      intro σ handler s
      rcases ih hOver σ handler (handler (.use _) s).2 with
        ⟨⟨call, hMem, hBad⟩, hCrash⟩
      exact ⟨⟨call, List.mem_cons_of_mem _ hMem, hBad⟩, hCrash⟩

end Continues

/- A part without calls that stays in range. -/
theorem continues_of_forget
    {e : Except Crash α}
    (hKeeps : KeepsIn P p)
    (hForget : forget p = .ofExcept e) :
    Continues P p (.ofExcept e) := by
  induction p with
  | ret value =>
      cases e with
      | ok value' =>
          cases hForget
          exact .refl _
      | error crash => cases hForget
  | halt how =>
      cases e with
      | ok value => cases hForget
      | error crash =>
          cases hForget
          exact .refl _
  | call op next ih =>
      cases op with
      | use u =>
          exact .use hKeeps.1 (ih () (hKeeps.2 ()) hForget)
      | call op =>
          cases e with
          | ok value => cases hForget
          | error crash => cases hForget

/- A part that returns a value did not crash. -/
theorem not_alwaysOverruns_of_forget
    {value : α}
    (hForget : forget p = .ret value)
    (handler : Handler Op Resp σ)
    (s : σ) :
    ¬ AlwaysOverruns P p := by
  intro hOver
  rcases (hOver σ (watched handler) s).crash with
    ⟨kind, hCrash⟩
  rw [← run_forget, hForget] at hCrash
  cases hCrash

end

end CallProg

------------------------------------------------------------
-- Loops
------------------------------------------------------------

/- The program overruns if `bad` holds, and else it does not. -/
inductive Verdict
    {Use Op : Type}
    {Resp : Op → Type}
    {α : Type}
    (P : Use → Prop)
    (bad : Prop)
    (p : WatchedProg Use Op Resp α) : Prop where
  | overruns
      (hBad : bad)
      (hOver : p.AlwaysOverruns P)
  | keeps
      (hBad : ¬ bad)
      (hKeeps : p.KeepsIn P)

section

variable {Use Op α ι τ : Type}
variable {Resp : Op → Type}
variable {P : Use → Prop}
variable {Pass Exceed : ι → Prop}
variable {Inv : List ι → τ → Prop}
variable {loop : List ι → τ → WatchedProg Use Op Resp α}

/-
  What a loop does with an element: it goes on in range, or
  ends in range, or overruns.
-/
inductive LoopStep
    (P : Use → Prop)
    (Pass Exceed : ι → Prop)
    (Inv : List ι → τ → Prop)
    (loop : List ι → τ → WatchedProg Use Op Resp α)
    (i : ι)
    (is : List ι)
    (t : τ) : Prop where
  | passes
      (t' : τ)
      (hPass : Pass i)
      (hExceed : ¬ Exceed i)
      (hInv : Inv is t')
      (hRun :
        CallProg.Continues P (loop (i :: is) t) (loop is t'))
  | stops
      (hPass : ¬ Pass i)
      (hExceed : ¬ Exceed i)
      (hKeeps : (loop (i :: is) t).KeepsIn P)
  | exceeds
      (hExceed : Exceed i)
      (hOver : (loop (i :: is) t).AlwaysOverruns P)

/- An element without any uses. -/
theorem LoopStep.of_eq
    {i : ι}
    {is : List ι}
    {t t' : τ}
    (hPass : Pass i)
    (hExceed : ¬ Exceed i)
    (hInv : Inv is t')
    (hRun : loop (i :: is) t = loop is t') :
    LoopStep P Pass Exceed Inv loop i is t := by
  refine .passes t' hPass hExceed hInv ?_
  rw [hRun]
  exact .refl _

/- It overruns if it comes to an element that exceeds. -/
theorem loop_verdict
    (hNil : ∀ t, (loop [] t).KeepsIn P)
    (hStep :
      ∀ i is t, Inv (i :: is) t →
        LoopStep P Pass Exceed Inv loop i is t)
    {is : List ι}
    {t : τ}
    (hInv : Inv is t) :
    Verdict P (Reaches Pass Exceed is) (loop is t) := by
  induction is generalizing t with
  | nil => exact .keeps id (hNil t)
  | cons i is ih =>
      cases hStep i is t hInv with
      | passes t' hPass hExceed hInv' hRun =>
          cases ih hInv' with
          | overruns hBad hOver =>
              exact .overruns (Or.inr ⟨hPass, hBad⟩)
                (hRun.alwaysOverruns hOver)
          | keeps hBad hKeeps =>
              refine .keeps ?_ (hRun.keepsIn hKeeps)
              rintro (hHere | ⟨_, hRest⟩)
              · exact hExceed hHere
              · exact hBad hRest
      | stops hPass hExceed hKeeps =>
          refine .keeps ?_ hKeeps
          rintro (hHere | ⟨hFirst, _⟩)
          · exact hExceed hHere
          · exact hPass hFirst
      | exceeds hExceed hOver =>
          exact .overruns (Or.inl hExceed) hOver

end

end XdpDdos
