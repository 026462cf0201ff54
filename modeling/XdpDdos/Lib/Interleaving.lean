import XdpDdos.Lib.CallProg
import XdpDdos.Lib.Reactive
import Mathlib.Logic.Function.Basic

/-
  Interleaved runs of several programs over a shared state.

  Each step lets one program issue its next call, which the
  environment answers at once; a schedule is the list of the
  programs that take a step.

  Main declarations:
    * `CallProg.nextCall?`, `CallProg.Issues`
    * `CallProg.run_preserves`
    * `Pool`, `poolSystem`
    * `Pool.step_call`
-/

------------------------------------------------------------
-- The Calls of a Program
------------------------------------------------------------

namespace XdpDdos

variable {Op : Type}
variable {Resp : Op → Type}
variable {α σ ι : Type}

namespace CallProg

/- The call a program is about to issue. -/
def nextCall? : CallProg Op Resp α → Option Op
  | call op _ => some op
  | _ => none

/- Every call the program can still issue satisfies `P`. -/
def Issues
    (P : Op → Prop) : CallProg Op Resp α → Prop
  | ret _ => True
  | halt _ => True
  | call op next => P op ∧ ∀ answer, (next answer).Issues P

/- What every issued call leaves alone, a run leaves alone. -/
theorem run_preserves
    {τ : Type}
    (handler : Handler Op Resp σ)
    {P : Op → Prop}
    (part : σ → τ)
    (hKeep :
      ∀ op s, P op → part (handler op s).2 = part s)
    {p : CallProg Op Resp α}
    (hIssues : p.Issues P)
    (s : σ) :
    part (run handler p s).2 = part s := by
  induction p generalizing s with
  | ret value => rfl
  | halt how => rfl
  | call op next ih =>
      rcases hIssues with ⟨hHere, hNext⟩
      rw [run_call, ih _ (hNext _), hKeep op s hHere]

end CallProg

------------------------------------------------------------
-- Pools of Programs
------------------------------------------------------------

/- Programs in progress, and the state they share. -/
structure Pool
    (Op : Type)
    (Resp : Op → Type)
    (α σ ι : Type) where
  progs : ι → CallProg Op Resp α
  shared : σ

variable [DecidableEq ι]

/-
  A step of program `i` answers its next call.  The step's
  response is that call; a program that has ended does
  nothing.
-/
def poolSystem
    (handler : CallProg.Handler Op Resp σ) :
    Reactive (Pool Op Resp α σ ι) ι (Option Op) where
  step pool i :=
    match pool.progs i with
    | .call op next =>
        (some op,
          { progs :=
              Function.update pool.progs i
                (next (handler op pool.shared).1)
            shared := (handler op pool.shared).2 })
    | _ => (none, pool)

namespace Pool

theorem step_call
    (handler : CallProg.Handler Op Resp σ)
    {pool : Pool Op Resp α σ ι}
    {i : ι}
    {op : Op}
    {next : Resp op → CallProg Op Resp α}
    (hProg : pool.progs i = .call op next) :
    (poolSystem handler).step pool i =
      (some op,
        { progs :=
            Function.update pool.progs i
              (next (handler op pool.shared).1)
          shared := (handler op pool.shared).2 }) := by
  simp only [poolSystem, hProg]

theorem step_ret
    (handler : CallProg.Handler Op Resp σ)
    {pool : Pool Op Resp α σ ι}
    {i : ι}
    {value : α}
    (hProg : pool.progs i = .ret value) :
    (poolSystem handler).step pool i = (none, pool) := by
  simp only [poolSystem, hProg]

theorem step_halt
    (handler : CallProg.Handler Op Resp σ)
    {pool : Pool Op Resp α σ ι}
    {i : ι}
    {how : Halt}
    (hProg : pool.progs i = .halt how) :
    (poolSystem handler).step pool i = (none, pool) := by
  simp only [poolSystem, hProg]

end Pool

end XdpDdos
