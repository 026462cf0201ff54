import XdpDdos.Tcpdump.Ring
import XdpDdos.Lib.RelyGuarantee
import XdpDdos.Lib.Refinement
import Mathlib.Logic.Function.Basic

/-
  `xdp_tcpdump` at work: frames arrive on all CPUs while the
  poller reads the rings.

  The unit of interleaving is one access of the poller, one
  record that the kernel appends, or one byte that it changes
  in an unused part of a ring.

  Main declarations:
    * `Shared`, `Shared.access`
    * `TcpdumpState`, `tcpdumpSystem`
    * `captured`, `dumpedOn`
    * `Ledger`, `Ledger.update`
    * `TcpdumpStep`, `tcpdumpSystem_step`
-/

------------------------------------------------------------
-- The Shared Memory
------------------------------------------------------------

namespace XdpDdos.Tcpdump

variable {nrCpus : ℕ}
variable {size pageSize : ℕ}

/- The rings, and the file that packets are dumped into. -/
structure Shared (nrCpus size : ℕ) where
  rings : Fin nrCpus → PerfRing size
  pcap : List PcapPacket

def Shared.fresh : Shared nrCpus size where
  rings := fun _ => .fresh size
  pcap := []

def Shared.setRing
    (s : Shared nrCpus size)
    (cpu : Fin nrCpus)
    (ring : PerfRing size) : Shared nrCpus size :=
  { s with rings := Function.update s.rings cpu ring }

/- What the poller does not find in the shared memory. -/
structure Answers (nrCpus : ℕ) where
  mallocOk : Bool
  revents : Fin nrCpus → Bool

def Shared.access
    (a : Answers nrCpus) :
    CallProg.Handler (PollerCall nrCpus) PollerCall.Resp
      (Shared nrCpus size)
  | .calloc, s => (a.mallocOk, s)
  | .poll, s => (a.revents, s)
  | .malloc _, s => (a.mallocOk, s)
  | .loadTail cpu, s => ((s.rings cpu).dataTail, s)
  | .loadHead cpu, s => ((s.rings cpu).dataHead, s)
  | .storeTail cpu dataTail, s =>
      ((), s.setRing cpu ((s.rings cpu).storeTail dataTail))
  | .read cpu off len, s =>
      (slice (s.rings cpu).data off len, s)
  | .pcapDump packet, s =>
      ((), { s with pcap := s.pcap ++ [packet] })
  | .print _, s => ((), s)

/-
  `bpf_perf_event_output` for the frame `ctx`: the kernel
  appends `record`, or fails; its answer is noted.
-/
def perfEventOutput
    (ctx record : ByteSeq) :
    CallProg.Handler KernCall KernCall.Resp
      (PerfRing size × Option ℤ)
  | .perfEventOutput flags hdr, (ring, _) =>
      if IsSample flags hdr ctx record ∧ ring.HasRoom record
      then (0, ring.output record, some 0)
      else (-1, ring, some (-1))

------------------------------------------------------------
-- The System
------------------------------------------------------------

structure TcpdumpState (nrCpus pageSize : ℕ) where
  shared : Shared nrCpus (PAGE_CNT * pageSize)
  control : PollerProg nrCpus (PollerLabel nrCpus)

def TcpdumpState.boot : TcpdumpState nrCpus pageSize where
  shared := .fresh
  control := .ret .start

/-
  A CPU receives a frame, the kernel appends a record of its
  own or changes an unused byte, or the poller goes on.
-/
inductive TcpdumpEvent (nrCpus : ℕ) where
  | receive (cpu : Fin nrCpus) (ctx record : ByteSeq)
  | other (cpu : Fin nrCpus) (record : ByteSeq)
  | poke (cpu : Fin nrCpus) (off : ℕ) (b : Byte)
  | access (a : Answers nrCpus)

/-
  The verdict on a frame, and what `bpf_perf_event_output`
  answered if it was called.
-/
inductive TcpdumpResponse (nrCpus : ℕ) where
  | quiet
  | verdict (cpu : Fin nrCpus) (ctx : ByteSeq)
      (action : XdpAction) (output : Option ℤ)

namespace TcpdumpState

def receive
    (t : TcpdumpState nrCpus pageSize)
    (cpu : Fin nrCpus)
    (ctx record : ByteSeq) :
    TcpdumpResponse nrCpus × TcpdumpState nrCpus pageSize :=
  match (xdpProg0 ctx).run (perfEventOutput ctx record)
      (t.shared.rings cpu, none) with
  | (.returned action, ring, output) =>
      (.verdict cpu ctx action output,
        { t with shared := t.shared.setRing cpu ring })
  | (.halted _, _) => (.quiet, t)

/- The next access of the poller, or its next block. -/
def access
    (t : TcpdumpState nrCpus pageSize)
    (a : Answers nrCpus) : TcpdumpState nrCpus pageSize :=
  match t.control with
  | .ret l =>
      { t with control := pcapPerfEventPoller pageSize l }
  | .call op next =>
      let (answer, shared) := Shared.access a op t.shared
      { shared := shared, control := next answer }
  | .halt _ => t

end TcpdumpState

def tcpdumpSystem :
    Reactive (TcpdumpState nrCpus pageSize) (TcpdumpEvent nrCpus)
      (TcpdumpResponse nrCpus) where
  step t
    | .receive cpu ctx record => t.receive cpu ctx record
    | .other cpu record =>
        let ring := t.shared.rings cpu
        if IsOther record ∧ ring.HasRoom record then
          (.quiet,
            { t with
              shared :=
                t.shared.setRing cpu (ring.output record) })
        else (.quiet, t)
    | .poke cpu off b =>
        let ring := t.shared.rings cpu
        if ring.IsFree off then
          (.quiet,
            { t with
              shared :=
                t.shared.setRing cpu (ring.poke off b) })
        else (.quiet, t)
    | .access a => (.quiet, t.access a)

/- The frames of a CPU that the kernel took a record of. -/
def captured
    (cpu : Fin nrCpus)
    (labels :
      List (TcpdumpEvent nrCpus × TcpdumpResponse nrCpus)) :
    List PcapPacket :=
  labels.filterMap fun
    | (_, .verdict cpu' ctx _ (some 0)) =>
        if cpu' = cpu then some (capture ctx) else none
    | _ => none

/- The packets dumped while the ring of a CPU was read. -/
def dumpedOn
    (cpu : Fin nrCpus)
    (dumped : List (Fin nrCpus × PcapPacket)) :
    List PcapPacket :=
  (dumped.filter fun entry => entry.1 = cpu).map Prod.snd

------------------------------------------------------------
-- The Ledger
------------------------------------------------------------

/-
  What is remembered of a run: the records appended to each
  ring, those that were there when its head was last loaded,
  the ring that is read, the dumped packets with the CPUs
  that they are from, and whether `malloc` has failed.
-/
structure Ledger (nrCpus : ℕ) where
  written : Fin nrCpus → List ByteSeq
  seen : Fin nrCpus → List ByteSeq
  reading : Option (Fin nrCpus)
  dumped : List (Fin nrCpus × PcapPacket)
  failed : Bool

namespace Ledger

def fresh : Ledger nrCpus where
  written := fun _ => []
  seen := fun _ => []
  reading := none
  dumped := []
  failed := false

def write
    (g : Ledger nrCpus)
    (cpu : Fin nrCpus)
    (record : ByteSeq) : Ledger nrCpus :=
  { g with
    written :=
      Function.update g.written cpu
        (g.written cpu ++ [record]) }

def access
    (g : Ledger nrCpus)
    (a : Answers nrCpus) : PollerCall nrCpus → Ledger nrCpus
  | .malloc _ => { g with failed := g.failed || !a.mallocOk }
  | .loadHead cpu =>
      { g with
        seen := Function.update g.seen cpu (g.written cpu)
        reading := some cpu }
  | .pcapDump packet =>
      { g with
        dumped :=
          g.dumped ++ (g.reading.map (·, packet)).toList }
  | _ => g

def update
    (t : TcpdumpState nrCpus pageSize)
    (e : TcpdumpEvent nrCpus)
    (r : TcpdumpResponse nrCpus)
    (g : Ledger nrCpus) : Ledger nrCpus :=
  match e, r with
  | .receive cpu _ record, .verdict _ _ _ (some 0) =>
      g.write cpu record
  | .other cpu record, _ =>
      if IsOther record ∧
        (t.shared.rings cpu).HasRoom record
      then g.write cpu record
      else g
  | .access a, _ =>
      match t.control with
      | .call op _ => g.access a op
      | _ => g
  | _, _ => g

end Ledger

------------------------------------------------------------
-- Steps
------------------------------------------------------------

/- Everything that a step can do, also to the ledger. -/
inductive TcpdumpStep
    (t : TcpdumpState nrCpus pageSize)
    (g : Ledger nrCpus) :
    TcpdumpEvent nrCpus → TcpdumpResponse nrCpus →
      TcpdumpState nrCpus pageSize → Ledger nrCpus → Prop where
  | stayed {e r}
      (hQuiet : ∀ cpu, captured cpu [(e, r)] = []) :
      TcpdumpStep t g e r t g
  | sampled {cpu ctx record action}
      (hSample :
        IsSample (sampleFlags ctx) (sampleHdr ctx) ctx record)
      (hRoom : (t.shared.rings cpu).HasRoom record) :
      TcpdumpStep t g (.receive cpu ctx record)
        (.verdict cpu ctx action (some 0))
        { t with
          shared :=
            t.shared.setRing cpu
              ((t.shared.rings cpu).output record) }
        (g.write cpu record)
  | wrote {cpu record}
      (hOther : IsOther record)
      (hRoom : (t.shared.rings cpu).HasRoom record) :
      TcpdumpStep t g (.other cpu record) .quiet
        { t with
          shared :=
            t.shared.setRing cpu
              ((t.shared.rings cpu).output record) }
        (g.write cpu record)
  | poked {cpu off b}
      (hFree : (t.shared.rings cpu).IsFree off) :
      TcpdumpStep t g (.poke cpu off b) .quiet
        { t with
          shared :=
            t.shared.setRing cpu
              ((t.shared.rings cpu).poke off b) } g
  | jumped {a l}
      (hControl : t.control = .ret l) :
      TcpdumpStep t g (.access a) .quiet
        { t with control := pcapPerfEventPoller pageSize l } g
  | accessed {a op next}
      (hControl : t.control = .call op next) :
      TcpdumpStep t g (.access a) .quiet
        { shared := (Shared.access a op t.shared).2
          control := next (Shared.access a op t.shared).1 }
        (g.access a op)

theorem setRing_self
    (s : Shared nrCpus size)
    (cpu : Fin nrCpus) :
    s.setRing cpu (s.rings cpu) = s := by
  rw [Shared.setRing, Function.update_eq_self]

theorem xdpProg0_of_pos
    {ctx : ByteSeq}
    (hPos : 0 < ctx.length) :
    xdpProg0 ctx =
      .call
        (.perfEventOutput (sampleFlags ctx) (sampleHdr ctx))
        fun _ => .ret .pass :=
  if_pos hPos

/- A frame is passed, after a record was asked for. -/
theorem receive_eq
    (t : TcpdumpState nrCpus pageSize)
    (cpu : Fin nrCpus)
    (ctx record : ByteSeq) :
    t.receive cpu ctx record =
      if ctx.length = 0 then (.verdict cpu ctx .pass none, t)
      else if IsSample (sampleFlags ctx) (sampleHdr ctx) ctx
            record ∧
          (t.shared.rings cpu).HasRoom record then
        (.verdict cpu ctx .pass (some 0),
          { t with
            shared :=
              t.shared.setRing cpu
                ((t.shared.rings cpu).output record) })
      else (.verdict cpu ctx .pass (some (-1)), t) := by
  have hSame :
      { t with
        shared :=
          t.shared.setRing cpu (t.shared.rings cpu) } = t := by
    rw [setRing_self]
  by_cases hEmpty : ctx.length = 0
  · rw [if_pos hEmpty, TcpdumpState.receive, xdpProg0,
      if_neg (by omega)]
    exact congrArg _ hSame
  · rw [if_neg hEmpty, TcpdumpState.receive,
      xdpProg0_of_pos (Nat.pos_of_ne_zero hEmpty),
      CallProg.run_call, perfEventOutput]
    by_cases hTakes :
        IsSample (sampleFlags ctx) (sampleHdr ctx) ctx
            record ∧
          (t.shared.rings cpu).HasRoom record
    · rw [if_pos hTakes, if_pos hTakes]
      rfl
    · rw [if_neg hTakes, if_neg hTakes]
      exact congrArg _ hSame

theorem tcpdumpSystem_step
    (t : TcpdumpState nrCpus pageSize)
    (g : Ledger nrCpus)
    (e : TcpdumpEvent nrCpus) :
    TcpdumpStep t g e (tcpdumpSystem.step t e).1
      (tcpdumpSystem.step t e).2
      (Ledger.update t e (tcpdumpSystem.step t e).1 g) := by
  cases e with
  | receive cpu ctx record =>
      simp only [tcpdumpSystem, receive_eq]
      split
      · exact .stayed fun _ => rfl
      · split
        · next hTakes => exact .sampled hTakes.1 hTakes.2
        · exact .stayed fun _ => rfl
  | other cpu record =>
      simp only [tcpdumpSystem]
      by_cases hTakes :
          IsOther record ∧
            (t.shared.rings cpu).HasRoom record
      · simp only [if_pos hTakes, Ledger.update]
        exact .wrote hTakes.1 hTakes.2
      · simp only [if_neg hTakes, Ledger.update]
        exact .stayed fun _ => rfl
  | poke cpu off b =>
      simp only [tcpdumpSystem]
      split
      · exact .poked (by assumption)
      · exact .stayed fun _ => rfl
  | access a =>
      simp only [tcpdumpSystem, TcpdumpState.access]
      cases hControl : t.control with
      | ret l =>
          simp only [Ledger.update, hControl]
          exact .jumped hControl
      | halt how =>
          simp only [Ledger.update, hControl]
          exact .stayed fun _ => rfl
      | call op next =>
          simp only [Ledger.update, hControl]
          exact .accessed hControl

end XdpDdos.Tcpdump
