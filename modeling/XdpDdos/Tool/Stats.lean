import XdpDdos.Tool.Main
import XdpDdos.Firewall.System
import XdpDdos.Kern.Accounting

/-
  The statistics of the command line tool: rounds that read
  the verdict counters and print what was added to them.

  Main declarations:
    * `Record`, `StatsRecord`, `StatsRow`
    * `statsCollect`, `statsPrint`, `statsPoll`
    * `PollRun`, `PollRun.trueCount`
    * `PollRun.run_statsPoll`
-/

------------------------------------------------------------
-- Calls While Polling
------------------------------------------------------------

namespace XdpDdos

namespace Tool

variable {nrCpus : ℕ}

/- `struct record`. -/
structure Record where
  counter : BitVec 64
  timestamp : BitVec 64
  deriving Repr, DecidableEq

/- `struct stats_record`. -/
structure StatsRecord where
  xdpAction : Fin XDP_ACTION_MAX → Record

/- `memset(&record, 0, sizeof(record))`. -/
def StatsRecord.zero : StatsRecord :=
  ⟨fun _ => ⟨0, 0⟩⟩

def StatsRecord.set
    (rec : StatsRecord)
    (i : Fin XDP_ACTION_MAX)
    (r : Record) : StatsRecord :=
  ⟨Function.update rec.xdpAction i r⟩

/- `action2str`. -/
def action2str (action : Fin XDP_ACTION_MAX) : CStr :=
  match action.val with
  | 0 => "XDP_ABORTED".toList
  | 1 => "XDP_DROP".toList
  | 2 => "XDP_PASS".toList
  | _ => "XDP_TX".toList

/-
  A printed line, by the integers of which it shows the
  quotient: packets in a period of nanoseconds.
-/
structure StatsRow where
  name : CStr
  packets : BitVec 64
  period : BitVec 64
  deriving Repr, DecidableEq

/- A call of the tool while it polls. -/
inductive PollCall (nrCpus : ℕ) where
  | tool (op : ToolCall nrCpus)
  | gettime
  | printRow (row : StatsRow)

@[reducible] def PollCall.Resp : PollCall nrCpus → Type
  | .tool op => op.Resp
  | .gettime => BitVec 64
  | .printRow _ => Unit

abbrev PollProg (nrCpus : ℕ) (α : Type) :=
  CallProg (PollCall nrCpus) PollCall.Resp α

/- A function of the tool, run while it polls. -/
def toolProg
    {α : Type}
    (p : ToolProg nrCpus α) : PollProg nrCpus α :=
  CallProg.embed .tool (fun _ a => a) p

def gettime : PollProg nrCpus (BitVec 64) :=
  .call' PollCall.gettime

def printRow (row : StatsRow) : PollProg nrCpus Unit :=
  .call' (PollCall.printRow row)

------------------------------------------------------------
-- Rounds
------------------------------------------------------------

/- The key of an action's counter. -/
def actionKey (i : Fin XDP_ACTION_MAX) : BitVec 32 :=
  BitVec.ofNat 32 i.val

def collectActions
    (fd : MapId) :
    List (Fin XDP_ACTION_MAX) → StatsRecord →
      PollProg nrCpus StatsRecord
  | [], rec => return rec
  | i :: is, rec => do
      let timestamp ← gettime
      let counter ←
        toolProg (mapProg (getKey32Value64Percpu fd
          (actionKey i)))
      collectActions fd is (rec.set i ⟨counter, timestamp⟩)

/- `stats_collect`. -/
def statsCollect
    (fd : MapId)
    (rec : StatsRecord) : PollProg nrCpus StatsRecord :=
  collectActions fd (List.finRange XDP_ACTION_MAX) rec

/- What `stats_print` computes for one action. -/
def statsRow
    (record prev : StatsRecord)
    (i : Fin XDP_ACTION_MAX) : StatsRow :=
  let r := record.xdpAction i
  let p := prev.xdpAction i
  if p.timestamp ≠ 0 then
    { name := action2str i
      packets := r.counter - p.counter
      period := r.timestamp - p.timestamp }
  else
    { name := action2str i
      packets := 0
      period := 0 }

def printRows : List StatsRow → PollProg nrCpus Unit
  | [] => return ()
  | row :: rows => do
      printRow row
      printRows rows

/- `stats_print`. -/
def statsPrint
    (record prev : StatsRecord) : PollProg nrCpus Unit :=
  printRows
    ((List.finRange XDP_ACTION_MAX).map
      (statsRow record prev))

/- The first rounds of the endless loop. -/
def pollRounds
    (fd : MapId) :
    ℕ → StatsRecord → PollProg nrCpus StatsRecord
  | 0, record => return record
  | rounds + 1, record => do
      let prev := record
      let record ← statsCollect fd record
      statsPrint record prev
      pollRounds fd rounds record

/- `stats_poll`; it is left with the last record. -/
def statsPoll
    (rounds : ℕ) : PollProg nrCpus StatsRecord := do
  let fd ← toolProg (openBpfMap fileVerdict)
  pollRounds fd rounds .zero

------------------------------------------------------------
-- A Live Verdict Map
------------------------------------------------------------

/-
  What happens between two calls of the tool to the kernel:
  the time that a clock read there shows, the frames and
  rule changes, and the map calls that fail after them.
-/
structure Moment (nrCpus : ℕ) where
  clock : BitVec 64
  events : List (FilterEvent nrCpus)
  fails : CallFaults

/- The tool's environment, and how many calls it answered. -/
structure PollState (nrCpus : ℕ) where
  tool : ToolState nrCpus
  now : ℕ
  rows : List StatsRow

/- The maps change before each call; pinned files open. -/
def pollHandle
    (script : ℕ → Moment nrCpus) :
    CallProg.Handler (PollCall nrCpus) PollCall.Resp
      (PollState nrCpus)
  | .gettime, s => ((script s.now).clock, s)
  | .printRow row, s =>
      ((), { s with rows := s.rows ++ [row] })
  | .tool op, s =>
      let maps :=
        filterSystem.final s.tool.maps (script s.now).events
      let (answer, tool) :=
        handle ⟨fun _ => none, (script s.now).fails⟩ op
          { s.tool with maps := maps }
      (answer,
        { s with
          tool := tool
          now := s.now + 1 })

/- Frames that the program counted under an action. -/
def countFrame
    (i : Fin XDP_ACTION_MAX)
    (_ : Maps nrCpus)
    (e : FilterEvent nrCpus)
    (answer : FilterResponse)
    (count : ℕ) : ℕ :=
  match e, answer with
  | .frame _ f, .verdict (.ok action) =>
      if parsedEth f ∧ action.index? = some i then count + 1
      else count
  | _, _ => count

/- The packets counted under an action by a run. -/
def packetsCounted
    (i : Fin XDP_ACTION_MAX)
    (m : Maps nrCpus)
    (es : List (FilterEvent nrCpus)) : ℕ :=
  filterSystem.ghost (countFrame i) m 0 es

/-
  A run of the tool: what happened since the maps were
  created until it started, and from then on.
-/
structure PollRun (nrCpus : ℕ) where
  history : List (FilterEvent nrCpus)
  script : ℕ → Moment nrCpus

namespace PollRun

variable (run : PollRun nrCpus)

/- All that happened up to the first calls to the kernel. -/
def eventsBefore (calls : ℕ) : List (FilterEvent nrCpus) :=
  run.history ++
    (List.range calls).flatMap fun t => (run.script t).events

/- The tool when it has made some calls to the kernel. -/
def stateAt
    (calls : ℕ)
    (rows : List StatsRow) : PollState nrCpus where
  tool :=
    { maps :=
        filterSystem.final Maps.fresh
          (run.eventsBefore calls) }
  now := calls
  rows := rows

/- Opening the map is the first call to the kernel. -/
def lookupMoment
    (round : ℕ)
    (i : Fin XDP_ACTION_MAX) : ℕ :=
  1 + XDP_ACTION_MAX * round + i.val

/- The packets counted when a round looks an action up. -/
def trueCount
    (round : ℕ)
    (i : Fin XDP_ACTION_MAX) : ℕ :=
  packetsCounted i Maps.fresh
    (run.eventsBefore (lookupMoment round i + 1))

/- The lookup of an action in a round does not fail. -/
def Succeeds
    (round : ℕ)
    (i : Fin XDP_ACTION_MAX) : Prop :=
  (run.script (lookupMoment round i)).fails .verdictCnt
    .lookup (actionKey i) = none

instance
    (round : ℕ)
    (i : Fin XDP_ACTION_MAX) :
    Decidable (run.Succeeds round i) := by
  unfold Succeeds
  infer_instance

/- The time that is noted before a lookup. -/
def clockAt
    (round : ℕ)
    (i : Fin XDP_ACTION_MAX) : BitVec 64 :=
  (run.script (lookupMoment round i)).clock

/- How the run of the tool goes on for some rounds. -/
def afterRounds
    (rounds : ℕ) :
    Outcome StatsRecord × PollState nrCpus :=
  CallProg.run (pollHandle run.script) (statsPoll rounds)
    (run.stateAt 0 [])

/- The line that a round prints for an action. -/
def row?
    (round : ℕ)
    (i : Fin XDP_ACTION_MAX) : Option StatsRow :=
  (run.afterRounds (round + 1)).2.rows[
    XDP_ACTION_MAX * round + i.val]?

end PollRun

end Tool

end XdpDdos
