import XdpDdos.Tool.Stats
import XdpDdos.Tool.ListJson

/-
  The buffers that the tool passes to map system calls.

  For a per-CPU map the kernel copies one value for each
  possible CPU, each rounded up to eight bytes.  All value
  buffers are arrays of that many words but for the one of
  the port listing, which is a single word.

  Main declarations:
    * `MapId.copySize`, `SizedCall`, `SizedCall.Fits`
    * `Sized.main`, `checked`, `checked_main`
    * `BuffersFit`, `buffersFit_iff`
-/

------------------------------------------------------------
-- Sizes
------------------------------------------------------------

namespace XdpDdos

variable {nrCpus : ℕ}

/- The kernel's `round_up(size, 8)`. -/
def roundUp8 (size : ℕ) : ℕ :=
  (size + 7) / 8 * 8

/- The bytes that a lookup or an update of a map copies. -/
def MapId.copySize
    (nrCpus : ℕ)
    (fd : MapId) : ℕ :=
  nrCpus * roundUp8 fd.mapDef.valueSize

/- The size in bytes of `__u64 values[len]`. -/
def u64Array (len : ℕ) : ℕ :=
  8 * len

/- Four-byte masks take as much room as counters. -/
theorem MapId.copySize_eq
    (nrCpus : ℕ)
    (fd : MapId) :
    fd.copySize nrCpus = u64Array nrCpus := by
  have hEight : roundUp8 fd.mapDef.valueSize = 8 := by
    cases fd with
    | blacklist => rfl
    | verdictCnt => rfl
    | portBlacklist => rfl
    | portBlacklistDropCount fproto =>
        cases fproto <;> rfl
  rw [copySize, hEight, u64Array, Nat.mul_comm]

namespace Tool

/- A call, with the size of the value buffer passed to it. -/
structure SizedCall (nrCpus : ℕ) where
  op : PollCall nrCpus
  buffer : ℕ

abbrev SizedProg (nrCpus : ℕ) (α : Type) :=
  CallProg (SizedCall nrCpus) (fun c => c.op.Resp) α

namespace SizedCall

/- The map whose values a call copies, if it copies any. -/
def copied? : PollCall nrCpus → Option MapId
  | .tool (.map (.lookupElem fd _)) => some fd
  | .tool (.map (.updateElem fd _ _ _)) => some fd
  | _ => none

/- What the kernel copies fits in the buffer. -/
def Fits (c : SizedCall nrCpus) : Prop :=
  ∀ fd ∈ copied? c.op, fd.copySize nrCpus ≤ c.buffer

instance (c : SizedCall nrCpus) : Decidable c.Fits := by
  unfold Fits
  infer_instance

/- A failed lookup copies nothing; an update always does. -/
def copies : (op : PollCall nrCpus) → op.Resp → Bool
  | .tool (.map (.lookupElem _ _)), answer => answer.isOk
  | .tool (.map (.updateElem _ _ _ _)), _ => true
  | _, _ => false

end SizedCall

/- Copying past the end of a buffer is an error. -/
def checked
    {α : Type} :
    SizedProg nrCpus α → PollProg nrCpus α
  | .ret value => .ret value
  | .halt how => .halt how
  | .call c next =>
      .call c.op fun answer =>
        if SizedCall.copies c.op answer ∧ ¬ c.Fits then
          .halt (.crash .outOfRange)
        else checked (next answer)

------------------------------------------------------------
-- The Tool, With Its Buffers
------------------------------------------------------------

namespace Sized

variable {α : Type}

/- A part of the tool whose value buffers have one size. -/
def withBuffer
    (buffer : ℕ)
    (p : PollProg nrCpus α) : SizedProg nrCpus α :=
  CallProg.embed (fun op => ⟨op, buffer⟩) (fun _ a => a) p

/-
  The value buffers of `get_key32_value64_percpu`,
  `blacklist_modify` and `blacklist_port_modify` are all
  arrays of as many words as there are possible CPUs.
-/
def percpu
    (possible : ℕ)
    (p : ToolProg nrCpus α) : SizedProg nrCpus α :=
  withBuffer (u64Array possible) (toolProg p)

/- The lookup of `blacklist_list_all_ports` into a word. -/
def lookupValue
    (fd : MapId)
    (key : BitVec 32)
    (value : BitVec 64) : SizedProg nrCpus (BitVec 64) := do
  let looked ←
    withBuffer (u64Array 1)
      (toolProg (mapProg (bpfMapLookupElem fd key)))
  match looked with
  | .error _ => return value
  | .ok values =>
      if hCpus : 0 < nrCpus then return values ⟨0, hCpus⟩
      else return value

def listPortsFrom
    (possible : ℕ)
    (portfd : MapId)
    (countfds : DdosFilter → MapId) :
    ℕ → Option (BitVec 32) → BitVec 64 → Bool →
      SizedProg nrCpus Bool
  | 0, _, _, _ => return false
  | fuel + 1, prevKey, value, started => do
      match ← percpu possible
          (bpfMapGetNextKey portfd prevKey) with
      | none => return true
      | some key =>
          let value ← lookupValue portfd key value
          if value ≠ 0 then
            percpu possible (do
              printf (if started then [','] else [])
              blacklistPrintPort key (value.setWidth 32)
                countfds)
            listPortsFrom possible portfd countfds fuel
              (some key) value true
          else
            listPortsFrom possible portfd countfds fuel
              (some key) value started

/- `--list`. -/
def listBlacklists
    (possible fuel : ℕ)
    (frame : StackFrame) : SizedProg nrCpus Bool := do
  percpu possible (printf ['{'])
  let fdBlacklist ←
    percpu possible (openBpfMap fileBlacklist)
  let ended ←
    percpu possible
      (blacklistListAllIpv4 fuel frame fdBlacklist)
  if ended then
    percpu possible (close fdBlacklist)
    let fdPortBlacklist ←
      percpu possible (openBpfMap filePortBlacklist)
    let fdCountTcp ←
      percpu possible
        (openBpfMap (filePortBlacklistCount .tcp))
    let fdCountUdp ←
      percpu possible
        (openBpfMap (filePortBlacklistCount .udp))
    let ended ←
      listPortsFrom possible fdPortBlacklist
        (countFdArray fdCountTcp fdCountUdp) fuel none
        frame.value false
    if ended then
      percpu possible (close fdPortBlacklist)
      percpu possible (printf "\n\x7d\n".toList)
      percpu possible (close fdCountTcp)
      percpu possible (close fdCountUdp)
      return true
    else return false
  else return false

/- The end of `main`, with some rounds of `stats_poll`. -/
def showStats
    (possible rounds : ℕ)
    (fdVerdict : MapId)
    (st : OptionState) : SizedProg nrCpus Ending :=
  if st.stats then do
    let _ ← withBuffer (u64Array possible) (statsPoll rounds)
    return .polling st.interval
  else do
    percpu possible (close fdVerdict)
    return .exited 0

/- `main`, where `bpf_num_possible_cpus` is `possible`. -/
def main
    (possible fuel rounds : ℕ)
    (frame : StackFrame)
    (args : List CStr) : SizedProg nrCpus Ending :=
  match optionLoop {} (options args) with
  | none => return .exited EXIT_FAIL_OPTION
  | some st => do
      let fdVerdict ←
        percpu possible (openBpfMap fileVerdict)
      if st.action ≠ 0 then
        let res ← percpu possible (updateBlacklist st)
        return .exited res
      else if nonOptions args ≠ [] then
        return .exited EXIT_FAIL_OPTION
      else if st.doList then
        let ended ← listBlacklists possible fuel frame
        if ended then showStats possible rounds fdVerdict st
        else return .unfinished
      else showStats possible rounds fdVerdict st

end Sized

------------------------------------------------------------
-- Erasing the Sizes
------------------------------------------------------------

section

variable {α β : Type}

@[simp] theorem checked_ret
    (value : α) :
    checked (.ret value : SizedProg nrCpus α) =
      .ret value := rfl

theorem checked_bind
    (p : SizedProg nrCpus α)
    (f : α → SizedProg nrCpus β) :
    checked (p >>= f) =
      checked p >>= fun value => checked (f value) := by
  induction p with
  | ret value => rfl
  | halt how => rfl
  | call c next ih =>
      simp only [CallProg.call_bind, checked,
        CallProg.call.injEq, heq_eq_eq, true_and]
      funext answer
      split
      · rfl
      · exact ih answer

/- A buffer for all CPUs fits every map. -/
theorem fits_percpu
    (op : PollCall nrCpus) :
    SizedCall.Fits ⟨op, u64Array nrCpus⟩ := by
  intro fd _
  exact Nat.le_of_eq (fd.copySize_eq nrCpus)

/- Where all buffers fit, checking them changes nothing. -/
theorem checked_withBuffer
    {buffer : ℕ}
    (hFits :
      ∀ op : PollCall nrCpus, SizedCall.Fits ⟨op, buffer⟩)
    (p : PollProg nrCpus α) :
    checked (Sized.withBuffer buffer p) = p := by
  induction p with
  | ret value => rfl
  | halt how => rfl
  | call op next ih =>
      simp only [Sized.withBuffer, CallProg.embed, checked,
        CallProg.call.injEq, heq_eq_eq, true_and]
      funext answer
      rw [if_neg (fun hOver => hOver.2 (hFits op))]
      exact ih answer

theorem checked_percpu
    (p : ToolProg nrCpus α) :
    checked (Sized.percpu nrCpus p) = toolProg p :=
  checked_withBuffer fits_percpu (toolProg p)

theorem toolProg_bind
    (p : ToolProg nrCpus α)
    (f : α → ToolProg nrCpus β) :
    toolProg (p >>= f) =
      toolProg p >>= fun value => toolProg (f value) :=
  CallProg.embed_bind _ _ p f

/- One word fits the slots of a single CPU. -/
theorem fits_word_iff
    (fd : MapId)
    (key : BitVec 32) :
    SizedCall.Fits
        ⟨.tool (.map (.lookupElem fd key) :
          ToolCall nrCpus), u64Array 1⟩ ↔
      nrCpus ≤ 1 := by
  unfold SizedCall.Fits
  simp only [SizedCall.copied?, Option.mem_some_iff,
    forall_eq', MapId.copySize_eq, u64Array]
  omega

/- The checked lookup is the one without a slot to spare. -/
theorem checked_lookupValue
    (frame : StackFrame)
    (hSpare : frame.spare = 0)
    (fd : MapId)
    (key : BitVec 32)
    (value : BitVec 64) :
    checked (Sized.lookupValue fd key value :
        SizedProg nrCpus (BitVec 64)) =
      toolProg (lookupValue frame fd key value) := by
  have hRoom : nrCpus ≤ 1 + frame.spare ↔ nrCpus ≤ 1 := by
    rw [hSpare]
  simp only [Sized.lookupValue, lookupValue,
    bpfMapLookupElem, CallProg.call', mapProg, toolProg,
    Sized.withBuffer, CallProg.embed, CallProg.call_bind,
    CallProg.ret_bind, checked, CallProg.call.injEq,
    heq_eq_eq, true_and, fits_word_iff, hRoom]
  funext answer
  cases answer with
  | error errno => rfl
  | ok values =>
      by_cases hFit : nrCpus ≤ 1
      · simp only [hFit, not_true, and_false, if_false,
          if_true]
        by_cases hCpus : 0 < nrCpus
        · simp only [hCpus, dif_pos]
          rfl
        · simp only [hCpus, dif_neg, not_false_eq_true]
          rfl
      · simp only [hFit, not_false_eq_true, and_true,
          if_false]
        rfl

/- The port listing, checked against its buffers. -/
theorem checked_listPortsFrom
    (frame : StackFrame)
    (hSpare : frame.spare = 0)
    (portfd : MapId)
    (countfds : DdosFilter → MapId)
    (fuel : ℕ)
    (prevKey : Option (BitVec 32))
    (value : BitVec 64)
    (started : Bool) :
    checked (Sized.listPortsFrom nrCpus portfd countfds fuel
        prevKey value started : SizedProg nrCpus Bool) =
      toolProg (listPortsFrom frame portfd countfds fuel
        prevKey value started) := by
  induction fuel generalizing prevKey value started with
  | zero => rfl
  | succ fuel ih =>
      simp only [Sized.listPortsFrom, listPortsFrom,
        checked_bind, checked_percpu, toolProg_bind]
      congr 1
      funext next
      cases next with
      | none => rfl
      | some key =>
          simp only [checked_bind, toolProg_bind,
            checked_lookupValue frame hSpare]
          congr 1
          funext value'
          by_cases hValue : value' = 0
          · simp only [hValue, ne_eq, not_true, if_false]
            exact ih _ _ _
          · simp only [hValue, ne_eq, not_false_eq_true,
              if_true, checked_bind, checked_percpu,
              toolProg_bind, CallProg.bind_assoc]
            congr 1
            funext _
            congr 1
            funext _
            exact ih _ _ _

/-
  Checked against its buffers, `--list` is the program whose
  stack has no slot to spare behind `value`.
-/
theorem checked_listBlacklists
    (fuel : ℕ)
    (frame : StackFrame)
    (hSpare : frame.spare = 0) :
    checked (Sized.listBlacklists nrCpus fuel frame :
        SizedProg nrCpus Bool) =
      toolProg (listBlacklists fuel frame) := by
  have hPure :
      (toolProg (.ret false) : PollProg nrCpus Bool) =
        .ret false := rfl
  have hPure' :
      (toolProg (.ret true) : PollProg nrCpus Bool) =
        .ret true := rfl
  simp only [Sized.listBlacklists, listBlacklists,
    blacklistListAllPorts, checked_bind, checked_percpu,
    toolProg_bind, checked_listPortsFrom frame hSpare,
    apply_ite checked, apply_ite toolProg,
    CallProg.pure_eq_ret, checked_ret, hPure, hPure']

theorem checked_showStats
    (fdVerdict : MapId)
    (st : OptionState) :
    checked (Sized.showStats nrCpus 0 fdVerdict st :
        SizedProg nrCpus Ending) =
      toolProg (showStats fdVerdict st) := by
  cases hStats : st.stats with
  | true =>
      simp only [Sized.showStats, showStats, hStats, if_true,
        checked_bind, checked_withBuffer fits_percpu,
        toolProg_bind, statsPoll, pollRounds,
        CallProg.bind_assoc]
      rfl
  | false =>
      simp only [Sized.showStats, showStats, hStats,
        Bool.false_eq_true, if_false, checked_bind,
        checked_percpu, toolProg_bind]
      rfl

/-
  Up to the rounds of `stats_poll`, the tool checked against
  its buffers is `main` on a stack without slots to spare.
-/
theorem checked_main
    (fuel : ℕ)
    (frame : StackFrame)
    (hSpare : frame.spare = 0)
    (args : List CStr) :
    checked (Sized.main nrCpus fuel 0 frame args :
        SizedProg nrCpus Ending) =
      toolProg (main fuel frame args) := by
  unfold Sized.main main
  cases optionLoop {} (options args) with
  | none => rfl
  | some st =>
      simp only [checked_bind, checked_percpu, toolProg_bind,
        checked_listBlacklists fuel frame hSpare,
        checked_showStats, apply_ite checked,
        apply_ite toolProg, CallProg.pure_eq_ret, checked_ret]
      rfl

------------------------------------------------------------
-- Programs That Do Not Crash
------------------------------------------------------------

/- The process ends by `exit`. -/
def Exits (how : Halt) : Prop :=
  ∃ status, how = .exit status

/- No run of the program breaks the rules of C. -/
def NoCrash
    {Op : Type}
    {Resp : Op → Type}
    (p : CallProg Op Resp α) : Prop :=
  p.Obeys (fun _ => True) Exits

theorem noCrash_call
    {Op : Type}
    {Resp : Op → Type}
    (op : Op) :
    NoCrash (CallProg.call' op : CallProg Op Resp _) :=
  ⟨trivial, fun _ => trivial⟩

theorem noCrash_mapProg
    {p : MapProg nrCpus α}
    (hClean : NoCrash p) :
    NoCrash (mapProg p) :=
  CallProg.Obeys.embed (fun _ _ => trivial) hClean

theorem noCrash_openBpfMap
    (file : CStr) :
    NoCrash (openBpfMap file : ToolProg nrCpus MapId) := by
  refine CallProg.Obeys.bind (noCrash_call _) ?_
  intro opened
  cases opened with
  | error errno => exact ⟨EXIT_FAIL_MAP_FILE, rfl⟩
  | ok fd => trivial

theorem noCrash_getKey32Value64Percpu
    (fd : MapId)
    (key : BitVec 32) :
    NoCrash (getKey32Value64Percpu fd key :
      MapProg nrCpus (BitVec 64)) := by
  refine CallProg.Obeys.bind (noCrash_call _) ?_
  intro looked
  cases looked with
  | error errno => trivial
  | ok values => trivial

theorem noCrash_blacklistModify
    (fd : MapId)
    (ipString : CStr)
    (action : BitVec 32) :
    NoCrash (blacklistModify fd ipString action :
      MapProg nrCpus ℕ) := by
  unfold blacklistModify
  split
  · trivial
  · split
    · exact CallProg.Obeys.bind (noCrash_call _)
        fun _ => trivial
    · split
      · exact CallProg.Obeys.bind (noCrash_call _)
          fun _ => trivial
      · trivial

theorem noCrash_clearStats
    (countfd : MapId)
    (key action : BitVec 32) :
    NoCrash (clearStats countfd key action :
      MapProg nrCpus ℕ) := by
  unfold clearStats
  split
  · refine CallProg.Obeys.bind (noCrash_call _) ?_
    intro res
    cases res with
    | error errno => trivial
    | ok value => trivial
  · trivial

theorem noCrash_blacklistPortModify
    (fd countfd : MapId)
    (dport action proto : BitVec 32) :
    NoCrash (blacklistPortModify fd countfd dport action
      proto : MapProg nrCpus ℕ) := by
  unfold blacklistPortModify
  split
  · trivial
  · split
    · trivial
    · dsimp only
      split
      · trivial
      · refine CallProg.Obeys.bind (noCrash_call _) ?_
        intro looked
        refine CallProg.Obeys.bind (noCrash_call _) ?_
        intro res
        cases res with
        | error errno => trivial
        | ok value => exact noCrash_clearStats _ _ _

theorem noCrash_updateIp
    (st : OptionState) :
    NoCrash (updateIp st : ToolProg nrCpus ℕ) := by
  unfold updateIp
  split
  · trivial
  · refine CallProg.Obeys.bind (noCrash_openBpfMap _) ?_
    intro fd
    refine CallProg.Obeys.bind
      (noCrash_mapProg (noCrash_blacklistModify _ _ _)) ?_
    intro res
    exact CallProg.Obeys.bind (noCrash_call _)
      fun _ => trivial

theorem noCrash_updatePort
    (st : OptionState)
    (res : ℕ) :
    NoCrash (updatePort st res : ToolProg nrCpus ℕ) := by
  unfold updatePort
  split
  · refine CallProg.Obeys.bind (noCrash_openBpfMap _) ?_
    intro fd
    refine CallProg.Obeys.bind (noCrash_openBpfMap _) ?_
    intro countfd
    refine CallProg.Obeys.bind (noCrash_mapProg
      (noCrash_blacklistPortModify _ _ _ _ _)) ?_
    intro res'
    refine CallProg.Obeys.bind (noCrash_call _) ?_
    intro _
    exact CallProg.Obeys.bind (noCrash_call _)
      fun _ => trivial
  · trivial

theorem noCrash_updateBlacklist
    (st : OptionState) :
    NoCrash (updateBlacklist st : ToolProg nrCpus ℕ) := by
  unfold updateBlacklist
  split
  · trivial
  · exact CallProg.Obeys.bind (noCrash_updateIp st)
      (noCrash_updatePort st)

/- The loop over the addresses. -/
theorem noCrash_listIpv4From
    (fd : MapId)
    (fuel : ℕ)
    (prevKey : Option (BitVec 32))
    (lastKey : BitVec 32) :
    NoCrash (listIpv4From fd fuel prevKey lastKey :
      ToolProg nrCpus (Option (BitVec 32))) := by
  induction fuel generalizing prevKey lastKey with
  | zero => trivial
  | succ fuel ih =>
      refine CallProg.Obeys.bind (noCrash_call _) ?_
      intro next
      cases next with
      | none => trivial
      | some key =>
          refine CallProg.Obeys.bind (noCrash_call _) ?_
          intro _
          refine CallProg.Obeys.bind (noCrash_mapProg
            (noCrash_getKey32Value64Percpu _ _)) ?_
          intro value
          exact CallProg.Obeys.bind (noCrash_call _)
            fun _ => ih _ _

theorem noCrash_blacklistListAllIpv4
    (fuel : ℕ)
    (frame : StackFrame)
    (fd : MapId) :
    NoCrash (blacklistListAllIpv4 fuel frame fd :
      ToolProg nrCpus Bool) := by
  refine CallProg.Obeys.bind
    (noCrash_listIpv4From _ _ _ _) ?_
  intro ended
  cases ended with
  | none => trivial
  | some key =>
      exact CallProg.Obeys.bind (noCrash_call _)
        fun _ => trivial

/- The loop over the protocols of a port. -/
theorem noCrash_printProtos
    (key val : BitVec 32)
    (countfds : DdosFilter → MapId)
    (is : List DdosFilter)
    (started : Bool) :
    NoCrash (printProtos key val countfds is started :
      ToolProg nrCpus Bool) := by
  induction is generalizing started with
  | nil => trivial
  | cons i is ih =>
      unfold printProtos
      split
      · refine CallProg.Obeys.bind (noCrash_call _) ?_
        intro _
        refine CallProg.Obeys.bind (noCrash_mapProg
          (noCrash_getKey32Value64Percpu _ _)) ?_
        intro count
        exact CallProg.Obeys.bind (noCrash_call _)
          fun _ => ih true
      · exact ih started

theorem noCrash_blacklistPrintPort
    (key val : BitVec 32)
    (countfds : DdosFilter → MapId) :
    NoCrash (blacklistPrintPort key val countfds :
      ToolProg nrCpus Unit) := by
  refine CallProg.Obeys.bind (noCrash_call _) ?_
  intro _
  refine CallProg.Obeys.bind
    (noCrash_printProtos _ _ _ _ _) ?_
  intro started
  split
  · exact noCrash_call _
  · trivial

theorem noCrash_toolProg
    {p : ToolProg nrCpus α}
    (hClean : NoCrash p) :
    NoCrash (toolProg p) :=
  CallProg.Obeys.embed (fun _ _ => trivial) hClean

/- The loop over the actions. -/
theorem noCrash_collectActions
    (fd : MapId)
    (is : List (Fin XDP_ACTION_MAX))
    (rec : StatsRecord) :
    NoCrash (collectActions fd is rec :
      PollProg nrCpus StatsRecord) := by
  induction is generalizing rec with
  | nil => trivial
  | cons i is ih =>
      refine CallProg.Obeys.bind (noCrash_call _) ?_
      intro timestamp
      exact CallProg.Obeys.bind
        (noCrash_toolProg (noCrash_mapProg
          (noCrash_getKey32Value64Percpu _ _)))
        fun _ => ih _

theorem noCrash_printRows
    (rows : List StatsRow) :
    NoCrash (printRows rows : PollProg nrCpus Unit) := by
  induction rows with
  | nil => trivial
  | cons row rows ih =>
      exact CallProg.Obeys.bind (noCrash_call _) fun _ => ih

theorem noCrash_statsPoll
    (rounds : ℕ) :
    NoCrash (statsPoll rounds :
      PollProg nrCpus StatsRecord) := by
  have hRounds (fd : MapId) (record : StatsRecord) :
      NoCrash (pollRounds fd rounds record :
        PollProg nrCpus StatsRecord) := by
    induction rounds generalizing record with
    | zero => trivial
    | succ rounds ih =>
        refine CallProg.Obeys.bind
          (noCrash_collectActions _ _ _) ?_
        intro record'
        exact CallProg.Obeys.bind (noCrash_printRows _)
          fun _ => ih record'
  exact CallProg.Obeys.bind
    (noCrash_toolProg (noCrash_openBpfMap _))
    fun fd => hRounds fd .zero

------------------------------------------------------------
-- Which Buffers Fit
------------------------------------------------------------

/- All calls fit their buffers, and no run crashes. -/
def Bounded (p : SizedProg nrCpus α) : Prop :=
  p.Obeys SizedCall.Fits Exits

theorem bounded_withBuffer
    {buffer : ℕ}
    (hFits :
      ∀ op : PollCall nrCpus, SizedCall.Fits ⟨op, buffer⟩)
    {p : PollProg nrCpus α}
    (hClean : NoCrash p) :
    Bounded (Sized.withBuffer buffer p) :=
  CallProg.Obeys.embed (fun op _ => hFits op) hClean

theorem bounded_percpu
    {p : ToolProg nrCpus α}
    (hClean : NoCrash p) :
    Bounded (Sized.percpu nrCpus p) :=
  bounded_withBuffer fits_percpu (noCrash_toolProg hClean)

/- A program whose calls fit passes the check. -/
theorem noCrash_checked
    {p : SizedProg nrCpus α}
    (hBounded : Bounded p) :
    NoCrash (checked p) := by
  induction p with
  | ret value => trivial
  | halt how => exact hBounded
  | call c next ih =>
      refine ⟨trivial, ?_⟩
      intro answer
      dsimp only
      rw [if_neg (fun hOver => hOver.2 hBounded.1)]
      exact ih answer (hBounded.2 answer)

theorem bounded_showStats
    (rounds : ℕ)
    (fdVerdict : MapId)
    (st : OptionState) :
    Bounded (Sized.showStats nrCpus rounds fdVerdict st :
      SizedProg nrCpus Ending) := by
  unfold Sized.showStats
  split
  · exact CallProg.Obeys.bind
      (bounded_withBuffer fits_percpu
        (noCrash_statsPoll rounds))
      fun _ => trivial
  · exact CallProg.Obeys.bind
      (bounded_percpu (noCrash_call _)) fun _ => trivial

/- On a single CPU the one word of the listing suffices. -/
theorem bounded_lookupValue
    (hOne : nrCpus ≤ 1)
    (fd : MapId)
    (key : BitVec 32)
    (value : BitVec 64) :
    Bounded (Sized.lookupValue fd key value :
      SizedProg nrCpus (BitVec 64)) := by
  refine CallProg.Obeys.bind
    ⟨(fits_word_iff fd key).mpr hOne, fun _ => trivial⟩ ?_
  intro looked
  cases looked with
  | error errno => trivial
  | ok values =>
      dsimp only
      split
      · trivial
      · trivial

theorem bounded_listPortsFrom
    (hOne : nrCpus ≤ 1)
    (portfd : MapId)
    (countfds : DdosFilter → MapId)
    (fuel : ℕ)
    (prevKey : Option (BitVec 32))
    (value : BitVec 64)
    (started : Bool) :
    Bounded (Sized.listPortsFrom nrCpus portfd countfds fuel
      prevKey value started : SizedProg nrCpus Bool) := by
  induction fuel generalizing prevKey value started with
  | zero => trivial
  | succ fuel ih =>
      refine CallProg.Obeys.bind
        (bounded_percpu (noCrash_call _)) ?_
      intro next
      cases next with
      | none => trivial
      | some key =>
          refine CallProg.Obeys.bind
            (bounded_lookupValue hOne portfd key value) ?_
          intro value'
          split
          · refine CallProg.Obeys.bind (bounded_percpu
              (CallProg.Obeys.bind (noCrash_call _)
                fun _ => noCrash_blacklistPrintPort _ _ _))
              ?_
            intro _
            exact ih _ _ _
          · exact ih _ _ _

theorem bounded_listBlacklists
    (hOne : nrCpus ≤ 1)
    (fuel : ℕ)
    (frame : StackFrame) :
    Bounded (Sized.listBlacklists nrCpus fuel frame :
      SizedProg nrCpus Bool) := by
  have hOpen (file : CStr) :
      Bounded (Sized.percpu nrCpus (openBpfMap file) :
        SizedProg nrCpus MapId) :=
    bounded_percpu (noCrash_openBpfMap file)
  refine CallProg.Obeys.bind
    (bounded_percpu (noCrash_call _)) fun _ => ?_
  refine CallProg.Obeys.bind (hOpen _) fun fd => ?_
  refine CallProg.Obeys.bind (bounded_percpu
    (noCrash_blacklistListAllIpv4 _ _ _)) fun ended => ?_
  split
  · refine CallProg.Obeys.bind
      (bounded_percpu (noCrash_call _)) fun _ => ?_
    refine CallProg.Obeys.bind (hOpen _) fun portfd => ?_
    refine CallProg.Obeys.bind (hOpen _) fun tcpfd => ?_
    refine CallProg.Obeys.bind (hOpen _) fun udpfd => ?_
    refine CallProg.Obeys.bind
      (bounded_listPortsFrom hOne _ _ _ _ _ _)
      fun ended => ?_
    split
    · refine CallProg.Obeys.bind
        (bounded_percpu (noCrash_call _)) fun _ => ?_
      refine CallProg.Obeys.bind
        (bounded_percpu (noCrash_call _)) fun _ => ?_
      refine CallProg.Obeys.bind
        (bounded_percpu (noCrash_call _)) fun _ => ?_
      exact CallProg.Obeys.bind
        (bounded_percpu (noCrash_call _)) fun _ => trivial
    · trivial
  · trivial

/- All buffers fit on one CPU, or without the listing. -/
theorem bounded_main
    (args : List CStr)
    (hSafe : nrCpus ≤ 1 ∨ ¬ ∃ st, AsksForList args st)
    (fuel rounds : ℕ)
    (frame : StackFrame) :
    Bounded (Sized.main nrCpus fuel rounds frame args :
      SizedProg nrCpus Ending) := by
  unfold Sized.main
  cases hLoop : optionLoop {} (options args) with
  | none => trivial
  | some st =>
      refine CallProg.Obeys.bind
        (bounded_percpu (noCrash_openBpfMap _)) ?_
      intro fdVerdict
      by_cases hAction : st.action ≠ 0
      · rw [if_pos hAction]
        exact CallProg.Obeys.bind
          (bounded_percpu (noCrash_updateBlacklist st))
          fun _ => trivial
      rw [if_neg hAction]
      by_cases hOthers : nonOptions args ≠ []
      · rw [if_pos hOthers]
        trivial
      rw [if_neg hOthers]
      cases hList : st.doList with
      | false => exact bounded_showStats rounds fdVerdict st
      | true =>
          have hOne : nrCpus ≤ 1 := by
            refine hSafe.resolve_right ?_
            exact fun hNone => hNone
              ⟨st, hLoop, not_not.mp hAction,
                not_not.mp hOthers, hList⟩
          refine CallProg.Obeys.bind
            (bounded_listBlacklists hOne fuel frame) ?_
          intro ended
          split
          · exact bounded_showStats rounds fdVerdict st
          · trivial

/-
  For these arguments no call of the tool copies past the
  end of its buffer: every call that any environment lets it
  make fits, and no checked run ends outside a buffer.
-/
structure BuffersFit
    (nrCpus : ℕ)
    (args : List CStr) : Prop where
  fits :
    ∀ fuel rounds frame (σ : Type)
      (handler : CallProg.Handler (SizedCall nrCpus)
        (fun c => c.op.Resp) σ) (s : σ),
      ∀ call ∈ CallProg.trace handler
          (Sized.main nrCpus fuel rounds frame args) s,
        call.1.Fits
  inside :
    ∀ fuel rounds frame (σ : Type)
      (handler : CallProg.Handler (PollCall nrCpus)
        PollCall.Resp σ) (s : σ),
      (CallProg.run handler
          (checked
            (Sized.main nrCpus fuel rounds frame args))
          s).1 ≠
        .halted (.crash .outOfRange)

/- Fresh maps, which nobody else uses. -/
def quietHandle :
    CallProg.Handler (SizedCall nrCpus) (fun c => c.op.Resp)
      (PollState nrCpus) :=
  fun c s => pollHandle
    (fun _ => ⟨1, [], CallFaults.none⟩) c.op s

def quietState : PollState nrCpus :=
  ⟨{ maps := Maps.fresh }, 0, []⟩

/- With more CPUs, the first port overruns the word. -/
theorem not_fits_of_list
    (hMany : 1 < nrCpus)
    {args : List CStr}
    {st : OptionState}
    (hList : AsksForList args st) :
    ¬ ∀ call ∈ CallProg.trace quietHandle
        (Sized.main nrCpus 1 0 emptyFrame args)
        (quietState : PollState nrCpus),
      call.1.Fits := by
  intro hAll
  simp only [Sized.main, hList.accepted, hList.no_action,
    hList.no_others, hList.list, ne_eq, not_true, if_false,
    if_true] at hAll
  -- the map files are opened, and no address is listed
  have hAll := CallProg.forall_trace_of_returned rfl hAll
  have hAll := CallProg.forall_trace_of_bind hAll
  rw [Sized.listBlacklists] at hAll
  have hAll := CallProg.forall_trace_of_returned rfl hAll
  have hAll := CallProg.forall_trace_of_returned rfl hAll
  have hAll := CallProg.forall_trace_of_returned rfl hAll
  rw [if_pos rfl] at hAll
  have hAll := CallProg.forall_trace_of_returned rfl hAll
  have hAll := CallProg.forall_trace_of_returned rfl hAll
  have hAll := CallProg.forall_trace_of_returned rfl hAll
  have hAll := CallProg.forall_trace_of_returned rfl hAll
  have hAll := CallProg.forall_trace_of_bind hAll
  rw [Sized.listPortsFrom] at hAll
  have hAll := CallProg.forall_trace_of_returned rfl hAll
  have hAll := CallProg.forall_trace_of_bind hAll
  -- the first port is looked up
  have hFirst := hAll _ List.mem_cons_self
  rw [fits_word_iff] at hFirst
  omega

end

/-
  The buffers fit exactly on machines with one CPU, and for
  command lines that do not lead to the port listing.
-/
theorem buffersFit_iff
    (nrCpus : ℕ)
    (args : List CStr) :
    BuffersFit nrCpus args ↔
      nrCpus ≤ 1 ∨ ¬ ∃ st, AsksForList args st := by
  constructor
  · intro hFit
    by_contra hBad
    rw [not_or, not_not] at hBad
    rcases hBad with ⟨hMany, st, hList⟩
    exact not_fits_of_list (Nat.not_le.mp hMany) hList
      (hFit.fits 1 0 emptyFrame _ quietHandle quietState)
  · intro hSafe
    constructor
    · intro fuel rounds frame σ handler s
      exact (bounded_main args hSafe fuel rounds frame).trace s
    · intro fuel rounds frame σ handler s hCrash
      have hBounded :=
        bounded_main args hSafe fuel rounds frame
      rcases (noCrash_checked hBounded).run hCrash with
        ⟨status, hExit⟩
      cases hExit

/- Two CPUs write sixteen bytes into a buffer of eight. -/
theorem twoCpus_overrun :
    ¬ BuffersFit 2 listOnly := by
  intro hFit
  exact not_fits_of_list (by decide) asksForList_listOnly
    (hFit.fits 1 0 emptyFrame _ quietHandle quietState)

end Tool

end XdpDdos
