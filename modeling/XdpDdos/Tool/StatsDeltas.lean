import XdpDdos.Tool.Stats
import XdpDdos.Lib.WrappingCounter

/-
  What the statistics print, against what happened.

  A failed lookup is read as a count of zero.  The line that
  a round prints then stays within the packets of the time
  it is about only if the count itself read as zero at some
  moment of that time.

  Main declarations:
    * `PollRun.run_statsPoll`
    * `PollRun.lastCount`, `PollRun.DeltaBounded`
    * `deltasBounded_iff`
-/

------------------------------------------------------------
-- The Live Counters
------------------------------------------------------------

namespace XdpDdos

namespace Tool

variable {nrCpus : ℕ}

/- An entry of the verdict map sums to the packets counted. -/
def SumsTo
    (i : Fin XDP_ACTION_MAX)
    (m : Maps nrCpus)
    (count : ℕ) : Prop :=
  sumValues (m.verdictCnt.slots i) = BitVec.ofNat 64 count

theorem sumsTo_fresh
    (i : Fin XDP_ACTION_MAX) :
    SumsTo i (Maps.fresh : Maps nrCpus) 0 := by
  have hSum := sumValues_ofNat (fun _ : Fin nrCpus => 0)
  rw [Finset.sum_const_zero] at hSum
  exact hSum

/- Only frames touch the verdict counters. -/
theorem SumsTo.step
    {i : Fin XDP_ACTION_MAX}
    {m m' : Maps nrCpus}
    {e : FilterEvent nrCpus}
    {answer : FilterResponse}
    {count : ℕ}
    (hSums : SumsTo i m count)
    (hStep : FilterStep m e answer m') :
    SumsTo i m' (countFrame i m e answer count) := by
  unfold SumsTo at hSums ⊢
  cases hStep with
  | frame cpu ctx =>
      rw [Maps.verdictCnt_entry_afterFrame]
      simp only [countFrame, parsedEth_iff]
      by_cases hCounted :
          ctx.view ≠ .skipped ∧
            (m.verdict cpu ctx.view).index? = some i
      · rw [if_pos hCounted, if_pos hCounted,
          sumValues_update, hSums, BitVec.ofNat_add]
        rfl
      · rw [if_neg hCounted, if_neg hCounted]
        exact hSums
  | addrRefused hStatus => exact hSums
  | addrAdded hKey hContains => exact hSums
  | addrRemoved hKey hContains => exact hSums
  | portRefused hStatus => exact hSums
  | portAdded port hProto => exact hSums
  | portRemoved port hProto => exact hSums

theorem sumsTo_packetsCounted
    (i : Fin XDP_ACTION_MAX)
    (es : List (FilterEvent nrCpus)) :
    SumsTo i (filterSystem.final Maps.fresh es)
      (packetsCounted i Maps.fresh es) := by
  apply Reactive.ghost_simulation filterSystem (countFrame i)
    (SumsTo i)
  · intro m count e hSums
    exact hSums.step (filterSystem_step m e)
  · exact sumsTo_fresh i

theorem le_countFrame
    (i : Fin XDP_ACTION_MAX)
    (m : Maps nrCpus)
    (e : FilterEvent nrCpus)
    (answer : FilterResponse)
    (count : ℕ) :
    count ≤ countFrame i m e answer count := by
  unfold countFrame
  split
  · split
    · exact Nat.le_succ count
    · exact le_refl count
  · exact le_refl count

/- More events count no fewer packets. -/
theorem packetsCounted_le_append
    (i : Fin XDP_ACTION_MAX)
    (m : Maps nrCpus)
    (es es' : List (FilterEvent nrCpus)) :
    packetsCounted i m es ≤ packetsCounted i m (es ++ es') := by
  unfold packetsCounted
  rw [Reactive.ghost_append]
  exact Reactive.le_ghost filterSystem (le_countFrame i) _ _ _

------------------------------------------------------------
-- One Lookup
------------------------------------------------------------

/- The value of a looked up counter. -/
def lookedSum :
    Except Errno (Slots nrCpus) → BitVec 64
  | .error _ => 0
  | .ok values => sumValues values

/- Reading a counter is one call to the kernel. -/
theorem toolProg_getKey32Value64Percpu
    (fd : MapId)
    (key : BitVec 32) :
    (toolProg (mapProg (getKey32Value64Percpu fd key)) :
        PollProg nrCpus (BitVec 64)) =
      .call (.tool (.map (.lookupElem fd key)))
        fun looked => .ret (lookedSum looked) := by
  simp only [getKey32Value64Percpu, bpfMapLookupElem,
    CallProg.call'_bind, mapProg, toolProg, CallProg.embed]
  congr 1
  funext looked
  cases looked with
  | error errno => rfl
  | ok values => rfl

namespace PollRun

variable (run : PollRun nrCpus)

theorem eventsBefore_succ
    (calls : ℕ) :
    run.eventsBefore (calls + 1) =
      run.eventsBefore calls ++ (run.script calls).events := by
  simp [eventsBefore, List.range_succ, List.flatMap_append]

/- What the lookup of an action in a round is read as. -/
def reading
    (round : ℕ)
    (i : Fin XDP_ACTION_MAX) : BitVec 64 :=
  if run.Succeeds round i then
    BitVec.ofNat 64 (run.trueCount round i)
  else 0

/- The next call to the kernel meets the next moment. -/
theorem handle_stateAt
    (calls : ℕ)
    (rows : List StatsRow)
    (i : Fin XDP_ACTION_MAX) :
    pollHandle run.script
        (.tool (.map (.lookupElem .verdictCnt (actionKey i))))
        (run.stateAt calls rows) =
      ((filterSystem.final Maps.fresh
            (run.eventsBefore (calls + 1))).lookupFaulty
          (run.script calls).fails (actionKey i) .verdictCnt,
        run.stateAt (calls + 1) rows) := by
  rw [eventsBefore_succ, Reactive.final_append]
  simp only [pollHandle, stateAt, handle, Maps.handleFaulty,
    eventsBefore_succ, Reactive.final_append]

theorem lookedSum_eq_reading
    (round : ℕ)
    (i : Fin XDP_ACTION_MAX) :
    lookedSum
        ((filterSystem.final Maps.fresh
            (run.eventsBefore
              (lookupMoment round i + 1))).lookupFaulty
          (run.script (lookupMoment round i)).fails
          (actionKey i) .verdictCnt) =
      run.reading round i := by
  have hKey : (actionKey i).toNat = i.val := by
    have hLt : i.val < 4 := i.isLt
    simp only [actionKey, BitVec.toNat_ofNat]
    omega
  have hIndex : PercpuArray.index? (actionKey i) = some i := by
    rw [PercpuArray.index?_of_lt (by rw [hKey]; exact i.isLt)]
    exact congrArg some (Fin.ext hKey)
  unfold reading
  by_cases hGood : run.Succeeds round i
  · rw [if_pos hGood, Maps.lookupFaulty_of_none hGood,
      Maps.lookupElem, PercpuArray.lookupElem, hIndex]
    exact sumsTo_packetsCounted i _
  · rcases Option.ne_none_iff_exists'.mp hGood with
      ⟨errno, hFault⟩
    rw [if_neg hGood, Maps.lookupFaulty_of_some hFault]
    rfl

/- Reading the counter of an action in its round. -/
theorem run_counter_bind
    {α : Type}
    (round : ℕ)
    (i : Fin XDP_ACTION_MAX)
    (rows : List StatsRow)
    (next : BitVec 64 → PollProg nrCpus α) :
    CallProg.run (pollHandle run.script)
        (toolProg (mapProg
          (getKey32Value64Percpu .verdictCnt (actionKey i)))
            >>= next)
        (run.stateAt (lookupMoment round i) rows) =
      CallProg.run (pollHandle run.script)
        (next (run.reading round i))
        (run.stateAt (lookupMoment round i + 1) rows) := by
  rw [toolProg_getKey32Value64Percpu, CallProg.call_bind,
    CallProg.run_call, handle_stateAt, CallProg.ret_bind,
    lookedSum_eq_reading]

------------------------------------------------------------
-- Rounds
------------------------------------------------------------

/- The record after some rounds. -/
def recordAfter : ℕ → StatsRecord
  | 0 => .zero
  | round + 1 =>
      ⟨fun i => ⟨run.reading round i, run.clockAt round i⟩⟩

/- The lines printed in some rounds. -/
def rowsAfter : ℕ → List StatsRow
  | 0 => []
  | round + 1 =>
      rowsAfter round ++
        (List.finRange XDP_ACTION_MAX).map
          (statsRow (run.recordAfter (round + 1))
            (run.recordAfter round))

/- The first call to the kernel of a round. -/
def roundStart (round : ℕ) : ℕ :=
  1 + XDP_ACTION_MAX * round

/- A record whose actions from `i` on are read anew. -/
def readFrom
    (round i : ℕ)
    (rec : StatsRecord) : StatsRecord :=
  ⟨fun j =>
    if i ≤ j.val then
      ⟨run.reading round j, run.clockAt round j⟩
    else rec.xdpAction j⟩

theorem readFrom_zero
    (round : ℕ)
    (rec : StatsRecord) :
    run.readFrom round 0 rec =
      run.recordAfter (round + 1) := by
  simp [readFrom, recordAfter]

theorem readFrom_end
    (round : ℕ)
    {i : ℕ}
    (hEnd : XDP_ACTION_MAX ≤ i)
    (rec : StatsRecord) :
    run.readFrom round i rec = rec := by
  have hNone (j : Fin XDP_ACTION_MAX) : ¬ i ≤ j.val := by
    have hLt := j.isLt
    omega
  simp [readFrom, hNone]

/- Reading action `i`, and then the ones behind it. -/
theorem readFrom_succ
    (round : ℕ)
    (i : Fin XDP_ACTION_MAX)
    (rec : StatsRecord) :
    run.readFrom round (i.val + 1)
        (rec.set i
          ⟨run.reading round i, run.clockAt round i⟩) =
      run.readFrom round i.val rec := by
  unfold readFrom
  congr 1
  funext j
  by_cases hSame : j = i
  · subst hSame
    simp [StatsRecord.set]
  · have hNe : j.val ≠ i.val := fun hEq =>
      hSame (Fin.ext hEq)
    have hOrder : i.val + 1 ≤ j.val ↔ i.val ≤ j.val := by
      omega
    simp [StatsRecord.set, hSame, hOrder]

/- The actions from `i` on are read in order. -/
theorem run_collectActions
    (round : ℕ)
    (is : List (Fin XDP_ACTION_MAX))
    (i : ℕ)
    (hFrom : is = (List.finRange XDP_ACTION_MAX).drop i)
    (rec : StatsRecord)
    (rows : List StatsRow) :
    CallProg.run (pollHandle run.script)
        (collectActions .verdictCnt is rec)
        (run.stateAt (roundStart round + i) rows) =
      (.returned (run.readFrom round i rec),
        run.stateAt (roundStart round + i + is.length)
          rows) := by
  induction is generalizing i rec with
  | nil =>
      have hEnd : XDP_ACTION_MAX ≤ i := by
        simpa using hFrom.symm
      rw [readFrom_end run round hEnd]
      rfl
  | cons a as ih =>
      have hLt : i < XDP_ACTION_MAX := by
        by_contra hGe
        have hNil :
            (List.finRange XDP_ACTION_MAX).drop i = [] := by
          simpa using Nat.not_lt.mp hGe
        rw [hNil] at hFrom
        cases hFrom
      rw [List.drop_eq_getElem_cons (by simpa using hLt)]
        at hFrom
      injection hFrom with hHead hTail
      have hVal : a.val = i := by
        rw [hHead]
        simp
      subst hVal
      have hNext :
          lookupMoment round a + 1 =
            roundStart round + (a.val + 1) :=
        Nat.add_assoc _ _ _
      have hCounter :=
        run.run_counter_bind round a rows fun counter =>
          collectActions .verdictCnt as
            (rec.set a ⟨counter, run.clockAt round a⟩)
      rw [hNext, ih (a.val + 1) hTail, readFrom_succ]
        at hCounter
      rw [List.length_cons, Nat.add_comm as.length,
        ← Nat.add_assoc]
      exact hCounter

theorem run_printRows
    (calls : ℕ)
    (new rows : List StatsRow) :
    CallProg.run (pollHandle run.script) (printRows new)
        (run.stateAt calls rows) =
      (.returned (), run.stateAt calls (rows ++ new)) := by
  induction new generalizing rows with
  | nil =>
      rw [List.append_nil]
      rfl
  | cons row new ih =>
      have hRest := ih (rows ++ [row])
      rw [List.append_assoc, List.singleton_append] at hRest
      exact hRest

theorem run_statsCollect
    (round : ℕ) :
    CallProg.run (pollHandle run.script)
        (statsCollect .verdictCnt (run.recordAfter round))
        (run.stateAt (roundStart round)
          (run.rowsAfter round)) =
      (.returned (run.recordAfter (round + 1)),
        run.stateAt (roundStart (round + 1))
          (run.rowsAfter round)) := by
  have hCollect :=
    run.run_collectActions round
      (List.finRange XDP_ACTION_MAX) 0 rfl
      (run.recordAfter round) (run.rowsAfter round)
  have hEnd :
      roundStart round + 0 +
          (List.finRange XDP_ACTION_MAX).length =
        roundStart (round + 1) := by
    rw [List.length_finRange, roundStart, roundStart,
      Nat.mul_succ]
    omega
  rw [readFrom_zero, hEnd] at hCollect
  exact hCollect

theorem run_statsPrint
    (round : ℕ) :
    CallProg.run (pollHandle run.script)
        (statsPrint (run.recordAfter (round + 1))
          (run.recordAfter round))
        (run.stateAt (roundStart (round + 1))
          (run.rowsAfter round)) =
      (.returned (),
        run.stateAt (roundStart (round + 1))
          (run.rowsAfter (round + 1))) :=
  run.run_printRows _ _ _

/- Each round reads a record and prints it against the last. -/
theorem run_pollRounds
    (rounds round : ℕ) :
    CallProg.run (pollHandle run.script)
        (pollRounds .verdictCnt rounds
          (run.recordAfter round))
        (run.stateAt (roundStart round)
          (run.rowsAfter round)) =
      (.returned (run.recordAfter (round + rounds)),
        run.stateAt (roundStart (round + rounds))
          (run.rowsAfter (round + rounds))) := by
  induction rounds generalizing round with
  | zero => rfl
  | succ rounds ih =>
      simp only [pollRounds]
      rw [CallProg.run_bind_of_returned
          (run.run_statsCollect round),
        CallProg.run_bind_of_returned
          (run.run_statsPrint round)]
      have hRest := ih (round + 1)
      rw [Nat.add_assoc, Nat.add_comm 1] at hRest
      exact hRest

/- Opening the verdict map is a call to the kernel, too. -/
theorem run_openBpfMap_bind
    {α : Type}
    (calls : ℕ)
    (rows : List StatsRow)
    (next : MapId → PollProg nrCpus α) :
    CallProg.run (pollHandle run.script)
        (toolProg (openBpfMap fileVerdict) >>= next)
        (run.stateAt calls rows) =
      CallProg.run (pollHandle run.script)
        (next .verdictCnt)
        (run.stateAt (calls + 1) rows) := by
  have hOpen :
      pollHandle run.script (.tool (.objGet fileVerdict))
          (run.stateAt calls rows) =
        (.ok .verdictCnt, run.stateAt (calls + 1) rows) := by
    simp only [pollHandle, stateAt, handle, ToolFaults.objGet,
      mapOfFile_fileVerdict, eventsBefore_succ,
      Reactive.final_append]
  simp only [openBpfMap, bpfObjGet, CallProg.call'_bind,
    toolProg, CallProg.embed, CallProg.call_bind,
    CallProg.run_call, hOpen]
  rfl

/- What the tool has printed after some rounds. -/
theorem run_statsPoll
    (rounds : ℕ) :
    run.afterRounds rounds =
      (.returned (run.recordAfter rounds),
        run.stateAt (roundStart rounds)
          (run.rowsAfter rounds)) := by
  have hRounds := run.run_pollRounds rounds 0
  rw [Nat.zero_add] at hRounds
  rw [afterRounds, statsPoll, run_openBpfMap_bind]
  exact hRounds

theorem length_rowsAfter
    (round : ℕ) :
    (run.rowsAfter round).length = XDP_ACTION_MAX * round := by
  induction round with
  | zero => rfl
  | succ round ih =>
      rw [rowsAfter, List.length_append, ih, List.length_map,
        List.length_finRange, Nat.mul_succ]

/- The line of an action compares two records. -/
theorem row?_eq
    (round : ℕ)
    (i : Fin XDP_ACTION_MAX) :
    run.row? round i =
      some (statsRow (run.recordAfter (round + 1))
        (run.recordAfter round) i) := by
  unfold row?
  rw [run_statsPoll]
  simp only [stateAt, rowsAfter]
  rw [List.getElem?_append_right
    (by rw [length_rowsAfter]; omega), length_rowsAfter,
    Nat.add_sub_cancel_left]
  simp

------------------------------------------------------------
-- Deltas
------------------------------------------------------------

/-
  The packets counted at the most recent earlier round whose
  lookup of the action succeeded; none if there is none.
-/
def lastCount
    (i : Fin XDP_ACTION_MAX) : ℕ → ℕ
  | 0 => 0
  | round + 1 =>
      if run.Succeeds round i then run.trueCount round i
      else lastCount i round

/- The record that the tool holds after some rounds. -/
def recordOf?
    (rounds : ℕ) : Option StatsRecord :=
  match (run.afterRounds rounds).1 with
  | .returned record => some record
  | .halted _ => none

/-
  The line that the round behind `round` prints for an
  action shows no more packets than were counted since the
  last good lookup, and counters below 2^64 do not wrap.
-/
structure DeltaBounded
    (round : ℕ)
    (i : Fin XDP_ACTION_MAX) : Prop where
  printed :
    ∃ row, run.row? (round + 1) i = some row ∧
      row.name = action2str i ∧
      row.packets.toNat ≤
        run.trueCount (round + 1) i -
          run.lastCount i (round + 1)
  noWrap :
    run.trueCount (round + 1) i < 2 ^ 64 →
      ∀ record prev,
        run.recordOf? (round + 2) = some record →
          run.recordOf? (round + 1) = some prev →
            (prev.xdpAction i).timestamp ≠ 0 →
              (prev.xdpAction i).counter ≤
                (record.xdpAction i).counter

/-
  Two rounds in a row read an action alike: both lookups
  succeed or both fail, or the first one is not compared
  with, or the true count read as zero since the last good
  lookup.
-/
def ReadsAlike
    (round : ℕ)
    (i : Fin XDP_ACTION_MAX) : Prop :=
  (run.Succeeds round i ↔ run.Succeeds (round + 1) i) ∨
    run.clockAt round i = 0 ∨
    ReadsZeroBetween 64 (run.lastCount i (round + 1))
      (run.trueCount (round + 1) i)

theorem recordOf?_eq
    (rounds : ℕ) :
    run.recordOf? rounds = some (run.recordAfter rounds) := by
  rw [recordOf?, run_statsPoll]

/- Later lookups find no fewer packets counted. -/
theorem trueCount_mono
    (round : ℕ)
    (i : Fin XDP_ACTION_MAX) :
    run.trueCount round i ≤ run.trueCount (round + 1) i := by
  have hEvents (calls more : ℕ) :
      ∃ es, run.eventsBefore (calls + more) =
        run.eventsBefore calls ++ es := by
    induction more with
    | zero => exact ⟨[], (List.append_nil _).symm⟩
    | succ more ih =>
        rcases ih with ⟨es, hEs⟩
        rw [← Nat.add_assoc, eventsBefore_succ, hEs,
          List.append_assoc]
        exact ⟨_, rfl⟩
  have hMoment :
      lookupMoment (round + 1) i + 1 =
        lookupMoment round i + 1 + XDP_ACTION_MAX := by
    rw [lookupMoment, lookupMoment, Nat.mul_succ]
    omega
  rcases hEvents (lookupMoment round i + 1) XDP_ACTION_MAX
    with ⟨es, hEs⟩
  unfold trueCount
  rw [hMoment, hEs]
  exact packetsCounted_le_append i _ _ _

theorem lastCount_le
    (round : ℕ)
    (i : Fin XDP_ACTION_MAX) :
    run.lastCount i round ≤ run.trueCount round i := by
  induction round with
  | zero => exact Nat.zero_le _
  | succ round ih =>
      have hMono := run.trueCount_mono round i
      rw [lastCount]
      split
      · exact hMono
      · exact le_trans ih hMono

/- What is printed, once two rounds are compared. -/
theorem packets_statsRow
    {round : ℕ}
    {i : Fin XDP_ACTION_MAX}
    (hClock : run.clockAt round i ≠ 0) :
    (statsRow (run.recordAfter (round + 2))
        (run.recordAfter (round + 1)) i).packets =
      run.reading (round + 1) i - run.reading round i := by
  have hTime :
      ((run.recordAfter (round + 1)).xdpAction
        i).timestamp ≠ 0 := hClock
  unfold statsRow
  rw [if_pos hTime]
  rfl

/- Without a time to compare with, nothing is printed. -/
theorem deltaBounded_of_clock_zero
    {round : ℕ}
    {i : Fin XDP_ACTION_MAX}
    (hClock : run.clockAt round i = 0) :
    run.DeltaBounded round i where
  printed := by
    refine ⟨_, run.row?_eq (round + 1) i, ?_, ?_⟩
    · simp [statsRow, recordAfter, hClock]
    · simp [statsRow, recordAfter, hClock]
  noWrap := by
    intro _ record prev _ hPrev hTime
    rw [recordOf?_eq] at hPrev
    cases hPrev
    exact absurd hClock hTime

/- A comparison is about two readings and a growth. -/
theorem deltaBounded_iff_of_clock
    {round : ℕ}
    {i : Fin XDP_ACTION_MAX}
    (hClock : run.clockAt round i ≠ 0) :
    run.DeltaBounded round i ↔
      (run.reading (round + 1) i -
            run.reading round i).toNat ≤
          run.trueCount (round + 1) i -
            run.lastCount i (round + 1) ∧
        (run.trueCount (round + 1) i < 2 ^ 64 →
          run.reading round i ≤
            run.reading (round + 1) i) := by
  constructor
  · intro hBounded
    rcases hBounded.printed with ⟨row, hRow, _, hPackets⟩
    rw [row?_eq] at hRow
    cases hRow
    rw [packets_statsRow run hClock] at hPackets
    exact ⟨hPackets, fun hSmall =>
      hBounded.noWrap hSmall _ _ (run.recordOf?_eq _)
        (run.recordOf?_eq _) hClock⟩
  · rintro ⟨hPackets, hOrder⟩
    refine ⟨⟨_, run.row?_eq (round + 1) i, ?_, ?_⟩, ?_⟩
    · simp only [statsRow]
      split
      · rfl
      · rfl
    · rwa [packets_statsRow run hClock]
    · intro hSmall record prev hRecord hPrev _
      rw [recordOf?_eq] at hRecord hPrev
      cases hRecord
      cases hPrev
      exact hOrder hSmall

/- A line is right exactly if its two readings are alike. -/
theorem deltaBounded_iff
    (round : ℕ)
    (i : Fin XDP_ACTION_MAX) :
    run.DeltaBounded round i ↔ run.ReadsAlike round i := by
  unfold ReadsAlike
  by_cases hClock : run.clockAt round i = 0
  · exact iff_of_true (run.deltaBounded_of_clock_zero hClock)
      (Or.inr (Or.inl hClock))
  rw [run.deltaBounded_iff_of_clock hClock,
    or_iff_right hClock]
  have hGrowth := run.lastCount_le (round + 1) i
  by_cases hFirst : run.Succeeds round i
  · have hLast :
        run.lastCount i (round + 1) = run.trueCount round i := by
      rw [lastCount, if_pos hFirst]
    have hRead :
        run.reading round i =
          BitVec.ofNat 64 (run.trueCount round i) :=
      if_pos hFirst
    rw [hLast, hRead]
    rw [hLast] at hGrowth
    by_cases hSecond : run.Succeeds (round + 1) i
    · -- two good readings
      have hRead' :
          run.reading (round + 1) i =
            BitVec.ofNat 64 (run.trueCount (round + 1) i) :=
        if_pos hSecond
      rw [hRead']
      refine iff_of_true ⟨toNat_ofNat_sub_le hGrowth, ?_⟩
        (Or.inl (iff_of_true hFirst hSecond))
      intro hSmall
      rw [BitVec.le_def, BitVec.toNat_ofNat,
        BitVec.toNat_ofNat, Nat.mod_eq_of_lt hSmall]
      exact le_trans (Nat.mod_le _ _) hGrowth
    · -- a good reading, then a failed one
      have hRead' : run.reading (round + 1) i = 0 :=
        if_neg hSecond
      rw [hRead', toNat_zero_sub_le_sub_iff hGrowth,
        or_iff_right
          (fun hSame => hSecond (hSame.mp hFirst))]
      refine and_iff_left_of_imp ?_
      intro hZero hSmall
      rw [hZero.eq_zero hSmall]
      exact BitVec.le_refl 0
  · have hLast :
        run.lastCount i (round + 1) =
          run.lastCount i round := by
      rw [lastCount, if_neg hFirst]
    have hRead : run.reading round i = 0 := if_neg hFirst
    have hOrder :
        (0 : BitVec 64) ≤ run.reading (round + 1) i := by
      rw [BitVec.le_def]
      exact Nat.zero_le _
    rw [hRead]
    by_cases hSecond : run.Succeeds (round + 1) i
    · -- a failed reading, then a good one
      have hRead' :
          run.reading (round + 1) i =
            BitVec.ofNat 64 (run.trueCount (round + 1) i) :=
        if_pos hSecond
      rw [and_iff_left fun _ => hOrder, hRead', sub_zero,
        toNat_ofNat_le_sub_iff hGrowth,
        or_iff_right
          (fun hSame => hFirst (hSame.mpr hSecond))]
    · -- two failed readings
      have hRead' : run.reading (round + 1) i = 0 :=
        if_neg hSecond
      rw [hRead']
      exact iff_of_true ⟨Nat.zero_le _, fun _ => BitVec.le_refl 0⟩
        (Or.inl (iff_of_false hFirst hSecond))

end PollRun

/-
  All lines after the first round stay within what happened
  exactly if each of them compares readings that are alike.
-/
theorem deltasBounded_iff
    (run : PollRun nrCpus) :
    (∀ round i, run.DeltaBounded round i) ↔
      ∀ round i, run.ReadsAlike round i := by
  simp only [PollRun.deltaBounded_iff]

/- A frame that is passed for its Ethernet type. -/
def arpFrame : Frame :=
  List.replicate 12 0 ++ [0x08, 0x06]

/-
  One frame was passed before the tool started; the second
  lookup of the passed frames fails.
-/
def failedLookup : PollRun 1 where
  history := [.frame ⟨0, Nat.one_pos⟩ arpFrame]
  script t :=
    { clock := 1
      events := []
      fails := fun _ _ _ =>
        if t = PollRun.lookupMoment 1 ⟨2, by decide⟩ then
          some EINVAL
        else none }

/- Nothing happens, and 2^64 - 1 packets are printed. -/
theorem failedLookup_wraps :
    ¬ ∀ round i, failedLookup.DeltaBounded round i := by
  intro hAll
  have hCount (round : ℕ) :
      failedLookup.trueCount round ⟨2, by decide⟩ = 1 := by
    have hEvents (calls : ℕ) :
        failedLookup.eventsBefore calls =
          [.frame 0 arpFrame] := by
      simp [PollRun.eventsBefore, failedLookup]
    rw [PollRun.trueCount, hEvents]
    rfl
  have hAlike :=
    (failedLookup.deltaBounded_iff 0 ⟨2, by decide⟩).mp
      (hAll 0 ⟨2, by decide⟩)
  have hFirst :
      failedLookup.Succeeds 0 ⟨2, by decide⟩ := by decide
  have hSecond :
      ¬ failedLookup.Succeeds 1 ⟨2, by decide⟩ := by decide
  rcases hAlike with hSame | hClock | hZero
  · exact hSecond (hSame.mp hFirst)
  · exact absurd hClock (by decide)
  · have hLast :
        failedLookup.lastCount ⟨2, by decide⟩ 1 = 1 := by
      rw [PollRun.lastCount, if_pos hFirst, hCount]
    rw [hLast, hCount] at hZero
    exact absurd (hZero.eq_zero (by decide)) (by decide)

end Tool

end XdpDdos
