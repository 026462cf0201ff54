import XdpDdos.Tcpdump.Reading

/-
  The loop over the events of a ring, and the one over the
  rings.

  Main declarations:
    * `reads_part`
    * `fetchEvent_triple`
    * `leaveLoop_triple`, `readLoop_triple`
    * `bpfPerfEventReadSimple_triple`
    * `LabelInv`, `pcapPerfEventPoller_triple`
-/

------------------------------------------------------------
-- The Next Event
------------------------------------------------------------

namespace XdpDdos.Tcpdump

open CallProg

variable {nrCpus size : ℕ}
variable {cpu : Fin nrCpus}
variable {tail : ℕ}
variable {known done : List ByteSeq}
variable {buf : EventBuf}
variable {record : ByteSeq}

/- Where the next record is in the stream. -/
theorem Mid.stream_eq
    {done' : List ByteSeq}
    {x : Scene nrCpus size}
    (hMid : Mid cpu tail known done' buf x)
    (hNext : done ++ [record] <+: known) :
    ∃ back,
      (x.2.written cpu).flatten =
        done.flatten ++ record ++ back := by
  rcases hNext.trans hMid.known_prefix with ⟨more, hWritten⟩
  refine ⟨more.flatten, ?_⟩
  rw [← hWritten, List.flatten_append, List.flatten_append,
    List.flatten_singleton]

/- A part of the next record that is not split. -/
theorem reads_part
    {front bytes back : ByteSeq}
    (hNext : done ++ [record] <+: known)
    (hTail : tail ≤ done.flatten.length)
    (hRecord : record = front ++ bytes ++ back)
    {off : ℕ}
    (hOff :
      off = (done.flatten.length + front.length) % size)
    (hFits : off + bytes.length ≤ size)
    (done' : List ByteSeq)
    (buf' : EventBuf) :
    Reads size (.ring cpu off) bytes
      (Mid cpu tail known done' buf') := by
  subst hOff
  apply reads_ring stable_mid (fun _ hMid => hMid.consistent)
    _ (Nat.le_add_right_of_le hTail) hFits
  intro x hMid
  rcases hMid.stream_eq hNext with ⟨more, hStream⟩
  refine ⟨hMid.upTo.holds, done.flatten ++ front, back ++ more,
    ?_, List.length_append⟩
  rw [hStream, hRecord]
  simp only [List.append_assoc]

/- An event that can be read, or no memory for it. -/
def FetchedOk
    (cpu : Fin nrCpus)
    (tail : ℕ)
    (known done : List ByteSeq)
    (record : ByteSeq)
    (fetched : Fetched nrCpus)
    (x : Scene nrCpus size) : Prop :=
  match fetched with
  | .noMemory buf =>
      x.2.failed = true ∧ Mid cpu tail known done buf x
  | .event ehdr beginOff buf =>
      (∀ done',
        Reads size ehdr record
          (Mid cpu tail known done' buf)) ∧
        beginOff =
            (done.flatten.length + record.length) % size ∧
          Mid cpu tail known done buf x

/- An event that does not go around the end. -/
theorem fetched_in_place
    {begin' : ℕ}
    (hNext : done ++ [record] <+: known)
    (hTail : tail ≤ done.flatten.length)
    (hFits : done.flatten.length % size + record.length ≤ size)
    (hBegin :
      begin' = (done.flatten.length + record.length) % size) :
    Triple (tcpdumpWorld nrCpus size)
      (Mid cpu tail known done buf)
      (.ret (.event (.ring cpu (done.flatten.length % size))
        begin' buf))
      (FetchedOk cpu tail known done record) := by
  have hRecord : record = [] ++ record ++ [] := by
    rw [List.nil_append, List.append_nil]
  have hReads
      (done' : List ByteSeq) :
      Reads size (.ring cpu (done.flatten.length % size)) record
        (Mid cpu tail known done' buf) :=
    reads_part hNext hTail hRecord rfl hFits done' buf
  exact Triple.ret stable_mid fun x hMid =>
    ⟨hReads, hBegin, hMid⟩

/- An event whose second part is at the start of the ring. -/
theorem fetched_wrapped
    {room : ℕ}
    (hNext : done ++ [record] <+: known)
    (hTail : tail ≤ done.flatten.length)
    (hOk : RecordOk record)
    (hSize : 0 < size)
    (hRoom : room = size - done.flatten.length % size)
    (hSplit : room < record.length)
    (hHeader : 8 ≤ room)
    (hShort : record.length < size) :
    Triple (tcpdumpWorld nrCpus size)
      (Mid cpu tail known done buf)
      (do
        let ehdr :=
          EventPtr.ring cpu (done.flatten.length % size)
        let front ← ehdr.read 0 room
        let back ← (EventPtr.ring cpu 0).read 0
          ((← ehdr.size).toNat - room)
        let ehdr := EventPtr.buf (front ++ back) 0
        return .event ehdr ((← ehdr.size).toNat - room) buf)
      (FetchedOk cpu tail known done record) := by
  have hCell := Nat.mod_lt done.flatten.length hSize
  have hTaken : (record.take room).length = room :=
    List.length_take_of_le (Nat.le_of_lt hSplit)
  have hFront :
      Reads size
        (.ring cpu (done.flatten.length % size))
        (record.take room) (Mid cpu tail known done buf) := by
    have hRecord :
        record = [] ++ record.take room ++ record.drop room := by
      rw [List.nil_append, List.take_append_drop]
    apply reads_part hNext hTail hRecord rfl
    rw [hTaken]
    change done.flatten.length % size + room ≤ size
    omega
  have hBack :
      Reads size (.ring cpu 0) (record.drop room)
        (Mid cpu tail known done buf) := by
    have hRecord :
        record = record.take room ++ record.drop room ++ [] := by
      rw [List.append_nil, List.take_append_drop]
    apply reads_part hNext hTail hRecord
    · rw [hTaken, hRoom, add_mod_end hSize]
    · rw [List.length_drop]
      omega
  have hWhole :
      ∀ done', Reads size (.buf record 0) record
        (Mid cpu tail known done' buf) :=
    fun _ => reads_buf stable_mid
  have hBegin :
      record.length - room =
        (done.flatten.length + record.length) % size := by
    have hSum :
        (done.flatten.length + record.length) % size =
          (done.flatten.length % size + record.length) %
            size := by
      rw [Nat.mod_add_mod]
    rw [hSum, Nat.mod_eq_sub_mod (by omega),
      Nat.mod_eq_of_lt (by omega)]
    omega
  have hFrontBytes := hFront 0 room (by omega)
  rw [List.drop_zero, List.take_take, Nat.min_self]
    at hFrontBytes
  have hBackBytes :=
    hBack 0 (record.length - room)
      (by rw [List.length_drop]; omega)
  have hRest : (record.drop room).length ≤ record.length - room :=
    Nat.le_of_eq List.length_drop
  rw [List.drop_zero, List.take_of_length_le hRest] at hBackBytes
  apply Triple.bind_eq hFrontBytes
  apply Triple.bind_eq
    (hFront.sizeField stable_mid hOk (List.take_prefix _ _)
      (by omega))
  rw [toNat_length hOk]
  apply Triple.bind_eq hBackBytes
  rw [List.take_append_drop]
  apply Triple.bind_eq
    ((hWhole done).sizeField stable_mid hOk List.prefix_rfl
      hOk.header)
  rw [toNat_length hOk]
  exact Triple.ret stable_mid fun x hMid =>
    ⟨hWhole, hBegin, hMid⟩

theorem fetchEvent_triple
    (hNext : done ++ [record] <+: known)
    (hTail : tail ≤ done.flatten.length)
    (hOk : RecordOk record)
    (hSize : 0 < size)
    (hAlign : 8 ∣ size)
    (hAligned : 8 ∣ done.flatten.length)
    (hShort : record.length < size) :
    Triple (tcpdumpWorld nrCpus size)
      (Mid cpu tail known done buf)
      (fetchEvent size cpu (done.flatten.length % size) buf)
      (FetchedOk cpu tail known done record) := by
  have hCell := Nat.mod_lt done.flatten.length hSize
  have hCellAligned : 8 ∣ done.flatten.length % size :=
    (Nat.dvd_mod_iff hAlign).mpr hAligned
  have hHeader := hOk.header
  -- as much of the event as is before the end of the ring
  let room := size - done.flatten.length % size
  have hRoom : 8 ≤ room := by
    rcases hAlign with ⟨m, rfl⟩
    rcases hCellAligned with ⟨n, hCellEq⟩
    omega
  have hTaken :
      (record.take room).length = min room record.length :=
    List.length_take
  have hReads
      (buf' : EventBuf) :
      Reads size
        (.ring cpu (done.flatten.length % size))
        (record.take room) (Mid cpu tail known done buf') := by
    have hRecord :
        record = [] ++ record.take room ++ record.drop room := by
      rw [List.nil_append, List.take_append_drop]
    apply reads_part hNext hTail hRecord rfl
    rw [hTaken]
    change done.flatten.length % size + _ ≤ size
    omega
  have hSizeField :=
    (hReads buf).sizeField stable_mid hOk
      (List.take_prefix _ _) (by omega)
  apply Triple.bind_eq hSizeField
  rw [toNat_length hOk]
  by_cases hSplit :
      size < done.flatten.length % size + record.length
  · rw [if_pos hSplit]
    apply (growBuf_triple (hReads buf) hOk
      (List.take_prefix _ _) (by omega)).bind
    rintro ⟨enough, buf'⟩
    cases enough with
    | false =>
        exact Triple.ret stable_grown fun x hGrown =>
          ⟨hGrown.1.resolve_right fun hBoth =>
            Bool.false_ne_true hBoth.1, hGrown.2⟩
    | true =>
        simp only [Bool.not_true, Bool.false_eq_true, if_false]
        cases hAllocated : buf'.allocated with
        | false =>
            simp only [Bool.not_false, if_true]
            exact .halt stable_grown fun x hGrown => by
              refine ⟨hGrown.2.consistent, rfl, ?_⟩
              rcases hGrown.1 with hFailed | ⟨_, hTrue⟩
              · exact hFailed
              · rw [hAllocated] at hTrue
                cases hTrue
        | true =>
            simp only [Bool.not_true, Bool.false_eq_true,
              if_false]
            exact (fetched_wrapped hNext hTail hOk hSize rfl
              (by omega) hRoom hShort).mono
                (fun x hGrown => hGrown.2) fun _ _ hDone => hDone
  · rw [if_neg hSplit]
    apply Triple.bind_eq hSizeField
    rw [toNat_length hOk]
    have hSum :
        (done.flatten.length + record.length) % size =
          (done.flatten.length % size + record.length) % size := by
      rw [Nat.mod_add_mod]
    have hFits :
        done.flatten.length % size + record.length ≤ size := by
      omega
    by_cases hEnd :
        done.flatten.length % size + record.length = size
    · rw [if_pos hEnd]
      rw [hEnd, Nat.mod_self] at hSum
      exact fetched_in_place hNext hTail hFits hSum.symm
    · rw [if_neg hEnd]
      apply Triple.bind_eq hSizeField
      rw [toNat_length hOk]
      have hInside :
          done.flatten.length % size + record.length < size :=
        Nat.lt_of_le_of_ne hFits hEnd
      exact fetched_in_place hNext hTail hFits
        (hSum.trans (Nat.mod_eq_of_lt hInside)).symm

------------------------------------------------------------
-- The Loop over the Events
------------------------------------------------------------

/- What holds before the test of the loop, and after it. -/
def ReadInv
    (cpu : Fin nrCpus)
    (l : ReadLabel)
    (x : Scene nrCpus size) : Prop :=
  match l with
  | .loop c buf =>
      ∃ tail known done,
        c.dataTail = BitVec.ofNat 64 done.flatten.length ∧
        c.beginOff = done.flatten.length % size ∧
        c.endOff = known.flatten.length % size ∧
        done <+: known ∧ Mid cpu tail known done buf x
  | .returned _ buf => Idle buf x

theorem stable_readInv
    {l : ReadLabel} :
    (tcpdumpWorld nrCpus size).Stable (ReadInv cpu l) := by
  intro x y hMoves hInv
  cases l with
  | loop c buf =>
      rcases hInv with
        ⟨tail, known, done, hTail, hBegin, hEnd, hPrefix, hMid⟩
      exact ⟨tail, known, done, hTail, hBegin, hEnd, hPrefix,
        stable_mid _ _ hMoves hMid⟩
  | returned ret buf => exact stable_idle _ _ hMoves hInv

theorem aligned_flatten
    {records : List ByteSeq}
    (hLegal : ∀ record ∈ records, Legal record) :
    8 ∣ records.flatten.length := by
  induction records with
  | nil => exact Nat.dvd_zero 8
  | cons record records ih =>
      rw [List.flatten_cons, List.length_append]
      exact Nat.dvd_add
        (hLegal record List.mem_cons_self).ok.aligned
        (ih fun record' hMem =>
          hLegal record' (List.mem_cons_of_mem record hMem))

theorem Mid.idle
    {x : Scene nrCpus size}
    (hMid : Mid cpu done.flatten.length known done buf x) :
    Idle buf x where
  drained cpu' := by
    by_cases hHere : cpu' = cpu
    · subst hHere
      exact ⟨done, hMid.upTo⟩
    · exact hMid.others cpu' hHere
  booked := hMid.booked
  buf_ok := hMid.buf_ok

/- The tail is stored behind what was dumped. -/
theorem Mid.release
    {x : Scene nrCpus size}
    (hMid : Mid cpu tail known done buf x)
    (a : Answers nrCpus)
    {dataTail : BitVec 64}
    (hTail :
      dataTail = BitVec.ofNat 64 done.flatten.length) :
    Idle buf
      ((Shared.access a (.storeTail cpu dataTail) x.1).2,
        x.2.access a (.storeTail cpu dataTail)) := by
  subst hTail
  have hUpTo := hMid.upTo
  have hEnd :
      done.flatten.length ≤
        (x.2.written cpu).flatten.length := by
    rcases hUpTo.done_prefix with ⟨rest, hRest⟩
    rw [← hRest, List.flatten_append, List.length_append]
    omega
  refine ⟨fun cpu' => ?_, hMid.booked, hMid.buf_ok⟩
  by_cases hHere : cpu' = cpu
  · subst hHere
    refine ⟨done, ?_, hUpTo.done_prefix, Nat.le_refl _,
      hUpTo.dumped⟩
    simp only [Shared.access, Shared.setRing,
      Function.update_self]
    exact hUpTo.holds.release hUpTo.tail_le hEnd
  · rcases hMid.others cpu' hHere with ⟨done', hOther⟩
    refine ⟨done', ?_, hOther.done_prefix, Nat.le_refl _,
      hOther.dumped⟩
    simp only [Shared.access, Shared.setRing,
      Function.update_of_ne hHere]
    exact hOther.holds

theorem leaveLoop_triple
    {dataTail : BitVec 64}
    (hTail : dataTail = BitVec.ofNat 64 done.flatten.length)
    (ret : PerfEventRet) :
    Triple (tcpdumpWorld nrCpus size)
      (fun x =>
        (x.2.failed = true ∨ done = known) ∧
          Mid cpu tail known done buf x)
      (leaveLoop cpu dataTail ret buf)
      (ReadInv cpu) := by
  have hStore :
      Triple (tcpdumpWorld nrCpus size)
        (fun x =>
          (x.2.failed = true ∨ done = known) ∧
            Mid cpu tail known done buf x)
        (.call' (PollerCall.storeTail cpu dataTail))
        fun _ => Idle buf := by
    apply access_triple _ (fun _ => stable_idle)
    · intro x hBoth
      refine ⟨hBoth.2.consistent, fun hOk => ?_⟩
      rcases hBoth.1 with hFailed | hDone
      · rw [hOk] at hFailed
        cases hFailed
      · refine ⟨[], ?_⟩
        rw [List.append_nil, hBoth.2.seen,
          hBoth.2.upTo.dumped, hDone]
    · exact fun x a hBoth => hBoth.2.release a hTail
    · exact fun _ _ hMoves hBoth =>
        ⟨hBoth.1.imp_left (stable_failed _ _ hMoves),
          stable_mid _ _ hMoves hBoth.2⟩
  apply hStore.bind
  exact fun _ => Triple.ret stable_idle fun x hIdle => hIdle

/- An event that was fetched is dumped and passed. -/
theorem processed_triple
    {ehdr : EventPtr nrCpus}
    {c : ReadCursor}
    (hTail : c.dataTail = BitVec.ofNat 64 done.flatten.length)
    (hEnd : c.endOff = known.flatten.length % size)
    (hNext : done ++ [record] <+: known)
    (hLegal : Legal record)
    (hReads :
      ∀ done', Reads size ehdr record
        (Mid cpu tail known done' buf)) :
    Triple (tcpdumpWorld nrCpus size)
      (Mid cpu tail known done buf)
      (do
        let ret ← perfEventProcess ehdr
        if ret ≠ .cont then leaveLoop cpu c.dataTail ret buf
        else do
          let size' ← ehdr.size
          let c' : ReadCursor :=
            { dataTail := c.dataTail + size'.setWidth 64
              ret := ret
              beginOff :=
                (done.flatten.length + record.length) % size
              endOff := c.endOff }
          return .loop c' buf)
      (ReadInv cpu) := by
  have hOk := hLegal.ok
  have hFlatten :
      (done ++ [record]).flatten.length =
        done.flatten.length + record.length := by
    rw [List.flatten_append, List.length_append,
      List.flatten_singleton]
  have hWide :
      (BitVec.ofNat 16 record.length).setWidth 64 =
        BitVec.ofNat 64 record.length := by
    apply BitVec.eq_of_toNat_eq
    rw [BitVec.toNat_setWidth, toNat_length hOk,
      BitVec.toNat_ofNat]
  apply Triple.bind_eq
    (perfEventProcess_triple (hReads done) hLegal hNext)
  rw [if_neg (not_not_intro rfl)]
  apply Triple.bind_eq
    ((hReads (done ++ [record])).sizeField stable_mid hOk
      List.prefix_rfl hOk.header)
  refine Triple.ret stable_mid fun x hMid =>
    ⟨tail, known, done ++ [record], ?_, ?_, hEnd, hNext, hMid⟩
  · rw [hFlatten, hWide, hTail, BitVec.ofNat_add]
  · rw [hFlatten]

/- One event, when the loop is not done. -/
theorem readLoop_event
    {c : ReadCursor}
    (hTail : c.dataTail = BitVec.ofNat 64 done.flatten.length)
    (hBegin : c.beginOff = done.flatten.length % size)
    (hEnd : c.endOff = known.flatten.length % size)
    (hMore : c.beginOff ≠ c.endOff)
    (hNext : done ++ [record] <+: known)
    (hTailLe : tail ≤ done.flatten.length)
    (hLegal : Legal record)
    (hSize : 0 < size)
    (hAlign : 8 ∣ size)
    (hAligned : 8 ∣ done.flatten.length)
    (hShort : record.length < size) :
    Triple (tcpdumpWorld nrCpus size)
      (Mid cpu tail known done buf)
      (readLoop size cpu perfEventProcess c buf)
      (ReadInv cpu) := by
  have hOk := hLegal.ok
  rw [readLoop, if_neg hMore, hBegin]
  apply (fetchEvent_triple hNext hTailLe hOk hSize hAlign
    hAligned hShort).bind
  intro fetched
  cases fetched with
  | noMemory buf' =>
      exact (leaveLoop_triple hTail .error).mono
        (fun x hFetched => ⟨.inl hFetched.1, hFetched.2⟩)
        fun _ _ hInv => hInv
  | event ehdr begin' buf' =>
      intro x hFetched
      rcases hFetched with ⟨hReads, rfl, hMid⟩
      refine processed_triple hTail hEnd hNext hLegal hReads x hMid

theorem flatten_length_le
    {records records' : List ByteSeq}
    (hPrefix : records <+: records') :
    records.flatten.length ≤ records'.flatten.length := by
  rcases hPrefix with ⟨rest, rfl⟩
  rw [List.flatten_append, List.length_append]
  exact Nat.le_add_right _ _

/- Once through the loop, or out of it. -/
theorem readLoop_triple
    (hSize : 0 < size)
    (hAlign : 8 ∣ size)
    (c : ReadCursor)
    (buf : EventBuf) :
    Triple (tcpdumpWorld nrCpus size)
      (ReadInv cpu (.loop c buf))
      (readLoop size cpu perfEventProcess c buf)
      (ReadInv cpu) := by
  intro x hInv
  rcases hInv with
    ⟨tail, known, done, hTail, hBegin, hEnd, hPrefix, hMid⟩
  have hUpTo := hMid.upTo
  have hTailLe := hUpTo.tail_le
  have hRoom := hUpTo.holds.room
  have hKnown := flatten_length_le hMid.known_prefix
  have hLegal : ∀ record ∈ known, Legal record :=
    fun record hMem =>
      hUpTo.holds.legal record
        (hMid.known_prefix.subset hMem)
  rcases hPrefix with ⟨ahead, rfl⟩
  have hSplit :
      (done ++ ahead).flatten.length =
        done.flatten.length + ahead.flatten.length := by
    rw [List.flatten_append, List.length_append]
  cases ahead with
  | nil =>
      have hDone : c.beginOff = c.endOff := by
        rw [hBegin, hEnd, List.append_nil]
      rw [readLoop, if_pos hDone]
      exact leaveLoop_triple hTail c.ret x
        ⟨.inr (List.append_nil done).symm, hMid⟩
  | cons record ahead =>
      have hOk :=
        (hLegal record (List.mem_append_right _
          List.mem_cons_self)).ok
      have hHeader := hOk.header
      rw [List.flatten_cons, List.length_append] at hSplit
      have hMore : c.beginOff ≠ c.endOff := by
        rw [hBegin, hEnd]
        intro hCell
        have hEq :=
          (mod_eq_iff_of_le (by omega) (by omega)).mp hCell
        omega
      have hNext :
          done ++ [record] <+: done ++ record :: ahead :=
        ⟨ahead, List.append_assoc _ _ _⟩
      have hAligned : 8 ∣ done.flatten.length :=
        aligned_flatten fun record' hMem =>
          hLegal record' (List.mem_append_left _ hMem)
      exact readLoop_event hTail hBegin hEnd hMore hNext hTailLe
        (hLegal record (List.mem_append_right _
          List.mem_cons_self)) hSize hAlign hAligned
        (by omega) x hMid

/- The tail of a ring that nothing is dumped from. -/
def TailLoaded
    (cpu : Fin nrCpus)
    (buf : EventBuf)
    (dataTail : BitVec 64)
    (x : Scene nrCpus size) : Prop :=
  Idle buf x ∧
    ∃ done, dataTail = BitVec.ofNat 64 done.flatten.length ∧
      UpTo cpu done.flatten.length done x

theorem stable_tailLoaded
    {dataTail : BitVec 64} :
    (tcpdumpWorld nrCpus size).Stable
      (TailLoaded cpu buf dataTail) := by
  rintro x y hMoves ⟨hIdle, done, hTail, hUpTo⟩
  exact ⟨stable_idle _ _ hMoves hIdle, done, hTail,
    hMoves.upTo hUpTo⟩

/- The records that are there when the head is loaded. -/
def HeadLoaded
    (cpu : Fin nrCpus)
    (buf : EventBuf)
    (dataTail dataHead : BitVec 64)
    (x : Scene nrCpus size) : Prop :=
  ∃ known done,
    dataTail = BitVec.ofNat 64 done.flatten.length ∧
    dataHead = BitVec.ofNat 64 known.flatten.length ∧
    done <+: known ∧
    Mid cpu done.flatten.length known done buf x

theorem stable_headLoaded
    {dataTail dataHead : BitVec 64} :
    (tcpdumpWorld nrCpus size).Stable
      (HeadLoaded cpu buf dataTail dataHead) := by
  rintro x y hMoves ⟨known, done, hTail, hHead, hPrefix, hMid⟩
  exact ⟨known, done, hTail, hHead, hPrefix,
    stable_mid _ _ hMoves hMid⟩

theorem TailLoaded.loadHead
    {dataTail : BitVec 64}
    {x : Scene nrCpus size}
    (hLoaded : TailLoaded cpu buf dataTail x)
    (a : Answers nrCpus) :
    HeadLoaded cpu buf dataTail (x.1.rings cpu).dataHead
      (x.1, x.2.access a (.loadHead cpu)) := by
  rcases hLoaded with ⟨hIdle, done, hTail, hUpTo⟩
  refine ⟨x.2.written cpu, done, hTail, hUpTo.holds.head_eq,
    hUpTo.done_prefix, ?_⟩
  refine ⟨⟨hUpTo.holds, hUpTo.done_prefix, hUpTo.tail_le,
    hUpTo.dumped⟩, List.prefix_rfl, ?_, rfl, ?_, hIdle.booked,
    hIdle.buf_ok⟩
  · exact Function.update_self _ _ _
  · intro cpu' _
    rcases hIdle.drained cpu' with ⟨done', hOther⟩
    exact ⟨done', hOther.holds, hOther.done_prefix,
      hOther.tail_le, hOther.dumped⟩

theorem bpfPerfEventReadSimple_triple
    (hWrap : size ∣ 2 ^ 64) :
    Triple (tcpdumpWorld nrCpus size) (Idle buf)
      (bpfPerfEventReadSimple size cpu buf)
      (ReadInv cpu) := by
  have hLoadTail :
      Triple (tcpdumpWorld nrCpus size) (Idle buf)
        (.call' (PollerCall.loadTail cpu))
        (TailLoaded cpu buf) := by
    apply access_triple stable_idle fun _ => stable_tailLoaded
    · exact fun x hIdle => ⟨hIdle.consistent, trivial⟩
    · intro x a hIdle
      rcases hIdle.drained cpu with ⟨done, hUpTo⟩
      exact ⟨hIdle, done, hUpTo.holds.tail_eq, hUpTo⟩
  have hLoadHead
      (dataTail : BitVec 64) :
      Triple (tcpdumpWorld nrCpus size)
        (TailLoaded cpu buf dataTail)
        (.call' (PollerCall.loadHead cpu))
        (HeadLoaded cpu buf dataTail) := by
    apply access_triple stable_tailLoaded
      fun _ => stable_headLoaded
    · exact fun x hLoaded => ⟨hLoaded.1.consistent, trivial⟩
    · exact fun x a hLoaded => hLoaded.loadHead a
  apply hLoadTail.bind
  intro dataTail
  apply (hLoadHead dataTail).bind
  intro dataHead
  split
  · exact Triple.ret stable_headLoaded fun x hLoaded => by
      rcases hLoaded with ⟨known, done, _, _, _, hMid⟩
      exact hMid.idle
  · refine Triple.ret stable_headLoaded fun x hLoaded => ?_
    rcases hLoaded with
      ⟨known, done, hTail, hHead, hPrefix, hMid⟩
    refine ⟨_, known, done, hTail, ?_, ?_, hPrefix, hMid⟩
    · simp only [hTail, PerfRing.Holds.toNat_mod hWrap]
    · simp only [hHead, PerfRing.Holds.toNat_mod hWrap]

------------------------------------------------------------
-- The Loop over the Rings
------------------------------------------------------------

/- What holds at the labels of the poller. -/
def LabelInv
    (l : PollerLabel nrCpus)
    (x : Scene nrCpus size) : Prop :=
  match l with
  | .start => Idle ⟨false, 0⟩ x
  | .poll buf => Idle buf x
  | .fds _ _ buf => Idle buf x
  | .reading _ i c buf => ReadInv i (.loop c buf) x
  | .returned _ => ∃ buf, Idle buf x

theorem labelInv_afterRead
    {revents : Fin nrCpus → Bool}
    {i : Fin nrCpus}
    {l : ReadLabel}
    {x : Scene nrCpus size}
    (hInv : ReadInv i l x) :
    LabelInv (PollerLabel.afterRead revents i l) x := by
  cases l with
  | loop c buf => exact hInv
  | returned ret buf =>
      simp only [PollerLabel.afterRead]
      split
      · exact hInv
      · exact hInv

theorem stable_labelInv
    (l : PollerLabel nrCpus) :
    (tcpdumpWorld nrCpus size).Stable (LabelInv l) := by
  intro x y hMoves hInv
  cases l with
  | start => exact stable_idle _ _ hMoves hInv
  | poll buf => exact stable_idle _ _ hMoves hInv
  | fds revents i buf => exact stable_idle _ _ hMoves hInv
  | reading revents i c buf =>
      exact stable_readInv (l := .loop c buf) _ _ hMoves hInv
  | returned ret =>
      rcases hInv with ⟨buf, hIdle⟩
      exact ⟨buf, stable_idle _ _ hMoves hIdle⟩

/- A call between two rings. -/
theorem idle_triple
    {op : PollerCall nrCpus}
    (hAllowed :
      ∀ x : Scene nrCpus size, Idle buf x →
        (tcpdumpWorld nrCpus size).allows op x)
    (hNothing :
      ∀ (x : Scene nrCpus size) a,
        ((Shared.access a op x.1).2, x.2.access a op) = x) :
    Triple (tcpdumpWorld nrCpus size) (Idle buf)
      (.call' op) fun _ => Idle buf :=
  access_triple stable_idle (fun _ => stable_idle) hAllowed
    fun x a hIdle => by
      rw [hNothing]
      exact hIdle

/- Every block of the poller ends where it may. -/
theorem pcapPerfEventPoller_triple
    {pageSize : ℕ}
    (hPage : pageSize ∣ 2 ^ 61)
    (l : PollerLabel nrCpus) :
    Triple (tcpdumpWorld nrCpus (PAGE_CNT * pageSize))
      (LabelInv l) (pcapPerfEventPoller pageSize l)
      LabelInv := by
  have hWrap : PAGE_CNT * pageSize ∣ 2 ^ 64 := by
    rw [show 2 ^ 64 = PAGE_CNT * 2 ^ 61 from rfl]
    exact Nat.mul_dvd_mul_left PAGE_CNT hPage
  have hSize : 0 < PAGE_CNT * pageSize :=
    Nat.pos_of_dvd_of_pos hWrap (by decide)
  have hAlign : 8 ∣ PAGE_CNT * pageSize :=
    Nat.dvd_mul_right 8 pageSize
  cases l with
  | start =>
      apply (idle_triple
        (fun x hIdle => ⟨hIdle.consistent, trivial⟩)
        fun x a => rfl).bind
      intro allocated
      cases allocated with
      | false =>
          exact Triple.ret stable_idle fun x hIdle =>
            ⟨_, hIdle⟩
      | true =>
          exact Triple.ret stable_idle fun x hIdle => hIdle
  | poll buf =>
      apply (idle_triple
        (fun x hIdle => ⟨hIdle.consistent, trivial⟩)
        fun x a => rfl).bind
      exact fun revents =>
        Triple.ret stable_idle fun x hIdle => hIdle
  | fds revents i buf =>
      simp only [pcapPerfEventPoller]
      split
      · next hFd =>
          split
          · exact Triple.ret stable_idle fun x hIdle => hIdle
          · apply (bpfPerfEventReadSimple_triple hWrap).bind
            exact fun l => Triple.ret stable_readInv
              fun x hInv => labelInv_afterRead hInv
      · exact Triple.ret stable_idle fun x hIdle => hIdle
  | reading revents i c buf =>
      apply (readLoop_triple hSize hAlign c buf).bind
      exact fun l => Triple.ret stable_readInv
        fun x hInv => labelInv_afterRead hInv
  | returned ret =>
      exact Triple.ret (stable_labelInv (.returned ret))
        fun x hInv => hInv

end XdpDdos.Tcpdump
