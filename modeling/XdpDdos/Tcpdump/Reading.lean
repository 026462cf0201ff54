import XdpDdos.Tcpdump.Scene

/-
  What the poller's functions do to the event that they are
  given.

  Main declarations:
    * `Reads`, `reads_ring`, `reads_buf`
    * `pcapDumpXdpData_triple`
    * `perfEventProcess_triple`
    * `fetchEvent_triple`
    * `readLoop_triple`
-/

------------------------------------------------------------
-- Reading Bytes
------------------------------------------------------------

namespace XdpDdos.Tcpdump

open CallProg

variable {nrCpus size : ℕ}

/- As long as `P` holds, `bytes` are found behind a pointer. -/
def Reads
    (size : ℕ)
    (ptr : EventPtr nrCpus)
    (bytes : ByteSeq)
    (P : Scene nrCpus size → Prop) : Prop :=
  ∀ off len, off + len ≤ bytes.length →
    Triple (tcpdumpWorld nrCpus size) P (ptr.read off len) fun value x =>
      value = (bytes.drop off).take len ∧ P x

/- A part of a part. -/
theorem slice_slice
    {bytes part : ByteSeq}
    {start off len : ℕ}
    (hPart : slice bytes start part.length = some part)
    (hFits : off + len ≤ part.length) :
    slice bytes (start + off) len =
      some ((part.drop off).take len) := by
  unfold slice at hPart ⊢
  split at hPart
  · next hLe =>
      have hEq := Option.some.inj hPart
      rw [if_pos (by omega), ← hEq, List.drop_take,
        List.take_take, List.drop_drop]
      congr 2
      omega
  · cases hPart

/- Bytes that were copied. -/
theorem reads_buf
    {bytes : ByteSeq}
    {P : Scene nrCpus size → Prop}
    (hStable : (tcpdumpWorld nrCpus size).Stable P) :
    Reads size (.buf bytes 0) bytes P := by
  intro off len hFits
  have hSlice :
      slice bytes (0 + off) len =
        some ((bytes.drop off).take len) := by
    apply slice_slice _ hFits
    rw [slice, if_pos (by omega), List.drop_zero,
      List.take_length]
  simp only [EventPtr.read, hSlice, orOutOfRange]
  exact .ret hStable fun _ hHere => ⟨rfl, hHere⟩

/- Bytes of the stream, next to each other in the ring. -/
theorem reads_ring
    {cpu : Fin nrCpus}
    {tail p : ℕ}
    {bytes : ByteSeq}
    {P : Scene nrCpus size → Prop}
    (hStable : (tcpdumpWorld nrCpus size).Stable P)
    (hConsistent : ∀ x, P x → Consistent x)
    (hHolds :
      ∀ x, P x →
        (x.1.rings cpu).Holds (x.2.written cpu) tail ∧
          ∃ front back,
            (x.2.written cpu).flatten =
              front ++ bytes ++ back ∧ front.length = p)
    (hTail : tail ≤ p)
    (hFits : p % size + bytes.length ≤ size) :
    Reads size (.ring cpu (p % size)) bytes P := by
  intro off len hIn
  have hAnswer
      (x : Scene nrCpus size)
      (hHere : P x) :
      slice (x.1.rings cpu).data (p % size + off) len =
        some ((bytes.drop off).take len) := by
    rcases hHolds x hHere with
      ⟨hRing, front, back, hStream, hFront⟩
    have hEnd :
        p + bytes.length ≤ (x.2.written cpu).flatten.length := by
      rw [hStream, List.length_append, List.length_append]
      omega
    have hPart := hRing.slice_eq hTail hEnd hFits
    rw [hStream, ← hFront, List.append_assoc,
      List.drop_left, List.take_left, hFront] at hPart
    exact slice_slice hPart hIn
  have hCall :
      Triple (tcpdumpWorld nrCpus size) P
        (.call' (PollerCall.read cpu (p % size + off) len))
        fun answer x =>
          answer = some ((bytes.drop off).take len) ∧ P x :=
    access_triple hStable (fun _ => hStable.pure_and _)
      (fun x hHere => ⟨hConsistent x hHere, trivial⟩)
      fun x a hHere => ⟨hAnswer x hHere, hHere⟩
  apply hCall.bind_eq
  exact .ret hStable fun _ hHere => ⟨rfl, hHere⟩

namespace Reads

variable {ptr : EventPtr nrCpus}
variable {bytes : ByteSeq}
variable {P : Scene nrCpus size → Prop}

theorem read16
    (hReads : Reads size ptr bytes P)
    (hStable : (tcpdumpWorld nrCpus size).Stable P)
    {off : ℕ}
    (hOff : off + 2 ≤ bytes.length) :
    Triple (tcpdumpWorld nrCpus size) P (ptr.read16 off) fun value x =>
      value = bytes.le16At off ∧ P x := by
  apply Triple.bind_eq (hReads off 2 hOff)
  exact Triple.ret hStable fun x hHere =>
    ⟨le16At_take_drop bytes off, hHere⟩

theorem read32
    (hReads : Reads size ptr bytes P)
    (hStable : (tcpdumpWorld nrCpus size).Stable P)
    {off : ℕ}
    (hOff : off + 4 ≤ bytes.length) :
    Triple (tcpdumpWorld nrCpus size) P (ptr.read32 off) fun value x =>
      value = bytes.le32At off ∧ P x := by
  apply Triple.bind_eq (hReads off 4 hOff)
  exact Triple.ret hStable fun x hHere =>
    ⟨le32At_take_drop bytes off, hHere⟩

theorem read64
    (hReads : Reads size ptr bytes P)
    (hStable : (tcpdumpWorld nrCpus size).Stable P)
    {off : ℕ}
    (hOff : off + 8 ≤ bytes.length) :
    Triple (tcpdumpWorld nrCpus size) P (ptr.read64 off) fun _ x => P x := by
  apply Triple.bind_eq (hReads off 8 hOff)
  exact Triple.ret hStable fun x hHere => hHere

/- The size field of a record, of which the start is read. -/
theorem sizeField
    {record : ByteSeq}
    (hReads : Reads size ptr bytes P)
    (hStable : (tcpdumpWorld nrCpus size).Stable P)
    (hOk : RecordOk record)
    (hStart : bytes <+: record)
    (hHeader : 8 ≤ bytes.length) :
    Triple (tcpdumpWorld nrCpus size) P ptr.size fun value x =>
      value = BitVec.ofNat 16 record.length ∧ P x := by
  have hSize : bytes.le16At 6 = record.le16At 6 := by
    rcases hStart with ⟨rest, rfl⟩
    simp only [ByteSeq.le16At, ByteSeq.byteAt,
      List.getD_eq_getElem?_getD]
    rw [List.getElem?_append_left (by omega),
      List.getElem?_append_left (by omega)]
  rw [← hOk.size_eq, ← hSize]
  exact hReads.read16 hStable (by omega)

/- The bytes behind a pointer into the event. -/
theorem data
    (hReads : Reads size ptr bytes P)
    (hLe : 12 ≤ bytes.length) :
    Reads size ptr.data (bytes.drop 12) P := by
  intro off len hFits
  rw [List.length_drop] at hFits
  have hRead := hReads (12 + off) len (by omega)
  rw [List.drop_drop]
  cases ptr with
  | ring cpu start =>
      rw [EventPtr.read, ← Nat.add_assoc] at hRead
      exact hRead
  | buf bytes' start =>
      rw [EventPtr.read, ← Nat.add_assoc] at hRead
      exact hRead

end Reads

------------------------------------------------------------
-- One Event
------------------------------------------------------------

section

variable {cpu : Fin nrCpus}
variable {tail : ℕ}
variable {known done : List ByteSeq}
variable {buf : EventBuf}
variable {record : ByteSeq}

/- A step over a record from which nothing is dumped. -/
theorem Mid.skip
    {x : Scene nrCpus size}
    (hMid : Mid cpu tail known done buf x)
    (hNext : done ++ [record] <+: known)
    (hNone : packetOf record = none) :
    Mid cpu tail known (done ++ [record]) buf x := by
  have hLe := hMid.upTo.tail_le
  refine { hMid with upTo := ?_ }
  refine ⟨hMid.upTo.holds, hNext.trans hMid.known_prefix, ?_, ?_⟩
  · rw [List.flatten_append, List.length_append]
    omega
  · rw [packets_concat, hNone, hMid.upTo.dumped]
    exact (List.append_nil _).symm

theorem dumpedOn_append
    (cpu cpu' : Fin nrCpus)
    (dumped : List (Fin nrCpus × PcapPacket))
    (packet : PcapPacket) :
    dumpedOn cpu (dumped ++ [(cpu', packet)]) =
      dumpedOn cpu dumped ++
        if cpu' = cpu then [packet] else [] := by
  rw [dumpedOn, List.filter_append, List.map_append, dumpedOn]
  by_cases hHere : cpu' = cpu
  · simp [hHere]
  · simp [hHere]

/- The packet of a record is dumped. -/
theorem Mid.dump
    {x : Scene nrCpus size}
    {packet : PcapPacket}
    (hMid : Mid cpu tail known done buf x)
    (hNext : done ++ [record] <+: known)
    (hSome : packetOf record = some packet)
    (a : Answers nrCpus) :
    Mid cpu tail known (done ++ [record]) buf
      ((Shared.access a (.pcapDump packet) x.1).2,
        x.2.access a (.pcapDump packet)) := by
  have hLe := hMid.upTo.tail_le
  have hDumped :
      (x.2.access a (.pcapDump packet)).dumped =
        x.2.dumped ++ [(cpu, packet)] := by
    simp only [Ledger.access, hMid.reading]
    rfl
  refine ⟨⟨hMid.upTo.holds,
      hNext.trans hMid.known_prefix, ?_, ?_⟩,
    hMid.known_prefix, hMid.seen, hMid.reading, ?_, ?_,
    hMid.buf_ok⟩
  · rw [List.flatten_append, List.length_append]
    omega
  · rw [hDumped, dumpedOn_append, if_pos rfl, packets_concat,
      hSome, hMid.upTo.dumped]
    rfl
  · intro cpu' hOther
    rcases hMid.others cpu' hOther with ⟨done', hUpTo⟩
    refine ⟨done', hUpTo.holds, hUpTo.done_prefix,
      hUpTo.tail_le, ?_⟩
    rw [hDumped, dumpedOn_append, if_neg hOther.symm,
      List.append_nil, hUpTo.dumped]
  · rw [Booked, hDumped, List.map_append, ← hMid.booked]
    rfl

theorem pcapDumpXdpData_triple
    {data : EventPtr nrCpus}
    {ctx : ByteSeq}
    (hReads :
      Reads size data (record.drop 12)
        (Mid cpu tail known done buf))
    (hSample :
      IsSample (sampleFlags ctx) (sampleHdr ctx) ctx record)
    (hNext : done ++ [record] <+: known)
    (sized : BitVec 32) :
    Triple (tcpdumpWorld nrCpus size)
      (Mid cpu tail known done buf)
      (pcapDumpXdpData data sized)
      fun ret x =>
        ret = .cont ∧
          Mid cpu tail known (done ++ [record]) buf x := by
  have hCarries := hSample.carries
  generalize BitVec.ofNat 16 ctx.length = pktLen at hCarries
  have hFits := hCarries.fits
  have hLength : (record.drop 12).length = record.length - 12 :=
    List.length_drop
  have hPkt :
      packetOf record =
        some ⟨pktLen.setWidth 32, pktLen.setWidth 32,
          ((record.drop 12).drop 4).take pktLen.toNat⟩ := by
    rw [packetOf, if_pos hSample.type_eq, List.drop_drop]
    simp only [hCarries.len_eq]
  have hCookie :
      ByteSeq.le16At (record.drop 12) 0 = COOKIE :=
    (le16At_drop record 12 0).trans hCarries.cookie_eq
  have hLen : ByteSeq.le16At (record.drop 12) 2 = pktLen :=
    (le16At_drop record 12 2).trans hCarries.len_eq
  apply Triple.bind_eq (hReads.read16 stable_mid (by omega))
  rw [if_neg (not_not_intro hCookie)]
  apply Triple.bind_eq (hReads.read16 stable_mid (by omega))
  apply Triple.bind_eq (hReads.read16 stable_mid (by omega))
  rw [hLen]
  apply Triple.bind_eq (hReads 4 pktLen.toNat (by omega))
  apply Triple.bind (M := fun _ =>
    Mid cpu tail known (done ++ [record]) buf)
  · exact access_triple stable_mid (fun _ => stable_mid)
      (fun x hMid => ⟨hMid.consistent, trivial⟩)
      fun x a hMid => hMid.dump hNext hPkt a
  · exact fun _ => Triple.ret stable_mid fun x hMid =>
      ⟨rfl, hMid⟩

/- Something is printed. -/
theorem print_triple
    (message : EventMessage) :
    Triple (tcpdumpWorld nrCpus size)
      (Mid cpu tail known done buf)
      (.call' (PollerCall.print message))
      fun _ => Mid cpu tail known done buf :=
  access_triple stable_mid (fun _ => stable_mid)
    (fun _ hMid => ⟨hMid.consistent, trivial⟩)
    fun _ _ hMid => hMid

/- An event is passed over, its packet dumped. -/
theorem perfEventProcess_triple
    {e : EventPtr nrCpus}
    (hReads :
      Reads size e record
        (Mid cpu tail known done buf))
    (hLegal : Legal record)
    (hNext : done ++ [record] <+: known) :
    Triple (tcpdumpWorld nrCpus size)
      (Mid cpu tail known done buf)
      (perfEventProcess e)
      fun ret x =>
        ret = .cont ∧
          Mid cpu tail known (done ++ [record]) buf x := by
  have hHeader := hLegal.ok.header
  have hType :=
    @Reads.read32 _ _ _ _ _ hReads stable_mid 0 (by omega)
  apply Triple.bind_eq hType
  cases hLegal with
  | @sample ctx hSample =>
      have hFits := hSample.carries.fits
      rw [if_pos hSample.type_eq]
      apply Triple.bind_eq
        (hReads.read32 stable_mid (by omega))
      apply Triple.bind_eq
        (pcapDumpXdpData_triple (hReads.data (by omega)) hSample
          hNext _)
      exact Triple.ret stable_mid fun x hMid => ⟨rfl, hMid⟩
  | other hOther =>
      have hSkipped :
          Triple (tcpdumpWorld nrCpus size)
            (Mid cpu tail known done buf) (.ret .cont)
            fun ret x =>
              ret = PerfEventRet.cont ∧
                Mid cpu tail known (done ++ [record]) buf x :=
        Triple.ret stable_mid fun x hMid =>
          ⟨rfl, hMid.skip hNext (packetOf_other hOther)⟩
      rw [if_neg hOther.type_ne]
      apply Triple.bind_eq hType
      by_cases hLost : record.le32At 0 = PERF_RECORD_LOST
      · have hLong := hOther.lost hLost
        rw [if_pos hLost]
        apply Triple.bind (hReads.read64 stable_mid (by omega))
        intro lost
        exact (print_triple _).bind fun _ => hSkipped
      · rw [if_neg hLost]
        apply Triple.bind_eq hType
        apply Triple.bind_eq
          (hReads.sizeField stable_mid hOther.ok
            List.prefix_rfl hHeader)
        exact (print_triple _).bind fun _ => hSkipped

------------------------------------------------------------
-- The Next Event
------------------------------------------------------------

theorem Mid.withBuf
    {buf' : EventBuf}
    {x : Scene nrCpus size}
    (hMid : Mid cpu tail known done buf x)
    (hBuf : BufOk buf' x) :
    Mid cpu tail known done buf' x :=
  { hMid with buf_ok := hBuf }

/- Only whether an allocation failed is new. -/
theorem UpTo.withFailed
    {x : Scene nrCpus size}
    (hUpTo : UpTo cpu tail done x)
    (failed : Bool) :
    UpTo cpu tail done (x.1, { x.2 with failed := failed }) :=
  ⟨hUpTo.holds, hUpTo.done_prefix, hUpTo.tail_le, hUpTo.dumped⟩

theorem Mid.malloc
    {x : Scene nrCpus size}
    (hMid : Mid cpu tail known done buf x)
    (a : Answers nrCpus)
    (n : ℕ) :
    Mid cpu tail known done buf (x.1, x.2.access a (.malloc n)) := by
  refine ⟨hMid.upTo.withFailed _, hMid.known_prefix, hMid.seen,
    hMid.reading, ?_, hMid.booked, ?_⟩
  · intro cpu' hOther
    rcases hMid.others cpu' hOther with ⟨done', hUpTo⟩
    exact ⟨done', hUpTo.withFailed _⟩
  · exact hMid.buf_ok.imp_left fun hFailed => by
      simp only [Ledger.access, hFailed, Bool.true_or]

/- `*buf` has room for an event, or an allocation failed. -/
def Grown
    (cpu : Fin nrCpus)
    (tail : ℕ)
    (known done : List ByteSeq)
    (grown : Bool × EventBuf)
    (x : Scene nrCpus size) : Prop :=
  (x.2.failed = true ∨
    grown.1 = true ∧ grown.2.allocated = true) ∧
    Mid cpu tail known done grown.2 x

theorem stable_grown
    {grown : Bool × EventBuf} :
    (tcpdumpWorld nrCpus size).Stable
      (Grown cpu tail known done grown) :=
  fun _ _ hMoves hBoth =>
    ⟨hBoth.1.imp_left fun hFailed =>
        stable_failed _ _ hMoves hFailed,
      stable_mid _ _ hMoves hBoth.2⟩

theorem toNat_length
    (hOk : RecordOk record) :
    (BitVec.ofNat 16 record.length).toNat = record.length := by
  rw [BitVec.toNat_ofNat, Nat.mod_eq_of_lt hOk.small]

theorem growBuf_triple
    {ehdr : EventPtr nrCpus}
    {bytes : ByteSeq}
    (hReads :
      Reads size ehdr bytes
        (Mid cpu tail known done buf))
    (hOk : RecordOk record)
    (hStart : bytes <+: record)
    (hHeader : 8 ≤ bytes.length) :
    Triple (tcpdumpWorld nrCpus size)
      (Mid cpu tail known done buf)
      (growBuf ehdr buf)
      (Grown cpu tail known done) := by
  have hSize :=
    hReads.sizeField stable_mid hOk hStart hHeader
  apply Triple.bind_eq hSize
  rw [toNat_length hOk]
  by_cases hShort : buf.bufLen < record.length
  · rw [if_pos hShort]
    apply Triple.bind_eq hSize
    let Answered
        (allocated : Bool)
        (x : Scene nrCpus size) : Prop :=
      (allocated = false → x.2.failed = true) ∧
        Mid cpu tail known done buf x
    have hMalloc :
        Triple (tcpdumpWorld nrCpus size)
          (Mid cpu tail known done buf)
          (.call' (PollerCall.malloc
            (BitVec.ofNat 16 record.length).toNat))
          Answered := by
      apply access_triple stable_mid
      · exact fun allocated _ _ hMoves hBoth =>
          ⟨fun hNone =>
            stable_failed _ _ hMoves (hBoth.1 hNone),
            stable_mid _ _ hMoves hBoth.2⟩
      · exact fun x hMid => ⟨hMid.consistent, trivial⟩
      · intro x a hMid
        refine ⟨fun hNone => ?_, hMid.malloc a _⟩
        have hRefused : a.mallocOk = false := hNone
        simp only [Ledger.access, hRefused, Bool.not_false,
          Bool.or_true]
    apply hMalloc.bind
    intro allocated
    cases allocated with
    | false =>
        apply Triple.ret
        · exact fun _ _ hMoves hBoth =>
            ⟨fun hNone =>
              stable_failed _ _ hMoves (hBoth.1 hNone),
              stable_mid _ _ hMoves hBoth.2⟩
        · intro x hBoth
          have hFailed := hBoth.1 rfl
          exact ⟨.inl hFailed, hBoth.2.withBuf (.inl hFailed)⟩
    | true =>
        have hNext :
            Triple (tcpdumpWorld nrCpus size)
              (Mid cpu tail known done buf)
              (ehdr.size >>= fun size =>
                pure (true, EventBuf.mk true size.toNat))
              (Grown cpu tail known done) := by
          apply Triple.bind_eq hSize
          exact Triple.ret stable_mid fun x hMid =>
            ⟨.inr ⟨rfl, rfl⟩,
              hMid.withBuf (.inr (.inl rfl))⟩
        exact hNext.mono (fun x hBoth => hBoth.2)
          fun _ _ hGrown => hGrown
  · rw [if_neg hShort]
    have hLong := hOk.header
    have hDone :
        ∀ x : Scene nrCpus size,
          Mid cpu tail known done buf x →
            Grown cpu tail known done (true, buf) x := by
      intro x hMid
      refine ⟨?_, hMid⟩
      rcases hMid.buf_ok with hFailed | hAllocated | hEmpty
      · exact .inl hFailed
      · exact .inr ⟨rfl, hAllocated⟩
      · omega
    exact Triple.ret stable_mid hDone

end

end XdpDdos.Tcpdump
