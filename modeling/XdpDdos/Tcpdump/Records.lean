import XdpDdos.Tcpdump.Program

/-
  The records of a perf ring, and the packets in them.

  Main declarations:
    * `RecordOk`, `IsSample`, `IsOther`, `Legal`
    * `Carries`, `IsSample.carries`
    * `capture`, `capture_of_lt`
    * `packetOf`, `packets`
-/

------------------------------------------------------------
-- Parts of Bytes
------------------------------------------------------------

namespace XdpDdos.Tcpdump

/- Reading a part of some bytes. -/
theorem byteAt_take_drop
    {bytes : ByteSeq}
    {off len i : ℕ}
    (hIn : i < len) :
    ByteSeq.byteAt ((bytes.drop off).take len) i =
      bytes.byteAt (off + i) := by
  simp only [ByteSeq.byteAt, List.getD_eq_getElem?_getD,
    List.getElem?_take_of_lt hIn, List.getElem?_drop]

theorem le16At_take_drop
    (bytes : ByteSeq)
    (off : ℕ) :
    ByteSeq.le16At ((bytes.drop off).take 2) 0 =
      bytes.le16At off := by
  simp only [ByteSeq.le16At]
  rw [byteAt_take_drop (by decide), byteAt_take_drop (by decide)]
  rfl

theorem le32At_take_drop
    (bytes : ByteSeq)
    (off : ℕ) :
    ByteSeq.le32At ((bytes.drop off).take 4) 0 =
      bytes.le32At off := by
  simp only [ByteSeq.le32At]
  rw [byteAt_take_drop (by decide), byteAt_take_drop (by decide),
    byteAt_take_drop (by decide), byteAt_take_drop (by decide)]
  rfl

theorem le16At_drop
    (bytes : ByteSeq)
    (k off : ℕ) :
    ByteSeq.le16At (bytes.drop k) off =
      bytes.le16At (k + off) := by
  simp only [ByteSeq.le16At, ByteSeq.byteAt,
    List.getD_eq_getElem?_getD, List.getElem?_drop,
    Nat.add_assoc]

theorem le16At_le16Bytes
    (w : BitVec 16)
    (rest : ByteSeq) :
    ByteSeq.le16At (le16Bytes w ++ rest) 0 = w := by
  change w.extractLsb' 8 8 ++ w.extractLsb' 0 8 = w
  ext i hi
  grind

------------------------------------------------------------
-- Records
------------------------------------------------------------

/- A record, which tells its own length. -/
structure RecordOk
    (record : ByteSeq) : Prop where
  header : 8 ≤ record.length
  aligned : 8 ∣ record.length
  small : record.length < 2 ^ 16
  size_eq : record.le16At 6 = BitVec.ofNat 16 record.length

instance
    (record : ByteSeq) : Decidable (RecordOk record) :=
  decidable_of_iff
    (8 ≤ record.length ∧ 8 ∣ record.length ∧
      record.length < 2 ^ 16 ∧
        record.le16At 6 = BitVec.ofNat 16 record.length)
    ⟨fun ⟨h₁, h₂, h₃, h₄⟩ => ⟨h₁, h₂, h₃, h₄⟩,
      fun h => ⟨h.1, h.2, h.3, h.4⟩⟩

/- The bits `BPF_F_CTXLEN_MASK` of the flags. -/
def ctxLen
    (flags : BitVec 64) : ℕ :=
  (flags.extractLsb' 32 20).toNat

/-
  A sample record: `hdr`, as many bytes of the frame as the
  flags ask for, and what fills the last eight bytes.
-/
structure IsSample
    (flags : BitVec 64)
    (hdr ctx record : ByteSeq) : Prop where
  ok : RecordOk record
  type_eq : record.le32At 0 = PERF_RECORD_SAMPLE
  raw : hdr ++ ctx.take (ctxLen flags) <+: record.drop 12

instance
    (flags : BitVec 64)
    (hdr ctx record : ByteSeq) :
    Decidable (IsSample flags hdr ctx record) :=
  decidable_of_iff
    (RecordOk record ∧ record.le32At 0 = PERF_RECORD_SAMPLE ∧
      hdr ++ ctx.take (ctxLen flags) <+: record.drop 12)
    ⟨fun ⟨h₁, h₂, h₃⟩ => ⟨h₁, h₂, h₃⟩,
      fun h => ⟨h.1, h.2, h.3⟩⟩

/- Another record, which the kernel writes by itself. -/
structure IsOther
    (record : ByteSeq) : Prop where
  ok : RecordOk record
  type_ne : record.le32At 0 ≠ PERF_RECORD_SAMPLE
  lost : record.le32At 0 = PERF_RECORD_LOST →
    24 ≤ record.length

instance
    (record : ByteSeq) : Decidable (IsOther record) :=
  decidable_of_iff
    (RecordOk record ∧ record.le32At 0 ≠ PERF_RECORD_SAMPLE ∧
      (record.le32At 0 = PERF_RECORD_LOST →
        24 ≤ record.length))
    ⟨fun ⟨h₁, h₂, h₃⟩ => ⟨h₁, h₂, h₃⟩,
      fun h => ⟨h.1, h.2, h.3⟩⟩

/- What `_xdp_prog0` asks for. -/
def sampleFlags
    (ctx : ByteSeq) : BitVec 64 :=
  BPF_F_CURRENT_CPU |||
    (BitVec.ofNat 16 ctx.length).setWidth 64 <<< 32

def sampleHdr
    (ctx : ByteSeq) : ByteSeq :=
  myPerfHdr COOKIE (BitVec.ofNat 16 ctx.length)

/- The records that a ring of `perf_ring_map` gets. -/
inductive Legal (record : ByteSeq) : Prop where
  | sample
      {ctx : ByteSeq}
      (hSample :
        IsSample (sampleFlags ctx) (sampleHdr ctx) ctx record)
  | other (hOther : IsOther record)

theorem Legal.ok
    {record : ByteSeq}
    (hLegal : Legal record) :
    RecordOk record := by
  cases hLegal with
  | sample hSample => exact hSample.ok
  | other hOther => exact hOther.ok

------------------------------------------------------------
-- Samples
------------------------------------------------------------

/- As many bytes as the header tells. -/
theorem ctxLen_sampleFlags
    (ctx : ByteSeq) :
    ctxLen (sampleFlags ctx) =
      (BitVec.ofNat 16 ctx.length).toNat := by
  unfold ctxLen sampleFlags
  generalize BitVec.ofNat 16 ctx.length = w
  have hLow :
      BPF_F_CURRENT_CPU.extractLsb' 32 20 = 0#20 := rfl
  have hLt := w.isLt
  have hHigh :
      ((w.setWidth 64 <<< 32).extractLsb' 32 20).toNat =
        w.toNat := by
    simp only [BitVec.extractLsb'_toNat, BitVec.toNat_shiftLeft,
      BitVec.toNat_setWidth, Nat.shiftLeft_eq, Nat.shiftRight_eq_div_pow]
    omega
  rw [BitVec.extractLsb'_or, hLow, BitVec.zero_or, hHigh]

/- What the poller finds in a sample record. -/
structure Carries
    (pktLen : BitVec 16)
    (ctx record : ByteSeq) : Prop where
  cookie_eq : record.le16At 12 = COOKIE
  len_eq : record.le16At 14 = pktLen
  fits : 16 + pktLen.toNat ≤ record.length
  data :
    (record.drop 16).take pktLen.toNat = ctx.take pktLen.toNat

theorem IsSample.carries
    {ctx record : ByteSeq}
    (hSample :
      IsSample (sampleFlags ctx) (sampleHdr ctx) ctx record) :
    Carries (BitVec.ofNat 16 ctx.length) ctx record := by
  rcases hSample.raw with ⟨pad, hRaw⟩
  rw [ctxLen_sampleFlags, sampleHdr, myPerfHdr,
    List.append_assoc, List.append_assoc] at hRaw
  have hLe :
      (BitVec.ofNat 16 ctx.length).toNat ≤ ctx.length := by
    rw [BitVec.toNat_ofNat]
    exact Nat.mod_le _ _
  generalize BitVec.ofNat 16 ctx.length = pktLen at *
  have hPkt :
      record.drop 14 =
        le16Bytes pktLen ++ (ctx.take pktLen.toNat ++ pad) := by
    calc record.drop 14
        = (record.drop 12).drop 2 := by rw [List.drop_drop]
      _ = le16Bytes pktLen ++
            (ctx.take pktLen.toNat ++ pad) := by
          rw [← hRaw]
          rfl
  have hData :
      record.drop 16 = ctx.take pktLen.toNat ++ pad := by
    calc record.drop 16
        = (record.drop 14).drop 2 := by rw [List.drop_drop]
      _ = ctx.take pktLen.toNat ++ pad := by
          rw [hPkt]
          rfl
  have hTaken : (ctx.take pktLen.toNat).length = pktLen.toNat :=
    List.length_take_of_le hLe
  constructor
  · rw [← le16At_drop record 12 0, ← hRaw]
    exact le16At_le16Bytes COOKIE _
  · rw [← le16At_drop record 14 0, hPkt]
    exact le16At_le16Bytes pktLen _
  · have hLength := congrArg List.length hRaw
    simp only [List.length_append, List.length_drop, hTaken,
      le16Bytes, List.length_cons, List.length_nil] at hLength
    omega
  · rw [hData, List.take_left' hTaken]

------------------------------------------------------------
-- Packets
------------------------------------------------------------

/- A frame as it is to be dumped. -/
def capture
    (ctx : ByteSeq) : PcapPacket :=
  let pktLen := BitVec.ofNat 16 ctx.length
  { caplen := pktLen.setWidth 32
    len := pktLen.setWidth 32
    data := ctx.take pktLen.toNat }

/- A frame that has a 16 bit length is dumped as it is. -/
theorem capture_of_lt
    {ctx : ByteSeq}
    (hShort : ctx.length < 2 ^ 16) :
    capture ctx =
      ⟨BitVec.ofNat 32 ctx.length, BitVec.ofNat 32 ctx.length,
        ctx⟩ := by
  have hLen :
      (BitVec.ofNat 16 ctx.length).toNat = ctx.length := by
    rw [BitVec.toNat_ofNat, Nat.mod_eq_of_lt hShort]
  have hWide :
      (BitVec.ofNat 16 ctx.length).setWidth 32 =
        BitVec.ofNat 32 ctx.length := by
    apply BitVec.eq_of_toNat_eq
    rw [BitVec.toNat_setWidth, hLen, BitVec.toNat_ofNat]
  simp only [capture, hWide, hLen, List.take_length]

/- The packet of a sample record. -/
def packetOf
    (record : ByteSeq) : Option PcapPacket :=
  if record.le32At 0 = PERF_RECORD_SAMPLE then
    let pktLen := record.le16At 14
    some
      { caplen := pktLen.setWidth 32
        len := pktLen.setWidth 32
        data := (record.drop 16).take pktLen.toNat }
  else none

def packets
    (records : List ByteSeq) : List PcapPacket :=
  records.filterMap packetOf

theorem packets_append
    (records records' : List ByteSeq) :
    packets (records ++ records') =
      packets records ++ packets records' :=
  List.filterMap_append

theorem packets_concat
    (records : List ByteSeq)
    (record : ByteSeq) :
    packets (records ++ [record]) =
      packets records ++ (packetOf record).toList := by
  rw [packets_append, packets, packets, List.filterMap_cons]
  cases packetOf record <;> rfl

theorem packetOf_sample
    {ctx record : ByteSeq}
    (hSample :
      IsSample (sampleFlags ctx) (sampleHdr ctx) ctx record) :
    packetOf record = some (capture ctx) := by
  have hCarries := hSample.carries
  rw [packetOf, if_pos hSample.type_eq]
  simp only [hCarries.len_eq, hCarries.data, capture]

theorem packetOf_other
    {record : ByteSeq}
    (hOther : IsOther record) :
    packetOf record = none :=
  if_neg hOther.type_ne

end XdpDdos.Tcpdump
