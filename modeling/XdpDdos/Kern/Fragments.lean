import XdpDdos.Kern.FrameFormat

/-
  Fragments of IPv4 packets.

  A fragment with a nonzero offset carries no transport
  header, but the program does not look at the offset: the
  bytes behind the IPv4 header are judged as if a TCP or UDP
  header stood there.

  Main declarations:
    * `LaterFragment`, `PassesUnjudged`
    * `passesUnjudged_iff`
-/

------------------------------------------------------------
-- Later Fragments
------------------------------------------------------------

namespace XdpDdos

variable {nrCpus : ℕ}

/- The fragment offset, in units of eight bytes. -/
def Ipv4.fragOffset (p : ByteSeq) : BitVec 16 :=
  p.be16At 6 &&& 0x1FFF

/-
  An IPv4 frame with its whole fixed header that is not the
  first fragment of its packet.
-/
structure LaterFragment
    (e : EthFrame) : Prop where
  tags_le : e.tags.length ≤ 2
  isIpv4 : e.ethertype = ETH_P_IP
  header_le : IP_HDR_SIZE ≤ e.payload.length
  offset_ne : Ipv4.fragOffset e.payload ≠ 0

/- The frame passes and no port drop is counted. -/
def PassesUnjudged
    (m : Maps nrCpus)
    (cpu : Fin nrCpus)
    (e : EthFrame) : Prop :=
  (frameStep cpu m e.bytes).1 = .ok .pass ∧
    (frameStep cpu m e.bytes).2.dropCount = m.dropCount

/- What the program makes of an unlisted source's packet. -/
theorem frameStep_of_absent
    {m : Maps nrCpus}
    {e : EthFrame}
    (cpu : Fin nrCpus)
    (hFrame : LaterFragment e)
    (hSrc :
      ¬ m.blacklist.Contains (Ipv4.saddr e.payload)) :
    (frameStep cpu m e.bytes).1 =
      .ok (m.portVerdict cpu
        (Frame.layer4 e.payload (Ipv4.protocol e.payload)
          IP_HDR_SIZE)) := by
  rw [frameStep_eq,
    EthFrame.view_bytes e hFrame.tags_le hFrame.isIpv4,
    EthFrame.ipv4View_of_le hFrame.header_le, Maps.verdict,
    if_neg hSrc]

/- A frame that is not dropped counts no drop. -/
theorem dropCount_frameStep
    (m : Maps nrCpus)
    (cpu : Fin nrCpus)
    (f : Frame)
    (hKept : (frameStep cpu m f).1 ≠ .ok .drop) :
    (frameStep cpu m f).2.dropCount = m.dropCount := by
  rw [frameStep_eq] at hKept ⊢
  rw [Maps.afterFrame_dropCount]
  rcases m.countDrop_cases cpu f.view with
    ⟨_, _, _, _, hDrop, _⟩ | ⟨_, _, _, _, _, _, hDrop, _⟩ |
    ⟨_, hCount⟩
  · exact absurd (congrArg Except.ok hDrop) hKept
  · exact absurd (congrArg Except.ok hDrop) hKept
  · rw [hCount]

/-
  Bytes pass the port filter exactly when their protocol has
  no ports, or when there are enough of them for a header
  and the port in it is not blocked.
-/
theorem portVerdict_eq_pass_iff
    (m : Maps nrCpus)
    (cpu : Fin nrCpus)
    (p : ByteSeq) :
    m.portVerdict cpu
          (Frame.layer4 p (Ipv4.protocol p) IP_HDR_SIZE) =
        .pass ↔
      ∀ fproto : DdosFilter,
        Ipv4.protocol p = fproto.ipproto →
          IP_HDR_SIZE + fproto.hdrSize ≤ p.length ∧
            ¬ m.PortBit cpu fproto
              (p.be16At (IP_HDR_SIZE + 2)) := by
  by_cases hPorts :
      ∃ fproto : DdosFilter, Ipv4.protocol p = fproto.ipproto
  · rcases hPorts with ⟨fproto, hProto⟩
    by_cases hLen : IP_HDR_SIZE + fproto.hdrSize ≤ p.length
    · rw [EthFrame.layer4_of_le hProto hLen]
      constructor
      · intro hPass fproto' hProto'
        obtain rfl : fproto' = fproto :=
          DdosFilter.ipproto_inj (hProto'.symm.trans hProto)
        refine ⟨hLen, fun hBit => ?_⟩
        simp [Maps.portVerdict, hBit] at hPass
      · intro hFree
        simp [Maps.portVerdict, (hFree fproto hProto).2]
    · rw [EthFrame.layer4_of_gt hProto hLen]
      constructor
      · intro hPass
        simp [Maps.portVerdict] at hPass
      · intro hFree
        exact absurd (hFree fproto hProto).1 hLen
  · have hOther (fproto : DdosFilter) :
        Ipv4.protocol p ≠ fproto.ipproto :=
      fun hProto => hPorts ⟨fproto, hProto⟩
    rw [EthFrame.layer4_of_other hOther]
    constructor
    · intro _ fproto hProto
      exact absurd hProto (hOther fproto)
    · intro _
      simp [Maps.portVerdict]

/-
  A later fragment passes exactly when the bytes behind its
  IPv4 header pass the port filter.
-/
theorem passesUnjudged_iff
    (m : Maps nrCpus)
    (cpu : Fin nrCpus)
    (e : EthFrame)
    (hFrame : LaterFragment e)
    (hSrc :
      ¬ m.blacklist.Contains (Ipv4.saddr e.payload)) :
    PassesUnjudged m cpu e ↔
      ∀ fproto : DdosFilter,
        Ipv4.protocol e.payload = fproto.ipproto →
          IP_HDR_SIZE + fproto.hdrSize ≤ e.payload.length ∧
            ¬ m.PortBit cpu fproto
              (e.payload.be16At (IP_HDR_SIZE + 2)) := by
  have hVerdict := frameStep_of_absent cpu hFrame hSrc
  rw [← portVerdict_eq_pass_iff]
  constructor
  · rintro ⟨hPass, _⟩
    rw [hVerdict] at hPass
    exact Except.ok.inj hPass
  · intro hPass
    rw [hPass] at hVerdict
    refine ⟨hVerdict, dropCount_frameStep m cpu _ ?_⟩
    rw [hVerdict]
    simp

------------------------------------------------------------
-- Two Fragments with One Header
------------------------------------------------------------

/- A UDP fragment at offset 1480 that carries `data`. -/
def udpFragment (data : ByteSeq) : EthFrame where
  macs := Vector.replicate 12 0
  tags := []
  ethertype := ETH_P_IP
  payload :=
    [0x45, 0, 0, 28, 0, 0, 0, 185, 64, 17, 0, 0,
      10, 0, 0, 1, 10, 0, 0, 2] ++ data

theorem udpFragment_later
    (data : ByteSeq) :
    LaterFragment (udpFragment data) where
  tags_le := Nat.zero_le 2
  isIpv4 := rfl
  header_le := by
    simp [udpFragment, IP_HDR_SIZE]
  offset_ne := by
    change (((0 : Byte) ++ (185 : Byte) : BitVec 16) &&&
      0x1FFF) ≠ 0
    decide

/- UDP port 53 is blocked on the only CPU. -/
def udp53Blocked : Maps 1 :=
  { Maps.fresh with
    portBlacklist :=
      PercpuArray.fresh.setSlots (Maps.portIndex 53)
        (fun _ => 2) }

theorem udpFragment_source_absent
    (data : ByteSeq) :
    ¬ udp53Blocked.blacklist.Contains
      (Ipv4.saddr (udpFragment data).payload) := by
  simp [udp53Blocked, Maps.fresh, PercpuHash.Contains]

/- Payload bytes that read as UDP port 53. -/
def unluckyData : ByteSeq :=
  [1, 2, 0, 53, 5, 6, 7, 8]

/- A last fragment of four bytes. -/
def shortData : ByteSeq :=
  [1, 2, 3, 4]

/-
  Fragments with the same header: one is dropped for its
  payload, one is too short for a UDP header.
-/
theorem udpFragments_judged :
    (LaterFragment (udpFragment unluckyData) ∧
        ¬ udp53Blocked.blacklist.Contains
          (Ipv4.saddr (udpFragment unluckyData).payload) ∧
        (frameStep (0 : Fin 1) udp53Blocked
          (udpFragment unluckyData).bytes).1 = .ok .drop) ∧
      LaterFragment (udpFragment shortData) ∧
        ¬ udp53Blocked.blacklist.Contains
          (Ipv4.saddr (udpFragment shortData).payload) ∧
        (frameStep (0 : Fin 1) udp53Blocked
          (udpFragment shortData).bytes).1 =
            .ok .aborted := by
  refine ⟨⟨udpFragment_later _, udpFragment_source_absent _,
      ?_⟩,
    udpFragment_later _, udpFragment_source_absent _, ?_⟩
  · rw [frameStep_of_absent 0 (udpFragment_later _)
      (udpFragment_source_absent _)]
    have hBlocked :
        udp53Blocked.PortBit 0 .udp 53 := by
      decide
    have hLayer :
        Frame.layer4 (udpFragment unluckyData).payload
            (Ipv4.protocol (udpFragment unluckyData).payload)
            IP_HDR_SIZE =
          .port .udp 53 := by
      decide
    rw [hLayer, Maps.portVerdict, if_pos hBlocked]
  · rw [frameStep_of_absent 0 (udpFragment_later _)
      (udpFragment_source_absent _)]
    have hLayer :
        Frame.layer4 (udpFragment shortData).payload
            (Ipv4.protocol (udpFragment shortData).payload)
            IP_HDR_SIZE =
          .short := by
      decide
    rw [hLayer, Maps.portVerdict]

theorem passesUnjudged_iff_unluckyData :
    PassesUnjudged udp53Blocked 0
        (udpFragment unluckyData) ↔
      ∀ fproto : DdosFilter,
        Ipv4.protocol (udpFragment unluckyData).payload =
            fproto.ipproto →
          IP_HDR_SIZE + fproto.hdrSize ≤
              (udpFragment unluckyData).payload.length ∧
            ¬ udp53Blocked.PortBit 0 fproto
              ((udpFragment unluckyData).payload.be16At
                (IP_HDR_SIZE + 2)) :=
  passesUnjudged_iff udp53Blocked 0 (udpFragment unluckyData)
    (udpFragment_later _) (udpFragment_source_absent _)

end XdpDdos
