import XdpDdos.Kern.FrameFormat

/-
  Memory safety of the packet program, and which bytes its
  port filter decides on.

  The program takes the transport header to start 20 bytes
  into the packet.  With IP options the real header starts
  later, and the filter then decides on option bytes.

  Main declarations:
    * `fetch_ok_iff_inside`
    * `packet_reads_inside_frame`
    * `DecidesOnRealHeader`
    * `decidesOnRealHeader_iff`
-/

------------------------------------------------------------
-- Memory Safety
------------------------------------------------------------

namespace XdpDdos

variable {nrCpus : ℕ}

/- A fetch succeeds exactly when its field is inside. -/
theorem fetch_ok_iff_inside
    (f : Frame)
    (off : ℕ) :
    ((∃ v, fetch8 f off = .ok v) ↔ off + 1 ≤ f.length) ∧
      ((∃ v, fetch16 f off = .ok v) ↔
        off + 2 ≤ f.length) ∧
      ((∃ v, fetch32 f off = .ok v) ↔
        off + 4 ≤ f.length) := by
  refine ⟨⟨?_, fun h => ⟨_, fetch8_of_lt h⟩⟩,
    ⟨?_, fun h => ⟨_, fetch16_of_le h⟩⟩,
    ⟨?_, fun h => ⟨_, fetch32_of_le h⟩⟩⟩
  · rintro ⟨v, hFetch⟩
    by_contra hOut
    have hNone : f[off]? = none := by
      simp
      omega
    simp [fetch8, fetch, ByteSeq.load8, hNone] at hFetch
  · rintro ⟨v, hFetch⟩
    by_contra hOut
    have hNone : f[off + 1]? = none := by
      simp
      omega
    simp [fetch16, fetch, ByteSeq.load16, hNone] at hFetch
  · rintro ⟨v, hFetch⟩
    by_contra hOut
    have hNone : f[off + 2 + 1]? = none := by
      simp
      omega
    simp [fetch32, fetch, ByteSeq.load32, ByteSeq.load16,
      hNone] at hFetch

/-
  No function of the packet program reads outside the frame,
  whatever the frame, the maps and the offset it is handed.
-/
theorem packet_reads_inside_frame
    (m : Maps nrCpus)
    (cpu : Fin nrCpus)
    (f : Frame) :
    (∃ header, parseEth f = .ok header) ∧
      (∀ proto hdr, ∃ r,
        parsePort cpu f proto hdr m = .ok r) ∧
      (∀ l3Offset, ∃ r,
        parseIpv4 cpu f l3Offset m = .ok r) ∧
      (∀ ethProto l3Offset, ∃ r,
        handleEthProtocol cpu f ethProto l3Offset m =
          .ok r) ∧
      ∃ r, xdpProgram cpu f m = .ok r := by
  refine ⟨⟨_, parseEth_eq f⟩,
    fun proto hdr => ⟨_, parsePort_eq m cpu f proto hdr⟩,
    fun l3Offset => ⟨_, parseIpv4_eq m cpu f l3Offset⟩,
    ?_, ⟨_, xdpProgram_eq m cpu f⟩⟩
  intro ethProto l3Offset
  by_cases hIp : ethProto = ETH_P_IP
  · exact ⟨_, by
      rw [handleEthProtocol, if_pos hIp, parseIpv4_eq]⟩
  · exact ⟨(.pass, m), by
      rw [handleEthProtocol, if_neg hIp]
      rfl⟩

------------------------------------------------------------
-- The Header the Filter Decides On
------------------------------------------------------------

/-
  The filter's verdict on a frame is that of the port at the
  end of the IPv4 header, options included.
-/
def DecidesOnRealHeader
    (m : Maps nrCpus)
    (cpu : Fin nrCpus)
    (e : EthFrame)
    (fproto : DdosFilter) : Prop :=
  xdpVerdict cpu e.bytes m =
    .ok (if m.PortBit cpu fproto
        (e.payload.be16At (4 * Ipv4.ihl e.payload + 2)) then
      .drop else .pass)

/-
  An unfragmented TCP or UDP frame with its whole IPv4 and
  transport headers.
-/
structure WholeTransportFrame
    (e : EthFrame)
    (fproto : DdosFilter) : Prop where
  tags_le : e.tags.length ≤ 2
  isIpv4 : e.ethertype = ETH_P_IP
  unfragmented : Ipv4.Unfragmented e.payload
  ihl_ge : 5 ≤ Ipv4.ihl e.payload
  protocol_eq : Ipv4.protocol e.payload = fproto.ipproto
  header_le :
    4 * Ipv4.ihl e.payload + fproto.hdrSize ≤
      e.payload.length

/- The port bytes the filter reads are those at offset 22. -/
theorem xdpVerdict_of_wholeTransport
    {m : Maps nrCpus}
    {e : EthFrame}
    {fproto : DdosFilter}
    (cpu : Fin nrCpus)
    (hFrame : WholeTransportFrame e fproto)
    (hSrc :
      ¬ m.blacklist.Contains (Ipv4.saddr e.payload)) :
    xdpVerdict cpu e.bytes m =
      .ok (if m.PortBit cpu fproto
          (e.payload.be16At (IP_HDR_SIZE + 2)) then
        .drop else .pass) := by
  have hIhl := hFrame.ihl_ge
  have hHeader := hFrame.header_le
  have hFixed :
      IP_HDR_SIZE + fproto.hdrSize ≤ e.payload.length := by
    simp only [IP_HDR_SIZE]
    omega
  have hIpHeader : IP_HDR_SIZE ≤ e.payload.length := by
    omega
  rw [xdpVerdict_eq,
    EthFrame.view_bytes e hFrame.tags_le hFrame.isIpv4,
    EthFrame.ipv4View_of_le hIpHeader,
    EthFrame.layer4_of_le hFrame.protocol_eq hFixed,
    Maps.verdict, if_neg hSrc, Maps.portVerdict]

/-
  The filter decides on the real transport header exactly
  when there are no options, or when the bytes 22 into the
  packet name a port with the same rule.
-/
theorem decidesOnRealHeader_iff
    (m : Maps nrCpus)
    (cpu : Fin nrCpus)
    (e : EthFrame)
    (fproto : DdosFilter)
    (hFrame : WholeTransportFrame e fproto)
    (hSrc :
      ¬ m.blacklist.Contains (Ipv4.saddr e.payload)) :
    DecidesOnRealHeader m cpu e fproto ↔
      Ipv4.ihl e.payload = 5 ∨
        (m.PortBit cpu fproto (e.payload.be16At 22) ↔
          m.PortBit cpu fproto
            (e.payload.be16At
              (4 * Ipv4.ihl e.payload + 2))) := by
  rw [DecidesOnRealHeader,
    xdpVerdict_of_wholeTransport cpu hFrame hSrc]
  change _ ↔ _ ∨
    (m.PortBit cpu fproto
      (e.payload.be16At (IP_HDR_SIZE + 2)) ↔ _)
  constructor
  · intro hVerdict
    refine Or.inr ⟨?_, ?_⟩
    · intro hRead
      by_contra hReal
      simp [hRead, hReal] at hVerdict
    · intro hReal
      by_contra hRead
      simp [hRead, hReal] at hVerdict
  · rintro (hIhl | hAgree)
    · rw [hIhl]
      rfl
    · simp only [hAgree]

/- A TCP packet to port 80 behind four option bytes. -/
def optionFrame : EthFrame where
  macs := Vector.replicate 12 0
  tags := []
  ethertype := ETH_P_IP
  payload :=
    [0x46, 0, 0, 44, 0, 0, 0, 0, 64, 6, 0, 0,
      10, 0, 0, 1, 10, 0, 0, 2, 1, 1, 1, 1,
      0x30, 0x39, 0, 80, 0, 0, 0, 0, 0, 0, 0, 0,
      0x50, 2, 0, 0, 0, 0, 0, 0]

/- TCP port 80 is blocked on the only CPU. -/
def tcp80Blocked : Maps 1 :=
  { Maps.fresh with
    portBlacklist :=
      PercpuArray.fresh.setSlots (Maps.portIndex 80)
        (fun _ => 1) }

theorem optionFrame_wholeTransport :
    WholeTransportFrame optionFrame .tcp where
  tags_le := by decide
  isIpv4 := rfl
  unfragmented := by
    unfold Ipv4.Unfragmented
    decide
  ihl_ge := by decide
  protocol_eq := by decide
  header_le := by decide

theorem optionFrame_source_absent :
    ¬ tcp80Blocked.blacklist.Contains
      (Ipv4.saddr optionFrame.payload) := by
  simp [tcp80Blocked, Maps.fresh, PercpuHash.Contains]

/- The rule for port 80 is read as one for port 257. -/
theorem optionFrame_slips_past :
    WholeTransportFrame optionFrame .tcp ∧
      ¬ tcp80Blocked.blacklist.Contains
        (Ipv4.saddr optionFrame.payload) ∧
      ¬ DecidesOnRealHeader tcp80Blocked 0
        optionFrame .tcp := by
  refine ⟨optionFrame_wholeTransport,
    optionFrame_source_absent, ?_⟩
  have hRead :
      ¬ tcp80Blocked.PortBit 0 .tcp
        (optionFrame.payload.be16At (IP_HDR_SIZE + 2)) := by
    decide
  have hReal :
      tcp80Blocked.PortBit 0 .tcp
        (optionFrame.payload.be16At
          (4 * Ipv4.ihl optionFrame.payload + 2)) := by
    decide
  rw [DecidesOnRealHeader,
    xdpVerdict_of_wholeTransport 0 optionFrame_wholeTransport
      optionFrame_source_absent,
    if_neg hRead, if_pos hReal]
  simp

theorem decidesOnRealHeader_iff_optionFrame :
    DecidesOnRealHeader tcp80Blocked 0 optionFrame .tcp ↔
      Ipv4.ihl optionFrame.payload = 5 ∨
        (tcp80Blocked.PortBit 0 .tcp
            (optionFrame.payload.be16At 22) ↔
          tcp80Blocked.PortBit 0 .tcp
            (optionFrame.payload.be16At
              (4 * Ipv4.ihl optionFrame.payload + 2))) :=
  decidesOnRealHeader_iff tcp80Blocked 0 optionFrame .tcp
    optionFrame_wholeTransport optionFrame_source_absent

end XdpDdos
