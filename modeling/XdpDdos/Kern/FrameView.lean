import XdpDdos.Kern.Program
import XdpDdos.Lib.Reactive

/-
  What the packet program decides, without reading memory.

  A frame is viewed once, by total reads, as the facts the
  program uses: whether layer 2 was understood, the IPv4
  source, and the transport port.  The program's verdict and
  its effect on the maps are functions of this view, so it
  never reads outside the frame.

  Main declarations:
    * `FrameView`, `Frame.view`
    * `Maps.verdict`, `Maps.afterFrame`
    * `xdpProgram_eq`
-/

------------------------------------------------------------
-- Views
------------------------------------------------------------

namespace XdpDdos

/- What the bytes behind the IPv4 header are taken for. -/
inductive Layer4 where
  | other
  | short
  | port (fproto : DdosFilter) (dport : BitVec 16)
  deriving Repr, DecidableEq

/- The facts about a frame that the program acts on. -/
inductive FrameView where
  | skipped
  | notIpv4
  | shortIpv4
  | ipv4 (src : BitVec 32) (l4 : Layer4)
  deriving Repr, DecidableEq

/- The ethertypes that announce a VLAN tag. -/
def IsVlanType (ethType : BitVec 16) : Prop :=
  ethType = ETH_P_8021Q ∨ ethType = ETH_P_8021AD

instance (ethType : BitVec 16) :
    Decidable (IsVlanType ethType) := by
  unfold IsVlanType
  infer_instance

namespace Frame

/- Step over one tag, in host byte order. -/
def skipTag
    (f : Frame)
    (ethType : BitVec 16)
    (offset : ℕ) : Option (BitVec 16 × ℕ) :=
  if IsVlanType ethType then
    if offset + VLAN_HDR_SIZE ≤ f.length then
      some (f.be16At (offset + 2), offset + VLAN_HDR_SIZE)
    else none
  else some (ethType, offset)

/- The network protocol and the offset of its header. -/
def layer2 (f : Frame) : Option (BitVec 16 × ℕ) :=
  if f.length < ETH_HDR_SIZE then none
  else if f.be16At 12 < ETH_P_802_3_MIN then none
  else
    (f.skipTag (f.be16At 12) ETH_HDR_SIZE).bind
      fun (ethType, offset) => f.skipTag ethType offset

/- The transport port at `hdr`, for TCP and UDP. -/
def layer4
    (f : Frame)
    (proto : BitVec 8)
    (hdr : ℕ) : Layer4 :=
  if proto = IPPROTO_UDP then
    if hdr + UDP_HDR_SIZE ≤ f.length then
      .port .udp (f.be16At (hdr + 2))
    else .short
  else if proto = IPPROTO_TCP then
    if hdr + TCP_HDR_SIZE ≤ f.length then
      .port .tcp (f.be16At (hdr + 2))
    else .short
  else .other

/- The view of the IPv4 packet at `offset`. -/
def ipv4View
    (f : Frame)
    (offset : ℕ) : FrameView :=
  if offset + IP_HDR_SIZE ≤ f.length then
    .ipv4 (f.le32At (offset + 12))
      (f.layer4 (f.byteAt (offset + 9))
        (offset + IP_HDR_SIZE))
  else .shortIpv4

/- The view of a whole frame. -/
def view (f : Frame) : FrameView :=
  match f.layer2 with
  | none => .skipped
  | some (ethType, offset) =>
      if ethType = ETH_P_IP then f.ipv4View offset
      else .notIpv4

end Frame

------------------------------------------------------------
-- Verdict and Effect of a View
------------------------------------------------------------

namespace Maps

variable {nrCpus : ℕ}

/- The array index of a port. -/
def portIndex
    (dport : BitVec 16) :
    Fin NR_PORTS :=
  ⟨dport.toNat, dport.isLt⟩

theorem portIndex_inj
    {dport dport' : BitVec 16} :
    portIndex dport = portIndex dport' ↔ dport = dport' := by
  rw [Fin.ext_iff]
  exact BitVec.toNat_inj

/- The rule for a protocol and port is set on `cpu`. -/
def PortBit
    (m : Maps nrCpus)
    (cpu : Fin nrCpus)
    (fproto : DdosFilter)
    (dport : BitVec 16) : Prop :=
  (m.portBlacklist.slots (portIndex dport) cpu).getLsbD
    fproto.index = true

instance
    (m : Maps nrCpus)
    (cpu : Fin nrCpus)
    (fproto : DdosFilter)
    (dport : BitVec 16) :
    Decidable (m.PortBit cpu fproto dport) := by
  unfold PortBit
  infer_instance

/- Verdict on the transport header. -/
def portVerdict
    (m : Maps nrCpus)
    (cpu : Fin nrCpus) : Layer4 → XdpAction
  | .other => .pass
  | .short => .aborted
  | .port fproto dport =>
      if m.PortBit cpu fproto dport then .drop else .pass

/- Verdict on a frame. -/
def verdict
    (m : Maps nrCpus)
    (cpu : Fin nrCpus) : FrameView → XdpAction
  | .skipped => .pass
  | .notIpv4 => .pass
  | .shortIpv4 => .aborted
  | .ipv4 src l4 =>
      if m.blacklist.Contains src then .drop
      else m.portVerdict cpu l4

/- Count a drop for a source address. -/
def countAddr
    (m : Maps nrCpus)
    (cpu : Fin nrCpus)
    (src : BitVec 32) : Maps nrCpus :=
  { m with blacklist := m.blacklist.bump src cpu }

/- Count a drop for a protocol and port, in 32 bits. -/
def countPort
    (m : Maps nrCpus)
    (cpu : Fin nrCpus)
    (fproto : DdosFilter)
    (dport : BitVec 16) : Maps nrCpus :=
  { m with
    dropCount := Function.update m.dropCount fproto
      ((m.dropCount fproto).setSlot (portIndex dport) cpu
        (bumpU32
          ((m.dropCount fproto).slots
            (portIndex dport) cpu))) }

/- The drop counter a frame increments, if any. -/
def countDrop
    (m : Maps nrCpus)
    (cpu : Fin nrCpus) : FrameView → Maps nrCpus
  | .ipv4 src l4 =>
      if m.blacklist.Contains src then m.countAddr cpu src
      else
        match l4 with
        | .port fproto dport =>
            if m.PortBit cpu fproto dport then
              m.countPort cpu fproto dport
            else m
        | _ => m
  | _ => m

/- The maps after a frame; a skipped frame is not counted. -/
def afterFrame
    (m : Maps nrCpus)
    (cpu : Fin nrCpus)
    (v : FrameView) : Maps nrCpus :=
  if v = .skipped then m
  else
    statsActionVerdict cpu (m.verdict cpu v)
      (m.countDrop cpu v)

end Maps

------------------------------------------------------------
-- What a Frame Can Do to the Maps
------------------------------------------------------------

variable {nrCpus : ℕ}

/-
  A frame is dropped for its source, dropped for its port,
  or not dropped; only a dropped frame counts anything.
-/
theorem Maps.countDrop_cases
    (m : Maps nrCpus)
    (cpu : Fin nrCpus)
    (v : FrameView) :
    (∃ src l4, v = .ipv4 src l4 ∧
        m.blacklist.Contains src ∧
        m.verdict cpu v = .drop ∧
        m.countDrop cpu v = m.countAddr cpu src) ∨
      (∃ src fproto dport,
        v = .ipv4 src (.port fproto dport) ∧
        ¬ m.blacklist.Contains src ∧
        m.PortBit cpu fproto dport ∧
        m.verdict cpu v = .drop ∧
        m.countDrop cpu v =
          m.countPort cpu fproto dport) ∨
      (m.verdict cpu v ≠ .drop ∧ m.countDrop cpu v = m) := by
  cases v with
  | skipped => exact Or.inr (Or.inr ⟨by simp [verdict], rfl⟩)
  | notIpv4 => exact Or.inr (Or.inr ⟨by simp [verdict], rfl⟩)
  | shortIpv4 =>
      exact Or.inr (Or.inr ⟨by simp [verdict], rfl⟩)
  | ipv4 src l4 =>
      by_cases hSrc : m.blacklist.Contains src
      · exact Or.inl ⟨src, l4, rfl, hSrc, by
          simp [verdict, hSrc], by simp [countDrop, hSrc]⟩
      · cases l4 with
        | other =>
            exact Or.inr (Or.inr ⟨by
              simp [verdict, portVerdict, hSrc], by
              simp [countDrop, hSrc]⟩)
        | short =>
            exact Or.inr (Or.inr ⟨by
              simp [verdict, portVerdict, hSrc], by
              simp [countDrop, hSrc]⟩)
        | port fproto dport =>
            by_cases hBit : m.PortBit cpu fproto dport
            · exact Or.inr (Or.inl ⟨src, fproto, dport, rfl,
                hSrc, hBit, by
                simp [verdict, portVerdict, hSrc, hBit], by
                simp [countDrop, hSrc, hBit]⟩)
            · exact Or.inr (Or.inr ⟨by
                simp [verdict, portVerdict, hSrc, hBit], by
                simp [countDrop, hSrc, hBit]⟩)

/- Verdict statistics change the verdict counters only. -/
theorem Maps.afterFrame_eq_countDrop
    (m : Maps nrCpus)
    (cpu : Fin nrCpus)
    (v : FrameView) :
    ∃ counters,
      m.afterFrame cpu v =
        { m.countDrop cpu v with verdictCnt := counters } := by
  unfold afterFrame statsActionVerdict
  by_cases hSkip : v = .skipped
  · rw [if_pos hSkip, hSkip]
    exact ⟨m.verdictCnt, rfl⟩
  · rw [if_neg hSkip]
    split
    · exact ⟨(m.countDrop cpu v).verdictCnt, rfl⟩
    · split
      · exact ⟨(m.countDrop cpu v).verdictCnt, rfl⟩
      · exact ⟨_, rfl⟩

@[simp] theorem Maps.afterFrame_blacklist
    (m : Maps nrCpus)
    (cpu : Fin nrCpus)
    (v : FrameView) :
    (m.afterFrame cpu v).blacklist =
      (m.countDrop cpu v).blacklist := by
  rcases m.afterFrame_eq_countDrop cpu v with ⟨_, hEq⟩
  rw [hEq]

@[simp] theorem Maps.afterFrame_dropCount
    (m : Maps nrCpus)
    (cpu : Fin nrCpus)
    (v : FrameView) :
    (m.afterFrame cpu v).dropCount =
      (m.countDrop cpu v).dropCount := by
  rcases m.afterFrame_eq_countDrop cpu v with ⟨_, hEq⟩
  rw [hEq]

/- Frames never change a rule. -/
@[simp] theorem Maps.afterFrame_portBlacklist
    (m : Maps nrCpus)
    (cpu : Fin nrCpus)
    (v : FrameView) :
    (m.afterFrame cpu v).portBlacklist =
      m.portBlacklist := by
  rcases m.afterFrame_eq_countDrop cpu v with ⟨_, hEq⟩
  rw [hEq]
  rcases m.countDrop_cases cpu v with
    ⟨_, _, _, _, _, hCount⟩ |
    ⟨_, _, _, _, _, _, _, hCount⟩ | ⟨_, hCount⟩
  · rw [hCount]
    rfl
  · rw [hCount]
    rfl
  · rw [hCount]

/- Frames never add or remove an address. -/
@[simp] theorem Maps.contains_afterFrame
    (m : Maps nrCpus)
    (cpu : Fin nrCpus)
    (v : FrameView)
    (key : BitVec 32) :
    (m.afterFrame cpu v).blacklist.Contains key ↔
      m.blacklist.Contains key := by
  rw [afterFrame_blacklist]
  rcases m.countDrop_cases cpu v with
    ⟨src, _, _, _, _, hCount⟩ |
    ⟨_, _, _, _, _, _, _, hCount⟩ | ⟨_, hCount⟩
  · rw [hCount]
    exact m.blacklist.contains_bump src key cpu
  · rw [hCount]
    rfl
  · rw [hCount]

------------------------------------------------------------
-- The Program Computes the View
------------------------------------------------------------

theorem swap16_inj
    {v w : BitVec 16} :
    swap16 v = swap16 w ↔ v = w := by
  constructor
  · intro hSwap
    simpa using congrArg swap16 hSwap
  · intro hEq
    rw [hEq]

theorem fetch8_of_lt
    {f : Frame}
    {off : ℕ}
    (hOff : off < f.length) :
    fetch8 f off = .ok (f.byteAt off) := by
  simp [fetch8, fetch, ByteSeq.load8_of_lt hOff]

theorem fetch16_of_le
    {f : Frame}
    {off : ℕ}
    (hOff : off + 2 ≤ f.length) :
    fetch16 f off = .ok (htons (f.be16At off)) := by
  simp [fetch16, fetch, ByteSeq.load16_of_le hOff, htons]

theorem fetch32_of_le
    {f : Frame}
    {off : ℕ}
    (hOff : off + 4 ≤ f.length) :
    fetch32 f off = .ok (f.le32At off) := by
  simp [fetch32, fetch, ByteSeq.load32_of_le hOff]

@[simp] theorem ntohs_htons
    (w : BitVec 16) :
    ntohs (htons w) = w := by
  simp [ntohs, htons]

@[simp] theorem htons_inj
    {v w : BitVec 16} :
    htons v = htons w ↔ v = w :=
  swap16_inj

/- One VLAN block never faults. -/
theorem skipVlanTag_eq
    (f : Frame)
    (ethType : BitVec 16)
    (offset : ℕ) :
    skipVlanTag f (htons ethType) offset =
      .ok ((f.skipTag ethType offset).map
        fun (ethType, offset) => (htons ethType, offset)) := by
  by_cases hTag : IsVlanType ethType
  · have hTest :
        ethType = ETH_P_8021Q ∨ ethType = ETH_P_8021AD := hTag
    simp only [skipVlanTag, Frame.skipTag, htons_inj, hTest,
      hTag, if_true]
    by_cases hLen : offset + VLAN_HDR_SIZE ≤ f.length
    · have hField : offset + 2 + 2 ≤ f.length := hLen
      simp [hLen, fetch16_of_le hField]
    · simp [hLen]
  · have hTest :
        ¬ (ethType = ETH_P_8021Q ∨
          ethType = ETH_P_8021AD) := hTag
    simp only [skipVlanTag, Frame.skipTag, htons_inj, hTest,
      hTag, if_false]
    rfl

/- `parse_eth` computes the layer 2 view. -/
theorem parseEth_eq
    (f : Frame) :
    parseEth f = .ok f.layer2 := by
  by_cases hLen : f.length < ETH_HDR_SIZE
  · simp [parseEth, Frame.layer2, hLen]
  · have hField : 12 + 2 ≤ f.length := Nat.le_of_not_lt hLen
    by_cases hMin : f.be16At 12 < ETH_P_802_3_MIN
    · simp [parseEth, Frame.layer2, hLen, hMin,
        fetch16_of_le hField]
    · simp only [parseEth, Frame.layer2, hLen, hMin,
        fetch16_of_le hField, if_false, except_ok_bind,
        ntohs_htons, skipVlanTag_eq,
        except_pure]
      cases f.skipTag (f.be16At 12) ETH_HDR_SIZE with
      | none => simp
      | some first =>
          rcases first with ⟨ethType, offset⟩
          simp only [Option.map_some, Option.bind_some,
            skipVlanTag_eq, except_ok_bind]
          cases f.skipTag ethType offset with
          | none => simp
          | some second => simp

theorem index?_port
    (dport : BitVec 16) :
    PercpuArray.index? (dport.setWidth 32) =
      some (Maps.portIndex dport) := by
  have hPort : (dport.setWidth 32).toNat = dport.toNat := by
    simp
    omega
  rw [PercpuArray.index?_of_lt (by rw [hPort]; exact dport.isLt)]
  simp [Maps.portIndex, hPort]

theorem mask_test_iff
    (slot : BitVec 64)
    (fproto : DdosFilter) :
    loadU32 slot &&& (1#32 <<< fproto.index) ≠ 0 ↔
      slot.getLsbD fproto.index = true := by
  have hIndex : fproto.index < 32 := by
    cases fproto <;> decide
  have hBit : BitVec.twoPow 32 fproto.index ≠ 0 := by
    cases fproto <;> decide
  rw [← BitVec.twoPow_eq, BitVec.and_twoPow]
  by_cases hSet : slot.getLsbD fproto.index = true
  · simpa [loadU32, hIndex, hSet] using hBit
  · simp [loadU32, hSet]

theorem matchPort_eq
    (m : Maps nrCpus)
    (cpu : Fin nrCpus)
    (dport : BitVec 16)
    (fproto : DdosFilter) :
    matchPort cpu dport fproto m =
      if m.PortBit cpu fproto dport then
        (.drop, m.countPort cpu fproto dport)
      else (.pass, m) := by
  simp only [matchPort, index?_port]
  by_cases hBit : m.PortBit cpu fproto dport
  · rw [if_pos ((mask_test_iff _ fproto).mpr hBit),
      if_pos hBit]
    rfl
  · rw [if_neg (fun hTest =>
        hBit ((mask_test_iff _ fproto).mp hTest)),
      if_neg hBit]

theorem parsePort_eq
    (m : Maps nrCpus)
    (cpu : Fin nrCpus)
    (f : Frame)
    (proto : BitVec 8)
    (hdr : ℕ) :
    parsePort cpu f proto hdr m =
      .ok (match f.layer4 proto hdr with
        | .other => (.pass, m)
        | .short => (.aborted, m)
        | .port fproto dport =>
            matchPort cpu dport fproto m) := by
  by_cases hUdp : proto = IPPROTO_UDP
  · by_cases hLen : hdr + UDP_HDR_SIZE ≤ f.length
    · have hField : hdr + 2 + 2 ≤ f.length := by
        simp only [UDP_HDR_SIZE] at hLen
        omega
      simp [parsePort, Frame.layer4, hUdp, hLen,
        Nat.not_lt.mpr hLen, fetch16_of_le hField]
    · simp [parsePort, Frame.layer4, hUdp, hLen]
  · by_cases hTcp : proto = IPPROTO_TCP
    · have hNotUdp : IPPROTO_TCP ≠ IPPROTO_UDP := by decide
      by_cases hLen : hdr + TCP_HDR_SIZE ≤ f.length
      · have hField : hdr + 2 + 2 ≤ f.length := by
          simp only [TCP_HDR_SIZE] at hLen
          omega
        simp [parsePort, Frame.layer4, hNotUdp, hTcp, hLen,
          Nat.not_lt.mpr hLen, fetch16_of_le hField]
      · simp [parsePort, Frame.layer4, hNotUdp, hTcp, hLen]
    · simp [parsePort, Frame.layer4, hUdp, hTcp]

/- Counting at an address rewrites one slot of its entry. -/
theorem countAddr_eq
    {m : Maps nrCpus}
    {src : BitVec 32}
    {value : Slots nrCpus}
    (cpu : Fin nrCpus)
    (hEntry : m.blacklist.slots? src = some value) :
    m.countAddr cpu src =
      { m with
        blacklist :=
          m.blacklist.setSlot src cpu (value cpu + 1) } := by
  simp [Maps.countAddr, PercpuHash.bump, hEntry]

theorem parseIpv4_eq
    (m : Maps nrCpus)
    (cpu : Fin nrCpus)
    (f : Frame)
    (offset : ℕ) :
    parseIpv4 cpu f offset m =
      .ok (m.verdict cpu (f.ipv4View offset),
        m.countDrop cpu (f.ipv4View offset)) := by
  by_cases hLen : offset + IP_HDR_SIZE ≤ f.length
  · have hSrc : offset + 12 + 4 ≤ f.length := by
      simp only [IP_HDR_SIZE] at hLen
      omega
    have hProto : offset + 9 < f.length := by omega
    simp only [parseIpv4, gt_iff_lt, Nat.not_lt.mpr hLen,
      if_false, fetch32_of_le hSrc, except_ok_bind,
      fetch8_of_lt hProto, parsePort_eq, Frame.ipv4View,
      hLen, if_true, Maps.verdict, Maps.countDrop,
      except_pure]
    cases hEntry : m.blacklist.slots? (f.le32At (offset + 12)) with
    | some value =>
        have hIn :
            m.blacklist.Contains (f.le32At (offset + 12)) := by
          simp [PercpuHash.Contains, hEntry]
        simp [hIn, countAddr_eq cpu hEntry]
    | none =>
        have hOut :
            ¬ m.blacklist.Contains
              (f.le32At (offset + 12)) := by
          simp [PercpuHash.Contains, hEntry]
        simp only [hOut, if_false]
        cases f.layer4 (f.byteAt (offset + 9))
            (offset + IP_HDR_SIZE) with
        | other => rfl
        | short => rfl
        | port fproto dport =>
            by_cases hBit : m.PortBit cpu fproto dport
            · simp [matchPort_eq, Maps.portVerdict, hBit]
            · simp [matchPort_eq, Maps.portVerdict, hBit]
  · simp [parseIpv4, Frame.ipv4View, hLen, Maps.verdict,
      Maps.countDrop]

/-
  The program never faults; its verdict and its effect are
  those of the frame's view.
-/
theorem xdpProgram_eq
    (m : Maps nrCpus)
    (cpu : Fin nrCpus)
    (f : Frame) :
    xdpProgram cpu f m =
      .ok (m.verdict cpu f.view, m.afterFrame cpu f.view) := by
  simp only [xdpProgram, parseEth_eq, except_ok_bind,
    Frame.view]
  cases f.layer2 with
  | none => rfl
  | some header =>
      rcases header with ⟨ethType, offset⟩
      by_cases hIp : ethType = ETH_P_IP
      · have hCounted : f.ipv4View offset ≠ .skipped := by
          unfold Frame.ipv4View
          split <;> simp
        simp [handleEthProtocol, hIp, parseIpv4_eq,
          Maps.afterFrame, hCounted]
      · simp [handleEthProtocol, hIp, Maps.afterFrame,
          Maps.verdict, Maps.countDrop]

/- The verdict the program returns, without its effect. -/
def xdpVerdict
    (cpu : Fin nrCpus)
    (f : Frame)
    (m : Maps nrCpus) : Except Fault XdpAction :=
  (xdpProgram cpu f m).map Prod.fst

theorem xdpVerdict_eq
    (m : Maps nrCpus)
    (cpu : Fin nrCpus)
    (f : Frame) :
    xdpVerdict cpu f m = .ok (m.verdict cpu f.view) := by
  rw [xdpVerdict, xdpProgram_eq]
  rfl

/- The program as a step; a fault would change nothing. -/
def frameStep
    (cpu : Fin nrCpus)
    (m : Maps nrCpus)
    (f : Frame) : Except Fault XdpAction × Maps nrCpus :=
  match xdpProgram cpu f m with
  | .ok (action, m') => (.ok action, m')
  | .error fault => (.error fault, m)

theorem frameStep_eq
    (m : Maps nrCpus)
    (cpu : Fin nrCpus)
    (f : Frame) :
    frameStep cpu m f =
      (.ok (m.verdict cpu f.view),
        m.afterFrame cpu f.view) := by
  rw [frameStep, xdpProgram_eq]

end XdpDdos
