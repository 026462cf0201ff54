import XdpDdos.Kern.FrameView

/-
  Ethernet frames as they are built, field by field.

  A frame is two MAC addresses, a stack of VLAN tags, an
  ethertype and a payload.  For an IPv4 frame with at most
  two tags the view of the whole frame is the view of its
  payload.

  Main declarations:
    * `VlanTag`, `EthFrame`, `EthFrame.bytes`
    * `Ipv4`
    * `EthFrame.layer2_bytes`, `EthFrame.view_bytes`
-/

------------------------------------------------------------
-- Building Frames
------------------------------------------------------------

namespace XdpDdos

/- A halfword in network order. -/
def be16Bytes (w : BitVec 16) : ByteSeq :=
  [w.extractLsb' 8 8, w.extractLsb' 0 8]

/- A VLAN tag: one of the two tag protocols, and the TCI. -/
structure VlanTag where
  tpid : BitVec 16
  tci : BitVec 16
  isVlan : IsVlanType tpid

def VlanTag.bytes (tag : VlanTag) : ByteSeq :=
  be16Bytes tag.tpid ++ be16Bytes tag.tci

/- An Ethernet frame; `macs` are both MAC addresses. -/
structure EthFrame where
  macs : Vector Byte 12
  tags : List VlanTag
  ethertype : BitVec 16
  payload : ByteSeq

namespace EthFrame

/- Everything in front of the payload. -/
def header (e : EthFrame) : ByteSeq :=
  e.macs.toList ++
    (e.tags.flatMap VlanTag.bytes ++ be16Bytes e.ethertype)

/- The frame on the wire. -/
def bytes (e : EthFrame) : Frame :=
  e.header ++ e.payload

end EthFrame

------------------------------------------------------------
-- IPv4 Header Fields
------------------------------------------------------------

namespace Ipv4

/- Header length in units of four bytes. -/
def ihl (p : ByteSeq) : ℕ :=
  (p.byteAt 0 &&& 0x0F).toNat

/- Neither "more fragments" nor a fragment offset is set. -/
def Unfragmented (p : ByteSeq) : Prop :=
  p.be16At 6 &&& 0x3FFF = 0

def protocol (p : ByteSeq) : BitVec 8 :=
  p.byteAt 9

/- The source address, in memory order. -/
def saddr (p : ByteSeq) : BitVec 32 :=
  p.le32At 12

end Ipv4

/- The number of a rule's protocol in the IPv4 header. -/
def DdosFilter.ipproto : DdosFilter → BitVec 8
  | .tcp => IPPROTO_TCP
  | .udp => IPPROTO_UDP

theorem DdosFilter.ipproto_inj
    {fproto fproto' : DdosFilter}
    (hProto : fproto.ipproto = fproto'.ipproto) :
    fproto = fproto' := by
  revert hProto
  cases fproto <;> cases fproto' <;> decide

/- Size of the fixed part of the transport header. -/
def DdosFilter.hdrSize : DdosFilter → ℕ
  | .tcp => TCP_HDR_SIZE
  | .udp => UDP_HDR_SIZE

------------------------------------------------------------
-- Reading a Built Frame
------------------------------------------------------------

@[simp] theorem length_be16Bytes
    (w : BitVec 16) :
    (be16Bytes w).length = 2 := rfl

@[simp] theorem VlanTag.length_bytes
    (tag : VlanTag) :
    tag.bytes.length = 4 := rfl

/- A tag protocol is an Ethernet II type. -/
theorem VlanTag.min_le_tpid
    (tag : VlanTag) :
    ETH_P_802_3_MIN ≤ tag.tpid := by
  rcases tag.isVlan with hQ | hAd
  · rw [hQ]
    decide
  · rw [hAd]
    decide

theorem extract_append_extract
    (w : BitVec 16) :
    (w.extractLsb' 8 8 ++ w.extractLsb' 0 8 : BitVec 16) =
      w := by
  ext i hi
  grind

/- A halfword is read back where it was written. -/
theorem be16At_be16Bytes
    (w : BitVec 16)
    (rest : ByteSeq) :
    (be16Bytes w ++ rest).be16At 0 = w :=
  extract_append_extract w

namespace EthFrame

theorem length_flatMap_tags
    (tags : List VlanTag) :
    (tags.flatMap VlanTag.bytes).length =
      4 * tags.length := by
  induction tags with
  | nil => rfl
  | cons tag tags ih =>
      simp only [List.flatMap_cons, List.length_append, ih,
        VlanTag.length_bytes, List.length_cons]
      omega

@[simp] theorem length_header
    (e : EthFrame) :
    e.header.length = 14 + 4 * e.tags.length := by
  simp only [header, List.length_append, length_flatMap_tags,
    Vector.length_toList, length_be16Bytes]
  omega

/- The ethertype field behind the first `k` tags. -/
def typeAt
    (e : EthFrame)
    (k : ℕ) : BitVec 16 :=
  match e.tags[k]? with
  | some tag => tag.tpid
  | none => e.ethertype

/- The frame cut at the ethertype field behind `k` tags. -/
private theorem bytes_split
    (e : EthFrame)
    (k : ℕ) :
    e.bytes =
      (e.macs.toList ++
          (e.tags.take k).flatMap VlanTag.bytes) ++
        ((e.tags.drop k).flatMap VlanTag.bytes ++
          (be16Bytes e.ethertype ++ e.payload)) := by
  have hTags :
      e.tags.flatMap VlanTag.bytes =
        (e.tags.take k).flatMap VlanTag.bytes ++
          (e.tags.drop k).flatMap VlanTag.bytes := by
    rw [← List.flatMap_append, List.take_append_drop]
  simp only [bytes, header, hTags, List.append_assoc]

theorem be16At_bytes
    (e : EthFrame)
    {k : ℕ}
    (hDepth : k ≤ e.tags.length) :
    e.bytes.be16At (12 + 4 * k) = e.typeAt k := by
  have hLength :
      12 + 4 * k =
        (e.macs.toList ++
          (e.tags.take k).flatMap VlanTag.bytes).length +
            0 := by
    simp only [List.length_append, length_flatMap_tags,
      Vector.length_toList, List.length_take,
      Nat.min_eq_left hDepth, Nat.add_zero]
  rw [hLength, bytes_split e k,
    ByteSeq.be16At_append_right, typeAt]
  cases hTag : e.tags[k]? with
  | none =>
      have hDrop : e.tags.drop k = [] := by
        simpa using hTag
      rw [hDrop]
      exact be16At_be16Bytes _ _
  | some tag =>
      rcases List.getElem?_eq_some_iff.mp hTag with
        ⟨hInside, rfl⟩
      rw [List.drop_eq_getElem_cons hInside]
      simp only [List.flatMap_cons, VlanTag.bytes,
        List.append_assoc]
      exact be16At_be16Bytes _ _

@[simp] theorem length_bytes
    (e : EthFrame) :
    e.bytes.length =
      14 + 4 * e.tags.length + e.payload.length := by
  simp [bytes]

/- Behind the last tag stands the ethertype. -/
theorem typeAt_length
    (e : EthFrame) :
    e.typeAt e.tags.length = e.ethertype := by
  simp [typeAt]

/- One VLAN block moves one tag deeper, down to the last. -/
theorem skipTag_bytes
    (e : EthFrame)
    (hPlain : ¬ IsVlanType e.ethertype)
    {k : ℕ}
    (hDepth : k ≤ e.tags.length) :
    Frame.skipTag e.bytes (e.typeAt k) (14 + 4 * k) =
      some (e.typeAt (min (k + 1) e.tags.length),
        14 + 4 * min (k + 1) e.tags.length) := by
  rcases Nat.lt_or_eq_of_le hDepth with hInside | hEnd
  · have hTag : IsVlanType (e.typeAt k) := by
      simpa [typeAt, hInside] using (e.tags[k]).isVlan
    have hRoom :
        14 + 4 * k + VLAN_HDR_SIZE ≤ e.bytes.length := by
      simp only [length_bytes, VLAN_HDR_SIZE]
      omega
    have hField : 14 + 4 * k + 2 = 12 + 4 * (k + 1) := by
      omega
    have hNext : 14 + 4 * k + VLAN_HDR_SIZE =
        14 + 4 * (k + 1) := by
      simp only [VLAN_HDR_SIZE]
      omega
    rw [Frame.skipTag, if_pos hTag, if_pos hRoom, hField,
      hNext, be16At_bytes e hInside, Nat.min_eq_left hInside]
  · have hType : ¬ IsVlanType (e.typeAt k) := by
      rwa [hEnd, typeAt_length]
    have hStop : min (k + 1) e.tags.length = k := by
      omega
    rw [Frame.skipTag, if_neg hType, hStop]

/- The first ethertype field is an Ethernet II type. -/
theorem min_le_typeAt_zero
    (e : EthFrame)
    (hMin : e.tags ≠ [] ∨ ETH_P_802_3_MIN ≤ e.ethertype) :
    ETH_P_802_3_MIN ≤ e.typeAt 0 := by
  cases hFirst : e.tags[0]? with
  | none =>
      have hNone : e.tags = [] := by
        simpa using hFirst
      rw [typeAt, hFirst]
      exact hMin.resolve_left (fun hSome => hSome hNone)
  | some tag =>
      rw [typeAt, hFirst]
      exact tag.min_le_tpid

/-
  With at most two tags in front of any ethertype, layer 2
  parsing finds the ethertype and the start of the payload.
-/
theorem layer2_bytes
    (e : EthFrame)
    (hTags : e.tags.length ≤ 2)
    (hPlain : ¬ IsVlanType e.ethertype)
    (hMin : ETH_P_802_3_MIN ≤ e.typeAt 0) :
    Frame.layer2 e.bytes =
      some (e.ethertype, 14 + 4 * e.tags.length) := by
  have hLong : ¬ e.bytes.length < ETH_HDR_SIZE := by
    simp only [length_bytes, ETH_HDR_SIZE]
    omega
  have hFirst : e.bytes.be16At 12 = e.typeAt 0 :=
    be16At_bytes (k := 0) e (Nat.zero_le _)
  have hEthernet : ¬ e.typeAt 0 < ETH_P_802_3_MIN := by
    rw [BitVec.not_lt]
    exact hMin
  have hOuter := skipTag_bytes e hPlain (Nat.zero_le _)
  have hInner := skipTag_bytes e hPlain
    (Nat.min_le_right (0 + 1) e.tags.length)
  have hDepth :
      min (min (0 + 1) e.tags.length + 1) e.tags.length =
        e.tags.length := by
    omega
  rw [hDepth, typeAt_length] at hInner
  rw [Frame.layer2, if_neg hLong, hFirst, if_neg hEthernet]
  have hStart : ETH_HDR_SIZE = 14 + 4 * 0 := rfl
  rw [hStart, hOuter, Option.bind_some]
  exact hInner

------------------------------------------------------------
-- IPv4 Frames
------------------------------------------------------------

/- Transport bytes behind a prefix are those of the suffix. -/
theorem layer4_append_right
    (front back : ByteSeq)
    (proto : BitVec 8)
    (hdr : ℕ) :
    Frame.layer4 (front ++ back) proto
        (front.length + hdr) =
      Frame.layer4 back proto hdr := by
  simp only [Frame.layer4, List.length_append, Nat.add_assoc,
    ByteSeq.be16At_append_right, Nat.add_le_add_iff_left]

/- A packet behind a prefix is viewed as if it stood alone. -/
theorem ipv4View_append_right
    (front back : ByteSeq) :
    Frame.ipv4View (front ++ back) front.length =
      Frame.ipv4View back 0 := by
  simp only [Frame.ipv4View, List.length_append,
    Nat.add_le_add_iff_left, ByteSeq.le32At_append_right,
    ByteSeq.byteAt_append_right, layer4_append_right,
    Nat.zero_add]

/-
  Once layer 2 is understood, nothing is left of the tags in
  the view of a frame.
-/
theorem view_bytes_of_first
    (e : EthFrame)
    (hTags : e.tags.length ≤ 2)
    (hPlain : ¬ IsVlanType e.ethertype)
    (hMin : ETH_P_802_3_MIN ≤ e.typeAt 0) :
    Frame.view e.bytes =
      if e.ethertype = ETH_P_IP then
        Frame.ipv4View e.payload 0
      else .notIpv4 := by
  rw [Frame.view, layer2_bytes e hTags hPlain hMin]
  change (if e.ethertype = ETH_P_IP then _ else _) = _
  rw [← length_header, bytes, ipv4View_append_right]

/- The view of an IPv4 frame is that of its packet. -/
theorem view_bytes
    (e : EthFrame)
    (hTags : e.tags.length ≤ 2)
    (hIp : e.ethertype = ETH_P_IP) :
    Frame.view e.bytes = Frame.ipv4View e.payload 0 := by
  have hMin : ETH_P_802_3_MIN ≤ e.ethertype := by
    rw [hIp]
    decide
  rw [view_bytes_of_first e hTags (by rw [hIp]; decide)
    (min_le_typeAt_zero e (Or.inr hMin)), if_pos hIp]

/- The view of a packet that holds its fixed header. -/
theorem ipv4View_of_le
    {p : ByteSeq}
    (hHeader : IP_HDR_SIZE ≤ p.length) :
    Frame.ipv4View p 0 =
      .ipv4 (Ipv4.saddr p)
        (Frame.layer4 p (Ipv4.protocol p) IP_HDR_SIZE) := by
  rw [Frame.ipv4View, if_pos (by omega)]
  rfl

/- A complete TCP or UDP header behind `hdr` is read. -/
theorem layer4_of_le
    {p : ByteSeq}
    {fproto : DdosFilter}
    {hdr : ℕ}
    (hProto : Ipv4.protocol p = fproto.ipproto)
    (hHeader : hdr + fproto.hdrSize ≤ p.length) :
    Frame.layer4 p (Ipv4.protocol p) hdr =
      .port fproto (p.be16At (hdr + 2)) := by
  have hDistinct : IPPROTO_TCP ≠ IPPROTO_UDP := by decide
  cases fproto with
  | tcp =>
      have hFits : hdr + TCP_HDR_SIZE ≤ p.length := hHeader
      simp [Frame.layer4, hProto, DdosFilter.ipproto,
        hDistinct, hFits]
  | udp =>
      have hFits : hdr + UDP_HDR_SIZE ≤ p.length := hHeader
      simp [Frame.layer4, hProto, DdosFilter.ipproto, hFits]

/- An incomplete TCP or UDP header is short. -/
theorem layer4_of_gt
    {p : ByteSeq}
    {fproto : DdosFilter}
    {hdr : ℕ}
    (hProto : Ipv4.protocol p = fproto.ipproto)
    (hHeader : ¬ hdr + fproto.hdrSize ≤ p.length) :
    Frame.layer4 p (Ipv4.protocol p) hdr = .short := by
  have hDistinct : IPPROTO_TCP ≠ IPPROTO_UDP := by decide
  cases fproto with
  | tcp =>
      have hEnds : ¬ hdr + TCP_HDR_SIZE ≤ p.length := hHeader
      simp only [Frame.layer4, hProto, DdosFilter.ipproto,
        hDistinct, hEnds, if_true, if_false]
  | udp =>
      have hEnds : ¬ hdr + UDP_HDR_SIZE ≤ p.length := hHeader
      simp only [Frame.layer4, hProto, DdosFilter.ipproto,
        hEnds, if_true, if_false]

/- Other protocols have no ports. -/
theorem layer4_of_other
    {p : ByteSeq}
    {hdr : ℕ}
    (hProto :
      ∀ fproto : DdosFilter,
        Ipv4.protocol p ≠ fproto.ipproto) :
    Frame.layer4 p (Ipv4.protocol p) hdr = .other := by
  have hUdp : Ipv4.protocol p ≠ IPPROTO_UDP := hProto .udp
  have hTcp : Ipv4.protocol p ≠ IPPROTO_TCP := hProto .tcp
  simp only [Frame.layer4, hUdp, hTcp, if_false]

end EthFrame

end XdpDdos
