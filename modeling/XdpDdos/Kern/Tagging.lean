import XdpDdos.Kern.FrameFormat

/-
  VLAN tagging is transparent to the packet program.

  A frame of at least 14 bytes is cut into its fields, and
  the view of the fields with up to two tags does not depend
  on the tags.

  Main declarations:
    * `Frame.insertTags`
    * `EthFrame.ofFrame`, `EthFrame.bytes_ofFrame`
    * `view_insertTags`
    * `vlanTagging_transparent`
-/

------------------------------------------------------------
-- Inserting Tags
------------------------------------------------------------

namespace XdpDdos

/- The frame with tags behind its source MAC address. -/
def Frame.insertTags
    (tags : List VlanTag)
    (f : Frame) : Frame :=
  f.take 12 ++ (tags.flatMap VlanTag.bytes ++ f.drop 12)

namespace EthFrame

theorem size_macs
    (f : Frame)
    (hLen : ETH_HDR_SIZE ≤ f.length) :
    (f.take 12).toArray.size = 12 := by
  simp only [ETH_HDR_SIZE] at hLen
  rw [List.size_toArray, List.length_take]
  omega

/- The fields of a frame, with tags put in front. -/
def ofFrame
    (f : Frame)
    (hLen : ETH_HDR_SIZE ≤ f.length)
    (tags : List VlanTag) : EthFrame where
  macs := ⟨(f.take 12).toArray, size_macs f hLen⟩
  tags := tags
  ethertype := f.be16At 12
  payload := f.drop ETH_HDR_SIZE

/- The two bytes of a halfword are read back as they are. -/
theorem be16Bytes_append
    (hi lo : Byte) :
    be16Bytes (hi ++ lo) = [hi, lo] := by
  have hHigh : (hi ++ lo : BitVec 16).extractLsb' 8 8 = hi :=
    BitVec.extractLsb'_append_eq_left
  have hLow : (hi ++ lo : BitVec 16).extractLsb' 0 8 = lo :=
    BitVec.extractLsb'_append_eq_right
  rw [be16Bytes, hHigh, hLow]

/- The fields put together again are the tagged frame. -/
theorem bytes_ofFrame
    (f : Frame)
    (hLen : ETH_HDR_SIZE ≤ f.length)
    (tags : List VlanTag) :
    (ofFrame f hLen tags).bytes = f.insertTags tags := by
  have hType :
      f.drop 12 =
        be16Bytes (f.be16At 12) ++ f.drop ETH_HDR_SIZE := by
    have hHigh : 12 < f.length := by
      simp only [ETH_HDR_SIZE] at hLen
      omega
    have hLow : 12 + 1 < f.length := by
      simp only [ETH_HDR_SIZE] at hLen
      omega
    rw [ByteSeq.be16At, be16Bytes_append,
      List.drop_eq_getElem_cons hHigh,
      List.drop_eq_getElem_cons hLow]
    simp [ByteSeq.byteAt, List.getD_eq_getElem?_getD, hHigh,
      hLow, ETH_HDR_SIZE]
  rw [Frame.insertTags, hType]
  simp [bytes, header, ofFrame]

end EthFrame

------------------------------------------------------------
-- Transparency
------------------------------------------------------------

variable {nrCpus : ℕ}

/- The view of a frame after tags were inserted. -/
theorem view_insertTags
    {f : Frame}
    (hLen : ETH_HDR_SIZE ≤ f.length)
    (tags : List VlanTag)
    (hPlain : ¬ IsVlanType (f.be16At 12))
    (hTags : tags.length ≤ 2)
    (hMin :
      tags ≠ [] ∨ ETH_P_802_3_MIN ≤ f.be16At 12) :
    Frame.view (f.insertTags tags) =
      if f.be16At 12 = ETH_P_IP then
        Frame.ipv4View (f.drop ETH_HDR_SIZE) 0
      else .notIpv4 := by
  rw [← EthFrame.bytes_ofFrame f hLen tags]
  exact EthFrame.view_bytes_of_first _ hTags hPlain
    (EthFrame.min_le_typeAt_zero _ hMin)

/- An 802.3 frame is skipped. -/
theorem view_of_lt_min
    {f : Frame}
    (hLen : ETH_HDR_SIZE ≤ f.length)
    (hShort : f.be16At 12 < ETH_P_802_3_MIN) :
    f.view = .skipped := by
  rw [Frame.view, Frame.layer2, if_neg (Nat.not_lt.mpr hLen),
    if_pos hShort]

/-
  Inserting one or two tags into an untagged frame keeps its
  verdict, and all of the run if the frame is Ethernet II;
  an 802.3 length is skipped without tags and passed as not
  being IPv4 with tags.
-/
theorem vlanTagging_transparent
    (m : Maps nrCpus)
    (cpu : Fin nrCpus)
    (f : Frame)
    (tags : List VlanTag)
    (hLen : 14 ≤ f.length)
    (hPlain :
      f.be16At 12 ≠ 0x8100 ∧ f.be16At 12 ≠ 0x88A8)
    (hTags : tags.length = 1 ∨ tags.length = 2) :
    xdpVerdict cpu (f.insertTags tags) m =
        xdpVerdict cpu f m ∧
      (ETH_P_802_3_MIN ≤ f.be16At 12 →
        xdpProgram cpu (f.insertTags tags) m =
          xdpProgram cpu f m) := by
  have hNotVlan : ¬ IsVlanType (f.be16At 12) := by
    rintro (hQ | hAd)
    · exact hPlain.1 hQ
    · exact hPlain.2 hAd
  have hSome : tags ≠ [] := by
    rintro rfl
    simp at hTags
  have hTagged :=
    view_insertTags hLen tags hNotVlan (by omega)
      (Or.inl hSome)
  by_cases hMin : ETH_P_802_3_MIN ≤ f.be16At 12
  · have hUntagged :=
      view_insertTags hLen [] hNotVlan (Nat.zero_le 2)
        (Or.inr hMin)
    have hSelf : f.insertTags [] = f := by
      simp [Frame.insertTags]
    have hSame :
        Frame.view (f.insertTags tags) = f.view := by
      rw [hTagged, ← hUntagged, hSelf]
    refine ⟨?_, fun _ => ?_⟩
    · rw [xdpVerdict_eq, xdpVerdict_eq, hSame]
    · rw [xdpProgram_eq, xdpProgram_eq, hSame]
  · refine ⟨?_, fun hLarge => absurd hLarge hMin⟩
    have hShort : f.be16At 12 < ETH_P_802_3_MIN := by
      rwa [BitVec.not_le] at hMin
    have hNotIp : f.be16At 12 ≠ ETH_P_IP := by
      intro hIp
      rw [hIp] at hShort
      exact absurd hShort (by decide)
    rw [xdpVerdict_eq, xdpVerdict_eq,
      view_of_lt_min hLen hShort, hTagged, if_neg hNotIp]
    rfl

/- A TCP packet that ends two bytes into its TCP header. -/
def truncatedTcp : Frame :=
  [0, 0, 0, 0, 0, 0, 0, 0, 0, 0, 0, 0, 0x08, 0x00,
    0x45, 0, 0, 40, 0, 0, 0, 0, 64, 6, 0, 0,
    10, 0, 0, 1, 10, 0, 0, 2, 0x30, 0x39]

theorem isVlanType_8021AD : IsVlanType ETH_P_8021AD :=
  Or.inr rfl

theorem isVlanType_8021Q : IsVlanType ETH_P_8021Q :=
  Or.inl rfl

/- A service tag in front of a customer tag. -/
def doubleTag : List VlanTag :=
  [⟨ETH_P_8021AD, 7, isVlanType_8021AD⟩,
    ⟨ETH_P_8021Q, 9, isVlanType_8021Q⟩]

theorem vlanTagging_transparent_truncatedTcp :
    xdpVerdict (0 : Fin 1)
          (truncatedTcp.insertTags doubleTag)
          Maps.fresh =
        xdpVerdict (0 : Fin 1) truncatedTcp Maps.fresh ∧
      (ETH_P_802_3_MIN ≤ ByteSeq.be16At truncatedTcp 12 →
        xdpProgram (0 : Fin 1)
            (truncatedTcp.insertTags doubleTag)
            Maps.fresh =
          xdpProgram (0 : Fin 1) truncatedTcp Maps.fresh) :=
  vlanTagging_transparent Maps.fresh (0 : Fin 1)
    truncatedTcp doubleTag (by decide) (by decide)
    (by decide)

end XdpDdos
