import XdpDdos.Firewall.Abstract
import XdpDdos.Firewall.System

/-
  The deployed filter implements the abstract firewall: the
  firewall that only learns which calls succeeded predicts
  the verdict of the program on every CPU.

  Main declarations:
    * `Firewall.observe`, `Represents`
    * `FilterStep.represents`
    * `PlainIpv4Frame`, `Represents.drops_iff_blocks`
    * `filter_refines_firewall`
-/

------------------------------------------------------------
-- Observing the Filter
------------------------------------------------------------

namespace XdpDdos

variable {nrCpus : ℕ}

/- A call that returned success edits its rule set. -/
def Firewall.observe
    (e : FilterEvent nrCpus)
    (r : FilterResponse)
    (fw : Firewall) : Firewall :=
  match r with
  | .status (.returned status) =>
      if status = EXIT_OK then
        match e with
        | .modifyAddr ipString action =>
            fw.editAddr action ipString
        | .modifyPort dport action proto =>
            fw.editRule action dport proto
        | .frame _ _ => fw
      else fw
  | _ => fw

@[simp] theorem Firewall.observe_ok_addr
    (fw : Firewall)
    (ipString : CStr)
    (action : BitVec 32) :
    fw.observe
        (.modifyAddr ipString action : FilterEvent nrCpus)
        (.status (.returned EXIT_OK)) =
      fw.editAddr action ipString := rfl

@[simp] theorem Firewall.observe_ok_port
    (fw : Firewall)
    (dport action proto : BitVec 32) :
    fw.observe
        (.modifyPort dport action proto : FilterEvent nrCpus)
        (.status (.returned EXIT_OK)) =
      fw.editRule action dport proto := rfl

theorem Firewall.observe_of_ne
    (fw : Firewall)
    (e : FilterEvent nrCpus)
    {status : ℕ}
    (hStatus : status ≠ EXIT_OK) :
    fw.observe e (.status (.returned status)) = fw := by
  simp only [observe, hStatus, if_false]

/-
  The maps represent a firewall: the same addresses are in
  the hash, and every CPU has exactly its rules set.
-/
structure Represents
    (m : Maps nrCpus)
    (fw : Firewall) : Prop where
  addrs :
    ∀ addr : Ipv4Addr,
      m.blacklist.Contains addr.key ↔ addr ∈ fw.addrs
  rules :
    ∀ cpu fproto port,
      m.PortBit cpu fproto port ↔ (fproto, port) ∈ fw.rules

theorem represents_fresh :
    Represents (Maps.fresh : Maps nrCpus)
      Firewall.empty where
  addrs := by
    intro addr
    simp [Maps.fresh, PercpuHash.Contains, Firewall.empty]
  rules := by
    intro cpu fproto port
    simp [Maps.fresh, Maps.PortBit, Firewall.empty]

------------------------------------------------------------
-- Every Step Is Simulated
------------------------------------------------------------

/- Frames change neither addresses nor rules. -/
theorem Represents.afterFrame
    {m : Maps nrCpus}
    {fw : Firewall}
    (hRep : Represents m fw)
    (cpu : Fin nrCpus)
    (v : FrameView) :
    Represents (m.afterFrame cpu v) fw where
  addrs := by
    intro addr
    rw [← hRep.addrs addr, Maps.contains_afterFrame]
  rules := by
    intro cpu' fproto port
    rw [← hRep.rules cpu' fproto port,
      Maps.portBit_afterFrame]

/- The parsed string is the address of the key. -/
theorem Ipv4Addr.of_inetPton
    {ipString : CStr}
    {key : BitVec 32}
    (hKey : inetPton ipString = some key) :
    ∃ addr, Ipv4Addr.ofString? ipString = some addr ∧
      key = addr.key := by
  rw [Ipv4Addr.inetPton_eq, Option.map_eq_some_iff] at hKey
  rcases hKey with ⟨addr, hAddr, hEq⟩
  exact ⟨addr, hAddr, hEq.symm⟩

/- Every step re-establishes the representation. -/
theorem FilterStep.represents
    {m m' : Maps nrCpus}
    {e : FilterEvent nrCpus}
    {r : FilterResponse}
    {fw : Firewall}
    (hStep : FilterStep m e r m')
    (hRep : Represents m fw) :
    Represents m' (fw.observe e r) := by
  cases hStep with
  | frame cpu ctx => exact hRep.afterFrame cpu ctx.view
  | addrRefused hStatus =>
      rw [Firewall.observe_of_ne _ _ hStatus]
      exact hRep
  | addrAdded hKey hContains =>
      rcases Ipv4Addr.of_inetPton hKey with
        ⟨addr, hAddr, rfl⟩
      rw [Firewall.observe_ok_addr, Firewall.editAddr, hAddr]
      constructor
      · intro addr'
        rw [hContains, hRep.addrs,
          Ipv4Addr.key_injective.eq_iff]
        rfl
      · exact hRep.rules
  | addrRemoved hKey hContains =>
      rcases Ipv4Addr.of_inetPton hKey with
        ⟨addr, hAddr, rfl⟩
      rw [Firewall.observe_ok_addr, Firewall.editAddr, hAddr]
      constructor
      · intro addr'
        rw [hContains, hRep.addrs,
          Ipv4Addr.key_injective.ne_iff]
        rfl
      · exact hRep.rules
  | portRefused hStatus =>
      rw [Firewall.observe_of_ne _ _ hStatus]
      exact hRep
  | portAdded port hProto =>
      rw [Firewall.observe_ok_port, Firewall.editRule, hProto]
      constructor
      · exact hRep.addrs
      · intro cpu fproto' port'
        rw [Maps.portBit_editRule_add, hRep.rules]
        simp [editSet, or_comm]
  | portRemoved port hProto =>
      rw [Firewall.observe_ok_port, Firewall.editRule, hProto]
      constructor
      · exact hRep.addrs
      · intro cpu fproto' port'
        rw [Maps.portBit_resetCount,
          Maps.portBit_editRule_del, hRep.rules]
        simp [editSet, ACTION_ADD, ACTION_DEL]

------------------------------------------------------------
-- The Verdict Is the Firewall's
------------------------------------------------------------

/-
  An unfragmented IPv4 frame with at most two VLAN tags and
  a 20-byte header inside the frame.
-/
structure PlainIpv4Frame
    (e : EthFrame) : Prop where
  tags_le : e.tags.length ≤ 2
  isIpv4 : e.ethertype = ETH_P_IP
  unfragmented : Ipv4.Unfragmented e.payload
  ihl_eq : Ipv4.ihl e.payload = 5
  header_le : IP_HDR_SIZE ≤ e.payload.length

/- The port behind a 20-byte header, if it is all there. -/
theorem layer4_eq_port_iff
    (p : ByteSeq)
    (fproto : DdosFilter)
    (port : BitVec 16) :
    Frame.layer4 p (Ipv4.protocol p) IP_HDR_SIZE =
        .port fproto port ↔
      Ipv4.CarriesHeader p fproto ∧
        port = Ipv4.destPort p := by
  constructor
  · intro hLayer
    unfold Frame.layer4 at hLayer
    split at hLayer
    · split at hLayer
      · cases hLayer
        exact ⟨⟨by assumption, by assumption⟩, rfl⟩
      · cases hLayer
    · split at hLayer
      · split at hLayer
        · cases hLayer
          exact ⟨⟨by assumption, by assumption⟩, rfl⟩
        · cases hLayer
      · cases hLayer
  · rintro ⟨⟨hProto, hLen⟩, rfl⟩
    exact EthFrame.layer4_of_le hProto hLen

/- The program drops what the firewall blocks. -/
theorem Represents.drops_iff_blocks
    {m : Maps nrCpus}
    {fw : Firewall}
    (hRep : Represents m fw)
    (cpu : Fin nrCpus)
    {e : EthFrame}
    (hFrame : PlainIpv4Frame e) :
    xdpVerdict cpu e.bytes m = .ok .drop ↔
      fw.Blocks e.payload := by
  rw [xdpVerdict_eq,
    EthFrame.view_bytes e hFrame.tags_le hFrame.isIpv4,
    EthFrame.ipv4View_of_le hFrame.header_le, Except.ok.injEq,
    Maps.verdict, Ipv4.saddr_eq_key, Firewall.Blocks]
  by_cases hAddr : Ipv4.source e.payload ∈ fw.addrs
  · rw [if_pos ((hRep.addrs _).mpr hAddr)]
    simp [hAddr]
  · rw [if_neg (fun hIn => hAddr ((hRep.addrs _).mp hIn))]
    simp only [hAddr, false_or]
    constructor
    · intro hDrop
      cases hLayer : Frame.layer4 e.payload
          (Ipv4.protocol e.payload) IP_HDR_SIZE with
      | other => simp [hLayer, Maps.portVerdict] at hDrop
      | short => simp [hLayer, Maps.portVerdict] at hDrop
      | port fproto port =>
          rcases (layer4_eq_port_iff _ _ _).mp hLayer with
            ⟨hCarries, rfl⟩
          refine ⟨fproto, hCarries, ?_⟩
          rw [← hRep.rules cpu]
          by_contra hClear
          simp [hLayer, Maps.portVerdict, hClear] at hDrop
    · rintro ⟨fproto, hCarries, hRule⟩
      have hLayer :=
        (layer4_eq_port_iff e.payload fproto _).mpr
          ⟨hCarries, rfl⟩
      have hBit := (hRep.rules cpu _ _).mpr hRule
      rw [hLayer, Maps.portVerdict, if_pos hBit]

/- The maps represent the observed firewall at all times. -/
theorem represents_final
    (es : List (FilterEvent nrCpus)) :
    Represents (filterSystem.final Maps.fresh es)
      (filterSystem.ghost (fun _ => Firewall.observe)
        Maps.fresh Firewall.empty es) := by
  apply Reactive.ghost_simulation filterSystem _ Represents
  · intro m fw e hRep
    exact (filterSystem_step m e).represents hRep
  · exact represents_fresh

/-
  After any sequence of calls and frames, the program drops
  a plain IPv4 frame exactly when the firewall that observed
  the successful calls blocks its packet.
-/
theorem filter_refines_firewall
    (es : List (FilterEvent nrCpus))
    (cpu : Fin nrCpus)
    (e : EthFrame)
    (hFrame : PlainIpv4Frame e) :
    xdpVerdict cpu e.bytes
          (filterSystem.final Maps.fresh es) = .ok .drop ↔
      (filterSystem.ghost (fun _ => Firewall.observe)
        Maps.fresh Firewall.empty es).Blocks e.payload :=
  (represents_final es).drops_iff_blocks cpu hFrame

/- Block one address and TCP port 80. -/
def twoRules : List (FilterEvent 2) :=
  [.modifyAddr "10.0.0.9".toList ACTION_ADD,
    .modifyPort 80 ACTION_ADD 6]

/- A TCP packet from another address to port 80. -/
def plainFrame : EthFrame where
  macs := Vector.replicate 12 0
  tags := [⟨ETH_P_8021Q, 7, Or.inl rfl⟩]
  ethertype := ETH_P_IP
  payload :=
    [0x45, 0, 0, 40, 0, 0, 0, 0, 64, 6, 0, 0,
      10, 0, 0, 1, 10, 0, 0, 2,
      0x30, 0x39, 0, 80, 0, 0, 0, 0, 0, 0, 0, 0,
      0x50, 2, 0, 0, 0, 0, 0, 0]

theorem plainFrame_plain :
    PlainIpv4Frame plainFrame where
  tags_le := by decide
  isIpv4 := rfl
  unfragmented := by
    unfold Ipv4.Unfragmented
    decide
  ihl_eq := by decide
  header_le := by decide

theorem filter_refines_firewall_plainFrame :
    xdpVerdict 1 plainFrame.bytes
          (filterSystem.final Maps.fresh twoRules) =
        .ok .drop ↔
      (filterSystem.ghost (fun _ => Firewall.observe)
        Maps.fresh Firewall.empty twoRules).Blocks
          plainFrame.payload :=
  filter_refines_firewall twoRules 1 plainFrame
    plainFrame_plain

end XdpDdos
