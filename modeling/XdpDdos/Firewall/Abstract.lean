import XdpDdos.Kern.FrameFormat
import XdpDdos.Control.Modify
import Mathlib.Data.Set.Insert

/-
  The firewall that the maps are meant to implement: a set
  of blocked source addresses and a set of blocked protocol
  and port pairs, with no maps, CPUs or byte orders.

  Main declarations:
    * `Ipv4Addr`, `Ipv4Addr.key_injective`
    * `Firewall`, `Firewall.Blocks`
    * `Firewall.editAddr`, `Firewall.editRule`
-/

------------------------------------------------------------
-- Addresses
------------------------------------------------------------

namespace XdpDdos

/- An IPv4 address, as the four octets `a.b.c.d`. -/
structure Ipv4Addr where
  a : Byte
  b : Byte
  c : Byte
  d : Byte
  deriving Repr, DecidableEq

namespace Ipv4Addr

/- The map key of an address: network order, loaded as is. -/
def key (addr : Ipv4Addr) : BitVec 32 :=
  (addr.d ++ addr.c) ++ (addr.b ++ addr.a)

/- Distinct addresses have distinct keys. -/
theorem key_injective :
    Function.Injective key := by
  intro x y hKey
  rcases append_eq_append_iff.mp hKey with ⟨hHigh, hLow⟩
  rcases append_eq_append_iff.mp hHigh with ⟨hd, hc⟩
  rcases append_eq_append_iff.mp hLow with ⟨hb, ha⟩
  cases x
  cases y
  simp_all

/- The address a string in dotted decimal names. -/
def ofString? (ipString : CStr) : Option Ipv4Addr :=
  (dottedQuad? ipString).map
    fun (a, b, c, d) => ⟨a, b, c, d⟩

/- The C library's conversion computes the address's key. -/
theorem inetPton_eq
    (ipString : CStr) :
    inetPton ipString = (ofString? ipString).map key := by
  unfold inetPton ofString?
  rw [Option.map_map]
  rfl

end Ipv4Addr

/- The source address of a packet. -/
def Ipv4.source (p : ByteSeq) : Ipv4Addr :=
  ⟨p.byteAt 12, p.byteAt 13, p.byteAt 14, p.byteAt 15⟩

theorem Ipv4.saddr_eq_key
    (p : ByteSeq) :
    Ipv4.saddr p = (Ipv4.source p).key := rfl

/-
  A packet without options carries the whole header of a
  transport protocol.
-/
def Ipv4.CarriesHeader
    (p : ByteSeq)
    (fproto : DdosFilter) : Prop :=
  Ipv4.protocol p = fproto.ipproto ∧
    IP_HDR_SIZE + fproto.hdrSize ≤ p.length

/- The destination port of a packet without options. -/
def Ipv4.destPort (p : ByteSeq) : BitVec 16 :=
  p.be16At (IP_HDR_SIZE + 2)

------------------------------------------------------------
-- Rule Sets
------------------------------------------------------------

/- Insert or remove an element, as an action says. -/
def editSet
    {α : Type}
    (action : BitVec 32)
    (x : α)
    (s : Set α) : Set α :=
  if action = ACTION_ADD then insert x s
  else if action = ACTION_DEL then s \ {x}
  else s

/- Addresses and port rules in force. -/
structure Firewall where
  addrs : Set Ipv4Addr
  rules : Set (DdosFilter × BitVec 16)

namespace Firewall

def empty : Firewall :=
  ⟨∅, ∅⟩

/-
  A packet is blocked for its source, or for a rule about
  the port in its complete transport header.
-/
def Blocks
    (fw : Firewall)
    (p : ByteSeq) : Prop :=
  Ipv4.source p ∈ fw.addrs ∨
    ∃ fproto, Ipv4.CarriesHeader p fproto ∧
      (fproto, Ipv4.destPort p) ∈ fw.rules

/- Insert or remove the address a string names. -/
def editAddr
    (fw : Firewall)
    (action : BitVec 32)
    (ipString : CStr) : Firewall :=
  match Ipv4Addr.ofString? ipString with
  | none => fw
  | some addr =>
      { fw with addrs := editSet action addr fw.addrs }

/- Insert or remove the rule of a protocol and port. -/
def editRule
    (fw : Firewall)
    (action dport proto : BitVec 32) : Firewall :=
  match protoFilter proto with
  | none => fw
  | some fproto =>
      { fw with
        rules :=
          editSet action (fproto, dport.setWidth 16)
            fw.rules }

end Firewall

end XdpDdos
