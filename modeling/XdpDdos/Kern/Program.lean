import XdpDdos.Kern.Maps
import XdpDdos.Lib.ByteSeq

/-
  The packet program `xdp_program` and the parsers it calls.

  A frame is the memory from `data` to `data_end`; pointers
  into it are offsets from `data`.  A read outside the frame
  is a `Fault`.

  Main declarations:
    * `parseEth`, `parsePort`, `parseIpv4`
    * `xdpProgram`
-/

------------------------------------------------------------
-- Packet Memory
------------------------------------------------------------

namespace XdpDdos

/- The bytes of a received frame. -/
abbrev Frame :=
  ByteSeq

/- A read that starts at `off` left the frame. -/
structure Fault where
  off : ℕ
  deriving Repr, DecidableEq

/- The value of a checked load, or a fault. -/
def fetch
    {w : ℕ}
    (off : ℕ) :
    Option (BitVec w) → Except Fault (BitVec w)
  | some value => .ok value
  | none => .error ⟨off⟩

def fetch8
    (ctx : Frame)
    (off : ℕ) : Except Fault (BitVec 8) :=
  fetch off (ctx.load8 off)

def fetch16
    (ctx : Frame)
    (off : ℕ) : Except Fault (BitVec 16) :=
  fetch off (ctx.load16 off)

def fetch32
    (ctx : Frame)
    (off : ℕ) : Except Fault (BitVec 32) :=
  fetch off (ctx.load32 off)

/- Network to host order on a little-endian machine. -/
def ntohs (w : BitVec 16) : BitVec 16 :=
  swap16 w

def htons (w : BitVec 16) : BitVec 16 :=
  swap16 w

------------------------------------------------------------
-- Protocol Constants
------------------------------------------------------------

def ETH_P_802_3_MIN : BitVec 16 := 0x0600

def ETH_P_IP : BitVec 16 := 0x0800

def ETH_P_8021Q : BitVec 16 := 0x8100

def ETH_P_8021AD : BitVec 16 := 0x88A8

def IPPROTO_TCP : BitVec 8 := 6

def IPPROTO_UDP : BitVec 8 := 17

/- `sizeof(struct ethhdr)`; `h_proto` is its last field. -/
def ETH_HDR_SIZE : ℕ := 14

/- `sizeof(struct vlan_hdr)`. -/
def VLAN_HDR_SIZE : ℕ := 4

/- `sizeof(struct iphdr)`, the header without options. -/
def IP_HDR_SIZE : ℕ := 20

def UDP_HDR_SIZE : ℕ := 8

def TCP_HDR_SIZE : ℕ := 20

------------------------------------------------------------
-- Layer 2
------------------------------------------------------------

/-
  Step over one VLAN tag, if `ethType` announces one.
  `parse_eth` holds this block twice, for double tagging.
-/
def skipVlanTag
    (eth : Frame)
    (ethType : BitVec 16)
    (offset : ℕ) :
    Except Fault (Option (BitVec 16 × ℕ)) :=
  if ethType = htons ETH_P_8021Q ∨
      ethType = htons ETH_P_8021AD then
    let vlanHdr := offset
    let offset := offset + VLAN_HDR_SIZE
    if offset > eth.length then
      return none
    else do
      let ethType ← fetch16 eth (vlanHdr + 2)
      return some (ethType, offset)
  else
    return some (ethType, offset)

/-
  Extract the network layer's protocol and offset.  `none`
  is the return value `false`.
-/
def parseEth
    (eth : Frame) :
    Except Fault (Option (BitVec 16 × ℕ)) :=
  let offset := ETH_HDR_SIZE
  if offset > eth.length then
    return none
  else do
    let ethType ← fetch16 eth 12
    if ntohs ethType < ETH_P_802_3_MIN then
      return none
    else
      match ← skipVlanTag eth ethType offset with
      | none => return none
      | some (ethType, offset) =>
          match ← skipVlanTag eth ethType offset with
          | none => return none
          | some (ethType, offset) =>
              return some (ntohs ethType, offset)

------------------------------------------------------------
-- Layers 3 and 4
------------------------------------------------------------

variable {nrCpus : ℕ}

/-
  The second half of `parse_port`: look the port up and, on
  a match, count the drop.  The counter map is declared with
  64-bit values, the counter is incremented as a `u32`.
-/
def matchPort
    (cpu : Fin nrCpus)
    (dport : BitVec 16)
    (fproto : DdosFilter)
    (m : Maps nrCpus) : XdpAction × Maps nrCpus :=
  let dportIdx : BitVec 32 := dport.setWidth 32
  match PercpuArray.index? dportIdx with
  | none => (.pass, m)
  | some idx =>
      let value := loadU32 (m.portBlacklist.slots idx cpu)
      if value &&& (1#32 <<< fproto.index) ≠ 0 then
        -- drop_count_by_fproto(fproto)
        let dropCounter := m.dropCount fproto
        match PercpuArray.index? dportIdx with
        | none => (.drop, m)
        | some idx =>
            let slot := dropCounter.slots idx cpu
            (.drop, { m with
              dropCount := Function.update m.dropCount fproto
                (dropCounter.setSlot idx cpu
                  (bumpU32 slot)) })
      else
        (.pass, m)

/- Match the transport header at `hdr` against the rules. -/
def parsePort
    (cpu : Fin nrCpus)
    (ctx : Frame)
    (proto : BitVec 8)
    (hdr : ℕ)
    (m : Maps nrCpus) :
    Except Fault (XdpAction × Maps nrCpus) :=
  if proto = IPPROTO_UDP then
    if hdr + UDP_HDR_SIZE > ctx.length then
      return (.aborted, m)
    else do
      let dest ← fetch16 ctx (hdr + 2)
      return matchPort cpu (ntohs dest) .udp m
  else if proto = IPPROTO_TCP then
    if hdr + TCP_HDR_SIZE > ctx.length then
      return (.aborted, m)
    else do
      let dest ← fetch16 ctx (hdr + 2)
      return matchPort cpu (ntohs dest) .tcp m
  else
    return (.pass, m)

/-
  Match the source address, then the transport header that
  follows the 20 bytes of `struct iphdr`.
-/
def parseIpv4
    (cpu : Fin nrCpus)
    (ctx : Frame)
    (l3Offset : ℕ)
    (m : Maps nrCpus) :
    Except Fault (XdpAction × Maps nrCpus) :=
  if l3Offset + IP_HDR_SIZE > ctx.length then
    return (.aborted, m)
  else do
    let ipSrc ← fetch32 ctx (l3Offset + 12)
    match m.blacklist.slots? ipSrc with
    | some value =>
        return (.drop, { m with
          blacklist :=
            m.blacklist.setSlot ipSrc cpu (value cpu + 1) })
    | none => do
        let protocol ← fetch8 ctx (l3Offset + 9)
        parsePort cpu ctx protocol (l3Offset + IP_HDR_SIZE) m

/- Only IPv4 is handled. -/
def handleEthProtocol
    (cpu : Fin nrCpus)
    (ctx : Frame)
    (ethProto : BitVec 16)
    (l3Offset : ℕ)
    (m : Maps nrCpus) :
    Except Fault (XdpAction × Maps nrCpus) :=
  if ethProto = ETH_P_IP then
    parseIpv4 cpu ctx l3Offset m
  else
    return (.pass, m)

------------------------------------------------------------
-- The Program
------------------------------------------------------------

/- Keeps stats of XDP_DROP vs XDP_PASS. -/
def statsActionVerdict
    (cpu : Fin nrCpus)
    (action : XdpAction)
    (m : Maps nrCpus) : Maps nrCpus :=
  if action.code.toNat ≥ XDP_ACTION_MAX then m
  else
    match PercpuArray.index? action.code with
    | none => m
    | some idx =>
        { m with
          verdictCnt := m.verdictCnt.setSlot idx cpu
            (m.verdictCnt.slots idx cpu + 1) }

/- Run on one frame received by `cpu`. -/
def xdpProgram
    (cpu : Fin nrCpus)
    (ctx : Frame)
    (m : Maps nrCpus) :
    Except Fault (XdpAction × Maps nrCpus) := do
  match ← parseEth ctx with
  | none => return (.pass, m)
  | some (ethProto, l3Offset) =>
      let (action, m) ←
        handleEthProtocol cpu ctx ethProto l3Offset m
      return (action, statsActionVerdict cpu action m)

end XdpDdos
