import XdpDdos.Kern.FrameView
import XdpDdos.Lib.Interference

/-
  The packet program, one access to a map at a time.

  While a frame is in flight on one CPU, other CPUs and the
  processes of the control plane access the same maps.  An
  entry of the address blacklist that is removed is given
  back only when no program can refer to it any more: until
  then, its slots can be written, but are in no map.

  Main declarations:
    * `ValuePtr`, `FrameCall`, `Memory.access`
    * `InFlight.xdpProgram`
    * `run_xdpProgram`
-/

------------------------------------------------------------
-- Accesses to Maps
------------------------------------------------------------

namespace XdpDdos

variable {nrCpus : ℕ}

/-
  What `bpf_map_lookup_elem` returns: the value of a key, as
  of the entry that the key has had since it was removed from
  the map for the `life`-th time.
-/
structure ValuePtr where
  map : MapId
  key : BitVec 32
  life : ℕ

/- What a program does to maps, on the CPU that it runs on. -/
inductive FrameCall where
  | lookupElem (map : MapId) (key : BitVec 32)
  | load32 (value : ValuePtr)
  | store32 (value : ValuePtr) (word : BitVec 32)
  | load64 (value : ValuePtr)
  | store64 (value : ValuePtr) (word : BitVec 64)

@[reducible] def FrameCall.Resp : FrameCall → Type
  | .lookupElem _ _ => Option ValuePtr
  | .load32 _ => BitVec 32
  | .store32 _ _ => Unit
  | .load64 _ => BitVec 64
  | .store64 _ _ => Unit

/- A packet program. -/
abbrev FrameProg (α : Type) :=
  CallProg FrameCall FrameCall.Resp α

/- The maps, and how often each address was removed. -/
structure Memory (nrCpus : ℕ) where
  maps : Maps nrCpus
  removed : BitVec 32 → ℕ

namespace Memory

/- The pointer to a value, if the key is in the map. -/
def lookupElem
    (mem : Memory nrCpus)
    (map : MapId)
    (key : BitVec 32) : Option ValuePtr :=
  match map with
  | .blacklist =>
      if mem.maps.blacklist.Contains key then
        some ⟨.blacklist, key, mem.removed key⟩
      else none
  | .verdictCnt =>
      (PercpuArray.index? key : Option (Fin XDP_ACTION_MAX)).map
        fun _ => ⟨map, key, 0⟩
  | _ =>
      (PercpuArray.index? key : Option (Fin NR_PORTS)).map
        fun _ => ⟨map, key, 0⟩

/- A CPU's slot of an array entry. -/
def arraySlot
    {maxEntries : ℕ}
    (arr : PercpuArray nrCpus maxEntries)
    (cpu : Fin nrCpus)
    (key : BitVec 32) : BitVec 64 :=
  match PercpuArray.index? key with
  | some idx => arr.slots idx cpu
  | none => 0

def setArraySlot
    {maxEntries : ℕ}
    (arr : PercpuArray nrCpus maxEntries)
    (cpu : Fin nrCpus)
    (key : BitVec 32)
    (word : BitVec 64) : PercpuArray nrCpus maxEntries :=
  match PercpuArray.index? key with
  | some idx => arr.setSlot idx cpu word
  | none => arr

/-
  A CPU's slot of a value.  What is read from an entry that
  was removed is of no account, as it is only written back.
-/
def slot
    (mem : Memory nrCpus)
    (cpu : Fin nrCpus)
    (value : ValuePtr) : BitVec 64 :=
  match value.map with
  | .blacklist =>
      if mem.removed value.key = value.life then
        match mem.maps.blacklist.slots? value.key with
        | some values => values cpu
        | none => 0
      else 0
  | .verdictCnt =>
      arraySlot mem.maps.verdictCnt cpu value.key
  | .portBlacklist =>
      arraySlot mem.maps.portBlacklist cpu value.key
  | .portBlacklistDropCount fproto =>
      arraySlot (mem.maps.dropCount fproto) cpu value.key

/- Write a CPU's slot of a value that is in a map. -/
def setSlot
    (mem : Memory nrCpus)
    (cpu : Fin nrCpus)
    (value : ValuePtr)
    (word : BitVec 64) : Memory nrCpus :=
  match value.map with
  | .blacklist =>
      if mem.removed value.key = value.life then
        { mem with
          maps :=
            { mem.maps with
              blacklist :=
                mem.maps.blacklist.setSlot value.key cpu
                  word } }
      else mem
  | .verdictCnt =>
      { mem with
        maps :=
          { mem.maps with
            verdictCnt :=
              setArraySlot mem.maps.verdictCnt cpu value.key
                word } }
  | .portBlacklist =>
      { mem with
        maps :=
          { mem.maps with
            portBlacklist :=
              setArraySlot mem.maps.portBlacklist cpu
                value.key word } }
  | .portBlacklistDropCount fproto =>
      { mem with
        maps :=
          { mem.maps with
            dropCount :=
              Function.update mem.maps.dropCount fproto
                (setArraySlot (mem.maps.dropCount fproto) cpu
                  value.key word) } }

/- The accesses of a program that runs on `cpu`. -/
def access
    (cpu : Fin nrCpus) :
    CallProg.Handler FrameCall FrameCall.Resp (Memory nrCpus)
  | .lookupElem map key, mem => (mem.lookupElem map key, mem)
  | .load32 value, mem => (loadU32 (mem.slot cpu value), mem)
  | .store32 value word, mem =>
      ((), mem.setSlot cpu value
        (storeU32 (mem.slot cpu value) word))
  | .load64 value, mem => (mem.slot cpu value, mem)
  | .store64 value word, mem =>
      ((), mem.setSlot cpu value word)

/- A map system call of a process. -/
def control :
    CallProg.Handler (MapCall nrCpus) MapCall.Resp
      (Memory nrCpus)
  | .deleteElem .blacklist key, mem =>
      let (res, m) :=
        Maps.handle (.deleteElem .blacklist key) mem.maps
      (res,
        { maps := m
          removed :=
            match res with
            | .ok () =>
                Function.update mem.removed key
                  (mem.removed key + 1)
            | .error _ => mem.removed })
  | op, mem =>
      let (res, m) := Maps.handle op mem.maps
      (res, { mem with maps := m })

end Memory

------------------------------------------------------------
-- The Program
------------------------------------------------------------

namespace InFlight

/- A load from the frame. -/
def fetched
    {α : Type} : Except Fault α → FrameProg α
  | .ok value => .ret value
  | .error _ => .halt (.crash .outOfRange)

def mapLookupElem
    (map : MapId)
    (key : BitVec 32) : FrameProg (Option ValuePtr) :=
  .call' (FrameCall.lookupElem map key)

/- `*drops += 1`, with a `u32`. -/
def increment32 (drops : ValuePtr) : FrameProg Unit := do
  let count ← .call' (FrameCall.load32 drops)
  .call' (FrameCall.store32 drops (count + 1))

/- `*value += 1`, with a `u64`. -/
def increment64 (value : ValuePtr) : FrameProg Unit := do
  let count ← .call' (FrameCall.load64 value)
  .call' (FrameCall.store64 value (count + 1))

/- The second half of `parse_port`. -/
def matchPort
    (dport : BitVec 16)
    (fproto : DdosFilter) : FrameProg XdpAction := do
  let dportIdx : BitVec 32 := dport.setWidth 32
  match ← mapLookupElem .portBlacklist dportIdx with
  | none => return .pass
  | some value =>
      let mask ← .call' (FrameCall.load32 value)
      if mask &&& (1#32 <<< fproto.index) ≠ 0 then
        -- drop_count_by_fproto(fproto)
        let dropCounter := .portBlacklistDropCount fproto
        match ← mapLookupElem dropCounter dportIdx with
        | none => return .drop
        | some drops =>
            increment32 drops
            return .drop
      else return .pass

def parsePort
    (ctx : Frame)
    (proto : BitVec 8)
    (hdr : ℕ) : FrameProg XdpAction :=
  if proto = IPPROTO_UDP then
    if hdr + UDP_HDR_SIZE > ctx.length then
      return .aborted
    else do
      let dest ← fetched (fetch16 ctx (hdr + 2))
      matchPort (ntohs dest) .udp
  else if proto = IPPROTO_TCP then
    if hdr + TCP_HDR_SIZE > ctx.length then
      return .aborted
    else do
      let dest ← fetched (fetch16 ctx (hdr + 2))
      matchPort (ntohs dest) .tcp
  else
    return .pass

def parseIpv4
    (ctx : Frame)
    (l3Offset : ℕ) : FrameProg XdpAction :=
  if l3Offset + IP_HDR_SIZE > ctx.length then
    return .aborted
  else do
    let ipSrc ← fetched (fetch32 ctx (l3Offset + 12))
    match ← mapLookupElem .blacklist ipSrc with
    | some value =>
        increment64 value
        return .drop
    | none =>
        let protocol ← fetched (fetch8 ctx (l3Offset + 9))
        parsePort ctx protocol (l3Offset + IP_HDR_SIZE)

def handleEthProtocol
    (ctx : Frame)
    (ethProto : BitVec 16)
    (l3Offset : ℕ) : FrameProg XdpAction :=
  if ethProto = ETH_P_IP then parseIpv4 ctx l3Offset
  else return .pass

def statsActionVerdict
    (action : XdpAction) : FrameProg Unit :=
  if action.code.toNat ≥ XDP_ACTION_MAX then return ()
  else do
    match ← mapLookupElem .verdictCnt action.code with
    | none => return ()
    | some value => increment64 value

def xdpProgram (ctx : Frame) : FrameProg XdpAction := do
  match ← fetched (parseEth ctx) with
  | none => return .pass
  | some (ethProto, l3Offset) =>
      let action ← handleEthProtocol ctx ethProto l3Offset
      statsActionVerdict action
      return action

------------------------------------------------------------
-- The Program of a View
------------------------------------------------------------

/- What is done about a transport header. -/
def ofLayer4 : Layer4 → FrameProg XdpAction
  | .other => .ret .pass
  | .short => .ret .aborted
  | .port fproto dport => matchPort dport fproto

/- What is done about a frame, but for the statistics. -/
def ofView : FrameView → FrameProg XdpAction
  | .skipped => .ret .pass
  | .notIpv4 => .ret .pass
  | .shortIpv4 => .ret .aborted
  | .ipv4 src l4 => do
      match ← mapLookupElem .blacklist src with
      | some value =>
          increment64 value
          return .drop
      | none => ofLayer4 l4

theorem parsePort_eq
    (f : Frame)
    (proto : BitVec 8)
    (hdr : ℕ) :
    parsePort f proto hdr = ofLayer4 (f.layer4 proto hdr) := by
  by_cases hUdp : proto = IPPROTO_UDP
  · by_cases hLen : hdr + UDP_HDR_SIZE ≤ f.length
    · have hField : hdr + 2 + 2 ≤ f.length := by
        simp only [UDP_HDR_SIZE] at hLen
        omega
      simp [parsePort, Frame.layer4, hUdp, hLen, ofLayer4,
        Nat.not_lt.mpr hLen, fetch16_of_le hField, fetched]
    · simp [parsePort, Frame.layer4, hUdp, hLen, ofLayer4]
  · by_cases hTcp : proto = IPPROTO_TCP
    · have hNotUdp : IPPROTO_TCP ≠ IPPROTO_UDP := by decide
      by_cases hLen : hdr + TCP_HDR_SIZE ≤ f.length
      · have hField : hdr + 2 + 2 ≤ f.length := by
          simp only [TCP_HDR_SIZE] at hLen
          omega
        simp [parsePort, Frame.layer4, hNotUdp, hTcp, hLen,
          ofLayer4, Nat.not_lt.mpr hLen,
          fetch16_of_le hField, fetched]
      · simp [parsePort, Frame.layer4, hNotUdp, hTcp, hLen,
          ofLayer4]
    · simp [parsePort, Frame.layer4, hUdp, hTcp, ofLayer4]

theorem parseIpv4_eq
    (f : Frame)
    (offset : ℕ) :
    parseIpv4 f offset = ofView (f.ipv4View offset) := by
  by_cases hLen : offset + IP_HDR_SIZE ≤ f.length
  · have hSrc : offset + 12 + 4 ≤ f.length := by
      simp only [IP_HDR_SIZE] at hLen
      omega
    have hProto : offset + 9 < f.length := by omega
    simp only [parseIpv4, gt_iff_lt, Nat.not_lt.mpr hLen,
      if_false, fetch32_of_le hSrc, fetched,
      CallProg.ret_bind, fetch8_of_lt hProto, parsePort_eq,
      Frame.ipv4View, hLen, if_true, ofView]
  · simp [parseIpv4, Frame.ipv4View, hLen, ofView]

/- What is done about a frame depends on its view alone. -/
theorem xdpProgram_eq
    (f : Frame) :
    xdpProgram f =
      if f.view = .skipped then .ret .pass
      else do
        let action ← ofView f.view
        statsActionVerdict action
        return action := by
  rw [xdpProgram, XdpDdos.parseEth_eq, fetched,
    CallProg.ret_bind]
  cases hHeader : f.layer2 with
  | none =>
      have hView : f.view = .skipped := by
        rw [Frame.view, hHeader]
      rw [if_pos hView]
      rfl
  | some header =>
      rcases header with ⟨ethType, offset⟩
      by_cases hIp : ethType = ETH_P_IP
      · have hView : f.view = f.ipv4View offset := by
          simp only [Frame.view, hHeader, hIp, if_true]
        have hCounted : f.ipv4View offset ≠ .skipped := by
          unfold Frame.ipv4View
          split <;> simp
        rw [hView, if_neg hCounted]
        simp only [handleEthProtocol, hIp, if_true,
          parseIpv4_eq]
      · have hView : f.view = .notIpv4 := by
          simp only [Frame.view, hHeader, hIp, if_false]
        rw [hView, if_neg (by decide)]
        simp only [handleEthProtocol, hIp, if_false]
        rfl

end InFlight

------------------------------------------------------------
-- Without Interference
------------------------------------------------------------

namespace Memory

variable (mem : Memory nrCpus)
variable (cpu : Fin nrCpus)

/- The value of a port, in a map that has an entry for it. -/
def portPtr
    (map : MapId)
    (dport : BitVec 16) : ValuePtr :=
  ⟨map, dport.setWidth 32, 0⟩

theorem lookupElem_portBlacklist
    (dport : BitVec 16) :
    mem.lookupElem .portBlacklist (dport.setWidth 32) =
      some (portPtr .portBlacklist dport) := by
  simp only [lookupElem, index?_port, Option.map_some, portPtr]

theorem lookupElem_dropCount
    (fproto : DdosFilter)
    (dport : BitVec 16) :
    mem.lookupElem (.portBlacklistDropCount fproto)
        (dport.setWidth 32) =
      some (portPtr (.portBlacklistDropCount fproto) dport) := by
  simp only [lookupElem, index?_port, Option.map_some, portPtr]

theorem slot_portBlacklist
    (dport : BitVec 16) :
    mem.slot cpu (portPtr .portBlacklist dport) =
      mem.maps.portBlacklist.slots (Maps.portIndex dport)
        cpu := by
  simp only [slot, portPtr, arraySlot, index?_port]

/- Counting a drop of a port is one write. -/
theorem setSlot_dropCount
    (fproto : DdosFilter)
    (dport : BitVec 16) :
    mem.setSlot cpu
        (portPtr (.portBlacklistDropCount fproto) dport)
        (bumpU32 (mem.slot cpu
          (portPtr (.portBlacklistDropCount fproto) dport))) =
      { mem with
        maps := mem.maps.countPort cpu fproto dport } := by
  simp only [setSlot, slot, portPtr, arraySlot, setArraySlot,
    index?_port, Maps.countPort]

/- So is counting a drop of an address. -/
theorem setSlot_blacklist
    (src : BitVec 32) :
    mem.setSlot cpu ⟨.blacklist, src, mem.removed src⟩
        (mem.slot cpu ⟨.blacklist, src, mem.removed src⟩ + 1) =
      { mem with maps := mem.maps.countAddr cpu src } := by
  simp only [setSlot, slot, if_true, Maps.countAddr,
    PercpuHash.bump]
  cases hEntry : mem.maps.blacklist.slots? src with
  | none => simp only [PercpuHash.setSlot, hEntry]
  | some values => rfl

end Memory

namespace InFlight

variable (mem : Memory nrCpus)
variable (cpu : Fin nrCpus)

theorem run_mapLookupElem_bind
    {α : Type}
    (map : MapId)
    (key : BitVec 32)
    (next : Option ValuePtr → FrameProg α) :
    CallProg.run (Memory.access cpu)
        (mapLookupElem map key >>= next) mem =
      CallProg.run (Memory.access cpu)
        (next (mem.lookupElem map key)) mem := rfl

theorem run_increment32
    (drops : ValuePtr) :
    CallProg.run (Memory.access cpu) (increment32 drops) mem =
      (.returned (),
        mem.setSlot cpu drops
          (bumpU32 (mem.slot cpu drops))) := rfl

theorem run_increment64
    (value : ValuePtr) :
    CallProg.run (Memory.access cpu) (increment64 value) mem =
      (.returned (),
        mem.setSlot cpu value (mem.slot cpu value + 1)) := rfl

theorem run_matchPort
    (dport : BitVec 16)
    (fproto : DdosFilter) :
    CallProg.run (Memory.access cpu) (matchPort dport fproto)
        mem =
      if mem.maps.PortBit cpu fproto dport then
        (.returned .drop,
          { mem with
            maps := mem.maps.countPort cpu fproto dport })
      else (.returned .pass, mem) := by
  rw [matchPort, run_mapLookupElem_bind,
    mem.lookupElem_portBlacklist]
  simp only [CallProg.call'_bind, CallProg.run_call,
    Memory.access, mem.slot_portBlacklist cpu dport]
  by_cases hBit : mem.maps.PortBit cpu fproto dport
  · rw [if_pos ((mask_test_iff _ fproto).mpr hBit),
      if_pos hBit, run_mapLookupElem_bind,
      mem.lookupElem_dropCount]
    dsimp only
    rw [CallProg.run_bind_of_returned
        (run_increment32 mem cpu _),
      mem.setSlot_dropCount cpu fproto dport]
    rfl
  · rw [if_neg (fun hTest =>
        hBit ((mask_test_iff _ fproto).mp hTest)),
      if_neg hBit]
    rfl

theorem run_ofView
    (v : FrameView) :
    CallProg.run (Memory.access cpu) (ofView v) mem =
      (.returned (mem.maps.verdict cpu v),
        { mem with maps := mem.maps.countDrop cpu v }) := by
  cases v with
  | skipped => rfl
  | notIpv4 => rfl
  | shortIpv4 => rfl
  | ipv4 src l4 =>
      rw [ofView, run_mapLookupElem_bind]
      by_cases hIn : mem.maps.blacklist.Contains src
      · simp only [Memory.lookupElem, hIn, if_true,
          Maps.verdict, Maps.countDrop]
        rw [CallProg.run_bind_of_returned
            (run_increment64 mem cpu _),
          mem.setSlot_blacklist cpu src]
        rfl
      · simp only [Memory.lookupElem, hIn, if_false,
          Maps.verdict, Maps.countDrop]
        cases l4 with
        | other => rfl
        | short => rfl
        | port fproto dport =>
            rw [ofLayer4, run_matchPort]
            by_cases hBit :
                mem.maps.PortBit cpu fproto dport
            · simp only [hBit, if_true, Maps.portVerdict]
            · simp only [hBit, if_false, Maps.portVerdict]

theorem run_statsActionVerdict
    (action : XdpAction) :
    CallProg.run (Memory.access cpu)
        (statsActionVerdict action) mem =
      (.returned (),
        { mem with
          maps :=
            XdpDdos.statsActionVerdict cpu action
              mem.maps }) := by
  unfold statsActionVerdict XdpDdos.statsActionVerdict
  by_cases hRange : action.code.toNat ≥ XDP_ACTION_MAX
  · rw [if_pos hRange, if_pos hRange]
    rfl
  · rw [if_neg hRange, if_neg hRange,
      run_mapLookupElem_bind]
    simp only [Memory.lookupElem]
    cases hIdx :
        (PercpuArray.index? action.code :
          Option (Fin XDP_ACTION_MAX)) with
    | none => rfl
    | some idx =>
        simp only [Option.map_some]
        rw [run_increment64]
        simp only [Memory.setSlot, Memory.slot,
          Memory.arraySlot, Memory.setArraySlot, hIdx]

/-
  Where nothing else accesses the maps, the program does to
  them what it does in one step.
-/
theorem run_xdpProgram
    (f : Frame) :
    CallProg.run (Memory.access cpu) (xdpProgram f) mem =
      match XdpDdos.xdpProgram cpu f mem.maps with
      | .ok (action, m) =>
          (.returned action, { mem with maps := m })
      | .error _ =>
          (.halted (.crash .outOfRange), mem) := by
  rw [XdpDdos.xdpProgram_eq, xdpProgram_eq]
  by_cases hView : f.view = .skipped
  · rw [if_pos hView, hView]
    rfl
  · rw [if_neg hView,
      CallProg.run_bind_of_returned (run_ofView mem cpu f.view),
      CallProg.run_bind_of_returned
        (run_statsActionVerdict _ cpu _)]
    simp only [Maps.afterFrame, hView, if_false]
    rfl

------------------------------------------------------------
-- With Interference
------------------------------------------------------------

omit mem

/-
  A verdict is that of an address table and a port table that
  there were, the latter not before the former.
-/
def DecidedBy
    (v : FrameView)
    (seen : List (Memory nrCpus))
    (action : XdpAction) : Prop :=
  ∃ mem mem', SeenInOrder seen mem mem' ∧
    action =
      Maps.verdict
        { mem'.maps with blacklist := mem.maps.blacklist } cpu
        v

variable {cpu}
variable {v : FrameView}
variable {seen : List (Memory nrCpus)}
variable {action : XdpAction}

theorem DecidedBy.later
    (hDecided : DecidedBy cpu v seen action)
    (more : List (Memory nrCpus)) :
    DecidedBy cpu v (seen ++ more) action := by
  rcases hDecided with ⟨mem, mem', hSeen, hAction⟩
  exact ⟨mem, mem', hSeen.later more, hAction⟩

/- A verdict that is the same for all maps. -/
theorem decidedBy_of_const
    (hSeen : seen ≠ [])
    (hConst :
      ∀ m : Maps nrCpus, action = m.verdict cpu v) :
    DecidedBy cpu v seen action := by
  have hSplit := List.dropLast_append_getLast hSeen
  rw [← hSplit]
  exact ⟨_, _, seenInOrder_last _ _, hConst _⟩

/- What remains is counting, and a verdict that is known. -/
theorem tolerates_of_known
    {p : FrameProg XdpAction}
    (hHalts : p.HaltsAs fun _ => False)
    (hLeaves : p.Leaves (· = action))
    (hDecided : DecidedBy cpu v seen action) :
    p.Tolerates (Memory.access cpu) (DecidedBy cpu v)
      seen := by
  apply CallProg.Tolerates.of_leaves hHalts hLeaves
  rintro more _ rfl
  exact hDecided.later more

/- The port is looked up after the address. -/
theorem tolerates_matchPort
    {src : BitVec 32}
    {fproto : DdosFilter}
    {dport : BitVec 16}
    {mem : Memory nrCpus}
    (hSeen : SeenInOrder seen mem mem)
    (hOut : ¬ mem.maps.blacklist.Contains src) :
    (matchPort dport fproto).Tolerates (Memory.access cpu)
      (DecidedBy cpu (.ipv4 src (.port fproto dport)))
      seen := by
  intro more₁ mem₁
  have hFound :
      (Memory.access cpu
          (.lookupElem .portBlacklist (dport.setWidth 32))
          mem₁).1 =
        some (Memory.portPtr .portBlacklist dport) :=
    mem₁.lookupElem_portBlacklist dport
  rw [hFound]
  intro more₂ mem₂
  have hMask :
      (Memory.access cpu
          (.load32 (Memory.portPtr .portBlacklist dport))
          mem₂).1 =
        loadU32
          (mem₂.maps.portBlacklist.slots
            (Maps.portIndex dport) cpu) :=
    congrArg loadU32 (mem₂.slot_portBlacklist cpu dport)
  have hOrder :
      SeenInOrder
        (seen ++ more₁ ++ [mem₁] ++ more₂ ++ [mem₂]) mem mem₂ := by
    rw [List.append_assoc seen]
    exact (hSeen.later _).next more₂
  rw [hMask]
  dsimp only [CallProg.bind]
  have hDecided
      {action : XdpAction}
      (hAction :
        action =
          if mem₂.maps.PortBit cpu fproto dport then .drop
          else .pass) :
      DecidedBy cpu (.ipv4 src (.port fproto dport))
        (seen ++ more₁ ++ [mem₁] ++ more₂ ++ [mem₂])
        action := by
    refine ⟨mem, mem₂, hOrder, ?_⟩
    simp only [Maps.verdict, hOut, if_false,
      Maps.portVerdict]
    exact hAction
  by_cases hBit : mem₂.maps.PortBit cpu fproto dport
  · rw [if_pos ((mask_test_iff _ fproto).mpr hBit)]
    apply tolerates_of_known _ _
      (hDecided (if_pos hBit).symm)
    · refine ⟨trivial, fun answer => ?_⟩
      cases answer with
      | none => trivial
      | some drops =>
          exact ⟨trivial, fun _ => ⟨trivial, fun _ => trivial⟩⟩
    · intro answer
      cases answer with
      | none => rfl
      | some drops => exact fun _ _ => rfl
  · rw [if_neg (fun hTest =>
      hBit ((mask_test_iff _ fproto).mp hTest))]
    exact fun more => (hDecided (if_neg hBit).symm).later more

/- The address is looked up first. -/
theorem tolerates_ofView
    (v : FrameView)
    (hSeen : seen ≠ []) :
    (ofView v).Tolerates (Memory.access cpu) (DecidedBy cpu v)
      seen := by
  have hConst
      {v : FrameView}
      {action : XdpAction}
      (hAll : ∀ m : Maps nrCpus, action = m.verdict cpu v) :
      CallProg.Tolerates (Memory.access cpu) (DecidedBy cpu v)
        (.ret action) seen :=
    fun more => (decidedBy_of_const hSeen hAll).later more
  cases v with
  | skipped => exact hConst fun _ => rfl
  | notIpv4 => exact hConst fun _ => rfl
  | shortIpv4 => exact hConst fun _ => rfl
  | ipv4 src l4 =>
      intro more mem
      have hLast := seenInOrder_last (seen ++ more) mem
      have hDecided
          {action : XdpAction}
          (hAction :
            action = mem.maps.verdict cpu (.ipv4 src l4)) :
          DecidedBy cpu (.ipv4 src l4)
            (seen ++ more ++ [mem]) action :=
        ⟨mem, mem, hLast, hAction⟩
      by_cases hIn : mem.maps.blacklist.Contains src
      · have hVerdict :
            XdpAction.drop =
              mem.maps.verdict cpu (.ipv4 src l4) := by
          simp only [Maps.verdict, hIn, if_true]
        simp only [Memory.access, Memory.lookupElem, hIn,
          if_true]
        apply tolerates_of_known _ _ (hDecided hVerdict)
        · exact ⟨trivial, fun _ => ⟨trivial, fun _ => trivial⟩⟩
        · exact fun _ _ => rfl
      · simp only [Memory.access, Memory.lookupElem, hIn,
          if_false]
        have hVerdict :
            mem.maps.verdict cpu (.ipv4 src l4) =
              mem.maps.portVerdict cpu l4 := by
          simp only [Maps.verdict, hIn, if_false]
        cases l4 with
        | other =>
            exact fun more' =>
              (hDecided hVerdict.symm).later more'
        | short =>
            exact fun more' =>
              (hDecided hVerdict.symm).later more'
        | port fproto dport =>
            exact tolerates_matchPort hLast hIn

/- The statistics leave the verdict alone. -/
theorem statsActionVerdict_leaves
    (action : XdpAction) :
    (statsActionVerdict action).HaltsAs fun _ => False := by
  unfold statsActionVerdict
  split
  · trivial
  · refine ⟨trivial, fun answer => ?_⟩
    cases answer with
    | none => trivial
    | some value =>
        exact ⟨trivial, fun _ => ⟨trivial, fun _ => trivial⟩⟩

/-
  However the maps change while a frame is in flight, its
  verdict is that of the address table of one moment and the
  port table of a later one, or of the same.
-/
theorem tolerates_xdpProgram
    (cpu : Fin nrCpus)
    (f : Frame)
    (hSeen : seen ≠ []) :
    (xdpProgram f).Tolerates (Memory.access cpu)
      (DecidedBy cpu f.view) seen := by
  rw [xdpProgram_eq]
  by_cases hView : f.view = .skipped
  · rw [if_pos hView, hView]
    exact fun more =>
      (decidedBy_of_const hSeen fun _ => rfl).later more
  · rw [if_neg hView]
    apply CallProg.Tolerates.bind
    apply (tolerates_ofView f.view hSeen).mono
    intro seen' action hDecided
    apply tolerates_of_known _ _ hDecided
    · exact (statsActionVerdict_leaves action).bind
        fun _ => trivial
    · exact (CallProg.leaves_true (fun _ => trivial)
        (statsActionVerdict action)).bind fun _ _ => rfl

end InFlight

end XdpDdos
