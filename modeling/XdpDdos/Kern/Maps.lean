import XdpDdos.Lib.PercpuMap
import XdpDdos.Lib.CallProg

/-
  The five BPF maps of the packet filter and the map system
  calls that processes make on them.

  The kernel the repository builds is x86_64, so slots are
  eight bytes, `long` is 64 bits wide and loads are little
  endian.

  Main declarations:
    * `BpfMapDef`, `MapId`, `MapId.mapDef`
    * `Maps`, `Maps.fresh`
    * `MapCall`, `Maps.handle`
    * `CallFaults`, `Maps.handleFaulty`
-/

------------------------------------------------------------
-- Map Definitions
------------------------------------------------------------

namespace XdpDdos

/- `struct bpf_map_def`. -/
structure BpfMapDef where
  type : ℕ
  keySize : ℕ
  valueSize : ℕ
  maxEntries : ℕ
  mapFlags : ℕ
  innerMapIdx : ℕ := 0
  numaNode : ℕ := 0
  deriving Repr, DecidableEq

def BPF_MAP_TYPE_PERCPU_HASH : ℕ := 5

def BPF_MAP_TYPE_PERCPU_ARRAY : ℕ := 6

def BPF_F_NO_PREALLOC : ℕ := 1

/- The protocols a port rule is about; the value is its bit. -/
inductive DdosFilter where
  | tcp
  | udp
  deriving Repr, DecidableEq

/- `DDOS_FILTER_TCP` and `DDOS_FILTER_UDP`. -/
def DdosFilter.index : DdosFilter → ℕ
  | .tcp => 0
  | .udp => 1

/- The verdict of the packet program. -/
inductive XdpAction where
  | aborted
  | drop
  | pass
  | tx
  | redirect
  deriving Repr, DecidableEq

/- The value of `enum xdp_action`. -/
def XdpAction.code : XdpAction → BitVec 32
  | .aborted => 0
  | .drop => 1
  | .pass => 2
  | .tx => 3
  | .redirect => 4

def XDP_ACTION_MAX : ℕ := 4

/- Capacity of the address blacklist. -/
def NR_ADDRS : ℕ := 100000

/- Drop counter of each blacklisted source address. -/
def blacklistDef : BpfMapDef where
  type := BPF_MAP_TYPE_PERCPU_HASH
  keySize := 4
  valueSize := 8
  maxEntries := NR_ADDRS
  mapFlags := BPF_F_NO_PREALLOC

/- Counter per XDP "action" verdict. -/
def verdictCntDef : BpfMapDef where
  type := BPF_MAP_TYPE_PERCPU_ARRAY
  keySize := 4
  valueSize := 8
  maxEntries := XDP_ACTION_MAX
  mapFlags := 0

/- The port maps have one entry per 16-bit port. -/
def NR_PORTS : ℕ := 65536

/- Protocol bits of each blacklisted destination port. -/
def portBlacklistDef : BpfMapDef where
  type := BPF_MAP_TYPE_PERCPU_ARRAY
  keySize := 4
  valueSize := 4
  maxEntries := NR_PORTS
  mapFlags := 0

/- TCP and UDP drop counters have the same shape. -/
def portBlacklistDropCountDef : BpfMapDef where
  type := BPF_MAP_TYPE_PERCPU_ARRAY
  keySize := 4
  valueSize := 8
  maxEntries := NR_PORTS
  mapFlags := 0

/- The maps, in the order of the object's maps section. -/
inductive MapId where
  | blacklist
  | verdictCnt
  | portBlacklist
  | portBlacklistDropCount (fproto : DdosFilter)
  deriving Repr, DecidableEq

/- The definition of each map. -/
def MapId.mapDef : MapId → BpfMapDef
  | .blacklist => blacklistDef
  | .verdictCnt => verdictCntDef
  | .portBlacklist => portBlacklistDef
  | .portBlacklistDropCount _ => portBlacklistDropCountDef

/- The contents of the five maps. -/
structure Maps (nrCpus : ℕ) where
  blacklist : PercpuHash (BitVec 32) nrCpus NR_ADDRS
  verdictCnt : PercpuArray nrCpus XDP_ACTION_MAX
  portBlacklist : PercpuArray nrCpus NR_PORTS
  dropCount : DdosFilter → PercpuArray nrCpus NR_PORTS

/- The contents of five newly created maps. -/
def Maps.fresh {nrCpus : ℕ} : Maps nrCpus where
  blacklist := .fresh
  verdictCnt := .fresh
  portBlacklist := .fresh
  dropCount := fun _ => .fresh

------------------------------------------------------------
-- Map System Calls
------------------------------------------------------------

variable {nrCpus : ℕ}

/-
  A map system call on the map its descriptor refers to.
  Values are buffers of one slot per possible CPU.
-/
inductive MapCall (nrCpus : ℕ) where
  | lookupElem (fd : MapId) (key : BitVec 32)
  | updateElem (fd : MapId) (key : BitVec 32)
      (values : Slots nrCpus) (flag : UpdateFlag)
  | deleteElem (fd : MapId) (key : BitVec 32)

/- What a call gives back to the process. -/
@[reducible] def MapCall.Resp : MapCall nrCpus → Type
  | .lookupElem _ _ => Except Errno (Slots nrCpus)
  | .updateElem _ _ _ _ => Except Errno Unit
  | .deleteElem _ _ => Except Errno Unit

/- Programs that make map system calls. -/
abbrev MapProg (nrCpus : ℕ) (α : Type) :=
  CallProg (MapCall nrCpus) MapCall.Resp α

def bpfMapLookupElem
    (fd : MapId)
    (key : BitVec 32) :
    MapProg nrCpus (Except Errno (Slots nrCpus)) :=
  .call' (MapCall.lookupElem fd key)

def bpfMapUpdateElem
    (fd : MapId)
    (key : BitVec 32)
    (values : Slots nrCpus)
    (flag : UpdateFlag) :
    MapProg nrCpus (Except Errno Unit) :=
  .call' (MapCall.updateElem fd key values flag)

def bpfMapDeleteElem
    (fd : MapId)
    (key : BitVec 32) :
    MapProg nrCpus (Except Errno Unit) :=
  .call' (MapCall.deleteElem fd key)

namespace Maps

/- The kernel's answer to a lookup. -/
def lookupElem
    (m : Maps nrCpus)
    (key : BitVec 32) :
    MapId → Except Errno (Slots nrCpus)
  | .blacklist => m.blacklist.lookupElem key
  | .verdictCnt => m.verdictCnt.lookupElem key
  | .portBlacklist => m.portBlacklist.lookupElem key
  | .portBlacklistDropCount fproto =>
      (m.dropCount fproto).lookupElem key

/- The kernel's execution of an update. -/
def updateElem
    (m : Maps nrCpus)
    (key : BitVec 32)
    (values : Slots nrCpus)
    (flag : UpdateFlag) :
    MapId → Except Errno Unit × Maps nrCpus
  | .blacklist =>
      let (res, map) := m.blacklist.updateElem key values flag
      (res, { m with blacklist := map })
  | .verdictCnt =>
      let (res, map) := m.verdictCnt.updateElem key values flag
      (res, { m with verdictCnt := map })
  | .portBlacklist =>
      let (res, map) :=
        m.portBlacklist.updateElem key values flag
      (res, { m with portBlacklist := map })
  | .portBlacklistDropCount fproto =>
      let (res, map) :=
        (m.dropCount fproto).updateElem key values flag
      (res, { m with
        dropCount := Function.update m.dropCount fproto map })

/- The kernel's execution of a removal. -/
def deleteElem
    (m : Maps nrCpus)
    (key : BitVec 32) :
    MapId → Except Errno Unit × Maps nrCpus
  | .blacklist =>
      let (res, map) := m.blacklist.deleteElem key
      (res, { m with blacklist := map })
  | .verdictCnt =>
      let (res, map) := m.verdictCnt.deleteElem key
      (res, { m with verdictCnt := map })
  | .portBlacklist =>
      let (res, map) := m.portBlacklist.deleteElem key
      (res, { m with portBlacklist := map })
  | .portBlacklistDropCount fproto =>
      let (res, map) := (m.dropCount fproto).deleteElem key
      (res, { m with
        dropCount := Function.update m.dropCount fproto map })

/- The kernel answers every map system call. -/
def handle : CallProg.Handler (MapCall nrCpus) MapCall.Resp
    (Maps nrCpus)
  | .lookupElem fd key, m => (m.lookupElem key fd, m)
  | .updateElem fd key values flag, m =>
      m.updateElem key values flag fd
  | .deleteElem fd key, m => m.deleteElem key fd

@[simp] theorem run_lookupElem_bind
    {α : Type}
    (fd : MapId)
    (key : BitVec 32)
    (next : Except Errno (Slots nrCpus) → MapProg nrCpus α)
    (m : Maps nrCpus) :
    CallProg.run handle (bpfMapLookupElem fd key >>= next) m =
      CallProg.run handle (next (m.lookupElem key fd)) m :=
  rfl

@[simp] theorem run_updateElem_bind
    {α : Type}
    (fd : MapId)
    (key : BitVec 32)
    (values : Slots nrCpus)
    (flag : UpdateFlag)
    (next : Except Errno Unit → MapProg nrCpus α)
    (m : Maps nrCpus) :
    CallProg.run handle
        (bpfMapUpdateElem fd key values flag >>= next) m =
      CallProg.run handle
        (next (m.updateElem key values flag fd).1)
        (m.updateElem key values flag fd).2 := rfl

@[simp] theorem run_deleteElem_bind
    {α : Type}
    (fd : MapId)
    (key : BitVec 32)
    (next : Except Errno Unit → MapProg nrCpus α)
    (m : Maps nrCpus) :
    CallProg.run handle
        (bpfMapDeleteElem fd key >>= next) m =
      CallProg.run handle
        (next (m.deleteElem key fd).1)
        (m.deleteElem key fd).2 := rfl

end Maps

------------------------------------------------------------
-- Calls That Fail
------------------------------------------------------------

/- The kinds of map system calls. -/
inductive MapVerb where
  | lookup
  | update
  | delete
  deriving Repr, DecidableEq

/-
  The calls that fail whatever the maps hold, with their
  error numbers; no program here makes one call twice.
-/
abbrev CallFaults :=
  MapId → MapVerb → BitVec 32 → Option Errno

/- No call fails without a reason in the maps. -/
def CallFaults.none : CallFaults :=
  fun _ _ _ => Option.none

namespace Maps

/- A lookup, unless it fails. -/
def lookupFaulty
    (m : Maps nrCpus)
    (fails : CallFaults)
    (key : BitVec 32)
    (fd : MapId) : Except Errno (Slots nrCpus) :=
  match fails fd .lookup key with
  | some errno => .error errno
  | none => m.lookupElem key fd

/- An update, unless it fails and changes nothing. -/
def updateFaulty
    (m : Maps nrCpus)
    (fails : CallFaults)
    (key : BitVec 32)
    (values : Slots nrCpus)
    (flag : UpdateFlag)
    (fd : MapId) : Except Errno Unit × Maps nrCpus :=
  match fails fd .update key with
  | some errno => (.error errno, m)
  | none => m.updateElem key values flag fd

/- A removal, unless it fails and changes nothing. -/
def deleteFaulty
    (m : Maps nrCpus)
    (fails : CallFaults)
    (key : BitVec 32)
    (fd : MapId) : Except Errno Unit × Maps nrCpus :=
  match fails fd .delete key with
  | some errno => (.error errno, m)
  | none => m.deleteElem key fd

/- The kernel answers the calls that do not fail. -/
def handleFaulty
    (fails : CallFaults) :
    CallProg.Handler (MapCall nrCpus) MapCall.Resp
      (Maps nrCpus)
  | .lookupElem fd key, m => (m.lookupFaulty fails key fd, m)
  | .updateElem fd key values flag, m =>
      m.updateFaulty fails key values flag fd
  | .deleteElem fd key, m => m.deleteFaulty fails key fd

theorem handleFaulty_none :
    (handleFaulty .none :
      CallProg.Handler (MapCall nrCpus) MapCall.Resp _) =
      handle := by
  funext op m
  cases op with
  | lookupElem fd key => rfl
  | updateElem fd key values flag => rfl
  | deleteElem fd key => rfl

theorem lookupFaulty_of_some
    {m : Maps nrCpus}
    {fails : CallFaults}
    {key : BitVec 32}
    {fd : MapId}
    {errno : Errno}
    (hFault : fails fd .lookup key = some errno) :
    m.lookupFaulty fails key fd = .error errno := by
  simp only [lookupFaulty, hFault]

theorem lookupFaulty_of_none
    {m : Maps nrCpus}
    {fails : CallFaults}
    {key : BitVec 32}
    {fd : MapId}
    (hFault : fails fd .lookup key = none) :
    m.lookupFaulty fails key fd = m.lookupElem key fd := by
  simp only [lookupFaulty, hFault]

theorem updateFaulty_of_some
    {m : Maps nrCpus}
    {fails : CallFaults}
    {key : BitVec 32}
    {fd : MapId}
    {errno : Errno}
    (values : Slots nrCpus)
    (flag : UpdateFlag)
    (hFault : fails fd .update key = some errno) :
    m.updateFaulty fails key values flag fd =
      (.error errno, m) := by
  simp only [updateFaulty, hFault]

theorem updateFaulty_of_none
    {m : Maps nrCpus}
    {fails : CallFaults}
    {key : BitVec 32}
    {fd : MapId}
    (values : Slots nrCpus)
    (flag : UpdateFlag)
    (hFault : fails fd .update key = none) :
    m.updateFaulty fails key values flag fd =
      m.updateElem key values flag fd := by
  simp only [updateFaulty, hFault]

theorem deleteFaulty_of_some
    {m : Maps nrCpus}
    {fails : CallFaults}
    {key : BitVec 32}
    {fd : MapId}
    {errno : Errno}
    (hFault : fails fd .delete key = some errno) :
    m.deleteFaulty fails key fd = (.error errno, m) := by
  simp only [deleteFaulty, hFault]

theorem deleteFaulty_of_none
    {m : Maps nrCpus}
    {fails : CallFaults}
    {key : BitVec 32}
    {fd : MapId}
    (hFault : fails fd .delete key = none) :
    m.deleteFaulty fails key fd = m.deleteElem key fd := by
  simp only [deleteFaulty, hFault]

@[simp] theorem run_lookupFaulty_bind
    {α : Type}
    (fails : CallFaults)
    (fd : MapId)
    (key : BitVec 32)
    (next : Except Errno (Slots nrCpus) → MapProg nrCpus α)
    (m : Maps nrCpus) :
    CallProg.run (handleFaulty fails)
        (bpfMapLookupElem fd key >>= next) m =
      CallProg.run (handleFaulty fails)
        (next (m.lookupFaulty fails key fd)) m :=
  rfl

@[simp] theorem run_updateFaulty_bind
    {α : Type}
    (fails : CallFaults)
    (fd : MapId)
    (key : BitVec 32)
    (values : Slots nrCpus)
    (flag : UpdateFlag)
    (next : Except Errno Unit → MapProg nrCpus α)
    (m : Maps nrCpus) :
    CallProg.run (handleFaulty fails)
        (bpfMapUpdateElem fd key values flag >>= next) m =
      CallProg.run (handleFaulty fails)
        (next (m.updateFaulty fails key values flag fd).1)
        (m.updateFaulty fails key values flag fd).2 := rfl

@[simp] theorem run_deleteFaulty_bind
    {α : Type}
    (fails : CallFaults)
    (fd : MapId)
    (key : BitVec 32)
    (next : Except Errno Unit → MapProg nrCpus α)
    (m : Maps nrCpus) :
    CallProg.run (handleFaulty fails)
        (bpfMapDeleteElem fd key >>= next) m =
      CallProg.run (handleFaulty fails)
        (next (m.deleteFaulty fails key fd).1)
        (m.deleteFaulty fails key fd).2 := rfl

end Maps

end XdpDdos
