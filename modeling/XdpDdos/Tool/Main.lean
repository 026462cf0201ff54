import XdpDdos.Tool.Options

/-
  The command line tool: updating the blacklists, and
  listing them.

  Main declarations:
    * `openBpfMap`, `updateBlacklist`
    * `blacklistListAllIpv4`, `blacklistListAllPorts`
    * `main`
-/

------------------------------------------------------------
-- Updating
------------------------------------------------------------

namespace XdpDdos

namespace Tool

variable {nrCpus : ℕ}

def EXIT_FAIL_MAP_FILE : ℕ := 22

/- Open a pinned map, or end the process. -/
def openBpfMap (file : CStr) : ToolProg nrCpus MapId := do
  match ← bpfObjGet file with
  | .error _ => .halt (.exit EXIT_FAIL_MAP_FILE)
  | .ok fd => return fd

/- The part of an update that `--ip` asks for. -/
def updateIp (st : OptionState) : ToolProg nrCpus ℕ :=
  match st.ipString with
  | none => return 0
  | some ipString => do
      let fdBlacklist ← openBpfMap fileBlacklist
      let res ←
        mapProg (blacklistModify fdBlacklist ipString st.action)
      close fdBlacklist
      return res

/- The part that a port option asks for; it replaces `res`. -/
def updatePort
    (st : OptionState)
    (res : ℕ) : ToolProg nrCpus ℕ :=
  if st.dport ≠ 0 then do
    let fdPortBlacklist ← openBpfMap filePortBlacklist
    let fdPortBlacklistCount ←
      openBpfMap (filePortBlacklistCount st.filter)
    let res ←
      mapProg (blacklistPortModify fdPortBlacklist
        fdPortBlacklistCount st.dport st.action st.proto)
    close fdPortBlacklist
    close fdPortBlacklistCount
    return res
  else return res

/- Update blacklist. -/
def updateBlacklist
    (st : OptionState) : ToolProg nrCpus ℕ :=
  if st.ipString = none ∧ st.dport = 0 then
    return EXIT_FAIL_OPTION
  else do
    let res ← updateIp st
    updatePort st res

------------------------------------------------------------
-- Printing
------------------------------------------------------------

/- `%llu`. -/
def showU64 (n : BitVec 64) : CStr :=
  Nat.toDigits 10 n.toNat

/- `%d`. -/
def showInt (n : BitVec 32) : CStr :=
  if n.toInt < 0 then '-' :: Nat.toDigits 10 n.toInt.natAbs
  else Nat.toDigits 10 n.toInt.natAbs

/- `inet_ntop(AF_INET, …)`: the bytes in memory order. -/
def inetNtop (ip : BitVec 32) : CStr :=
  let octet (i : ℕ) : CStr :=
    Nat.toDigits 10 (ip.extractLsb' (8 * i) 8).toNat
  octet 0 ++ '.' :: octet 1 ++ '.' :: octet 2 ++ '.' :: octet 3

/- `xdp_proto_filter_names`. -/
def protoFilterName : DdosFilter → CStr
  | .tcp => "TCP".toList
  | .udp => "UDP".toList

def blacklistPrintIpv4
    (ip : BitVec 32)
    (count : BitVec 64) : ToolProg nrCpus Unit :=
  printf ("\n \"".toList ++ inetNtop ip ++ "\" : ".toList ++
    showU64 count)

def blacklistPrintProto
    (key : DdosFilter)
    (count : BitVec 64) : ToolProg nrCpus Unit :=
  printf ("\n\t\"".toList ++ protoFilterName key ++
    "\" : ".toList ++ showU64 count)

/- The loop over the protocols of a port. -/
def printProtos
    (key val : BitVec 32)
    (countfds : DdosFilter → MapId) :
    List DdosFilter → Bool → ToolProg nrCpus Bool
  | [], started => return started
  | i :: is, started =>
      if val &&& (1#32 <<< i.index) ≠ 0 then do
        printf (if started then [','] else ['{'])
        let count ← mapProg (getKey32Value64Percpu (countfds i) key)
        blacklistPrintProto i count
        printProtos key val countfds is true
      else printProtos key val countfds is started

def blacklistPrintPort
    (key val : BitVec 32)
    (countfds : DdosFilter → MapId) : ToolProg nrCpus Unit := do
  printf ("\n \"".toList ++ showInt key ++ "\" : ".toList)
  let started ← printProtos key val countfds [.tcp, .udp] false
  if started then printf "\n \x7d".toList
  else return ()

------------------------------------------------------------
-- Listing
------------------------------------------------------------

/-
  What the stack holds where the listing leaves it as it is:
  a key and a value before they are first written, and the
  number of slots behind the value that are not in use.
-/
structure StackFrame where
  key : BitVec 32
  value : BitVec 64
  spare : ℕ

/-
  The listing of addresses, from the key fetched last; it
  ends with that key.
-/
def listIpv4From
    (fd : MapId) :
    ℕ → Option (BitVec 32) → BitVec 32 →
      ToolProg nrCpus (Option (BitVec 32))
  | 0, _, _ => return none
  | fuel + 1, prevKey, lastKey => do
      match ← bpfMapGetNextKey fd prevKey with
      | none => return some lastKey
      | some key =>
          printf (if key ≠ 0 then [','] else [])
          let value ← mapProg (getKey32Value64Percpu fd key)
          blacklistPrintIpv4 key value
          listIpv4From fd fuel (some key) key

/- Whether the loop ended; after it the key is looked at. -/
def blacklistListAllIpv4
    (fuel : ℕ)
    (frame : StackFrame)
    (fd : MapId) : ToolProg nrCpus Bool := do
  match ← listIpv4From fd fuel none frame.key with
  | none => return false
  | some key =>
      printf (if key ≠ 0 then [','] else [])
      return true

/-
  A lookup into a buffer of one slot: the kernel writes the
  slots of all CPUs, and `value` reads as the first one.
-/
def lookupValue
    (frame : StackFrame)
    (fd : MapId)
    (key : BitVec 32)
    (value : BitVec 64) : ToolProg nrCpus (BitVec 64) := do
  match ← mapProg (bpfMapLookupElem fd key) with
  | .error _ => return value
  | .ok values =>
      if nrCpus ≤ 1 + frame.spare then
        if hCpus : 0 < nrCpus then return values ⟨0, hCpus⟩
        else return value
      else .halt (.crash .outOfRange)

/- The listing of ports; whether the loop ended. -/
def listPortsFrom
    (frame : StackFrame)
    (portfd : MapId)
    (countfds : DdosFilter → MapId) :
    ℕ → Option (BitVec 32) → BitVec 64 → Bool →
      ToolProg nrCpus Bool
  | 0, _, _, _ => return false
  | fuel + 1, prevKey, value, started => do
      match ← bpfMapGetNextKey portfd prevKey with
      | none => return true
      | some key =>
          let value ← lookupValue frame portfd key value
          if value ≠ 0 then
            printf (if started then [','] else [])
            blacklistPrintPort key (value.setWidth 32) countfds
            listPortsFrom frame portfd countfds fuel (some key)
              value true
          else
            listPortsFrom frame portfd countfds fuel (some key)
              value started

def blacklistListAllPorts
    (fuel : ℕ)
    (frame : StackFrame)
    (portfd : MapId)
    (countfds : DdosFilter → MapId) : ToolProg nrCpus Bool :=
  listPortsFrom frame portfd countfds fuel none frame.value
    false

/- `fd_port_blacklist_count_array`. -/
def countFdArray
    (fdCountTcp fdCountUdp : MapId) : DdosFilter → MapId
  | .tcp => fdCountTcp
  | .udp => fdCountUdp

/- `--list`; whether its loops ended. -/
def listBlacklists
    (fuel : ℕ)
    (frame : StackFrame) : ToolProg nrCpus Bool := do
  printf ['{']
  let fdBlacklist ← openBpfMap fileBlacklist
  let ended ← blacklistListAllIpv4 fuel frame fdBlacklist
  if ended then
    close fdBlacklist
    let fdPortBlacklist ← openBpfMap filePortBlacklist
    let fdCountTcp ← openBpfMap (filePortBlacklistCount .tcp)
    let fdCountUdp ← openBpfMap (filePortBlacklistCount .udp)
    let ended ←
      blacklistListAllPorts fuel frame fdPortBlacklist
        (countFdArray fdCountTcp fdCountUdp)
    if ended then
      close fdPortBlacklist
      printf "\n\x7d\n".toList
      close fdCountTcp
      close fdCountUdp
      return true
    else return false
  else return false

------------------------------------------------------------
-- The Main Program
------------------------------------------------------------

/-
  How the tool ends: with a status, in the endless loop of
  `stats_poll`, or not within the rounds it was given.
-/
inductive Ending where
  | exited (status : ℕ)
  | polling (interval : BitVec 32)
  | unfinished
  deriving Repr, DecidableEq

/- The end of `main`, which returns no value of its own. -/
def showStats
    (fdVerdict : MapId)
    (st : OptionState) : ToolProg nrCpus Ending :=
  if st.stats then do
    let _ ← openBpfMap fileVerdict
    return .polling st.interval
  else do
    close fdVerdict
    return .exited 0

/- `main`, given its arguments behind `argv[0]`. -/
def main
    (fuel : ℕ)
    (frame : StackFrame)
    (args : List CStr) : ToolProg nrCpus Ending :=
  match optionLoop {} (options args) with
  | none => return .exited EXIT_FAIL_OPTION
  | some st => do
      let fdVerdict ← openBpfMap fileVerdict
      if st.action ≠ 0 then
        let res ← updateBlacklist st
        return .exited res
      else if nonOptions args ≠ [] then
        return .exited EXIT_FAIL_OPTION
      else if st.doList then
        let ended ← listBlacklists fuel frame
        if ended then showStats fdVerdict st
        else return .unfinished
      else showStats fdVerdict st

end Tool

end XdpDdos
