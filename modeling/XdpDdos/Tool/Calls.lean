import XdpDdos.Control.Stats

/-
  The environment of the command line tool: the pinned map
  files, the map system calls, and standard output.

  Main declarations:
    * `ToolCall`, `ToolProg`
    * `ToolState`, `ToolFaults`, `Tool.handle`
    * `Tool.run_mapProg_bind`
-/

------------------------------------------------------------
-- Calls
------------------------------------------------------------

namespace XdpDdos

variable {nrCpus : ℕ}

/- A call of the tool to its environment. -/
inductive ToolCall (nrCpus : ℕ) where
  | objGet (file : CStr)
  | map (op : MapCall nrCpus)
  | getNextKey (fd : MapId) (prevKey : Option (BitVec 32))
  | printf (text : CStr)
  | close (fd : MapId)

/- What a call gives back; no next key is a failure. -/
@[reducible] def ToolCall.Resp : ToolCall nrCpus → Type
  | .objGet _ => Except Errno MapId
  | .map op => op.Resp
  | .getNextKey _ _ => Option (BitVec 32)
  | .printf _ => Unit
  | .close _ => Unit

/- Programs of the tool. -/
abbrev ToolProg (nrCpus : ℕ) (α : Type) :=
  CallProg (ToolCall nrCpus) ToolCall.Resp α

/- A function of the shared header, run in the tool. -/
def mapProg
    {α : Type}
    (p : MapProg nrCpus α) : ToolProg nrCpus α :=
  CallProg.embed .map (fun _ a => a) p

def bpfObjGet
    (file : CStr) : ToolProg nrCpus (Except Errno MapId) :=
  .call' (ToolCall.objGet file)

def bpfMapGetNextKey
    (fd : MapId)
    (prevKey : Option (BitVec 32)) :
    ToolProg nrCpus (Option (BitVec 32)) :=
  .call' (ToolCall.getNextKey fd prevKey)

def printf (text : CStr) : ToolProg nrCpus Unit :=
  .call' (ToolCall.printf text)

def close (fd : MapId) : ToolProg nrCpus Unit :=
  .call' (ToolCall.close fd)

------------------------------------------------------------
-- Files
------------------------------------------------------------

def fileBlacklist : CStr :=
  "/sys/fs/bpf/ddos_blacklist".toList

def fileVerdict : CStr :=
  "/sys/fs/bpf/ddos_blacklist_stat_verdict".toList

def filePortBlacklist : CStr :=
  "/sys/fs/bpf/ddos_port_blacklist".toList

def filePortBlacklistCount : DdosFilter → CStr
  | .tcp =>
      "/sys/fs/bpf/ddos_port_blacklist_count_tcp".toList
  | .udp =>
      "/sys/fs/bpf/ddos_port_blacklist_count_udp".toList

/- The map that the loader pins at a file. -/
def mapOfFile (file : CStr) : Option MapId :=
  if file = fileBlacklist then some .blacklist
  else if file = fileVerdict then some .verdictCnt
  else if file = filePortBlacklist then some .portBlacklist
  else if file = filePortBlacklistCount .tcp then
    some (.portBlacklistDropCount .tcp)
  else if file = filePortBlacklistCount .udp then
    some (.portBlacklistDropCount .udp)
  else none

theorem mapOfFile_fileBlacklist :
    mapOfFile fileBlacklist = some .blacklist := by
  decide

theorem mapOfFile_fileVerdict :
    mapOfFile fileVerdict = some .verdictCnt := by
  decide

theorem mapOfFile_filePortBlacklist :
    mapOfFile filePortBlacklist = some .portBlacklist := by
  decide

theorem mapOfFile_filePortBlacklistCount
    (fproto : DdosFilter) :
    mapOfFile (filePortBlacklistCount fproto) =
      some (.portBlacklistDropCount fproto) := by
  cases fproto with
  | tcp => decide
  | udp => decide

------------------------------------------------------------
-- The Environment
------------------------------------------------------------

/- The element behind the first occurrence of another. -/
def nextIn
    {α : Type}
    [DecidableEq α]
    (x : α) : List α → Option α
  | [] => none
  | y :: ys => if y = x then ys.head? else nextIn x ys

/-
  The successor of a key of a hash; from an absent key, or
  none, the first one.
-/
def PercpuHash.nextKey
    {κ : Type}
    [DecidableEq κ]
    {maxEntries : ℕ}
    (hash : PercpuHash κ nrCpus maxEntries) :
    Option κ → Option κ
  | none => hash.entries.keys.head?
  | some key =>
      if key ∈ hash.entries.keys then
        nextIn key hash.entries.keys
      else hash.entries.keys.head?

/- The successor of an index of an array. -/
def PercpuArray.nextKey
    {maxEntries : ℕ}
    (_arr : PercpuArray nrCpus maxEntries) :
    Option (BitVec 32) → Option (BitVec 32)
  | none => some 0
  | some key =>
      if key.toNat ≥ maxEntries then some 0
      else if key.toNat = maxEntries - 1 then none
      else some (key + 1)

/- The kernel's answer to a request for the next key. -/
def Maps.getNextKey
    (m : Maps nrCpus)
    (prevKey : Option (BitVec 32)) :
    MapId → Option (BitVec 32)
  | .blacklist => m.blacklist.nextKey prevKey
  | .verdictCnt => m.verdictCnt.nextKey prevKey
  | .portBlacklist => m.portBlacklist.nextKey prevKey
  | .portBlacklistDropCount fproto =>
      (m.dropCount fproto).nextKey prevKey

/- The maps, and what was printed. -/
structure ToolState (nrCpus : ℕ) where
  maps : Maps nrCpus
  stdout : CStr := []

/- The files that cannot be opened, and failing map calls. -/
structure ToolFaults where
  opens : CStr → Option Errno
  calls : CallFaults

/- Everything works that the maps allow. -/
def ToolFaults.none : ToolFaults where
  opens := fun _ => Option.none
  calls := CallFaults.none

/- Open a file, unless that fails. -/
def ToolFaults.objGet
    (fails : ToolFaults)
    (file : CStr) : Except Errno MapId :=
  match fails.opens file with
  | some errno => .error errno
  | Option.none =>
      match mapOfFile file with
      | some fd => .ok fd
      | Option.none => .error ENOENT

/- The environment of one run of the tool. -/
def Tool.handle
    (fails : ToolFaults) :
    CallProg.Handler (ToolCall nrCpus) ToolCall.Resp
      (ToolState nrCpus)
  | .objGet file, s => (fails.objGet file, s)
  | .map op, s =>
      ((Maps.handleFaulty fails.calls op s.maps).1,
        { s with
          maps :=
            (Maps.handleFaulty fails.calls op s.maps).2 })
  | .getNextKey fd prevKey, s =>
      (s.maps.getNextKey prevKey fd, s)
  | .printf text, s =>
      ((), { s with stdout := s.stdout ++ text })
  | .close _, s => ((), s)

namespace Tool

variable {α : Type}
variable (fails : ToolFaults)

@[simp] theorem run_printf_bind
    (text : CStr)
    (next : Unit → ToolProg nrCpus α)
    (s : ToolState nrCpus) :
    CallProg.run (handle fails) (printf text >>= next) s =
      CallProg.run (handle fails) (next ())
        { s with stdout := s.stdout ++ text } := rfl

@[simp] theorem run_close_bind
    (fd : MapId)
    (next : Unit → ToolProg nrCpus α)
    (s : ToolState nrCpus) :
    CallProg.run (handle fails) (close fd >>= next) s =
      CallProg.run (handle fails) (next ()) s := rfl

@[simp] theorem run_objGet_bind
    (file : CStr)
    (next : Except Errno MapId → ToolProg nrCpus α)
    (s : ToolState nrCpus) :
    CallProg.run (handle fails) (bpfObjGet file >>= next) s =
      CallProg.run (handle fails)
        (next (fails.objGet file)) s := rfl

@[simp] theorem run_getNextKey_bind
    (fd : MapId)
    (prevKey : Option (BitVec 32))
    (next : Option (BitVec 32) → ToolProg nrCpus α)
    (s : ToolState nrCpus) :
    CallProg.run (handle fails)
        (bpfMapGetNextKey fd prevKey >>= next) s =
      CallProg.run (handle fails)
        (next (s.maps.getNextKey prevKey fd)) s := rfl

/- A function of the shared header sees the maps only. -/
theorem run_mapProg
    (p : MapProg nrCpus α)
    (s : ToolState nrCpus) :
    CallProg.run (handle fails) (mapProg p) s =
      ((CallProg.run (Maps.handleFaulty fails.calls) p
          s.maps).1,
        { s with
          maps :=
            (CallProg.run (Maps.handleFaulty fails.calls) p
              s.maps).2 }) := by
  unfold mapProg
  exact CallProg.run_embed .map (fun _ a => a)
    (Maps.handleFaulty fails.calls) (handle fails)
    (fun m => { s with maps := m })
    (fun _ _ => ⟨rfl, rfl⟩) p s.maps

/- The tool goes on with the value such a function returns. -/
theorem run_mapProg_bind
    {p : MapProg nrCpus α}
    {s : ToolState nrCpus}
    {value : α}
    {m : Maps nrCpus}
    (hRun :
      CallProg.run (Maps.handleFaulty fails.calls) p s.maps =
        (.returned value, m))
    {β : Type}
    (next : α → ToolProg nrCpus β) :
    CallProg.run (handle fails) (mapProg p >>= next) s =
      CallProg.run (handle fails) (next value)
        { s with maps := m } := by
  apply CallProg.run_bind_of_returned
  rw [run_mapProg, hRun]

end Tool

end XdpDdos
