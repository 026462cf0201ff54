import XdpDdos.Lib.Wiring
import XdpDdos.Loader.CommandLine
import XdpDdos.Loader.Start
import XdpDdos.Tool.Update
import XdpDdos.Firewall.System

/-
  A device on which the loader and the tool are run and whose
  interfaces receive frames.

  Map objects outlive the processes that create them: by the
  files that name them, and by the programs that are attached
  with them.  A run of a process is one event.

  Main declarations:
    * `MapId.Contents`, `MapStore`
    * `MapStore.maps`, `MapStore.write`
    * `LoaderFaults`, `Device`, `Device.handle`
    * `DeviceEvent`, `DeviceResponse`, `deviceSystem`
-/

------------------------------------------------------------
-- Contents of Map Objects
------------------------------------------------------------

namespace XdpDdos

variable {nrCpus : ℕ}

/- What an object holds that was created for a map. -/
@[reducible] def MapId.Contents
    (nrCpus : ℕ) : MapId → Type
  | .blacklist => PercpuHash (BitVec 32) nrCpus NR_ADDRS
  | .verdictCnt => PercpuArray nrCpus XDP_ACTION_MAX
  | .portBlacklist => PercpuArray nrCpus NR_PORTS
  | .portBlacklistDropCount _ => PercpuArray nrCpus NR_PORTS

/- The index of a map in the object's maps section. -/
def MapId.index : MapId → ℕ
  | .blacklist => 0
  | .verdictCnt => 1
  | .portBlacklist => 2
  | .portBlacklistDropCount .tcp => 3
  | .portBlacklistDropCount .udp => 4

/- The contents of each of the five maps. -/
def Maps.contents
    (m : Maps nrCpus) : (id : MapId) → id.Contents nrCpus
  | .blacklist => m.blacklist
  | .verdictCnt => m.verdictCnt
  | .portBlacklist => m.portBlacklist
  | .portBlacklistDropCount fproto => m.dropCount fproto

def Maps.ofContents
    (f : (id : MapId) → id.Contents nrCpus) : Maps nrCpus where
  blacklist := f .blacklist
  verdictCnt := f .verdictCnt
  portBlacklist := f .portBlacklist
  dropCount fproto := f (.portBlacklistDropCount fproto)

@[simp] theorem Maps.contents_ofContents
    (f : (id : MapId) → id.Contents nrCpus) :
    (Maps.ofContents f).contents = f := by
  funext id
  cases id <;> rfl

/- The contents of every map object. -/
abbrev MapStore (nrCpus : ℕ) :=
  Store (MapId.Contents nrCpus)

namespace MapStore

/- The maps that are reached by a wiring. -/
def maps
    (st : MapStore nrCpus)
    (w : Wiring MapId) : Maps nrCpus :=
  .ofContents (st.view Maps.fresh.contents w)

/- Write maps back to their objects. -/
def write
    (st : MapStore nrCpus)
    (w : Wiring MapId)
    (m : Maps nrCpus) : MapStore nrCpus :=
  st.put w m.contents

/- New objects are empty. -/
def create
    (st : MapStore nrCpus)
    (n n' : MapObj) : MapStore nrCpus :=
  st.renew Maps.fresh.contents n n'

end MapStore

------------------------------------------------------------
-- Wirings
------------------------------------------------------------

/- The object that a program uses as map `i`. -/
def DeployedObject.objOf
    (obj : DeployedObject)
    (p : XdpProg)
    (i : ℕ) : Option MapObj :=
  match (obj.relocs obj.prog).find?
      (fun e => e.sym.stValue = MAP_DEF_SIZE * i) with
  | some e => p.mapAt e.insnIdx
  | none => none

/- The objects that a program uses. -/
def DeployedObject.wiring
    (obj : DeployedObject)
    (p : XdpProg) : Wiring MapId :=
  fun id => obj.objOf p id.index

/- The objects that the files refer to. -/
def Kernel.fileWiring (k : Kernel) : Wiring MapId :=
  fun id => k.pins (exportFile id.index)

/- The map that a descriptor of a process refers to. -/
def Process.mapOf
    (s : Process)
    (fd : ℤ) : Option MapObj :=
  match s.fds fd with
  | some (.map m) => some m
  | _ => none

/- The objects of the descriptors that rules are added by. -/
def Process.fdWiring
    (s : Process)
    (blacklistFd portFd countFd : ℤ) : Wiring MapId
  | .blacklist => s.mapOf blacklistFd
  | .portBlacklist => s.mapOf portFd
  | .portBlacklistDropCount .udp => s.mapOf countFd
  | _ => none

------------------------------------------------------------
-- The Loader on the Device
------------------------------------------------------------

/- The two rules that the loader's `main` adds last. -/
def addTestRules : MapProg nrCpus Unit := do
  let _ ← blacklistModify .blacklist "198.18.50.3".toList
    ACTION_ADD
  let _ ← blacklistPortModify .portBlacklist
    (.portBlacklistDropCount .udp) 80 ACTION_ADD
    (IPPROTO_UDP.setWidth 32)
  return ()

/-
  What fails in a run of the loader: calls that change the
  kernel, opening the object file, `statfs`, and map calls
  for the test rules.
-/
structure LoaderFaults extends Faults where
  elfOpen : Bool := false
  statfs : Bool := false
  tests : CallFaults := .none

/- The kernel, and the contents of its map objects. -/
structure Device (nrCpus : ℕ) where
  kernel : Kernel
  store : MapStore nrCpus

namespace Device

/- A device after boot. -/
def boot (nativeXdp : ℤ → Bool) : Device nrCpus where
  kernel := .boot nativeXdp
  store := fun _ => Maps.fresh.contents

/-
  The calls of a loader process: the rules go to the maps of
  the descriptors, and all else is up to the kernel.
-/
def handle
    (elf : Elf)
    (faults : LoaderFaults) :
    CallProg.Handler LoadCall LoadCall.Resp
      (Process × MapStore nrCpus)
  | .testRules blacklistFd portFd countFd, (s, st) =>
      let w := s.fdWiring blacklistFd portFd countFd
      ((), (s, st.write w
        (CallProg.run (Maps.handleFaulty faults.tests)
          addTestRules (st.maps w)).2))
  | .elfOpen _, (s, st) =>
      (if faults.elfOpen then none else some elf, (s, st))
  | .statfs _, (s, st) =>
      (if faults.statfs then .error ENOENT
        else .ok BPF_FS_MAGIC, (s, st))
  | op, (s, st) =>
      let (answer, s') :=
        Kernel.handle elf faults.toFaults op s
      (answer, (s',
        st.create s.kernel.nextMap s'.kernel.nextMap))

/- Run the loader on its arguments. -/
def runLoader
    (obj : DeployedObject)
    (db : NameDb)
    (d : Device nrCpus)
    (faults : LoaderFaults)
    (args : List CStr) : Outcome ℕ × Device nrCpus :=
  let (outcome, s, st) :=
    CallProg.run (handle obj.elf faults)
      (Loader.main db args) (.start d.kernel, d.store)
  (outcome, ⟨s.kernel, st⟩)

------------------------------------------------------------
-- The Tool on the Device
------------------------------------------------------------

/- A file that is not there cannot be opened either. -/
def toolFaults
    (k : Kernel)
    (fails : ToolFaults) : ToolFaults where
  opens file :=
    match fails.opens file with
    | some errno => some errno
    | none =>
        if k.pins file = none then some ENOENT else none
  calls := fails.calls

/- Run the tool on its arguments. -/
def runTool
    (d : Device nrCpus)
    (fails : ToolFaults)
    (fuel : ℕ)
    (frame : Tool.StackFrame)
    (args : List CStr) :
    Outcome Tool.Ending × Device nrCpus :=
  let w := d.kernel.fileWiring
  let (outcome, s) :=
    Tool.runTool fuel frame (toolFaults d.kernel fails)
      (d.store.maps w) args
  (outcome, { d with store := d.store.write w s.maps })

------------------------------------------------------------
-- Frames on the Device
------------------------------------------------------------

/- The program that sees the frames of an interface. -/
def program
    (d : Device nrCpus)
    (ifindex : ℤ) : Option XdpProg :=
  (d.kernel.attached ifindex .native).or
    (d.kernel.attached ifindex .generic)

end Device

------------------------------------------------------------
-- The System
------------------------------------------------------------

/-
  A run of the loader, a run of the tool, or a frame that an
  interface receives on a CPU; each run with what fails in it.
-/
inductive DeviceEvent (nrCpus : ℕ) where
  | loader (faults : LoaderFaults) (args : List CStr)
  | tool (fails : ToolFaults) (fuel : ℕ)
      (frame : Tool.StackFrame) (args : List CStr)
  | frame (ifindex : ℤ) (cpu : Fin nrCpus) (ctx : Frame)

/- How a run ends, and what becomes of a frame. -/
inductive DeviceResponse where
  | loaderEnded (outcome : Outcome ℕ)
  | toolEnded (outcome : Outcome Tool.Ending)
  | verdict (result : Except Fault XdpAction)
  | unfiltered

/- The exit status of a process, unless it crashes. -/
def Outcome.exitStatus : Outcome ℕ → Option ℕ
  | .returned status => some status
  | .halted (.exit status) => some status
  | .halted (.crash _) => none

/- The answer and effect of an event on the device. -/
def deviceSystem
    (obj : DeployedObject)
    (db : NameDb) :
    Reactive (Device nrCpus) (DeviceEvent nrCpus)
      DeviceResponse where
  step d
    | .loader faults args =>
        let (outcome, d') := d.runLoader obj db faults args
        (.loaderEnded outcome, d')
    | .tool fails fuel frame args =>
        let (outcome, d') := d.runTool fails fuel frame args
        (.toolEnded outcome, d')
    | .frame ifindex cpu ctx =>
        match d.program ifindex with
        | none => (.unfiltered, d)
        | some p =>
            let w := obj.wiring p
            let (result, m') :=
              frameStep cpu (d.store.maps w) ctx
            (.verdict result,
              { d with store := d.store.write w m' })

end XdpDdos
