import XdpDdos.Loader.User
import XdpDdos.Loader.Relocation

/-
  The kernel that the loader runs on: pinned maps, attached
  programs, and the descriptors of one process.

  It stands for the documented behaviour of the calls.  Any
  of them may fail besides, as a fault pattern says.

  Main declarations:
    * `Kernel`, `Process`, `Faults`
    * `Kernel.handle`
-/

------------------------------------------------------------
-- State
------------------------------------------------------------

namespace XdpDdos

/- The identity of a map object. -/
abbrev MapObj :=
  ℕ

/- Where a program is attached to an interface. -/
inductive XdpMode where
  | generic
  | native
  deriving Repr, DecidableEq

def XdpMode.other : XdpMode → XdpMode
  | .generic => .native
  | .native => .generic

theorem XdpMode.eq_or_eq_other
    (mode mode' : XdpMode) :
    mode' = mode ∨ mode' = mode.other := by
  cases mode <;> cases mode' <;> simp [other]

theorem XdpMode.other_ne
    (mode : XdpMode) :
    mode.other ≠ mode := by
  cases mode <;> simp [other]

/- A loaded program: the map each instruction refers to. -/
structure XdpProg where
  mapAt : ℕ → Option MapObj

/- What a descriptor refers to. -/
inductive FdObj where
  | map (m : MapObj)
  | prog (p : XdpProg)

/-
  What outlives a process.  Only programs of this loader are
  kept track of.  Objects are numbered as they are created.
-/
structure Kernel where
  pins : CStr → Option MapObj
  attached : ℤ → XdpMode → Option XdpProg
  nativeXdp : ℤ → Bool
  nextMap : MapObj
  pins_lt :
    ∀ {path m}, pins path = some m → m < nextMap

/- A process on the kernel, with its open descriptors. -/
structure Process where
  kernel : Kernel
  fds : ℤ → Option FdObj
  nextFd : ℕ

/- The calls that fail although the kernel could do them. -/
structure Faults where
  setrlimit : Bool := false
  objGet : CStr → Bool := fun _ => false
  createMap : CStr → Bool := fun _ => false
  loadProgram : Bool := false
  objPin : CStr → Bool := fun _ => false
  setLink : Bool := false
  unlink : CStr → Bool := fun _ => false

namespace Kernel

/- The mode that the flags select on an interface. -/
def modeOf
    (k : Kernel)
    (ifindex : ℤ)
    (flags : BitVec 32) : XdpMode :=
  if flags &&& XDP_FLAGS_SKB_MODE ≠ 0 ∨
      k.nativeXdp ifindex = false then .generic
  else .native

/- A kernel after boot: nothing is pinned or attached. -/
def boot (nativeXdp : ℤ → Bool) : Kernel where
  pins := fun _ => none
  attached := fun _ _ => none
  nativeXdp := nativeXdp
  nextMap := 0
  pins_lt := fun hPin => by cases hPin

theorem modeOf_congr
    {k k' : Kernel}
    (hNative : k'.nativeXdp = k.nativeXdp) :
    k'.modeOf = k.modeOf := by
  funext ifindex flags
  rw [modeOf, hNative, modeOf]

/- Attach a program to an interface, or detach it. -/
def setAttached
    (k : Kernel)
    (ifindex : ℤ)
    (mode : XdpMode)
    (p : Option XdpProg) : Kernel :=
  { k with
    attached :=
      Function.update k.attached ifindex
        (Function.update (k.attached ifindex) mode p) }

theorem setAttached_self
    (k : Kernel)
    (ifindex : ℤ)
    (mode : XdpMode)
    (p : Option XdpProg) :
    (k.setAttached ifindex mode p).attached ifindex mode =
      p := by
  simp [setAttached]

/- Other interfaces and modes are left alone. -/
theorem setAttached_of_ne
    (k : Kernel)
    {ifindex ifindex' : ℤ}
    {mode mode' : XdpMode}
    (p : Option XdpProg)
    (hOther : ¬ (ifindex' = ifindex ∧ mode' = mode)) :
    (k.setAttached ifindex mode p).attached ifindex' mode' =
      k.attached ifindex' mode' := by
  simp only [setAttached]
  by_cases hHere : ifindex' = ifindex
  · subst hHere
    rw [Function.update_self, Function.update_of_ne]
    exact fun hEq => hOther ⟨rfl, hEq⟩
  · rw [Function.update_of_ne hHere]

/- Give an existing map a name. -/
def pin
    (k : Kernel)
    (path : CStr)
    (m : MapObj) : Kernel :=
  if hExists : m < k.nextMap then
    { k with
      pins := Function.update k.pins path (some m)
      pins_lt := by
        intro path' m' hPin
        by_cases hEq : path' = path
        · rw [hEq, Function.update_self] at hPin
          cases hPin
          exact hExists
        · rw [Function.update_of_ne hEq] at hPin
          exact k.pins_lt hPin }
  else k

theorem pin_of_lt
    {k : Kernel}
    {m : MapObj}
    (hExists : m < k.nextMap)
    (path : CStr) :
    (k.pin path m).pins =
        Function.update k.pins path (some m) ∧
      (k.pin path m).attached = k.attached ∧
      (k.pin path m).nativeXdp = k.nativeXdp ∧
      (k.pin path m).nextMap = k.nextMap := by
  rw [pin, dif_pos hExists]
  exact ⟨rfl, rfl, rfl, rfl⟩

/- Take a name away. -/
def unpin
    (k : Kernel)
    (path : CStr) : Kernel :=
  { k with
    pins := Function.update k.pins path none
    pins_lt := by
      intro path' m' hPin
      by_cases hEq : path' = path
      · rw [hEq, Function.update_self] at hPin
        cases hPin
      · rw [Function.update_of_ne hEq] at hPin
        exact k.pins_lt hPin }

/- A new map object. -/
def addMap (k : Kernel) : Kernel :=
  { k with
    nextMap := k.nextMap + 1
    pins_lt := fun hPin => Nat.lt_succ_of_lt (k.pins_lt hPin) }

end Kernel

namespace Process

/- A process whose standard streams are open. -/
def start (k : Kernel) : Process where
  kernel := k
  fds := fun _ => none
  nextFd := 3

/- A new descriptor for an object. -/
def openFd
    (s : Process)
    (obj : FdObj) : ℤ × Process :=
  (s.nextFd,
    { s with
      fds := Function.update s.fds s.nextFd (some obj)
      nextFd := s.nextFd + 1 })

/- The map that an instruction refers to, if to any. -/
def resolveMap
    (s : Process)
    (insns : ByteSeq)
    (idx : ℕ) : Option MapObj :=
  if (insnAt insns idx).code = LD_IMM64 ∧
      (insnAt insns idx).srcReg = BPF_PSEUDO_MAP_FD then
    match s.fds (insnAt insns idx).imm.toInt with
    | some (.map m) => some m
    | _ => none
  else none

/- The program that a buffer of instructions is loaded as. -/
def loadInsns
    (s : Process)
    (insns : ByteSeq)
    (insnsCnt : ℕ) : XdpProg where
  mapAt idx :=
    if idx < insnsCnt then s.resolveMap insns idx else none

end Process

------------------------------------------------------------
-- Calls
------------------------------------------------------------

namespace Kernel

/- Create a map with this name. -/
def createMap
    (faults : Faults)
    (name : CStr)
    (s : Process) : ℤ × Process :=
  if faults.createMap name then (-1, s)
  else
    Process.openFd { s with kernel := s.kernel.addMap }
      (.map s.kernel.nextMap)

/- `BPF_OBJ_GET`. -/
def objGet
    (faults : Faults)
    (path : CStr)
    (s : Process) : ℤ × Process :=
  if faults.objGet path then (-1, s)
  else
    match s.kernel.pins path with
    | none => (-1, s)
    | some m => s.openFd (.map m)

/- `BPF_OBJ_PIN`: a name is given once. -/
def objPin
    (faults : Faults)
    (fd : ℤ)
    (path : CStr)
    (s : Process) : ℤ × Process :=
  if faults.objPin path then (-1, s)
  else
    match s.fds fd, s.kernel.pins path with
    | some (.map m), none =>
        (0, { s with kernel := s.kernel.pin path m })
    | _, _ => (-1, s)

/-
  Attach a program, or detach it when the descriptor is
  negative, in the mode that the flags select; a program in
  the other mode is not replaced.
-/
def setLinkXdpFd
    (faults : Faults)
    (ifindex fd : ℤ)
    (flags : BitVec 32)
    (s : Process) : ℤ × Process :=
  let mode := s.kernel.modeOf ifindex flags
  if faults.setLink then (-1, s)
  else if fd < 0 then
    (0, { s with
      kernel := s.kernel.setAttached ifindex mode none })
  else if (s.kernel.attached ifindex mode.other).isSome then
    (-1, s)
  else
    match s.fds fd with
    | some (.prog p) =>
        (0, { s with
          kernel :=
            s.kernel.setAttached ifindex mode (some p) })
    | _ => (-1, s)

/- `unlink` of a pinned name. -/
def unlink
    (faults : Faults)
    (path : CStr)
    (s : Process) : ℤ × Process :=
  if faults.unlink path ∨ s.kernel.pins path = none then
    (-1, s)
  else (0, { s with kernel := s.kernel.unpin path })

/- The kernel's answers when `elf` is the object file. -/
def handle
    (elf : Elf)
    (faults : Faults) :
    CallProg.Handler LoadCall LoadCall.Resp Process
  | .elfOpen _, s => (some elf, s)
  | .createMapNode _ name _ _ _ _ _, s =>
      createMap faults name s
  | .createMapInMapNode _ name _ _ _ _ _, s =>
      createMap faults name s
  | .loadProgram _ insns insnsCnt _ _, s =>
      if faults.loadProgram then (-1, s)
      else s.openFd (.prog (s.loadInsns insns insnsCnt))
  | .mapUpdateElem _ _ _, s => (0, s)
  | .perfAttach _ _, s => (0, s)
  | .statfs _, s => (.ok BPF_FS_MAGIC, s)
  | .objGet path, s => objGet faults path s
  | .objPin fd path, s => objPin faults fd path s
  | .setLinkXdpFd ifindex fd flags, s =>
      setLinkXdpFd faults ifindex fd flags s
  | .unlink path, s => unlink faults path s
  | .chown _ _ _, s => (0, s)
  | .setrlimit, s => (if faults.setrlimit then -1 else 0, s)
  | .testRules _ _ _, s => ((), s)

end Kernel

end XdpDdos
