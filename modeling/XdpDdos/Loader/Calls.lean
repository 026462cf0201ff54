import XdpDdos.Lib.CallProg
import XdpDdos.Lib.PercpuMap
import XdpDdos.Loader.Elf

/-
  The system calls, and library calls on files, that the
  loader makes.

  Main declarations:
    * `LoadCall`, `LoadProg`
-/

------------------------------------------------------------
-- Calls of the Loader
------------------------------------------------------------

namespace XdpDdos

/- `enum bpf_prog_type`, as far as the loader uses it. -/
inductive BpfProgType where
  | socketFilter
  | kprobe
  | tracepoint
  | xdp
  | perfEvent
  | cgroupSkb
  | cgroupSock
  | sockOps
  | skSkb
  deriving Repr, DecidableEq

/-
  A call of the loader.  `elfOpen` stands for `open`,
  `elf_begin` and `gelf_getehdr`; `perfAttach` for opening a
  trace event and attaching a program to it; `testRules` for
  the two rules that `main` adds last, ignoring the result.
-/
inductive LoadCall where
  | elfOpen (path : CStr)
  | createMapNode (mapType : ℕ) (name : CStr)
      (keySize valueSize maxEntries mapFlags : ℕ) (node : ℤ)
  | createMapInMapNode (mapType : ℕ) (name : CStr)
      (keySize : ℕ) (innerMapFd : ℤ)
      (maxEntries mapFlags : ℕ) (node : ℤ)
  | loadProgram (progType : BpfProgType) (insns : ByteSeq)
      (insnsCnt : ℕ) (license : ByteSeq)
      (kernVersion : BitVec 32)
  | mapUpdateElem (fd key value : ℤ)
  | perfAttach (event : CStr) (fd : ℤ)
  | statfs (path : CStr)
  | objGet (path : CStr)
  | objPin (fd : ℤ) (path : CStr)
  | setLinkXdpFd (ifindex fd : ℤ) (flags : BitVec 32)
  | unlink (path : CStr)
  | chown (path : CStr) (owner group : BitVec 32)
  | setrlimit
  | testRules (blacklistFd portFd countFd : ℤ)

/- What a call gives back; an `int` unless it says more. -/
@[reducible] def LoadCall.Resp : LoadCall → Type
  | .elfOpen _ => Option Elf
  | .statfs _ => Except Errno ℕ
  | .testRules _ _ _ => Unit
  | _ => ℤ

/- Programs that make calls of the loader. -/
abbrev LoadProg (α : Type) :=
  CallProg LoadCall LoadCall.Resp α

/- The value of a number stored in an `int`. -/
def cInt (n : ℕ) : ℤ :=
  (BitVec.ofNat 32 n).toInt

/- Small numbers keep their value. -/
theorem cInt_of_lt
    {n : ℕ}
    (hSmall : n < 2 ^ 31) :
    cInt n = n := by
  have hNat : (BitVec.ofNat 32 n).toNat = n := by
    rw [BitVec.toNat_ofNat]
    omega
  rw [cInt, BitVec.toInt_eq_toNat_cond, hNat]
  omega

end XdpDdos
