import XdpDdos.Kern.Maps
import XdpDdos.Lib.ByteSeq

/-
  `xdp_tcpdump`: a packet program that copies every frame to
  the perf ring of its CPU, and a process that reads the
  rings of all CPUs and dumps the frames into a file.

  Main declarations:
    * `xdpProg0`
    * `PollerCall`, `EventPtr`
    * `pcapDumpXdpData`, `perfEventProcess`
    * `bpfPerfEventReadSimple`, `readLoop`
    * `pcapPerfEventPoller`
-/

------------------------------------------------------------
-- The Packet Program
------------------------------------------------------------

namespace XdpDdos.Tcpdump

def COOKIE : BitVec 16 := 0x9ca9

def BPF_F_CURRENT_CPU : BitVec 64 := 0xffffffff

/- `bpf_perf_event_output` of `&hdr`, to `perf_ring_map`. -/
inductive KernCall where
  | perfEventOutput (flags : BitVec 64) (hdr : ByteSeq)

@[reducible] def KernCall.Resp : KernCall → Type
  | .perfEventOutput _ _ => ℤ

/- Two bytes, the low one first. -/
def le16Bytes
    (w : BitVec 16) : ByteSeq :=
  [w.extractLsb' 0 8, w.extractLsb' 8 8]

/- `struct my_perf_hdr`. -/
def myPerfHdr
    (cookie pktLen : BitVec 16) : ByteSeq :=
  le16Bytes cookie ++ le16Bytes pktLen

/- `_xdp_prog0`. -/
def xdpProg0
    (ctx : ByteSeq) :
    CallProg KernCall KernCall.Resp XdpAction :=
  if 0 < ctx.length then do
    let pktLen := BitVec.ofNat 16 ctx.length
    let sampleSize := pktLen
    let flags :=
      BPF_F_CURRENT_CPU ||| sampleSize.setWidth 64 <<< 32
    let _ ← .call' (KernCall.perfEventOutput flags
      (myPerfHdr COOKIE pktLen))
    return .pass
  else return .pass

------------------------------------------------------------
-- The Accesses of the Poller
------------------------------------------------------------

variable {nrCpus : ℕ}

def PERF_RECORD_LOST : BitVec 32 := 2

def PERF_RECORD_SAMPLE : BitVec 32 := 9

/- `enum bpf_perf_event_ret`. -/
inductive PerfEventRet where
  | done
  | error
  | cont
  deriving Repr, DecidableEq

/- What `pcap_dump` is given, without the time. -/
structure PcapPacket where
  caplen : BitVec 32
  len : BitVec 32
  data : ByteSeq
  deriving Repr, DecidableEq

/- What is printed about an event that is not a packet. -/
inductive EventMessage where
  | bugCookie (cookie : BitVec 16) (sized : BitVec 32)
  | lost (lost : BitVec 64)
  | unknownType (type : BitVec 32) (size : BitVec 16)
  deriving Repr, DecidableEq

/-
  The calls of the poller, and its accesses to memory that
  it shares with the kernel.
-/
inductive PollerCall (nrCpus : ℕ) where
  | calloc
  | poll
  | malloc (size : ℕ)
  | loadTail (cpu : Fin nrCpus)
  | loadHead (cpu : Fin nrCpus)
  | storeTail (cpu : Fin nrCpus) (dataTail : BitVec 64)
  | read (cpu : Fin nrCpus) (off len : ℕ)
  | pcapDump (packet : PcapPacket)
  | print (message : EventMessage)
  deriving Repr, DecidableEq

/-
  Allocations may fail, `poll` tells which `revents` are set,
  and nothing is read outside the data of a ring.
-/
@[reducible] def PollerCall.Resp : PollerCall nrCpus → Type
  | .calloc => Bool
  | .poll => Fin nrCpus → Bool
  | .malloc _ => Bool
  | .loadTail _ => BitVec 64
  | .loadHead _ => BitVec 64
  | .read _ _ _ => Option ByteSeq
  | _ => Unit

abbrev PollerProg (nrCpus : ℕ) :=
  CallProg (PollerCall nrCpus) PollerCall.Resp

/- Bytes of a buffer, all of which are inside it. -/
def slice
    (bytes : ByteSeq)
    (off len : ℕ) : Option ByteSeq :=
  if off + len ≤ bytes.length then
    some ((bytes.drop off).take len)
  else none

/- A pointer into the data of a ring, or into `*buf`. -/
inductive EventPtr (nrCpus : ℕ) where
  | ring (cpu : Fin nrCpus) (off : ℕ)
  | buf (bytes : ByteSeq) (off : ℕ)

def orOutOfRange :
    Option ByteSeq → PollerProg nrCpus ByteSeq
  | some bytes => return bytes
  | none => .halt (.crash .outOfRange)

namespace EventPtr

def read
    (ptr : EventPtr nrCpus)
    (off len : ℕ) : PollerProg nrCpus ByteSeq :=
  match ptr with
  | .ring cpu start => do
      let bytes ← .call' (PollerCall.read cpu (start + off) len)
      orOutOfRange bytes
  | .buf bytes start =>
      orOutOfRange (slice bytes (start + off) len)

def read16
    (ptr : EventPtr nrCpus)
    (off : ℕ) : PollerProg nrCpus (BitVec 16) := do
  return (← ptr.read off 2).le16At 0

def read32
    (ptr : EventPtr nrCpus)
    (off : ℕ) : PollerProg nrCpus (BitVec 32) := do
  return (← ptr.read off 4).le32At 0

def read64
    (ptr : EventPtr nrCpus)
    (off : ℕ) : PollerProg nrCpus (BitVec 64) := do
  return (← ptr.read off 8).le64At 0

/- `header.type`, of a `struct perf_event_header`. -/
def type
    (ehdr : EventPtr nrCpus) : PollerProg nrCpus (BitVec 32) :=
  ehdr.read32 0

/- `header.size`. -/
def size
    (ehdr : EventPtr nrCpus) : PollerProg nrCpus (BitVec 16) :=
  ehdr.read16 6

/- `data`, of a `struct perf_event_sample`. -/
def data : EventPtr nrCpus → EventPtr nrCpus
  | .ring cpu off => .ring cpu (off + 12)
  | .buf bytes off => .buf bytes (off + 12)

end EventPtr

------------------------------------------------------------
-- Events
------------------------------------------------------------

/- `pcap_dump_xdp_data`. -/
def pcapDumpXdpData
    (data : EventPtr nrCpus)
    (size : BitVec 32) :
    PollerProg nrCpus PerfEventRet := do
  if (← data.read16 0) ≠ COOKIE then do
    let cookie ← data.read16 0
    .call' (PollerCall.print (.bugCookie cookie size))
    return .error
  else do
    let caplen ← data.read16 2
    let len ← data.read16 2
    -- `pcap_dump` reads `caplen` bytes at `pkt_data`
    let pktData ← data.read 4 caplen.toNat
    .call' (PollerCall.pcapDump
      ⟨caplen.setWidth 32, len.setWidth 32, pktData⟩)
    return .cont

/- `perf_event_process`. -/
def perfEventProcess
    (e : EventPtr nrCpus) : PollerProg nrCpus PerfEventRet := do
  if (← e.type) = PERF_RECORD_SAMPLE then do
    let size ← e.read32 8
    let ret ← pcapDumpXdpData e.data size
    if ret ≠ .cont then return ret else return .cont
  else if (← e.type) = PERF_RECORD_LOST then do
    let lost ← e.read64 16
    .call' (PollerCall.print (.lost lost))
    return .cont
  else do
    let type ← e.type
    let size ← e.size
    .call' (PollerCall.print (.unknownType type size))
    return .cont

------------------------------------------------------------
-- One Ring
------------------------------------------------------------

/- `*buf`, which may be `NULL`, and `*buf_len`. -/
structure EventBuf where
  allocated : Bool
  bufLen : ℕ
  deriving Repr, DecidableEq

/- The variables of the loop over the events. -/
structure ReadCursor where
  dataTail : BitVec 64
  ret : PerfEventRet
  beginOff : ℕ
  endOff : ℕ
  deriving Repr, DecidableEq

/- Where the function is: before the loop's test, or left. -/
inductive ReadLabel where
  | loop (c : ReadCursor) (buf : EventBuf)
  | returned (ret : PerfEventRet) (buf : EventBuf)

/- An event with what follows it, or no memory for it. -/
inductive Fetched (nrCpus : ℕ) where
  | event (ehdr : EventPtr nrCpus) (beginOff : ℕ)
      (buf : EventBuf)
  | noMemory (buf : EventBuf)

/-
  `bpf_perf_event_read_simple` up to the loop.  The ring has
  `size` bytes, and offsets are those from `base`.
-/
def bpfPerfEventReadSimple
    (size : ℕ)
    (cpu : Fin nrCpus)
    (buf : EventBuf) : PollerProg nrCpus ReadLabel := do
  let dataTail ← .call' (PollerCall.loadTail cpu)
  let dataHead ← .call' (PollerCall.loadHead cpu)
  if dataHead = dataTail then return .returned .cont buf
  else do
    let c : ReadCursor :=
      { dataTail := dataTail
        ret := .error
        beginOff := dataTail.toNat % size
        endOff := dataHead.toNat % size }
    return .loop c buf

/- What comes after the loop. -/
def leaveLoop
    (cpu : Fin nrCpus)
    (dataTail : BitVec 64)
    (ret : PerfEventRet)
    (buf : EventBuf) : PollerProg nrCpus ReadLabel := do
  .call' (PollerCall.storeTail cpu dataTail)
  return .returned ret buf

/- Make `*buf` large enough; false if there is no memory. -/
def growBuf
    (ehdr : EventPtr nrCpus)
    (buf : EventBuf) :
    PollerProg nrCpus (Bool × EventBuf) := do
  if buf.bufLen < (← ehdr.size).toNat then do
    let size ← ehdr.size
    if ← .call' (PollerCall.malloc size.toNat) then do
      let size ← ehdr.size
      return (true, ⟨true, size.toNat⟩)
    else return (false, ⟨false, buf.bufLen⟩)
  else return (true, buf)

/- The event at `begin`, in one piece, and the next one. -/
def fetchEvent
    (size : ℕ)
    (cpu : Fin nrCpus)
    (beginOff : ℕ)
    (buf : EventBuf) : PollerProg nrCpus (Fetched nrCpus) := do
  let base := EventPtr.ring cpu 0
  let ehdr := EventPtr.ring cpu beginOff
  if size < beginOff + (← ehdr.size).toNat then do
    let len := size - beginOff
    let (room, buf) ← growBuf ehdr buf
    if !room then return .noMemory buf
    else if !buf.allocated then .halt (.crash .nullPointer)
    else do
      let front ← ehdr.read 0 len
      let back ← base.read 0 ((← ehdr.size).toNat - len)
      let ehdr := EventPtr.buf (front ++ back) 0
      return .event ehdr ((← ehdr.size).toNat - len) buf
  else if beginOff + (← ehdr.size).toNat = size then
    return .event ehdr 0 buf
  else return .event ehdr (beginOff + (← ehdr.size).toNat) buf

/- Once through the loop, or what comes after it. -/
def readLoop
    (size : ℕ)
    (cpu : Fin nrCpus)
    (fn : EventPtr nrCpus → PollerProg nrCpus PerfEventRet)
    (c : ReadCursor)
    (buf : EventBuf) : PollerProg nrCpus ReadLabel := do
  if c.beginOff = c.endOff then
    leaveLoop cpu c.dataTail c.ret buf
  else
    match ← fetchEvent size cpu c.beginOff buf with
    | .noMemory buf => leaveLoop cpu c.dataTail .error buf
    | .event ehdr beginOff buf => do
        let ret ← fn ehdr
        if ret ≠ .cont then leaveLoop cpu c.dataTail ret buf
        else do
          let size ← ehdr.size
          let c : ReadCursor :=
            { dataTail := c.dataTail + size.setWidth 64
              ret := ret
              beginOff := beginOff
              endOff := c.endOff }
          return .loop c buf

------------------------------------------------------------
-- All Rings
------------------------------------------------------------

def PAGE_CNT : ℕ := 8

/- Where the poller is, with the variables in use there. -/
inductive PollerLabel (nrCpus : ℕ) where
  | start
  | poll (buf : EventBuf)
  | fds (revents : Fin nrCpus → Bool) (i : ℕ) (buf : EventBuf)
  | reading (revents : Fin nrCpus → Bool) (i : Fin nrCpus)
      (c : ReadCursor) (buf : EventBuf)
  | returned (ret : PerfEventRet)

/-
  What follows a ring.  The `break` leaves the loop over the
  rings, not the one that polls them.
-/
def PollerLabel.afterRead
    (revents : Fin nrCpus → Bool)
    (i : Fin nrCpus) : ReadLabel → PollerLabel nrCpus
  | .loop c buf => .reading revents i c buf
  | .returned ret buf =>
      if ret ≠ .cont then .poll buf
      else .fds revents (i + 1) buf

/- `pcap_perf_event_poller`, from one label to the next. -/
def pcapPerfEventPoller
    (pageSize : ℕ) :
    PollerLabel nrCpus → PollerProg nrCpus (PollerLabel nrCpus)
  | .start => do
      if ← .call' PollerCall.calloc then
        return .poll ⟨false, 0⟩
      else return .returned .error
  | .poll buf => do
      let revents ← .call' PollerCall.poll
      return .fds revents 0 buf
  | .fds revents i buf =>
      if hFd : i < nrCpus then
        if !revents ⟨i, hFd⟩ then
          return .fds revents (i + 1) buf
        else do
          let l ← bpfPerfEventReadSimple (PAGE_CNT * pageSize)
            ⟨i, hFd⟩ buf
          return .afterRead revents ⟨i, hFd⟩ l
      else return .poll buf
  | .reading revents i c buf => do
      let l ← readLoop (PAGE_CNT * pageSize) i
        perfEventProcess c buf
      return .afterRead revents i l
  | .returned ret => return .returned ret

end XdpDdos.Tcpdump
