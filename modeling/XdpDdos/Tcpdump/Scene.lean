import XdpDdos.Tcpdump.System

/-
  What holds of the rings, the file and the ledger while the
  poller reads, whatever the kernel does in between.

  Main declarations:
    * `KernelMoves`, `tcpdumpWorld`
    * `UpTo`, `InOrder`, `Drained`, `Booked`
    * `Mid`, `Idle`
    * `Reads`, `reads_ring`, `reads_buf`
-/

------------------------------------------------------------
-- Assertions
------------------------------------------------------------

namespace XdpDdos.Tcpdump

variable {nrCpus size : ℕ}

/- The shared memory, and what is remembered. -/
abbrev Scene (nrCpus size : ℕ) :=
  Shared nrCpus size × Ledger nrCpus

/-
  The packets of the records `done`, the first ones written
  to the ring, were dumped, and no byte behind them was
  released.
-/
structure UpTo
    (cpu : Fin nrCpus)
    (tail : ℕ)
    (done : List ByteSeq)
    (x : Scene nrCpus size) : Prop where
  holds : (x.1.rings cpu).Holds (x.2.written cpu) tail
  done_prefix : done <+: x.2.written cpu
  tail_le : tail ≤ done.flatten.length
  dumped : dumpedOn cpu x.2.dumped = packets done

def InOrder
    (cpu : Fin nrCpus)
    (x : Scene nrCpus size) : Prop :=
  ∃ tail done, UpTo cpu tail done x

/- All that was dumped was released. -/
def Drained
    (cpu : Fin nrCpus)
    (x : Scene nrCpus size) : Prop :=
  ∃ done, UpTo cpu done.flatten.length done x

/- The file has the packets of the ledger. -/
def Booked
    (x : Scene nrCpus size) : Prop :=
  x.1.pcap = x.2.dumped.map Prod.snd

/- Unless an allocation failed, `*buf` has `*buf_len` bytes. -/
def BufOk
    (buf : EventBuf)
    (x : Scene nrCpus size) : Prop :=
  x.2.failed = true ∨ buf.allocated = true ∨ buf.bufLen = 0

/- All the time. -/
def Consistent
    (x : Scene nrCpus size) : Prop :=
  Booked x ∧ ∀ cpu, InOrder cpu x

/- Between two rings. -/
structure Idle
    (buf : EventBuf)
    (x : Scene nrCpus size) : Prop where
  drained : ∀ cpu, Drained cpu x
  booked : Booked x
  buf_ok : BufOk buf x

/-
  While the ring of `cpu` is read, of which the records
  `known` were there when its head was loaded.
-/
structure Mid
    (cpu : Fin nrCpus)
    (tail : ℕ)
    (known done : List ByteSeq)
    (buf : EventBuf)
    (x : Scene nrCpus size) : Prop where
  upTo : UpTo cpu tail done x
  known_prefix : known <+: x.2.written cpu
  seen : x.2.seen cpu = known
  reading : x.2.reading = some cpu
  others : ∀ cpu', cpu' ≠ cpu → Drained cpu' x
  booked : Booked x
  buf_ok : BufOk buf x

theorem Drained.inOrder
    {cpu : Fin nrCpus}
    {x : Scene nrCpus size}
    (hDrained : Drained cpu x) :
    InOrder cpu x := by
  rcases hDrained with ⟨done, hUpTo⟩
  exact ⟨_, done, hUpTo⟩

theorem Idle.consistent
    {buf : EventBuf}
    {x : Scene nrCpus size}
    (hIdle : Idle buf x) :
    Consistent x :=
  ⟨hIdle.booked, fun cpu => (hIdle.drained cpu).inOrder⟩

theorem Mid.consistent
    {cpu : Fin nrCpus}
    {tail : ℕ}
    {known done : List ByteSeq}
    {buf : EventBuf}
    {x : Scene nrCpus size}
    (hMid : Mid cpu tail known done buf x) :
    Consistent x := by
  refine ⟨hMid.booked, fun cpu' => ?_⟩
  by_cases hHere : cpu' = cpu
  · subst hHere
    exact ⟨tail, done, hMid.upTo⟩
  · exact (hMid.others cpu' hHere).inOrder

------------------------------------------------------------
-- What the Kernel Does Meanwhile
------------------------------------------------------------

/- The kernel only adds records. -/
structure KernelMoves
    (x y : Scene nrCpus size) : Prop where
  pcap : y.1.pcap = x.1.pcap
  seen : y.2.seen = x.2.seen
  reading : y.2.reading = x.2.reading
  dumped : y.2.dumped = x.2.dumped
  failed : y.2.failed = x.2.failed
  written : ∀ cpu, x.2.written cpu <+: y.2.written cpu
  holds :
    ∀ cpu tail,
      (x.1.rings cpu).Holds (x.2.written cpu) tail →
        (y.1.rings cpu).Holds (y.2.written cpu) tail

namespace KernelMoves

variable {x y z : Scene nrCpus size}

theorem refl
    (x : Scene nrCpus size) :
    KernelMoves x x where
  pcap := rfl
  seen := rfl
  reading := rfl
  dumped := rfl
  failed := rfl
  written _ := List.prefix_rfl
  holds _ _ hHolds := hHolds

theorem trans
    (hFirst : KernelMoves x y)
    (hSecond : KernelMoves y z) :
    KernelMoves x z where
  pcap := hSecond.pcap.trans hFirst.pcap
  seen := hSecond.seen.trans hFirst.seen
  reading := hSecond.reading.trans hFirst.reading
  dumped := hSecond.dumped.trans hFirst.dumped
  failed := hSecond.failed.trans hFirst.failed
  written cpu := (hFirst.written cpu).trans (hSecond.written cpu)
  holds cpu tail hHolds :=
    hSecond.holds cpu tail (hFirst.holds cpu tail hHolds)

theorem upTo
    {cpu : Fin nrCpus}
    {tail : ℕ}
    {done : List ByteSeq}
    (hMoves : KernelMoves x y)
    (hUpTo : UpTo cpu tail done x) :
    UpTo cpu tail done y where
  holds := hMoves.holds cpu tail hUpTo.holds
  done_prefix := hUpTo.done_prefix.trans (hMoves.written cpu)
  tail_le := hUpTo.tail_le
  dumped := by rw [hMoves.dumped, hUpTo.dumped]

theorem drained
    {cpu : Fin nrCpus}
    (hMoves : KernelMoves x y)
    (hDrained : Drained cpu x) :
    Drained cpu y := by
  rcases hDrained with ⟨done, hUpTo⟩
  exact ⟨done, hMoves.upTo hUpTo⟩

theorem booked
    (hMoves : KernelMoves x y)
    (hBooked : Booked x) :
    Booked y := by
  rw [Booked, hMoves.pcap, hMoves.dumped, hBooked]

theorem bufOk
    {buf : EventBuf}
    (hMoves : KernelMoves x y)
    (hBuf : BufOk buf x) :
    BufOk buf y := by
  rw [BufOk, hMoves.failed]
  exact hBuf

end KernelMoves

/- All that was there when a head was loaded is dumped. -/
def Caught
    (cpu : Fin nrCpus)
    (x : Scene nrCpus size) : Prop :=
  x.2.failed = false →
    packets (x.2.seen cpu) <+: dumpedOn cpu x.2.dumped

/-
  The poller stores a tail only when it has caught up, and
  crashes only when an allocation has failed.
-/
def tcpdumpWorld
    (nrCpus size : ℕ) :
    World (PollerCall nrCpus) PollerCall.Resp
      (Scene nrCpus size) where
  others := KernelMoves
  others_refl := .refl
  others_trans := .trans
  access op x answer y :=
    ∃ a, Shared.access a op x.1 = (answer, y.1) ∧
      y.2 = x.2.access a op
  allows op x :=
    Consistent x ∧
      match op with
      | .storeTail cpu _ => Caught cpu x
      | _ => True
  mayHalt how x :=
    Consistent x ∧ how = .crash .nullPointer ∧
      x.2.failed = true

/- One access of the poller. -/
theorem access_triple
    {op : PollerCall nrCpus}
    {P : Scene nrCpus size → Prop}
    {M : PollerCall.Resp op → Scene nrCpus size → Prop}
    (hStable : (tcpdumpWorld nrCpus size).Stable P)
    (hKeep : ∀ answer, (tcpdumpWorld nrCpus size).Stable (M answer))
    (hAllowed : ∀ x, P x → (tcpdumpWorld nrCpus size).allows op x)
    (hAccess :
      ∀ x a, P x →
        M (Shared.access a op x.1).1
          ((Shared.access a op x.1).2, x.2.access a op)) :
    CallProg.Triple (tcpdumpWorld nrCpus size) P (.call' op) M := by
  apply CallProg.Triple.call' hStable hKeep hAllowed
  rintro x answer ⟨shared, g⟩ hHere ⟨a, hAnswer, hLedger⟩
  have hNext := hAccess x a hHere
  rw [hAnswer, ← hLedger] at hNext
  exact hNext

theorem stable_mid
    {cpu : Fin nrCpus}
    {tail : ℕ}
    {known done : List ByteSeq}
    {buf : EventBuf} :
    (tcpdumpWorld nrCpus size).Stable
      (Mid cpu tail known done buf) :=
  fun _ _ hMoves hMid =>
    { upTo := hMoves.upTo hMid.upTo
      known_prefix :=
        hMid.known_prefix.trans (hMoves.written cpu)
      seen := by rw [hMoves.seen, hMid.seen]
      reading := by rw [hMoves.reading, hMid.reading]
      others := fun cpu' hOther =>
        hMoves.drained (hMid.others cpu' hOther)
      booked := hMoves.booked hMid.booked
      buf_ok := hMoves.bufOk hMid.buf_ok }

theorem stable_idle
    {buf : EventBuf} :
    (tcpdumpWorld nrCpus size).Stable
      (Idle buf) :=
  fun _ _ hMoves hIdle =>
    { drained := fun cpu => hMoves.drained (hIdle.drained cpu)
      booked := hMoves.booked hIdle.booked
      buf_ok := hMoves.bufOk hIdle.buf_ok }

theorem stable_failed :
    (tcpdumpWorld nrCpus size).Stable
      fun x => x.2.failed = true :=
  fun _ _ hMoves hFailed => hMoves.failed.trans hFailed

end XdpDdos.Tcpdump
