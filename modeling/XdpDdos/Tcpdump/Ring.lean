import XdpDdos.Tcpdump.Records
import XdpDdos.Lib.RingStream

/-
  A perf ring: what the kernel writes to it, and what the
  poller may rely on.

  The kernel appends whole records, and none for which there
  is no room.  Cells that hold no unread record may change
  at any time, as the kernel prepares its records there.

  Main declarations:
    * `PerfRing`, `PerfRing.output`, `PerfRing.poke`
    * `PerfRing.Holds`
    * `Holds.output`, `Holds.poke`, `Holds.release`
    * `Holds.slice_eq`
-/

------------------------------------------------------------
-- The Ring
------------------------------------------------------------

namespace XdpDdos.Tcpdump

variable {size : ℕ}

/- The pages that are mapped for one CPU. -/
structure PerfRing (size : ℕ) where
  dataHead : BitVec 64
  dataTail : BitVec 64
  data : ByteSeq
  data_length : data.length = size

namespace PerfRing

def fresh (size : ℕ) : PerfRing size where
  dataHead := 0
  dataTail := 0
  data := List.replicate size 0
  data_length := List.length_replicate

/- How many bytes were written and not released. -/
def used
    (r : PerfRing size) : ℕ :=
  (r.dataHead - r.dataTail).toNat

/- The ring never becomes quite full. -/
def HasRoom
    (r : PerfRing size)
    (record : ByteSeq) : Prop :=
  r.used + record.length < size

instance
    (r : PerfRing size)
    (record : ByteSeq) : Decidable (r.HasRoom record) :=
  inferInstanceAs (Decidable (_ < _))

/- The kernel appends a record. -/
def output
    (r : PerfRing size)
    (record : ByteSeq) : PerfRing size where
  dataHead := r.dataHead + BitVec.ofNat 64 record.length
  dataTail := r.dataTail
  data := ringWrite r.data r.dataHead.toNat record
  data_length := by rw [length_ringWrite, r.data_length]

/- No unread byte is at `off`. -/
def IsFree
    (r : PerfRing size)
    (off : ℕ) : Prop :=
  ∀ i < r.used, (r.dataTail.toNat + i) % size ≠ off

instance
    (r : PerfRing size)
    (off : ℕ) : Decidable (r.IsFree off) :=
  inferInstanceAs (Decidable (∀ i < _, _))

/- The kernel changes a byte. -/
def poke
    (r : PerfRing size)
    (off : ℕ)
    (b : Byte) : PerfRing size :=
  { r with
    data := r.data.set off b
    data_length := by rw [List.length_set, r.data_length] }

/- The poller releases what is before `dataTail`. -/
def storeTail
    (r : PerfRing size)
    (dataTail : BitVec 64) : PerfRing size :=
  { r with dataTail := dataTail }

------------------------------------------------------------
-- The Records in a Ring
------------------------------------------------------------

/-
  `written` is all that was ever appended, of which the
  bytes from `tail` on are still in the ring.
-/
structure Holds
    (r : PerfRing size)
    (written : List ByteSeq)
    (tail : ℕ) : Prop where
  legal : ∀ record ∈ written, Legal record
  head_eq :
    r.dataHead = BitVec.ofNat 64 written.flatten.length
  tail_eq : r.dataTail = BitVec.ofNat 64 tail
  tail_le : tail ≤ written.flatten.length
  room : written.flatten.length - tail < size
  data : HoldsStream r.data written.flatten tail

theorem holds_fresh
    (hSize : 0 < size) :
    (fresh size).Holds [] 0 where
  legal _ hMem := nomatch hMem
  head_eq := rfl
  tail_eq := rfl
  tail_le := Nat.le_refl 0
  room := hSize
  data := .nil _ _

namespace Holds

variable {r : PerfRing size}
variable {written : List ByteSeq}
variable {tail : ℕ}

/- A counter that wraps tells the cell of its position. -/
theorem toNat_mod
    (hWrap : size ∣ 2 ^ 64)
    (p : ℕ) :
    (BitVec.ofNat 64 p).toNat % size = p % size := by
  rw [BitVec.toNat_ofNat, Nat.mod_mod_of_dvd p hWrap]

/- Counters less than a wrap apart tell their distance. -/
theorem used_eq
    (hHolds : r.Holds written tail)
    (hWrap : size ∣ 2 ^ 64) :
    r.used = written.flatten.length - tail := by
  have hLe := Nat.le_of_dvd (by decide) hWrap
  have hRoom := hHolds.room
  have hTail := hHolds.tail_le
  rw [used, hHolds.head_eq, hHolds.tail_eq, BitVec.toNat_sub,
    BitVec.toNat_ofNat, BitVec.toNat_ofNat]
  omega

/- Nothing is unread exactly if the counters are equal. -/
theorem head_eq_tail_iff
    (hHolds : r.Holds written tail)
    (hWrap : size ∣ 2 ^ 64) :
    r.dataHead = r.dataTail ↔
      written.flatten.length = tail := by
  have hUsed := hHolds.used_eq hWrap
  have hTail := hHolds.tail_le
  constructor
  · intro hEq
    rw [used, hEq, BitVec.sub_self] at hUsed
    change 0 = _ at hUsed
    omega
  · intro hEq
    rw [hHolds.head_eq, hHolds.tail_eq, hEq]

theorem output
    {record : ByteSeq}
    (hHolds : r.Holds written tail)
    (hWrap : size ∣ 2 ^ 64)
    (hLegal : Legal record)
    (hRoom : r.HasRoom record) :
    (r.output record).Holds (written ++ [record]) tail := by
  have hFlatten :
      (written ++ [record]).flatten =
        written.flatten ++ record := by
    rw [List.flatten_append, List.flatten_singleton]
  have hTail := hHolds.tail_le
  rw [HasRoom, hHolds.used_eq hWrap] at hRoom
  refine ⟨?_, ?_, hHolds.tail_eq, ?_, ?_, ?_⟩
  · intro record' hMem
    rcases List.mem_append.mp hMem with hOld | hNew
    · exact hHolds.legal record' hOld
    · rw [List.mem_singleton.mp hNew]
      exact hLegal
  · rw [hFlatten, List.length_append, BitVec.ofNat_add,
      ← hHolds.head_eq]
    rfl
  · rw [hFlatten, List.length_append]
    omega
  · rw [hFlatten, List.length_append]
    omega
  · have hCell :
        r.dataHead.toNat % r.data.length =
          written.flatten.length % r.data.length := by
      rw [r.data_length, hHolds.head_eq]
      exact toNat_mod hWrap _
    have hData :
        (r.output record).data =
          ringWrite r.data written.flatten.length record :=
      ringWrite_congr r.data hCell record
    rw [hFlatten, hData]
    apply hHolds.data.write hTail
    rw [r.data_length]
    omega

theorem poke
    {off : ℕ}
    (hHolds : r.Holds written tail)
    (hWrap : size ∣ 2 ^ 64)
    (hFree : r.IsFree off)
    (b : Byte) :
    (r.poke off b).Holds written tail := by
  refine ⟨hHolds.legal, hHolds.head_eq, hHolds.tail_eq,
    hHolds.tail_le, hHolds.room, ?_⟩
  apply hHolds.data.set
  intro p hTail hLt hCell
  apply hFree (p - tail)
  · rw [hHolds.used_eq hWrap]
    omega
  · rw [hHolds.tail_eq, Nat.add_mod, toNat_mod hWrap,
      ← Nat.add_mod, Nat.add_sub_cancel' hTail,
      ← r.data_length]
    exact hCell

/- What was read may be released. -/
theorem release
    {tail' : ℕ}
    (hHolds : r.Holds written tail)
    (hLe : tail ≤ tail')
    (hEnd : tail' ≤ written.flatten.length) :
    (r.storeTail (BitVec.ofNat 64 tail')).Holds written
      tail' := by
  have hRoom := hHolds.room
  refine ⟨hHolds.legal, hHolds.head_eq, rfl, hEnd, ?_,
    hHolds.data.later hLe⟩
  omega

/- Bytes next to each other that were not released. -/
theorem slice_eq
    {p len : ℕ}
    (hHolds : r.Holds written tail)
    (hTail : tail ≤ p)
    (hEnd : p + len ≤ written.flatten.length)
    (hFits : p % size + len ≤ size) :
    slice r.data (p % size) len =
      some ((written.flatten.drop p).take len) := by
  have hCells :
      p % r.data.length + len ≤ r.data.length := by
    rw [r.data_length]
    exact hFits
  have hRead := hHolds.data.read hTail hEnd hCells
  rw [r.data_length] at hRead
  rw [slice, r.data_length, if_pos hFits, hRead]

end Holds

end PerfRing

end XdpDdos.Tcpdump
