import XdpDdos.Control.Modify
import Mathlib.Algebra.BigOperators.Fin
import Mathlib.Data.BitVec

/-
  Reading a counter: the sum of an entry's slots.

  Main declarations:
    * `getKey32Value64Percpu`, `Maps.keySum`
    * `run_getKey32Value64Percpu_port`
-/

------------------------------------------------------------
-- Summing Slots
------------------------------------------------------------

namespace XdpDdos

variable {nrCpus : ℕ}

/- The loop that sums the values of each CPU. -/
def sumValues
    (values : Slots nrCpus) : BitVec 64 :=
  (List.finRange nrCpus).foldl
    (fun sum cpu => sum + values cpu) 0

/- A failed lookup reads as zero. -/
def getKey32Value64Percpu
    (fd : MapId)
    (key : BitVec 32) : MapProg nrCpus (BitVec 64) := do
  let looked ← bpfMapLookupElem fd key
  match looked with
  | .error _ => return 0
  | .ok values => return sumValues values

theorem sumValues_eq_sum
    (values : Slots nrCpus) :
    sumValues values = ∑ cpu, values cpu := by
  rw [sumValues, Fin.sum_univ_def, List.sum_eq_foldl,
    List.foldl_map]

/- Counts are summed modulo 2^64. -/
theorem sumValues_ofNat
    (count : Fin nrCpus → ℕ) :
    sumValues (fun cpu => BitVec.ofNat 64 (count cpu)) =
      BitVec.ofNat 64 (∑ cpu, count cpu) := by
  rw [sumValues_eq_sum]
  exact (map_sum (Nat.castAddMonoidHom (BitVec 64)) count
    Finset.univ).symm

/- One more in one slot is one more in the sum. -/
theorem sumValues_update
    (values : Slots nrCpus)
    (cpu : Fin nrCpus) :
    sumValues
        (Function.update values cpu (values cpu + 1)) =
      sumValues values + 1 := by
  rw [sumValues_eq_sum, sumValues_eq_sum,
    Finset.sum_update_of_mem (Finset.mem_univ cpu),
    Finset.sdiff_singleton_eq_erase, add_right_comm,
    Finset.add_sum_erase _ _ (Finset.mem_univ cpu)]

/- What the sum of a key's entry is read as. -/
def Maps.keySum
    (m : Maps nrCpus)
    (fd : MapId)
    (key : BitVec 32) : BitVec 64 :=
  match m.lookupElem key fd with
  | .ok values => sumValues values
  | .error _ => 0

/- Reading a counter changes nothing. -/
theorem run_getKey32Value64Percpu
    (m : Maps nrCpus)
    (fd : MapId)
    (key : BitVec 32) :
    CallProg.run Maps.handle
        (getKey32Value64Percpu fd key) m =
      (.returned (m.keySum fd key), m) := by
  rw [getKey32Value64Percpu, Maps.run_lookupElem_bind,
    Maps.keySum]
  cases m.lookupElem key fd with
  | ok values => rfl
  | error errno => rfl

/- A sum over an absent address is zero. -/
theorem keySum_blacklist
    (m : Maps nrCpus)
    (key : BitVec 32) :
    m.keySum .blacklist key =
      ((m.blacklist.slots? key).map sumValues).getD 0 := by
  rw [Maps.keySum, Maps.lookupElem, PercpuHash.lookupElem]
  cases m.blacklist.slots? key with
  | none => rfl
  | some values => rfl

/- A sum over a key outside an array is zero. -/
theorem keySum_of_array
    {m : Maps nrCpus}
    {maxEntries : ℕ}
    {fd : MapId}
    {arr : PercpuArray nrCpus maxEntries}
    (key : BitVec 32)
    (hArr : m.lookupElem key fd = arr.lookupElem key) :
    m.keySum fd key =
      ((PercpuArray.index? key).map
        fun idx => sumValues (arr.slots idx)).getD 0 := by
  rw [Maps.keySum, hArr, PercpuArray.lookupElem]
  cases (PercpuArray.index? key : Option (Fin maxEntries))
    with
  | none => rfl
  | some idx => rfl

/- The drop counter of a port is read on all CPUs. -/
theorem run_getKey32Value64Percpu_port
    (m : Maps nrCpus)
    (fproto : DdosFilter)
    (port : BitVec 16) :
    CallProg.run Maps.handle
        (getKey32Value64Percpu
          (.portBlacklistDropCount fproto)
          (port.setWidth 32)) m =
      (.returned (sumValues
        ((m.dropCount fproto).slots
          (Maps.portIndex port))), m) := by
  rw [run_getKey32Value64Percpu, keySum_of_array _ rfl,
    index?_port]
  rfl

end XdpDdos
