import Mathlib.Algebra.Group.Nat.Defs
import Mathlib.Data.List.AList
import Mathlib.Logic.Function.Basic

/-
  Per-CPU key-value maps: a fixed array and a bounded hash.

  Every entry holds one 8-byte slot for each possible CPU.
  A process reads and writes all slots of an entry at once
  through the call interface; code running on a CPU changes
  only that CPU's slot in place.

  Main declarations:
    * `PercpuArray`, `PercpuHash`
    * `PercpuArray.updateElem`, `PercpuHash.updateElem`
    * `PercpuHash.slots?_setSlot`
    * `PercpuHash.updateElem_noexist_cases`
    * `PercpuHash.deleteElem_cases`
    * `PercpuHash.keys_updateElem_noexist`
-/

------------------------------------------------------------
-- Slots and Error Numbers
------------------------------------------------------------

namespace XdpDdos

/- The error number of a failed call. -/
abbrev Errno :=
  ℕ

def ENOENT : Errno := 2

def E2BIG : Errno := 7

def EEXIST : Errno := 17

def EINVAL : Errno := 22

/- One 8-byte slot per possible CPU. -/
abbrev Slots (nrCpus : ℕ) :=
  Fin nrCpus → BitVec 64

/- The low half of a slot, as a 4-byte load sees it. -/
def loadU32
    (slot : BitVec 64) : BitVec 32 :=
  slot.setWidth 32

/- A 4-byte store leaves the high half of the slot alone. -/
def storeU32
    (slot : BitVec 64)
    (value : BitVec 32) : BitVec 64 :=
  slot.extractLsb' 32 32 ++ value

/- A 4-byte increment does not carry into the high half. -/
def bumpU32
    (slot : BitVec 64) : BitVec 64 :=
  storeU32 slot (loadU32 slot + 1)

@[simp] theorem loadU32_storeU32
    (slot : BitVec 64)
    (value : BitVec 32) :
    loadU32 (storeU32 slot value) = value := by
  unfold loadU32 storeU32
  ext i hi
  grind

@[simp] theorem loadU32_bumpU32
    (slot : BitVec 64) :
    loadU32 (bumpU32 slot) = loadU32 slot + 1 :=
  loadU32_storeU32 slot _

/- A count kept in the low half wraps at 2^32. -/
theorem bumpU32_ofNat
    (count : ℕ) :
    bumpU32 (BitVec.ofNat 64 (count % 2 ^ 32)) =
      BitVec.ofNat 64 ((count + 1) % 2 ^ 32) := by
  have hLow : count % 2 ^ 32 < 2 ^ 32 :=
    Nat.mod_lt _ (by decide)
  have hHigh :
      count % 2 ^ 32 % 2 ^ 64 / 2 ^ 32 % 2 ^ 32 = 0 := by
    omega
  apply BitVec.eq_of_toNat_eq
  simp only [bumpU32, storeU32, loadU32, BitVec.toNat_append,
    BitVec.extractLsb'_toNat, BitVec.toNat_add,
    BitVec.toNat_setWidth, BitVec.toNat_ofNat,
    Nat.shiftRight_eq_div_pow, hHigh]
  simp
  omega

/- Short of 2^32, counting in the low half is counting. -/
theorem bumpU32_of_lt
    {slot : BitVec 64}
    (hLow : (loadU32 slot).toNat + 1 < 2 ^ 32) :
    bumpU32 slot = slot + 1 := by
  have hSlot := slot.isLt
  have hOne32 : (1 : BitVec 32).toNat = 1 := rfl
  have hOne64 : (1 : BitVec 64).toNat = 1 := rfl
  apply BitVec.eq_of_toNat_eq
  simp only [bumpU32, storeU32, loadU32, BitVec.toNat_append,
    BitVec.extractLsb'_toNat, BitVec.toNat_add,
    BitVec.toNat_setWidth, Nat.shiftRight_eq_div_pow, hOne32,
    hOne64] at hLow ⊢
  rw [← Nat.shiftLeft_add_eq_or_of_lt
    (Nat.mod_lt _ (by decide)), Nat.shiftLeft_eq]
  omega

theorem loadU32_add
    (v w : BitVec 64) :
    loadU32 (v + w) = loadU32 v + loadU32 w :=
  BitVec.setWidth_add v w (by decide)

/- Flags of an update call. -/
inductive UpdateFlag where
  | any
  | noexist
  | exist
  deriving Repr, DecidableEq

variable {nrCpus maxEntries : ℕ}

------------------------------------------------------------
-- Per-CPU Arrays
------------------------------------------------------------

/- An array of `maxEntries` per-CPU entries. -/
structure PercpuArray
    (nrCpus maxEntries : ℕ) where
  slots : Fin maxEntries → Slots nrCpus

namespace PercpuArray

/- A newly created array holds zero everywhere. -/
def fresh : PercpuArray nrCpus maxEntries :=
  ⟨fun _ _ => 0⟩

/- The array index a 32-bit key names, if it is in range. -/
def index?
    (key : BitVec 32) : Option (Fin maxEntries) :=
  if hKey : key.toNat < maxEntries then
    some ⟨key.toNat, hKey⟩
  else none

theorem index?_of_lt
    {key : BitVec 32}
    (hKey : key.toNat < maxEntries) :
    (index? key : Option (Fin maxEntries)) =
      some ⟨key.toNat, hKey⟩ := by
  simp [index?, hKey]

theorem index?_of_ge
    {key : BitVec 32}
    (hKey : maxEntries ≤ key.toNat) :
    (index? key : Option (Fin maxEntries)) = none := by
  simp [index?, hKey]

/- Different keys have different indices. -/
theorem index?_inj
    {key key' : BitVec 32}
    {idx : Fin maxEntries}
    (hKey : index? key = some idx)
    (hKey' : index? key' = some idx) :
    key = key' := by
  have hVal (k : BitVec 32) (hSome : index? k = some idx) :
      k.toNat = idx.val := by
    unfold index? at hSome
    split at hSome
    · exact congrArg Fin.val (Option.some.inj hSome)
    · cases hSome
  apply BitVec.eq_of_toNat_eq
  rw [hVal key hKey, hVal key' hKey']

/- Write one slot. -/
def setSlot
    (arr : PercpuArray nrCpus maxEntries)
    (idx : Fin maxEntries)
    (cpu : Fin nrCpus)
    (value : BitVec 64) : PercpuArray nrCpus maxEntries :=
  ⟨Function.update arr.slots idx
    (Function.update (arr.slots idx) cpu value)⟩

/- Write all slots of one entry. -/
def setSlots
    (arr : PercpuArray nrCpus maxEntries)
    (idx : Fin maxEntries)
    (values : Slots nrCpus) :
    PercpuArray nrCpus maxEntries :=
  ⟨Function.update arr.slots idx values⟩

/- Copy all slots of an entry out. -/
def lookupElem
    (arr : PercpuArray nrCpus maxEntries)
    (key : BitVec 32) : Except Errno (Slots nrCpus) :=
  match index? key with
  | some idx => .ok (arr.slots idx)
  | none => .error ENOENT

/- Overwrite all slots of an entry; entries always exist. -/
def updateElem
    (arr : PercpuArray nrCpus maxEntries)
    (key : BitVec 32)
    (values : Slots nrCpus)
    (flag : UpdateFlag) :
    Except Errno Unit × PercpuArray nrCpus maxEntries :=
  match index? key with
  | none => (.error E2BIG, arr)
  | some idx =>
      match flag with
      | .noexist => (.error EEXIST, arr)
      | _ => (.ok (), arr.setSlots idx values)

/- Array entries cannot be removed. -/
def deleteElem
    (arr : PercpuArray nrCpus maxEntries)
    (_key : BitVec 32) :
    Except Errno Unit × PercpuArray nrCpus maxEntries :=
  (.error EINVAL, arr)

@[simp] theorem slots_fresh
    (idx : Fin maxEntries)
    (cpu : Fin nrCpus) :
    (fresh : PercpuArray nrCpus maxEntries).slots idx cpu =
      0 := rfl

@[simp] theorem slots_setSlots
    (arr : PercpuArray nrCpus maxEntries)
    (idx : Fin maxEntries)
    (values : Slots nrCpus) :
    (arr.setSlots idx values).slots =
      Function.update arr.slots idx values := rfl

/- Writing one slot changes that slot only. -/
theorem slots_setSlot
    (arr : PercpuArray nrCpus maxEntries)
    (idx idx' : Fin maxEntries)
    (cpu cpu' : Fin nrCpus)
    (value : BitVec 64) :
    (arr.setSlot idx cpu value).slots idx' cpu' =
      if idx' = idx ∧ cpu' = cpu then value
      else arr.slots idx' cpu' := by
  by_cases hIdx : idx' = idx
  · subst hIdx
    simp [setSlot, Function.update_apply]
  · simp [setSlot, hIdx]

/- Writing one slot, seen as a change of whole entries. -/
theorem slots_setSlot_entry
    (arr : PercpuArray nrCpus maxEntries)
    (idx idx' : Fin maxEntries)
    (cpu : Fin nrCpus)
    (value : BitVec 64) :
    (arr.setSlot idx cpu value).slots idx' =
      if idx' = idx then
        Function.update (arr.slots idx) cpu value
      else arr.slots idx' := by
  by_cases hIdx : idx' = idx
  · subst hIdx
    simp [setSlot]
  · simp [setSlot, hIdx]

end PercpuArray

------------------------------------------------------------
-- Per-CPU Hashes
------------------------------------------------------------

/- A hash of at most `maxEntries` per-CPU entries. -/
structure PercpuHash
    (κ : Type)
    [DecidableEq κ]
    (nrCpus maxEntries : ℕ) where
  entries : AList (fun _ : κ => Slots nrCpus)
  size_le : entries.keys.length ≤ maxEntries

namespace PercpuHash

variable {κ : Type} [DecidableEq κ]

/- A newly created hash has no entry. -/
def fresh : PercpuHash κ nrCpus maxEntries :=
  ⟨∅, by simp⟩

/- The slots of a key's entry, if there is one. -/
def slots?
    (hash : PercpuHash κ nrCpus maxEntries)
    (key : κ) : Option (Slots nrCpus) :=
  hash.entries.lookup key

/- A key is in the hash when it has an entry. -/
def Contains
    (hash : PercpuHash κ nrCpus maxEntries)
    (key : κ) : Prop :=
  (hash.slots? key).isSome

instance
    (hash : PercpuHash κ nrCpus maxEntries)
    (key : κ) :
    Decidable (hash.Contains key) := by
  unfold Contains
  infer_instance

/- Replace the slots of an entry that is present. -/
def setSlots
    (hash : PercpuHash κ nrCpus maxEntries)
    (key : κ)
    (values : Slots nrCpus) :
    PercpuHash κ nrCpus maxEntries :=
  ⟨hash.entries.replace key values, by
    simpa using hash.size_le⟩

/- Write one slot of an entry that is present. -/
def setSlot
    (hash : PercpuHash κ nrCpus maxEntries)
    (key : κ)
    (cpu : Fin nrCpus)
    (value : BitVec 64) : PercpuHash κ nrCpus maxEntries :=
  match hash.slots? key with
  | some values =>
      hash.setSlots key (Function.update values cpu value)
  | none => hash

/- Increment one slot of an entry that is present. -/
def bump
    (hash : PercpuHash κ nrCpus maxEntries)
    (key : κ)
    (cpu : Fin nrCpus) : PercpuHash κ nrCpus maxEntries :=
  match hash.slots? key with
  | some values => hash.setSlot key cpu (values cpu + 1)
  | none => hash

/- Copy all slots of an entry out. -/
def lookupElem
    (hash : PercpuHash κ nrCpus maxEntries)
    (key : κ) : Except Errno (Slots nrCpus) :=
  match hash.slots? key with
  | some values => .ok values
  | none => .error ENOENT

private theorem length_keys_insert
    {entries : AList (fun _ : κ => Slots nrCpus)}
    {key : κ}
    (values : Slots nrCpus)
    (hAbsent : key ∉ entries) :
    (entries.insert key values).keys.length =
      entries.keys.length + 1 := by
  have hKeys : key ∉ entries.keys :=
    fun hMem => hAbsent (AList.mem_keys.mpr hMem)
  simp [AList.keys_insert, List.erase_of_not_mem hKeys]

/-
  Insert or overwrite an entry.  The flag is checked first;
  an insertion into a full hash then fails.
-/
def updateElem
    (hash : PercpuHash κ nrCpus maxEntries)
    (key : κ)
    (values : Slots nrCpus)
    (flag : UpdateFlag) :
    Except Errno Unit × PercpuHash κ nrCpus maxEntries :=
  if hMem : key ∈ hash.entries then
    match flag with
    | .noexist => (.error EEXIST, hash)
    | _ => (.ok (), hash.setSlots key values)
  else
    match flag with
    | .exist => (.error ENOENT, hash)
    | _ =>
        if hRoom : hash.entries.keys.length < maxEntries then
          (.ok (), ⟨hash.entries.insert key values, by
            rw [length_keys_insert values hMem]
            omega⟩)
        else (.error E2BIG, hash)

/- Remove an entry. -/
def deleteElem
    (hash : PercpuHash κ nrCpus maxEntries)
    (key : κ) :
    Except Errno Unit × PercpuHash κ nrCpus maxEntries :=
  if key ∈ hash.entries then
    (.ok (), ⟨hash.entries.erase key, by
      have hErase :
          (hash.entries.erase key).keys.length ≤
            hash.entries.keys.length := by
        simpa using List.length_erase_le
      exact le_trans hErase hash.size_le⟩)
  else (.error ENOENT, hash)

------------------------------------------------------------
-- Hash Contents After Each Operation
------------------------------------------------------------

@[simp] theorem slots?_fresh
    (key : κ) :
    (fresh : PercpuHash κ nrCpus maxEntries).slots? key =
      none := by
  simp [slots?, fresh]

theorem contains_iff_mem
    (hash : PercpuHash κ nrCpus maxEntries)
    (key : κ) :
    hash.Contains key ↔ key ∈ hash.entries :=
  AList.lookup_isSome

private theorem dlookup_kreplace
    {V : Type}
    (key key' : κ)
    (value : V)
    (entries : List (Sigma fun _ : κ => V)) :
    (entries.kreplace key value).dlookup key' =
      if key' = key then
        (entries.dlookup key).map (fun _ => value)
      else entries.dlookup key' := by
  induction entries with
  | nil => simp [List.kreplace]
  | cons entry entries ih =>
      unfold List.kreplace at ih ⊢
      by_cases hHead : key = entry.1
      · rcases entry with ⟨head, old⟩
        obtain rfl : key = head := hHead
        rw [List.lookmap_cons_some _ _
          (b := ⟨key, value⟩) (by simp)]
        by_cases hKey : key' = key
        · subst hKey
          simp
        · simp only [hKey, if_false]
          rw [List.dlookup_cons_ne entries ⟨key, value⟩ hKey,
            List.dlookup_cons_ne entries ⟨key, old⟩ hKey]
      · rw [List.lookmap_cons_none _ _ (by simp [hHead]),
          List.dlookup_cons_ne entries entry hHead]
        by_cases hKey : key' = entry.1
        · have hNe : key' ≠ key := by
            intro hEq
            exact hHead (hEq ▸ hKey)
          rcases entry with ⟨head, old⟩
          obtain rfl : key' = head := hKey
          simp [hNe]
        · rw [List.dlookup_cons_ne _ entry hKey,
            List.dlookup_cons_ne _ entry hKey]
          exact ih

/- Replacing the slots of an entry touches no other key. -/
theorem slots?_setSlots
    (hash : PercpuHash κ nrCpus maxEntries)
    (key key' : κ)
    (values : Slots nrCpus) :
    (hash.setSlots key values).slots? key' =
      if key' = key then
        (hash.slots? key).map (fun _ => values)
      else hash.slots? key' :=
  dlookup_kreplace key key' values hash.entries.entries

/- Writing one slot touches no other slot and no other key. -/
theorem slots?_setSlot
    (hash : PercpuHash κ nrCpus maxEntries)
    (key key' : κ)
    (cpu : Fin nrCpus)
    (value : BitVec 64) :
    (hash.setSlot key cpu value).slots? key' =
      if key' = key then
        (hash.slots? key).map
          (fun values => Function.update values cpu value)
      else hash.slots? key' := by
  unfold setSlot
  cases hSlots : hash.slots? key with
  | none =>
      by_cases hKey : key' = key
      · simp [hKey, hSlots]
      · simp [hKey]
  | some values => simp [slots?_setSlots, hSlots]

/- An increment touches no other slot and no other key. -/
theorem slots?_bump
    (hash : PercpuHash κ nrCpus maxEntries)
    (key key' : κ)
    (cpu : Fin nrCpus) :
    (hash.bump key cpu).slots? key' =
      if key' = key then
        (hash.slots? key).map (fun values =>
          Function.update values cpu (values cpu + 1))
      else hash.slots? key' := by
  unfold bump
  cases hSlots : hash.slots? key with
  | none =>
      by_cases hKey : key' = key
      · simp [hKey, hSlots]
      · simp [hKey]
  | some values => simp [slots?_setSlot, hSlots]

/- An increment neither adds nor removes an entry. -/
@[simp] theorem contains_bump
    (hash : PercpuHash κ nrCpus maxEntries)
    (key key' : κ)
    (cpu : Fin nrCpus) :
    (hash.bump key cpu).Contains key' ↔
      hash.Contains key' := by
  unfold Contains
  rw [slots?_bump]
  by_cases hKey : key' = key
  · subst hKey
    simp
  · rw [if_neg hKey]

@[simp] theorem keys_bump
    (hash : PercpuHash κ nrCpus maxEntries)
    (key : κ)
    (cpu : Fin nrCpus) :
    (hash.bump key cpu).entries.keys =
      hash.entries.keys := by
  unfold bump setSlot setSlots
  split
  · split <;> simp
  · rfl

/- An insertion refuses a present key. -/
theorem updateElem_noexist_of_contains
    {hash : PercpuHash κ nrCpus maxEntries}
    {key : κ}
    (values : Slots nrCpus)
    (hIn : hash.Contains key) :
    hash.updateElem key values .noexist =
      (.error EEXIST, hash) := by
  rw [contains_iff_mem] at hIn
  simp [updateElem, hIn]

/- An insertion refuses a new key when the hash is full. -/
theorem updateElem_noexist_of_full
    {hash : PercpuHash κ nrCpus maxEntries}
    {key : κ}
    (values : Slots nrCpus)
    (hOut : ¬ hash.Contains key)
    (hFull : maxEntries ≤ hash.entries.keys.length) :
    hash.updateElem key values .noexist =
      (.error E2BIG, hash) := by
  rw [contains_iff_mem] at hOut
  simp [updateElem, hOut, Nat.not_lt.mpr hFull]

/- An insertion adds a new key when there is room. -/
theorem updateElem_noexist_of_room
    {hash : PercpuHash κ nrCpus maxEntries}
    {key : κ}
    (values : Slots nrCpus)
    (hOut : ¬ hash.Contains key)
    (hRoom : hash.entries.keys.length < maxEntries) :
    ∃ hash' : PercpuHash κ nrCpus maxEntries,
      hash.updateElem key values .noexist =
          (.ok (), hash') ∧
        hash'.slots? =
          Function.update hash.slots? key (some values) := by
  rw [contains_iff_mem] at hOut
  refine ⟨_, by
    simp only [updateElem, hOut, hRoom, dite_true, dite_false]
    rfl, ?_⟩
  funext key'
  by_cases hKey : key' = key
  · subst hKey
    simp [slots?]
  · simp [slots?, hKey, AList.lookup_insert_ne]

/-
  What an insertion that must not overwrite can do: refuse a
  present key, refuse a full hash, or add the entry.
-/
theorem updateElem_noexist_cases
    (hash : PercpuHash κ nrCpus maxEntries)
    (key : κ)
    (values : Slots nrCpus) :
    (hash.Contains key ∧
        hash.updateElem key values .noexist =
          (.error EEXIST, hash)) ∨
      (¬ hash.Contains key ∧
        maxEntries ≤ hash.entries.keys.length ∧
        hash.updateElem key values .noexist =
          (.error E2BIG, hash)) ∨
      (¬ hash.Contains key ∧
        hash.entries.keys.length < maxEntries ∧
        ∃ hash' : PercpuHash κ nrCpus maxEntries,
          hash.updateElem key values .noexist =
              (.ok (), hash') ∧
            hash'.slots? =
              Function.update hash.slots? key
                (some values)) := by
  by_cases hIn : hash.Contains key
  · exact Or.inl
      ⟨hIn, updateElem_noexist_of_contains values hIn⟩
  · rcases Nat.lt_or_ge hash.entries.keys.length maxEntries
      with hRoom | hFull
    · exact Or.inr (Or.inr ⟨hIn, hRoom,
        updateElem_noexist_of_room values hIn hRoom⟩)
    · exact Or.inr (Or.inl ⟨hIn, hFull,
        updateElem_noexist_of_full values hIn hFull⟩)

/- A removal refuses a key that is not there. -/
theorem deleteElem_of_absent
    {hash : PercpuHash κ nrCpus maxEntries}
    {key : κ}
    (hOut : ¬ hash.Contains key) :
    hash.deleteElem key = (.error ENOENT, hash) := by
  rw [contains_iff_mem] at hOut
  simp [deleteElem, hOut]

/- What a removal can do: drop the entry, or refuse. -/
theorem deleteElem_cases
    (hash : PercpuHash κ nrCpus maxEntries)
    (key : κ) :
    (hash.Contains key ∧
        ∃ hash' : PercpuHash κ nrCpus maxEntries,
          hash.deleteElem key = (.ok (), hash') ∧
            hash'.slots? =
              Function.update hash.slots? key none) ∨
      (¬ hash.Contains key ∧
        hash.deleteElem key = (.error ENOENT, hash)) := by
  by_cases hIn : hash.Contains key
  · have hMem := (contains_iff_mem hash key).mp hIn
    refine Or.inl ⟨hIn, _, by
      simp only [deleteElem, hMem, if_true]
      rfl, ?_⟩
    funext key'
    by_cases hKey : key' = key
    · subst hKey
      simp [slots?]
    · simp [slots?, hKey, AList.lookup_erase_ne]
  · exact Or.inr ⟨hIn, deleteElem_of_absent hIn⟩

/- A refused insertion leaves the keys, another one adds. -/
theorem keys_updateElem_noexist
    (hash : PercpuHash κ nrCpus maxEntries)
    (key : κ)
    (values : Slots nrCpus) :
    (hash.updateElem key values .noexist).2.entries.keys =
        hash.entries.keys ∨
      key ∉ hash.entries.keys ∧
        (hash.updateElem key values .noexist).2.entries.keys =
          key :: hash.entries.keys := by
  unfold updateElem
  split
  case isTrue hMem => exact Or.inl rfl
  case isFalse hMem =>
    have hAbsent : key ∉ hash.entries.keys :=
      fun hIn => hMem (AList.mem_keys.mpr hIn)
    dsimp only
    split
    · right
      rw [AList.keys_insert, List.erase_of_not_mem hAbsent]
      exact ⟨hAbsent, rfl⟩
    · exact Or.inl rfl

/- A removal leaves the other keys in their order. -/
theorem keys_deleteElem
    (hash : PercpuHash κ nrCpus maxEntries)
    (key : κ) :
    (hash.deleteElem key).2.entries.keys =
      hash.entries.keys.erase key := by
  unfold deleteElem
  split
  case isTrue hMem => exact AList.keys_erase _ _
  case isFalse hMem =>
    exact (List.erase_of_not_mem
      fun hIn => hMem (AList.mem_keys.mpr hIn)).symm

end PercpuHash

end XdpDdos
