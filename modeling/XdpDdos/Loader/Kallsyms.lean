import XdpDdos.Lib.CallProg
import XdpDdos.Lib.ByteSeq
import XdpDdos.Lib.PercpuMap
import XdpDdos.Lib.ThreeWay
import Mathlib.Data.Nat.Find
import Mathlib.Data.Finset.Dedup
import Mathlib.Data.Finset.Max

/-
  The table of kernel symbols: read from a listing, sorted,
  and searched for the symbol that an address is in.

  Sorting and searching compare addresses through an `int`.

  Main declarations:
    * `Ksym`, `ksymCmp`, `loadKallsyms`, `ksymSearch`
    * `listedSyms`, `Encloses`, `FindsEnclosing`
    * `ksymSearch_right_iff`
-/

------------------------------------------------------------
-- Symbols
------------------------------------------------------------

namespace XdpDdos

def MAX_SYMS : ℕ := 300000

/- `struct ksym`. -/
structure Ksym where
  addr : BitVec 64
  name : CStr
  deriving DecidableEq

namespace Ksym

/- An address is a signed number. -/
def addrInt (sym : Ksym) : ℤ :=
  sym.addr.toInt

end Ksym

/- A difference of two `long`s, stored in an `int`; both wrap. -/
def intDiff (a b : BitVec 64) : ℤ :=
  ((a - b).setWidth 32).toInt

def ksymCmp (p1 p2 : Ksym) : ℤ :=
  intDiff p1.addr p2.addr

/- `syms` and `sym_cnt`. -/
structure KsymTable where
  syms : ℕ → Ksym
  symCnt : ℕ
  symCnt_le : symCnt ≤ MAX_SYMS

/- The address of entry `i`. -/
def KsymTable.addrAt
    (table : KsymTable)
    (i : ℕ) : ℤ :=
  (table.syms i).addrInt

/-
  What `sscanf` reads from a line of `/proc/kallsyms`, an
  address and a name; none if it does not read all three
  fields of a line.
-/
abbrev KallsymsLine :=
  Option (BitVec 64 × CStr)

/- The loop over the lines, with `i` symbols stored so far. -/
def storeSyms :
    List KallsymsLine → ℕ → (ℕ → Ksym) →
      Except Crash (ℕ × (ℕ → Ksym))
  | [], i, syms => .ok (i, syms)
  | none :: _, i, syms => .ok (i, syms)
  | some (addr, func) :: lines, i, syms =>
      if addr = 0 then storeSyms lines i syms
      else if i < MAX_SYMS then
        storeSyms lines (i + 1)
          (Function.update syms i ⟨addr, func⟩)
      else .error .outOfRange

/- The first `n` entries are those of a list. -/
def setEntries
    (entries : List Ksym)
    (n : ℕ)
    (syms : ℕ → Ksym) : ℕ → Ksym :=
  fun i => if i < n then entries.getD i (syms i) else syms i

/- `load_kallsyms`; no lines if the file cannot be opened. -/
def loadKallsyms
    (qsort : (Ksym → Ksym → ℤ) → List Ksym → List Ksym)
    (f : Option (List KallsymsLine))
    (table : KsymTable) : Except Crash (ℤ × KsymTable) :=
  match f with
  | none => .ok (-ENOENT, table)
  | some lines => do
      let (symCnt, syms) ← storeSyms lines 0 table.syms
      if hFit : symCnt ≤ MAX_SYMS then
        let sorted :=
          qsort ksymCmp ((List.range symCnt).map syms)
        .ok (0, ⟨setEntries sorted symCnt syms, symCnt, hFit⟩)
      else .error .outOfRange

/- `ksym_search`; the index of the symbol that is returned. -/
def ksymSearch
    (table : KsymTable)
    (key : BitVec 64) : Except Crash ℕ :=
  match bsearch
      (fun mid => intDiff key (table.syms mid).addr) 0
      table.symCnt with
  | .found mid => .ok mid
  | .ended start =>
      if start = 0 then .ok 0
      else if table.addrAt (start - 1) < key.toInt then
        if start < MAX_SYMS then
          if key.toInt < table.addrAt start then
            -- valid ksym
            .ok (start - 1)
          else .ok 0
        else .error .outOfRange
      else
        -- out of range. return _stext
        .ok 0

------------------------------------------------------------
-- Differences
------------------------------------------------------------

/- The `int` is the difference, modulo 2^32. -/
theorem intDiff_eq
    (a b : BitVec 64) :
    intDiff a b = (a.toInt - b.toInt).bmod (2 ^ 32) := by
  have hLow :
      ((a - b).toNat : ℤ).bmod (2 ^ 32) =
        (a - b).toInt.bmod (2 ^ 32) := by
    rw [BitVec.toInt_eq_toNat_bmod,
      Int.bmod_bmod_of_dvd (by decide)]
  rw [intDiff, BitVec.toInt_setWidth, hLow, BitVec.toInt_sub,
    Int.bmod_bmod_of_dvd (by decide)]

theorem intDiff_of_near
    {a b : BitVec 64}
    (hAbove : a.toInt - b.toInt < 2 ^ 31)
    (hBelow : b.toInt - a.toInt ≤ 2 ^ 31) :
    intDiff a b = a.toInt - b.toInt := by
  rw [intDiff_eq]
  exact Int.bmod_eq_of_le (by omega) (by omega)

/- It is one of these numbers. -/
theorem exists_intDiff
    (a b : BitVec 64) :
    ∃ k : ℤ,
      intDiff a b = a.toInt - b.toInt + 2 ^ 32 * k ∧
        -2 ^ 31 ≤ intDiff a b ∧ intDiff a b < 2 ^ 31 := by
  rw [intDiff_eq]
  have hDiv := Int.bmod_add_bdiv (a.toInt - b.toInt) (2 ^ 32)
  have hLow :=
    Int.le_bmod (x := a.toInt - b.toInt) (m := 2 ^ 32)
      (by decide)
  have hHigh :=
    Int.bmod_lt (x := a.toInt - b.toInt) (m := 2 ^ 32)
      (by decide)
  refine ⟨-(a.toInt - b.toInt).bdiv (2 ^ 32), ?_, ?_, ?_⟩
  · omega
  · omega
  · omega

------------------------------------------------------------
-- The Listing
------------------------------------------------------------

/- The symbols that are stored, in the order of the lines. -/
def listedSyms : List KallsymsLine → List Ksym
  | [] => []
  | none :: _ => []
  | some (addr, func) :: lines =>
      if addr = 0 then listedSyms lines
      else ⟨addr, func⟩ :: listedSyms lines

theorem storeSyms_listed
    (lines : List KallsymsLine)
    (i : ℕ)
    (syms : ℕ → Ksym)
    (hFit : i + (listedSyms lines).length ≤ MAX_SYMS) :
    ∃ syms',
      storeSyms lines i syms =
          .ok (i + (listedSyms lines).length, syms') ∧
        (∀ j < i, syms' j = syms j) ∧
          (List.range' i (listedSyms lines).length).map syms' =
            listedSyms lines := by
  fun_induction storeSyms lines i syms with
  | case1 i syms => exact ⟨syms, rfl, fun _ _ => rfl, rfl⟩
  | case2 _ i syms => exact ⟨syms, rfl, fun _ _ => rfl, rfl⟩
  | case3 func lines i syms ih =>
      exact ih hFit
  | case4 addr func lines i syms hAddr hLt ih =>
      have hCons :
          listedSyms (some (addr, func) :: lines) =
            ⟨addr, func⟩ :: listedSyms lines :=
        if_neg hAddr
      rw [hCons, List.length_cons] at hFit ⊢
      rcases ih (by omega) with ⟨syms', hStore, hOld, hNew⟩
      refine ⟨syms', ?_, ?_, ?_⟩
      · rw [hStore, Nat.add_right_comm, Nat.add_assoc]
      · intro j hBelow
        rw [hOld j (Nat.lt_succ_of_lt hBelow),
          Function.update_of_ne (Nat.ne_of_lt hBelow)]
      · rw [List.range'_succ, List.map_cons, hNew,
          hOld i (Nat.lt_succ_self i), Function.update_self]
  | case5 addr func lines i syms hAddr hLt =>
      have hCons :
          listedSyms (some (addr, func) :: lines) =
            ⟨addr, func⟩ :: listedSyms lines :=
        if_neg hAddr
      rw [hCons, List.length_cons] at hFit
      omega

------------------------------------------------------------
-- The Sorted Table
------------------------------------------------------------

section

variable {lines : List KallsymsLine}
variable {qsort : (Ksym → Ksym → ℤ) → List Ksym → List Ksym}
variable {table : KsymTable}

/- What is in the table behind `load_kallsyms`. -/
structure Holds
    (entries : List Ksym)
    (table : KsymTable) : Prop where
  symCnt_eq : table.symCnt = entries.length
  entries_eq :
    (List.range table.symCnt).map table.syms = entries

theorem holds_setEntries
    {entries : List Ksym}
    {n : ℕ}
    (hLength : entries.length = n)
    (syms : ℕ → Ksym)
    (hFit : n ≤ MAX_SYMS) :
    Holds entries ⟨setEntries entries n syms, n, hFit⟩ := by
  refine ⟨hLength.symm, ?_⟩
  apply List.ext_getElem
  · rw [List.length_map, List.length_range, hLength]
  · intro i hMap hEntries
    rw [List.getElem_map, List.getElem_range]
    change (if i < n then entries.getD i (syms i) else syms i) =
      entries[i]
    rw [if_pos (hLength ▸ hEntries),
      List.getD_eq_getElem?_getD, List.getElem?_eq_getElem,
      Option.getD_some]

/- The lines are stored, and what `qsort` makes of them. -/
theorem loadKallsyms_listed
    (qsort : (Ksym → Ksym → ℤ) → List Ksym → List Ksym)
    (table : KsymTable)
    (hFit : (listedSyms lines).length ≤ MAX_SYMS) :
    ∃ syms,
      loadKallsyms qsort (some lines) table =
        .ok (0, ⟨setEntries
          (qsort ksymCmp (listedSyms lines))
          (listedSyms lines).length syms,
          (listedSyms lines).length, hFit⟩) := by
  rcases storeSyms_listed lines 0 table.syms (by omega) with
    ⟨syms, hStore, _, hSyms⟩
  rw [Nat.zero_add] at hStore
  rw [← List.range_eq_range'] at hSyms
  refine ⟨syms, ?_⟩
  rw [loadKallsyms, hStore, except_ok_bind]
  simp only [hFit, dif_pos, hSyms]

variable {entries : List Ksym}

theorem Holds.mem_iff
    (hHolds : Holds entries table)
    {sym : Ksym} :
    sym ∈ entries ↔
      ∃ i < table.symCnt, table.syms i = sym := by
  rw [← hHolds.entries_eq, List.mem_map]
  simp only [List.mem_range]

theorem Holds.pairwise
    (hHolds : Holds entries table)
    {R : Ksym → Ksym → Prop}
    (hPairwise : entries.Pairwise R)
    {i j : ℕ}
    (hLt : i < j)
    (hStop : j < table.symCnt) :
    R (table.syms i) (table.syms j) := by
  rw [← hHolds.entries_eq, List.pairwise_map,
    List.pairwise_iff_getElem] at hPairwise
  have hHere :=
    hPairwise i j
      (by rw [List.length_range]; exact Nat.lt_trans hLt hStop)
      (by rw [List.length_range]; exact hStop) hLt
  rw [List.getElem_range, List.getElem_range] at hHere
  exact hHere

------------------------------------------------------------
-- Searching with Right Comparisons
------------------------------------------------------------

variable {key : BitVec 64}

/-
  If the addresses ascend, and every `int` is the difference
  itself, the last symbol not above the key is returned.
-/
theorem ksymSearch_of_ascending
    (hAscends :
      ∀ i j, i < j → j < table.symCnt →
        table.addrAt i < table.addrAt j)
    (hDiff :
      ∀ i < table.symCnt,
        intDiff key (table.syms i).addr =
          key.toInt - table.addrAt i)
    (hLow : ∃ i < table.symCnt, table.addrAt i ≤ key.toInt)
    (hHigh : ∃ i < table.symCnt, key.toInt ≤ table.addrAt i)
    (hRoom : table.symCnt < MAX_SYMS) :
    ∃ i < table.symCnt,
      ksymSearch table key = .ok i ∧
        table.addrAt i ≤ key.toInt ∧
          ∀ j < table.symCnt, table.addrAt j ≤ key.toInt →
            table.addrAt j ≤ table.addrAt i := by
  classical
  have hLeast := Nat.find_spec hHigh
  have hBelow := fun i => @Nat.find_min _ _ hHigh i
  generalize Nat.find hHigh = p at hLeast hBelow
  rcases hLeast with ⟨hStop, hKey⟩
  have hBefore : ∀ i < p, table.addrAt i < key.toInt := by
    intro i hLt
    have hNot := hBelow i hLt
    have hLt' := Nat.lt_trans hLt hStop
    by_contra hGe
    exact hNot ⟨hLt', Int.not_lt.mp hGe⟩
  have hBehind :
      ∀ i, p < i → i < table.symCnt →
        key.toInt < table.addrAt i := by
    intro i hGt hLt
    exact Int.lt_of_le_of_lt hKey (hAscends p i hGt hLt)
  rcases Int.le_iff_lt_or_eq.mp hKey with hAbove | hHit
  · -- no symbol has the key as its address
    have hEnd :
        bsearch
            (fun mid => intDiff key (table.syms mid).addr) 0
            table.symCnt =
          .ended p := by
      apply bsearch_of_pivot (Nat.zero_le p)
        (Nat.le_of_lt hStop)
      · intro i _ hLt
        have hSmaller := hBefore i hLt
        rw [hDiff i (Nat.lt_trans hLt hStop)]
        omega
      · intro i hGe hLt
        rw [hDiff i hLt]
        rcases Nat.lt_or_eq_of_le hGe with hGt | rfl
        · have hLarger := hBehind i hGt hLt
          omega
        · omega
    have hPos : p ≠ 0 := by
      rintro rfl
      rcases hLow with ⟨i, hLt, hLe⟩
      rcases Nat.eq_zero_or_pos i with rfl | hGt
      · omega
      · have hLarger := hBehind i hGt hLt
        omega
    have hPrev := hBefore (p - 1) (by omega)
    refine ⟨p - 1, by omega, ?_, Int.le_of_lt hPrev, ?_⟩
    · rw [ksymSearch, hEnd]
      simp only [hPos, if_false]
      rw [if_pos hPrev, if_pos (Nat.lt_trans hStop hRoom),
        if_pos hAbove]
    · intro j hLt hLe
      have hBefore' : j ≤ p - 1 := by
        by_contra hBehind'
        rcases Nat.lt_or_eq_of_le
          (show p ≤ j by omega) with hGt | rfl
        · have hLarger := hBehind j hGt hLt
          omega
        · omega
      rcases Nat.lt_or_eq_of_le hBefore' with hLt' | hEq
      · exact Int.le_of_lt
          (hAscends j (p - 1) hLt' (by omega))
      · exact Int.le_of_eq (congrArg _ hEq)
  · -- the symbol is hit
    have hEnd :
        bsearch
            (fun mid => intDiff key (table.syms mid).addr) 0
            table.symCnt =
          .found p := by
      apply bsearch_of_zero (Nat.zero_le p) hStop
      · rw [hDiff p hStop]
        omega
      · intro i _ hLt
        have hSmaller := hBefore i hLt
        rw [hDiff i (Nat.lt_trans hLt hStop)]
        omega
      · intro i hGt hLt
        have hLarger := hBehind i hGt hLt
        rw [hDiff i hLt]
        omega
    refine ⟨p, hStop, ?_, Int.le_of_eq hHit.symm, ?_⟩
    · rw [ksymSearch, hEnd]
    · intro j _ hLe
      exact Int.le_trans hLe hKey

/- What is returned is an entry of the table. -/
theorem lt_symCnt_of_ksymSearch
    (hPos : 0 < table.symCnt)
    {i : ℕ}
    (hSearch : ksymSearch table key = .ok i) :
    i < table.symCnt := by
  unfold ksymSearch at hSearch
  split at hSearch
  · next mid hFound =>
      cases hSearch
      exact (bsearch_found hFound).2.1
  · next start hEnded =>
      have hRange := bsearch_ended (Nat.zero_le _) hEnded
      split at hSearch
      · cases hSearch
        exact hPos
      split at hSearch
      · split at hSearch
        · split at hSearch
          · cases hSearch
            omega
          · cases hSearch
            exact hPos
        · cases hSearch
      · cases hSearch
        exact hPos

------------------------------------------------------------
-- Enclosing Symbols
------------------------------------------------------------

variable {listed : List Ksym}

/- The symbol with the greatest address not above the key. -/
structure Encloses
    (listed : List Ksym)
    (key : BitVec 64)
    (sym : Ksym) : Prop where
  mem : sym ∈ listed
  le : sym.addrInt ≤ key.toInt
  greatest :
    ∀ s ∈ listed, s.addrInt ≤ key.toInt →
      s.addrInt ≤ sym.addrInt

/- The key is between the least and the greatest address. -/
structure Covers
    (listed : List Ksym)
    (key : BitVec 64) : Prop where
  low : ∃ s ∈ listed, s.addrInt ≤ key.toInt
  high : ∃ s ∈ listed, key.toInt ≤ s.addrInt

/- The listing is loaded, and the enclosing symbol found. -/
def FindsEnclosing
    (qsort : (Ksym → Ksym → ℤ) → List Ksym → List Ksym)
    (lines : List KallsymsLine)
    (table : KsymTable)
    (key : BitVec 64) : Prop :=
  ∃ table' i,
    loadKallsyms qsort (some lines) table = .ok (0, table') ∧
      ksymSearch table' key = .ok i ∧
        Encloses (listedSyms lines) key (table'.syms i)

/- All addresses are less than 2^31 apart. -/
def Near (listed : List Ksym) : Prop :=
  ∀ a ∈ listed, ∀ b ∈ listed,
    a.addrInt - b.addrInt < 2 ^ 31

theorem ksymCmp_of_near
    (hNear : Near listed)
    {a b : Ksym}
    (ha : a ∈ listed)
    (hb : b ∈ listed) :
    ksymCmp a b = a.addrInt - b.addrInt := by
  have hba := hNear b hb a ha
  exact intDiff_of_near (hNear a ha b hb) (Int.le_of_lt hba)

theorem consistent_of_near
    (hNear : Near listed) :
    Consistent ksymCmp listed where
  flip := by
    intro a ha b hb
    rw [ksymCmp_of_near hNear ha hb,
      ksymCmp_of_near hNear hb ha]
    omega
  trans := by
    intro a ha b hb c hc hab hbc
    rw [ksymCmp_of_near hNear ha hb] at hab
    rw [ksymCmp_of_near hNear hb hc] at hbc
    rw [ksymCmp_of_near hNear ha hc]
    omega

/- The table behind a sort that is right for the listing. -/
structure SortedTable
    (listed : List Ksym)
    (table : KsymTable) : Prop where
  symCnt_eq : table.symCnt = listed.length
  mem_iff :
    ∀ sym, sym ∈ listed ↔ ∃ i < table.symCnt, table.syms i = sym
  sorted :
    ∀ i j, i < j → j < table.symCnt →
      ksymCmp (table.syms i) (table.syms j) ≤ 0
  distinct :
    ∀ i j, i < j → j < table.symCnt →
      table.addrAt i ≠ table.addrAt j

theorem exists_sortedTable
    (hSort : CorrectSort qsort)
    (hCmp : Consistent ksymCmp (listedSyms lines))
    (hFit : (listedSyms lines).length ≤ MAX_SYMS)
    (hDistinct : ((listedSyms lines).map Ksym.addr).Nodup)
    (table : KsymTable) :
    ∃ table',
      loadKallsyms qsort (some lines) table =
          .ok (0, table') ∧
        SortedTable (listedSyms lines) table' := by
  rcases loadKallsyms_listed qsort table hFit with ⟨syms, hLoad⟩
  rcases hSort _ _ hCmp with ⟨hPerm, hSorted⟩
  have hHolds := holds_setEntries hPerm.length_eq syms hFit
  have hAddrs :
      (qsort ksymCmp (listedSyms lines)).Pairwise
        fun a b => a.addr ≠ b.addr := by
    apply List.pairwise_map.mp
    exact (hPerm.map Ksym.addr).nodup_iff.mpr hDistinct
  refine ⟨_, hLoad, rfl, ?_, ?_, ?_⟩
  · intro sym
    rw [← hPerm.mem_iff]
    exact hHolds.mem_iff
  · intro i j hLt hStop
    exact hHolds.pairwise hSorted hLt hStop
  · intro i j hLt hStop hEq
    exact hHolds.pairwise hAddrs hLt hStop
      (BitVec.toInt_inj.mp hEq)

/- With addresses that are near, every key is found. -/
theorem findsEnclosing_of_near
    (hSort : CorrectSort qsort)
    (hFit : (listedSyms lines).length < MAX_SYMS)
    (hDistinct : ((listedSyms lines).map Ksym.addr).Nodup)
    (hNear : Near (listedSyms lines))
    (table : KsymTable)
    (hCovers : Covers (listedSyms lines) key) :
    FindsEnclosing qsort lines table key := by
  rcases exists_sortedTable hSort (consistent_of_near hNear)
    (Nat.le_of_lt hFit) hDistinct table with
    ⟨table', hLoad, hTable⟩
  have hMem :
      ∀ i < table'.symCnt,
        table'.syms i ∈ listedSyms lines :=
    fun i hLt => (hTable.mem_iff _).mpr ⟨i, hLt, rfl⟩
  rcases hCovers with ⟨⟨low, hLowMem, hLow⟩, high, hHighMem, hHigh⟩
  rcases (hTable.mem_iff low).mp hLowMem with ⟨l, hl, rfl⟩
  rcases (hTable.mem_iff high).mp hHighMem with ⟨h, hh, rfl⟩
  have hAscends :
      ∀ i j, i < j → j < table'.symCnt →
        table'.addrAt i < table'.addrAt j := by
    intro i j hLt hStop
    have hCmp := hTable.sorted i j hLt hStop
    have hNe := hTable.distinct i j hLt hStop
    rw [ksymCmp_of_near hNear
      (hMem i (Nat.lt_trans hLt hStop)) (hMem j hStop)] at hCmp
    unfold KsymTable.addrAt at hNe ⊢
    omega
  have hDiff :
      ∀ i < table'.symCnt,
        intDiff key (table'.syms i).addr =
          key.toInt - table'.addrAt i := by
    intro i hLt
    have hAbove := hNear _ hHighMem _ (hMem i hLt)
    have hBelow := hNear _ (hMem i hLt) _ hLowMem
    unfold Ksym.addrInt at hAbove hBelow hLow hHigh
    exact intDiff_of_near (by omega) (by omega)
  rcases ksymSearch_of_ascending hAscends hDiff ⟨l, hl, hLow⟩
    ⟨h, hh, hHigh⟩ (hTable.symCnt_eq ▸ hFit) with
    ⟨i, hLt, hSearch, hLe, hGreatest⟩
  refine ⟨table', i, hLoad, hSearch, hMem i hLt, hLe, ?_⟩
  intro sym hSym hBelow
  rcases (hTable.mem_iff sym).mp hSym with ⟨j, hj, rfl⟩
  exact hGreatest j hj hBelow

------------------------------------------------------------
-- Addresses That Are Far Apart
------------------------------------------------------------

theorem SortedTable.mem
    (hTable : SortedTable listed table)
    {i : ℕ}
    (hLt : i < table.symCnt) :
    table.syms i ∈ listed :=
  (hTable.mem_iff _).mpr ⟨i, hLt, rfl⟩

/- Any number between two addresses is a key to look up. -/
theorem SortedTable.exists_key
    (hTable : SortedTable listed table)
    {i j : ℕ}
    (hi : i < table.symCnt)
    (hj : j < table.symCnt)
    {k : ℤ}
    (hLow : table.addrAt i ≤ k)
    (hHigh : k ≤ table.addrAt j) :
    ∃ key : BitVec 64, key.toInt = k ∧ Covers listed key := by
  have hMin := BitVec.le_toInt (table.syms i).addr
  have hMax := BitVec.toInt_lt (x := (table.syms j).addr)
  have hKey : (BitVec.ofInt 64 k).toInt = k := by
    unfold KsymTable.addrAt Ksym.addrInt at hLow hHigh
    rw [BitVec.toInt_ofInt]
    exact Int.bmod_eq_of_le (by omega) (by omega)
  refine ⟨BitVec.ofInt 64 k, hKey, ⟨_, hTable.mem hi, ?_⟩,
    _, hTable.mem hj, ?_⟩
  · rw [hKey]
    exact hLow
  · rw [hKey]
    exact hHigh

/- No entry is before the first one. -/
theorem SortedTable.first_le
    (hTable : SortedTable listed table)
    (hCmp : Consistent ksymCmp listed)
    {i : ℕ}
    (hLt : i < table.symCnt) :
    0 ≤ ksymCmp (table.syms i) (table.syms 0) := by
  rcases Nat.eq_zero_or_pos i with rfl | hPos
  · have hSelf :
        ksymCmp (table.syms 0) (table.syms 0) =
          (table.syms 0).addr.toInt -
            (table.syms 0).addr.toInt :=
      intDiff_of_near (by omega) (by omega)
    omega
  · have hFirst := hTable.mem (Nat.zero_lt_of_lt hLt)
    rw [← hCmp.flip _ hFirst _ (hTable.mem hLt)]
    exact hTable.sorted 0 i hPos hLt

/-
  A key just below the first entry, up to a multiple of 2^32,
  is below all entries for the search.
-/
theorem SortedTable.search_first
    (hTable : SortedTable listed table)
    (hCmp : Consistent ksymCmp listed)
    {k : ℤ}
    (hKey : key.toInt = table.addrAt 0 - 1 + 2 ^ 32 * k) :
    ksymSearch table key = .ok 0 := by
  have hEnd :
      bsearch
          (fun mid => intDiff key (table.syms mid).addr) 0
          table.symCnt =
        .ended 0 := by
    apply bsearch_of_pivot (Nat.le_refl 0) (Nat.zero_le _)
    · intro i _ hLt
      cases hLt
    · intro i _ hLt
      have hFirst := hTable.first_le hCmp hLt
      rcases exists_intDiff (table.syms i).addr
        (table.syms 0).addr with ⟨k₁, hDiff₁, _, hHigh₁⟩
      rcases exists_intDiff key (table.syms i).addr with
        ⟨k₂, hDiff₂, hLow₂, hHigh₂⟩
      unfold ksymCmp at hFirst
      unfold KsymTable.addrAt Ksym.addrInt at hKey
      omega
  rw [ksymSearch, hEnd]
  rfl

/- A key that is a multiple of 2^32 off the middle hits it. -/
theorem search_middle
    (hPos : 0 < table.symCnt)
    {k : ℤ}
    (hKey :
      key.toInt =
        table.addrAt (table.symCnt / 2) + 2 ^ 32 * k) :
    ksymSearch table key = .ok (table.symCnt / 2) := by
  have hZero :
      intDiff key (table.syms (table.symCnt / 2)).addr = 0 := by
    rcases exists_intDiff key
      (table.syms (table.symCnt / 2)).addr with
      ⟨k', hDiff, hLow, hHigh⟩
    unfold KsymTable.addrAt Ksym.addrInt at hKey
    omega
  have hEnd :
      bsearch
          (fun mid => intDiff key (table.syms mid).addr) 0
          table.symCnt =
        .found (table.symCnt / 2) :=
    bsearch_middle hPos hZero
  rw [ksymSearch, hEnd]

/-
  A consistent comparison finds every key only if addresses
  are near.  The first entry must be the least, or a key just
  below it fails; then no other is less than 2^32 above it,
  and a key 2^32 below the entry in the middle fails.
-/
theorem near_of_consistent
    (hTable : SortedTable listed table)
    (hCmp : Consistent ksymCmp listed)
    (hFinds :
      ∀ key, Covers listed key →
        ∃ i, ksymSearch table key = .ok i ∧
          Encloses listed key (table.syms i)) :
    Near listed := by
  intro high hHighMem low hLowMem
  rcases (hTable.mem_iff high).mp hHighMem with ⟨h, hh, rfl⟩
  rcases (hTable.mem_iff low).mp hLowMem with ⟨l, hl, rfl⟩
  have hPos : 0 < table.symCnt := Nat.zero_lt_of_lt hh
  have hResult :
      ∀ {key : BitVec 64} {i : ℕ}, Covers listed key →
        ksymSearch table key = .ok i →
          Encloses listed key (table.syms i) := by
    intro key i hCovers hSearch
    rcases hFinds key hCovers with ⟨i', hSearch', hEncloses⟩
    rw [hSearch] at hSearch'
    cases hSearch'
    exact hEncloses
  -- the first entry is the least one
  have hLeast :
      ∀ i < table.symCnt, table.addrAt 0 ≤ table.addrAt i := by
    intro i hLt
    by_contra hNot
    rcases hTable.exists_key (k := table.addrAt 0 - 1) hLt hPos
      (by omega) (by omega) with ⟨key, hKey, hCovers⟩
    have hSearch : ksymSearch table key = .ok 0 :=
      hTable.search_first hCmp (k := 0) (by omega)
    have hLe := (hResult hCovers hSearch).le
    unfold KsymTable.addrAt at hKey
    omega
  by_contra hFar
  have hFirst := hLeast l hl
  have hCmpHigh := hTable.first_le hCmp hh
  rcases exists_intDiff (table.syms h).addr
    (table.syms 0).addr with ⟨k, hDiff, hLow, hHigh⟩
  have hSpan :
      table.addrAt 0 + 2 ^ 32 ≤ table.addrAt h := by
    unfold KsymTable.addrAt at hFirst ⊢
    unfold Ksym.addrInt at hFirst hFar ⊢
    unfold ksymCmp at hCmpHigh
    omega
  -- so no other entry is less than 2^32 above it
  have hGap :
      ∀ i < table.symCnt,
        table.addrAt i ≤ table.addrAt 0 - 1 + 2 ^ 32 →
          table.addrAt i ≤ table.addrAt 0 := by
    intro i hLt hBelow
    rcases hTable.exists_key
      (k := table.addrAt 0 - 1 + 2 ^ 32) hPos hh
      (by omega) (by omega) with ⟨key, hKey, hCovers⟩
    have hSearch : ksymSearch table key = .ok 0 :=
      hTable.search_first hCmp (k := 1) (by omega)
    exact (hResult hCovers hSearch).greatest _ (hTable.mem hLt)
      (Int.le_trans hBelow (Int.le_of_eq hKey.symm))
  -- and the entry in the middle is found too low
  have hSecond : 0 < h := by
    rcases Nat.eq_zero_or_pos h with rfl | hPos'
    · omega
    · exact hPos'
  have hMid : table.symCnt / 2 < table.symCnt := by
    omega
  have hNe := hTable.distinct 0 (table.symCnt / 2)
    (by omega) hMid
  have hAbove := hLeast _ hMid
  have hFarAbove := mt (hGap _ hMid) (by omega)
  rcases hTable.exists_key
    (k := table.addrAt (table.symCnt / 2) - 2 ^ 32) hPos hMid
    (by omega) (by omega) with ⟨key, hKey, hCovers⟩
  have hSearch :
      ksymSearch table key = .ok (table.symCnt / 2) :=
    search_middle hPos (k := -1) (by omega)
  have hLe := (hResult hCovers hSearch).le
  unfold KsymTable.addrAt at hKey
  omega

/- Some address is the least, and some the greatest. -/
theorem exists_extremes
    (hSome : listed ≠ []) :
    ∃ low ∈ listed, ∃ high ∈ listed,
      ∀ sym ∈ listed,
        low.addrInt ≤ sym.addrInt ∧
          sym.addrInt ≤ high.addrInt := by
  have hNonempty : listed.toFinset.Nonempty :=
    List.toFinset_nonempty_iff listed |>.mpr hSome
  rcases listed.toFinset.exists_min_image Ksym.addrInt
    hNonempty with ⟨low, hLow, hLeast⟩
  rcases listed.toFinset.exists_max_image Ksym.addrInt
    hNonempty with ⟨high, hHigh, hGreatest⟩
  refine ⟨low, List.mem_toFinset.mp hLow, high,
    List.mem_toFinset.mp hHigh, ?_⟩
  intro sym hMem
  exact ⟨hLeast sym (List.mem_toFinset.mpr hMem),
    hGreatest sym (List.mem_toFinset.mpr hMem)⟩

/-
  With an inconsistent comparison nothing is known of what is
  in the table: it may be the greatest symbol only.
-/
theorem near_of_inconsistent
    (hSome : listedSyms lines ≠ [])
    (hFit : (listedSyms lines).length ≤ MAX_SYMS)
    (hCmp : ¬ Consistent ksymCmp (listedSyms lines))
    (hFinds :
      ∀ qsort, CorrectSort qsort → ∀ key,
        Covers (listedSyms lines) key →
          FindsEnclosing qsort lines table key) :
    Near (listedSyms lines) := by
  rcases exists_extremes hSome with
    ⟨low, hLow, high, hHigh, hBetween⟩
  let entries :=
    List.replicate (listedSyms lines).length high
  have hLength : entries.length = (listedSyms lines).length :=
    List.length_replicate
  rcases loadKallsyms_listed (sortOr entries) table hFit with
    ⟨syms, hLoad⟩
  rw [sortOr_of_not hCmp] at hLoad
  have hHolds := holds_setEntries hLength syms hFit
  have hCovers : Covers (listedSyms lines) low.addr :=
    ⟨⟨low, hLow, Int.le_refl _⟩, low, hLow, Int.le_refl _⟩
  rcases hFinds (sortOr entries) (correctSort_sortOr entries)
    low.addr hCovers with
    ⟨table', i, hLoad', hSearch, hEncloses⟩
  rw [hLoad] at hLoad'
  cases hLoad'
  have hPos : 0 < (listedSyms lines).length :=
    List.length_pos_iff.mpr hSome
  have hMem :=
    hHolds.mem_iff.mpr
      ⟨i, lt_symCnt_of_ksymSearch hPos hSearch, rfl⟩
  have hLe := hEncloses.le
  rw [List.eq_of_mem_replicate hMem] at hLe
  intro a ha b hb
  have hAbove := hBetween a ha
  have hBelow := hBetween b hb
  unfold Ksym.addrInt at hLe hAbove hBelow ⊢
  omega

/-
  For every listing of distinct addresses: every sort that is
  right for consistent comparisons makes every key between
  the least and the greatest address find its symbol, exactly
  if all addresses are less than 2^31 apart.
-/
theorem ksymSearch_right_iff
    (lines : List KallsymsLine)
    (table : KsymTable)
    (hSome : listedSyms lines ≠ [])
    (hFit : (listedSyms lines).length < MAX_SYMS)
    (hDistinct : ((listedSyms lines).map Ksym.addr).Nodup) :
    (∀ qsort, CorrectSort qsort → ∀ key,
        Covers (listedSyms lines) key →
          FindsEnclosing qsort lines table key) ↔
      Near (listedSyms lines) := by
  constructor
  · intro hFinds
    by_cases hCmp : Consistent ksymCmp (listedSyms lines)
    · have hSort := correctSort_sortOr ([] : List Ksym)
      rcases exists_sortedTable hSort hCmp
        (Nat.le_of_lt hFit) hDistinct table with
        ⟨table', hLoad, hTable⟩
      apply near_of_consistent hTable hCmp
      intro key hCovers
      rcases hFinds _ hSort key hCovers with
        ⟨table'', i, hLoad', hSearch, hEncloses⟩
      rw [hLoad] at hLoad'
      cases hLoad'
      exact ⟨i, hSearch, hEncloses⟩
    · exact near_of_inconsistent hSome (Nat.le_of_lt hFit) hCmp
        hFinds
  · intro hNear qsort hSort key hCovers
    exact findsEnclosing_of_near hSort hFit hDistinct hNear
      table hCovers

end

------------------------------------------------------------
-- Two Listings
------------------------------------------------------------

/- Static storage is zero when the process starts. -/
def KsymTable.start : KsymTable where
  syms := fun _ => ⟨0, []⟩
  symCnt := 0
  symCnt_le := Nat.zero_le _

/- Two symbols of one module. -/
def nearLines : List KallsymsLine :=
  [some (0xffffffffc0001000, "b".toList),
    some (0xffffffffc0000000, "a".toList)]

theorem nearLines_near :
    Near (listedSyms nearLines) := by
  unfold Near
  decide

/- An address behind the first of them. -/
theorem nearLines_found :
    FindsEnclosing (sortOr ([] : List Ksym)) nearLines .start
      0xffffffffc0000800 :=
  (ksymSearch_right_iff nearLines .start (by decide)
    (by decide) (by decide)).mpr nearLines_near _
      (correctSort_sortOr _) _ ⟨by decide, by decide⟩

/- Two symbols that are 2^31 + 1 apart. -/
def farLines : List KallsymsLine :=
  [some (1, "a".toList), some (0x80000002, "b".toList)]

def farKey : BitVec 64 := 0x80000001

theorem farLines_consistent :
    Consistent ksymCmp (listedSyms farLines) where
  flip := by decide
  trans := by decide

/- The key is in the first symbol, but finds the second. -/
theorem farLines_not_found :
    listedSyms farLines ≠ [] ∧
      (listedSyms farLines).length < MAX_SYMS ∧
        ((listedSyms farLines).map Ksym.addr).Nodup ∧
          Covers (listedSyms farLines) farKey ∧
            CorrectSort (sortOr ([] : List Ksym)) ∧
              ∀ qsort, CorrectSort qsort →
                ¬ FindsEnclosing qsort farLines .start
                  farKey := by
  have hDistinct :
      ((listedSyms farLines).map Ksym.addr).Nodup := by
    decide
  refine ⟨by decide, by decide, hDistinct,
    ⟨by decide, by decide⟩, correctSort_sortOr _, ?_⟩
  intro qsort hSort hFinds
  rcases exists_sortedTable hSort farLines_consistent
    (by decide) hDistinct .start with ⟨table, hLoad, hTable⟩
  rcases hFinds with ⟨table', i, hLoad', hSearch, hEncloses⟩
  rw [hLoad] at hLoad'
  cases hLoad'
  have hCnt : table.symCnt = 2 := hTable.symCnt_eq
  have hEntry :
      ∀ j < 2,
        table.syms j = ⟨1, "a".toList⟩ ∨
          table.syms j = ⟨0x80000002, "b".toList⟩ := by
    intro j hLt
    have hMem := hTable.mem (hCnt.symm ▸ hLt)
    rcases List.mem_cons.mp hMem with hLow | hTail
    · exact .inl hLow
    · exact .inr (List.mem_singleton.mp hTail)
  have hSorted := hTable.sorted 0 1 (by decide) (by omega)
  have hDistinct' := hTable.distinct 0 1 (by decide) (by omega)
  unfold KsymTable.addrAt at hDistinct'
  rcases hEntry 0 (by decide) with hFirst | hFirst
  · -- the comparison does not leave them in this order
    rcases hEntry 1 (by decide) with hSecond | hSecond
    · rw [hFirst, hSecond] at hDistinct'
      exact hDistinct' rfl
    · rw [hFirst, hSecond] at hSorted
      exact absurd hSorted (by decide)
  · have hKey :
        farKey.toInt = table.addrAt 0 - 1 + 2 ^ 32 * 0 := by
      unfold KsymTable.addrAt
      rw [hFirst]
      decide
    rw [hTable.search_first farLines_consistent hKey] at hSearch
    cases hSearch
    have hLe := hEncloses.le
    rw [hFirst] at hLe
    exact absurd hLe (by decide)

end XdpDdos
