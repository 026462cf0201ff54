import XdpDdos.Lib.CScan
import XdpDdos.Tool.Buffers
import Mathlib.Data.Finset.Union
import Mathlib.Order.Interval.Finset.Nat

/-
  The number of possible CPUs, as read from the kernel's
  list of them.

  The list is scanned for its first number or range only.
  So the count is that of the list when the list is a single
  number or range that starts at zero.

  Main declarations:
    * `bpfNumPossibleCpus`
    * `CpuRange`, `CpuList`, `CpuList.cpus`
    * `CountsCpus`, `countsCpus_iff`
-/

------------------------------------------------------------
-- bpf_num_possible_cpus
------------------------------------------------------------

namespace XdpDdos

namespace Tool

/- `sizeof(buff)`. -/
def CPU_BUFF_SIZE : ℕ := 128

/- What `sscanf(buff, "%u-%u", &start, &end)` stores. -/
inductive RangeScan where
  | atEnd
  | noNumber
  | start (start : BitVec 32)
  | range (start stop : BitVec 32)
  deriving Repr, DecidableEq

def sscanfRange (buff : CStr) : RangeScan :=
  if buff.dropWhile CLib.isspace = [] then .atEnd
  else
    match CLib.scanUnsigned buff with
    | none => .noNumber
    | some (start, rest) =>
        match rest with
        | [] => .start start
        | c :: rest =>
            if c ≠ '-' then .start start
            else
              match CLib.scanUnsigned rest with
              | none => .start start
              | some (stop, _) => .range start stop

/- `start == 0 ? end + 1 : 0`. -/
def possibleCpus (start stop : BitVec 32) : BitVec 32 :=
  if start = 0 then stop + 1 else 0

/-
  `bpf_num_possible_cpus`, given the content of the file if
  it opens.  An empty line leaves `start` as it is.
-/
def bpfNumPossibleCpus
    (content : Option CStr) : Outcome (BitVec 32) :=
  match content with
  | none => .halted (.exit 1)
  | some content =>
      match CLib.fgets CPU_BUFF_SIZE content with
      | none => .returned 0
      | some buff =>
          match sscanfRange buff with
          | .atEnd => .halted (.crash .uninitialised)
          | .noNumber => .halted (.exit 1)
          | .start start =>
              .returned (possibleCpus start start)
          | .range start stop =>
              .returned (possibleCpus start stop)

------------------------------------------------------------
-- Lists of CPUs
------------------------------------------------------------

/- A numeral: some decimal digits. -/
structure Numeral where
  digits : CStr
  nonempty : digits ≠ []
  allDigits : ∀ c ∈ digits, c.isDigit = true

def Numeral.value (n : Numeral) : ℕ :=
  decimal n.digits

/- A number `a`, or a range `a-b` that is not empty. -/
structure CpuRange where
  first : Numeral
  last : Option Numeral
  ordered : ∀ b ∈ last, first.value ≤ b.value

namespace CpuRange

def lo (r : CpuRange) : ℕ :=
  r.first.value

def hi (r : CpuRange) : ℕ :=
  (r.last.getD r.first).value

def text (r : CpuRange) : CStr :=
  r.first.digits ++
    match r.last with
    | none => []
    | some b => '-' :: b.digits

theorem lo_le_hi
    (r : CpuRange) :
    r.lo ≤ r.hi := by
  unfold lo hi
  cases hLast : r.last with
  | none => exact le_refl _
  | some b => exact r.ordered b hLast

end CpuRange

/- Ascending ranges that do not overlap, at least one. -/
structure CpuList where
  ranges : List CpuRange
  nonempty : ranges ≠ []
  ascending :
    ranges.Pairwise fun r r' => r.hi < r'.lo

namespace CpuList

/- The ranges, separated by commas. -/
def text (l : CpuList) : CStr :=
  List.intercalate [','] (l.ranges.map CpuRange.text)

/- The CPUs that some ranges denote. -/
def cpusOf : List CpuRange → Finset ℕ
  | [] => ∅
  | r :: rs => Finset.Icc r.lo r.hi ∪ cpusOf rs

def cpus (l : CpuList) : Finset ℕ :=
  cpusOf l.ranges

/- The content of the file: with or without a line feed. -/
def content
    (l : CpuList)
    (feed : Bool) : CStr :=
  l.text ++ if feed then ['\n'] else []

end CpuList

theorem mem_cpusOf
    {rs : List CpuRange}
    {cpu : ℕ} :
    cpu ∈ CpuList.cpusOf rs ↔
      ∃ r ∈ rs, r.lo ≤ cpu ∧ cpu ≤ r.hi := by
  induction rs with
  | nil => simp [CpuList.cpusOf]
  | cons r rs ih => simp [CpuList.cpusOf, ih]

/- A first range adds its CPUs to those of later ranges. -/
theorem card_cpusOf_cons
    {r : CpuRange}
    {rs : List CpuRange}
    (hAscending :
      (r :: rs).Pairwise fun r r' => r.hi < r'.lo) :
    (CpuList.cpusOf (r :: rs)).card =
      (r.hi - r.lo + 1) + (CpuList.cpusOf rs).card := by
  have hDisjoint :
      Disjoint (Finset.Icc r.lo r.hi)
        (CpuList.cpusOf rs) := by
    rw [Finset.disjoint_left]
    intro cpu hHere hLater
    rcases mem_cpusOf.mp hLater with ⟨r', hMem, hFrom, _⟩
    have hBefore := (List.pairwise_cons.mp hAscending).1 r' hMem
    have hUpTo := (Finset.mem_Icc.mp hHere).2
    omega
  have hLe := r.lo_le_hi
  rw [CpuList.cpusOf, Finset.card_union_of_disjoint hDisjoint,
    Nat.card_Icc]
  omega

------------------------------------------------------------
-- Reading a List
------------------------------------------------------------

/- The character behind a range: a comma or a line feed. -/
def EndsRange (rest : CStr) : Prop :=
  ∀ c ∈ rest.head?, c = ',' ∨ c = '\n'

theorem EndsRange.not_digit
    {rest : CStr}
    (hEnds : EndsRange rest) :
    ∀ c ∈ rest.head?, c.isDigit = false := by
  intro c hHead
  rcases hEnds c hHead with rfl | rfl
  · rfl
  · rfl

/- A numeral as it is stored in an `unsigned int`. -/
def Numeral.stored (n : Numeral) : BitVec 32 :=
  BitVec.ofNat 32 (CLib.strtoul false n.value)

theorem Numeral.scanUnsigned
    (n : Numeral)
    {rest : CStr}
    (hRest : ∀ c ∈ rest.head?, c.isDigit = false) :
    CLib.scanUnsigned (n.digits ++ rest) =
      some (n.stored, rest) :=
  CLib.scanUnsigned_append n.nonempty n.allDigits hRest

/- The scan reads one range, and stops behind it. -/
theorem sscanfRange_text
    (r : CpuRange)
    {rest : CStr}
    (hEnds : EndsRange rest) :
    sscanfRange (r.text ++ rest) =
      match r.last with
      | none => .start r.first.stored
      | some b => .range r.first.stored b.stored := by
  have hSome :
      (r.text ++ rest).dropWhile CLib.isspace ≠ [] := by
    obtain ⟨c, digits, hDigits⟩ :=
      List.exists_cons_of_ne_nil r.first.nonempty
    have hDigit :=
      r.first.allDigits c (hDigits ▸ List.mem_cons_self)
    rw [CpuRange.text, hDigits, List.cons_append,
      List.cons_append, List.dropWhile_cons,
      CLib.isspace_of_isDigit hDigit]
    exact List.cons_ne_nil c _
  rw [sscanfRange, if_neg hSome]
  cases hLast : r.last with
  | none =>
      simp only [CpuRange.text, hLast, List.append_nil,
        r.first.scanUnsigned hEnds.not_digit]
      cases rest with
      | nil => rfl
      | cons c rest =>
          have hComma : c ≠ '-' := by
            rcases hEnds c rfl with rfl | rfl
            · decide
            · decide
          simp only [hComma, ne_eq, not_false_eq_true,
            if_true]
  | some b =>
      have hDash :
          ∀ c ∈ ('-' :: (b.digits ++ rest)).head?,
            c.isDigit = false := by
        intro c hHead
        cases hHead
        rfl
      simp only [CpuRange.text, hLast, List.append_assoc,
        List.cons_append, r.first.scanUnsigned hDash,
        b.scanUnsigned hEnds.not_digit, ne_eq, not_true,
        if_false]

/- A range is made of digits and a dash. -/
theorem CpuRange.feed_notMem_text
    (r : CpuRange) :
    '\n' ∉ r.text := by
  have hDigits (n : Numeral) : '\n' ∉ n.digits := fun hMem =>
    absurd (n.allDigits _ hMem) (by decide)
  rw [CpuRange.text, List.mem_append, not_or]
  refine ⟨hDigits r.first, ?_⟩
  cases r.last with
  | none => exact List.not_mem_nil
  | some b =>
      rw [List.mem_cons, not_or]
      exact ⟨by decide, hDigits b⟩

theorem CpuRange.text_ne_nil
    (r : CpuRange) :
    r.text ≠ [] := by
  rw [CpuRange.text]
  exact List.append_ne_nil_of_left_ne_nil r.first.nonempty _

/- The text of ranges begins with that of the first one. -/
theorem intercalate_text_cons
    (r : CpuRange)
    (rs : List CpuRange) :
    ∃ rest, EndsRange rest ∧ '\n' ∉ rest ∧
      List.intercalate [','] ((r :: rs).map CpuRange.text) =
        r.text ++ rest := by
  induction rs generalizing r with
  | nil =>
      refine ⟨[], ?_, List.not_mem_nil, ?_⟩
      · intro c hHead
        cases hHead
      · simp [List.intercalate]
  | cons r' rs ih =>
      rcases ih r' with ⟨rest, _, hPlain, hText⟩
      refine ⟨',' :: (r'.text ++ rest), ?_, ?_, ?_⟩
      · intro c hHead
        cases hHead
        exact Or.inl rfl
      · simp only [List.mem_cons, List.mem_append, not_or]
        exact ⟨by decide, r'.feed_notMem_text, hPlain⟩
      · rw [← hText]
        simp [List.intercalate]

------------------------------------------------------------
-- The Count of a List
------------------------------------------------------------

namespace CpuRange

/- What is returned for a list that begins with a range. -/
def scanned (r : CpuRange) : BitVec 32 :=
  possibleCpus r.first.stored (r.last.getD r.first).stored

/- How many CPUs the range denotes. -/
def size (r : CpuRange) : ℕ :=
  r.hi - r.lo + 1

/-
  The range starts at zero, or at a number that is stored as
  zero, and its size fits an `unsigned int`.
-/
def FromZero (r : CpuRange) : Prop :=
  2 ^ 32 ∣ r.lo ∧ r.lo < 2 ^ 64 ∧ r.size < 2 ^ 32

theorem stored_eq_zero_iff
    (n : Numeral) :
    n.stored = 0 ↔ 2 ^ 32 ∣ n.value ∧ n.value < 2 ^ 64 := by
  rw [← BitVec.toNat_inj, Numeral.stored, BitVec.toNat_ofNat]
  unfold CLib.strtoul
  simp only [Bool.false_eq_true, if_false]
  split
  · simp only [BitVec.ofNat_eq_ofNat, BitVec.toNat_ofNat]
    omega
  · simp only [BitVec.ofNat_eq_ofNat, BitVec.toNat_ofNat]
    omega

/- A range that starts at zero is counted modulo 2^32. -/
theorem scanned_eq_size
    {r : CpuRange}
    (hZero : r.first.stored = 0)
    (hSmall : r.size < 2 ^ 32) :
    r.scanned.toNat = r.size := by
  rcases (stored_eq_zero_iff r.first).mp hZero with
    ⟨⟨k, hFirst⟩, hLo⟩
  have hLe := r.lo_le_hi
  unfold size lo hi at *
  have hHi : (r.last.getD r.first).value < 2 ^ 64 := by
    omega
  rw [scanned, possibleCpus, if_pos hZero, Numeral.stored,
    CLib.strtoul, if_pos hHi, if_neg (by simp),
    BitVec.toNat_add, BitVec.toNat_ofNat]
  simp only [BitVec.ofNat_eq_ofNat, BitVec.toNat_ofNat]
  omega

theorem stored_of_scanned
    {r : CpuRange}
    (hScanned : r.scanned.toNat ≠ 0) :
    r.first.stored = 0 := by
  by_contra hFirst
  rw [scanned, possibleCpus, if_neg hFirst] at hScanned
  exact hScanned rfl

/- The count is right exactly for ranges from zero. -/
theorem scanned_eq_size_iff
    (r : CpuRange) :
    r.scanned.toNat = r.size ↔ r.FromZero := by
  constructor
  · intro hCount
    have hPos : r.scanned.toNat ≠ 0 := by
      rw [hCount]
      exact Nat.succ_ne_zero _
    have hZero :=
      (stored_eq_zero_iff r.first).mp (stored_of_scanned hPos)
    exact ⟨hZero.1, hZero.2, hCount ▸ r.scanned.isLt⟩
  · rintro ⟨hDvd, hLo, hSmall⟩
    exact scanned_eq_size
      ((stored_eq_zero_iff r.first).mpr ⟨hDvd, hLo⟩) hSmall

/- With more CPUs behind the range, it is never right. -/
theorem scanned_ne_of_more
    (r : CpuRange)
    {more : ℕ}
    (hMore : 0 < more) :
    r.scanned.toNat ≠ r.size + more := by
  intro hCount
  have hLt := r.scanned.isLt
  have hZero : r.first.stored = 0 :=
    stored_of_scanned (by omega)
  have hSize := scanned_eq_size hZero (by omega)
  omega

end CpuRange

/- The kernel's file: a list of at most 126 characters. -/
structure CpuFile where
  list : CpuList
  feed : Bool
  short : list.text.length ≤ 126

namespace CpuFile

def content (file : CpuFile) : CStr :=
  file.list.content file.feed

/-
  The number of CPUs in the list is returned, and a buffer
  of as many words is just what the kernel copies.
-/
def CountsCpus (file : CpuFile) : Prop :=
  ∃ n, bpfNumPossibleCpus (some file.content) =
      .returned n ∧
    n.toNat = file.list.cpus.card ∧
    ∀ fd : MapId,
      u64Array n.toNat = fd.copySize file.list.cpus.card

/- What the function returns is up to the first range. -/
theorem bpfNumPossibleCpus_content
    (file : CpuFile)
    {r : CpuRange}
    {rs : List CpuRange}
    (hRanges : file.list.ranges = r :: rs) :
    bpfNumPossibleCpus (some file.content) =
      .returned r.scanned := by
  rcases intercalate_text_cons r rs with
    ⟨rest, hEnds, hPlain, hText⟩
  have hList : file.list.text = r.text ++ rest := by
    rw [CpuList.text, hRanges, hText]
  have hLine :
      CLib.fgets CPU_BUFF_SIZE file.content =
        some (r.text ++
          (rest ++ if file.feed then ['\n'] else [])) := by
    have hShort := file.short
    unfold content CpuList.content
    rw [CLib.fgets_of_line, hList, List.append_assoc]
    · rw [hList, List.mem_append, not_or]
      exact ⟨r.feed_notMem_text, hPlain⟩
    · rw [hList]
      exact List.append_ne_nil_of_left_ne_nil
        r.text_ne_nil _
    · unfold CPU_BUFF_SIZE
      omega
  have hEnds' :
      EndsRange
        (rest ++ if file.feed then ['\n'] else []) := by
    intro c hHead
    cases rest with
    | cons c' rest => exact hEnds c hHead
    | nil =>
        cases hFeed : file.feed with
        | false =>
            rw [hFeed] at hHead
            cases hHead
        | true =>
            rw [hFeed] at hHead
            cases hHead
            exact Or.inr rfl
  rw [bpfNumPossibleCpus]
  simp only [hLine, sscanfRange_text r hEnds']
  unfold CpuRange.scanned
  cases r.last with
  | none => rfl
  | some b => rfl

/-
  The count is that of the list exactly if the list is one
  number or range that starts at zero.
-/
theorem countsCpus_iff
    (file : CpuFile) :
    file.CountsCpus ↔
      ∃ r, file.list.ranges = [r] ∧ r.FromZero := by
  obtain ⟨r, rs, hRanges⟩ :=
    List.exists_cons_of_ne_nil file.list.nonempty
  have hAscending := file.list.ascending
  rw [hRanges] at hAscending
  have hCard :
      file.list.cpus.card =
        r.size + (CpuList.cpusOf rs).card := by
    rw [CpuList.cpus, hRanges, card_cpusOf_cons hAscending,
      CpuRange.size]
  have hCounts :
      file.CountsCpus ↔
        r.scanned.toNat = file.list.cpus.card := by
    constructor
    · rintro ⟨n, hReturned, hCount, _⟩
      rw [bpfNumPossibleCpus_content file hRanges]
        at hReturned
      cases hReturned
      exact hCount
    · intro hCount
      refine ⟨_, bpfNumPossibleCpus_content file hRanges,
        hCount, ?_⟩
      intro fd
      rw [hCount, fd.copySize_eq]
  rw [hCounts, hCard]
  cases rs with
  | nil =>
      rw [hRanges]
      simp only [CpuList.cpusOf, Finset.card_empty,
        Nat.add_zero, r.scanned_eq_size_iff,
        List.cons.injEq, and_true, exists_eq_left']
  | cons r' rs =>
      have hMore :
          0 < (CpuList.cpusOf (r' :: rs)).card := by
        rw [card_cpusOf_cons hAscending.tail]
        omega
      refine iff_of_false (r.scanned_ne_of_more hMore) ?_
      rintro ⟨_, hSingle, _⟩
      rw [hRanges] at hSingle
      cases hSingle

end CpuFile

/- The decimal numeral of a number. -/
def Numeral.ofNat (n : ℕ) : Numeral where
  digits := Nat.toDigits 10 n
  nonempty := Nat.toDigits_ne_nil
  allDigits := fun _ hMem =>
    Nat.isDigit_of_mem_toDigits (by decide) (by decide) hMem

/- `0-1,4-5`. -/
def sparseFile : CpuFile where
  list :=
    { ranges :=
        [⟨.ofNat 0, some (.ofNat 1), by simp; decide⟩,
          ⟨.ofNat 4, some (.ofNat 5), by simp; decide⟩]
      nonempty := List.cons_ne_nil _ _
      ascending := by
        simp only [List.pairwise_cons, List.mem_singleton,
          forall_eq, List.not_mem_nil, false_implies,
          implies_true, List.Pairwise.nil, and_true]
        decide }
  feed := true
  short := by decide

/- Of four CPUs two are counted. -/
theorem sparseFile_miscounted :
    ¬ sparseFile.CountsCpus := by
  rintro ⟨n, hReturned, hCount, _⟩
  have hTwo :
      bpfNumPossibleCpus (some sparseFile.content) =
        .returned 2 := by decide
  have hFour : sparseFile.list.cpus.card = 4 := by decide
  rw [hTwo] at hReturned
  cases hReturned
  rw [hFour] at hCount
  exact absurd hCount (by decide)

end Tool

end XdpDdos
