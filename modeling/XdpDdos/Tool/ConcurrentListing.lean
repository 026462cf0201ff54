import XdpDdos.Tool.ListJson
import XdpDdos.Lib.CursorWalk
import XdpDdos.Lib.Interleaving
import Mathlib.Data.Fintype.Option

/-
  Listing the addresses while other processes edit them.

  The loop asks for the key behind the one it printed last.
  If that one is gone, the kernel starts from the first key,
  and addresses that were printed are printed again.

  Main declarations:
    * `ListState`, `handleList`
    * `listPool`, `listSystem`
    * `timesPrinted`, `Stays`, `CursorStays`
    * `deleted_cursor_repeats`
    * `listing_of_concurrent_edits`
-/

------------------------------------------------------------
-- A Listing Among Edits
------------------------------------------------------------

namespace XdpDdos

namespace Tool

open Json

variable {nrCpus : ℕ}

/- The arguments of one call of `blacklist_modify`. -/
structure AddrCall where
  ipString : CStr
  action : BitVec 32

/- The call, on the map of the addresses. -/
def AddrCall.prog (c : AddrCall) : MapProg nrCpus ℕ :=
  blacklistModify .blacklist c.ipString c.action

/-
  The next key in the order of the buckets; from an absent
  key, or none, the first one.
-/
def nextInOrder
    (bucketOf : BitVec 32 → ℕ)
    (keys : List (BitVec 32)) :
    Option (BitVec 32) → Option (BitVec 32)
  | none => (bucketOrder bucketOf keys).head?
  | some key =>
      if key ∈ keys then
        nextIn key (bucketOrder bucketOf keys)
      else (bucketOrder bucketOf keys).head?

/-
  What the processes share, with the keys that the listing
  was given so far, and whether it was refused one.
-/
structure ListState (nrCpus : ℕ) where
  tool : ToolState nrCpus
  fetched : List (BitVec 32) := []
  ended : Bool := false

/- Note the answer to a request for a key. -/
def ListState.note
    (s : ListState nrCpus) :
    Option (BitVec 32) → ListState nrCpus
  | some key => { s with fetched := s.fetched ++ [key] }
  | none => { s with ended := true }

/- Keys of addresses are fetched in the order of buckets. -/
def handleList
    (bucketOf : BitVec 32 → ℕ)
    (fails : ToolFaults) :
    CallProg.Handler (ToolCall nrCpus) ToolCall.Resp
      (ListState nrCpus)
  | .getNextKey .blacklist prevKey, s =>
      let answer :=
        nextInOrder bucketOf
          s.tool.maps.blacklist.entries.keys prevKey
      (answer, s.note answer)
  | op, s =>
      ((handle fails op s.tool).1,
        { s with tool := (handle fails op s.tool).2 })

/- What a process returns: the listing, or a call. -/
abbrev ListResult :=
  Bool ⊕ ℕ

/- The listing and the calls, before their first step. -/
def listPool
    {k : ℕ}
    (fuel : ℕ)
    (frame : StackFrame)
    (calls : Fin k → AddrCall)
    (m : Maps nrCpus) :
    Pool (ToolCall nrCpus) ToolCall.Resp ListResult
      (ListState nrCpus) (Option (Fin k)) where
  progs
    | none => do
        let ended ← blacklistListAllIpv4 fuel frame .blacklist
        return .inl ended
    | some i => do
        let status ← mapProg (calls i).prog
        return .inr status
  shared := { tool := { maps := m } }

/- The processes take turns at every call. -/
def listSystem
    (nrCpus k : ℕ)
    (bucketOf : BitVec 32 → ℕ)
    (fails : ToolFaults) :
    Reactive
      (Pool (ToolCall nrCpus) ToolCall.Resp ListResult
        (ListState nrCpus) (Option (Fin k)))
      (Option (Fin k)) (Option (ToolCall nrCpus)) :=
  poolSystem (handleList bucketOf fails)

/- How often a text has the name of an address. -/
def timesPrinted
    (text : CStr)
    (key : BitVec 32) : ℕ :=
  (((lex text).getD []).filterMap tokenName).count
    (inetNtop key)

/- The address is in the blacklist while it is listed. -/
def Stays
    {k : ℕ}
    (key : BitVec 32)
    (pool :
      Pool (ToolCall nrCpus) ToolCall.Resp ListResult
        (ListState nrCpus) (Option (Fin k))) : Prop :=
  pool.shared.ended = false →
    pool.shared.tool.maps.blacklist.Contains key

/- So is the address that was fetched last, until the next. -/
def CursorStays
    {k : ℕ}
    (pool :
      Pool (ToolCall nrCpus) ToolCall.Resp ListResult
        (ListState nrCpus) (Option (Fin k))) : Prop :=
  pool.shared.ended = false →
    ∀ last ∈ pool.shared.fetched.getLast?,
      pool.shared.tool.maps.blacklist.Contains last

instance
    {k : ℕ}
    (key : BitVec 32) :
    DecidablePred
      (Stays key :
        Pool (ToolCall nrCpus) ToolCall.Resp ListResult
          (ListState nrCpus) (Option (Fin k)) → Prop) :=
  fun _ => inferInstanceAs (Decidable (_ → _))

instance
    {k : ℕ} :
    DecidablePred
      (CursorStays :
        Pool (ToolCall nrCpus) ToolCall.Resp ListResult
          (ListState nrCpus) (Option (Fin k)) → Prop) :=
  fun pool =>
    have := Option.decidableForallMem
      (p := pool.shared.tool.maps.blacklist.Contains)
      pool.shared.fetched.getLast?
    inferInstanceAs (Decidable (_ → _))

------------------------------------------------------------
-- A Deleted Cursor
------------------------------------------------------------

/- The addresses 10.0.0.1 and 10.0.0.2, newest first. -/
def twoListed : Maps 1 :=
  { Maps.fresh with
    blacklist :=
      ⟨((∅ : AList _).insert 0x0200000a (fun _ => 0)).insert
          0x0100000a (fun _ => 0),
        by simp [NR_ADDRS]⟩ }

/- Another process deletes 10.0.0.2. -/
def deleteSecond : Fin 1 → AddrCall
  | 0 => ⟨"10.0.0.2".toList, ACTION_DEL⟩

/- It does so when the listing has printed both. -/
def betweenFetches : List (Option (Fin 1)) :=
  List.replicate 8 none ++
    some ⟨0, Nat.one_pos⟩ :: List.replicate 6 none

/- The address that stays is printed again. -/
theorem deleted_cursor_repeats :
    ((listSystem 1 1 (fun _ => 0) .none).final
        (listPool (2 * (NR_ADDRS + 1)) emptyFrame
          deleteSecond twoListed)
        betweenFetches).progs none = .ret (.inl true) ∧
      (listSystem 1 1 (fun _ => 0) .none).Always
        (Stays 0x0100000a)
        (listPool (2 * (NR_ADDRS + 1)) emptyFrame
          deleteSecond twoListed)
        betweenFetches ∧
      timesPrinted
        ((listSystem 1 1 (fun _ => 0) .none).final
          (listPool (2 * (NR_ADDRS + 1)) emptyFrame
            deleteSecond twoListed)
          betweenFetches).shared.tool.stdout
        0x0100000a = 2 :=
  ⟨rfl, by decide +kernel, by decide +kernel⟩

------------------------------------------------------------
-- Names of Addresses
------------------------------------------------------------

theorem dot_notMem_toDigits
    (n : ℕ) :
    '.' ∉ Nat.toDigits 10 n := by
  intro hMem
  have hDigit : '.'.isDigit = true :=
    Nat.isDigit_of_mem_toDigits (by decide) (by decide) hMem
  exact absurd hDigit (by decide)

/- Digits in front of a dot, and what is behind it. -/
theorem toDigits_dot_inj
    {n n' : ℕ}
    {text text' : CStr}
    (hSame :
      Nat.toDigits 10 n ++ '.' :: text =
        Nat.toDigits 10 n' ++ '.' :: text') :
    n = n' ∧ text = text' := by
  have hDot (i : ℕ) (rest : CStr) :
      (Nat.toDigits 10 i ++ '.' :: rest).idxOf '.' =
        (Nat.toDigits 10 i).length := by
    rw [List.idxOf_append_of_notMem (dot_notMem_toDigits i),
      List.idxOf_cons_self, Nat.add_zero]
  have hLength :
      (Nat.toDigits 10 n).length =
        (Nat.toDigits 10 n').length := by
    rw [← hDot n text, hSame, hDot n' text']
  rcases List.append_inj hSame hLength with ⟨hDigits, hRest⟩
  exact ⟨toDigits_inj hDigits, (List.cons.inj hRest).2⟩

/- An address is known by its name. -/
theorem inetNtop_injective :
    Function.Injective inetNtop := by
  intro key key' hName
  simp only [inetNtop, List.append_assoc,
    List.cons_append] at hName
  rcases toDigits_dot_inj hName with ⟨hFirst, hName₁⟩
  rcases toDigits_dot_inj hName₁ with ⟨hSecond, hName₂⟩
  rcases toDigits_dot_inj hName₂ with ⟨hThird, hName₃⟩
  have hFourth := toDigits_inj hName₃
  simp only [BitVec.extractLsb'_toNat,
    Nat.shiftRight_eq_div_pow] at hFirst hSecond hThird hFourth
  have hKey := key.isLt
  have hKey' := key'.isLt
  apply BitVec.eq_of_toNat_eq
  omega

/- The names in a text are those of the addresses, in order. -/
def Names
    (text : CStr)
    (printed : List (BitVec 32)) : Prop :=
  ∃ toks, Spells text toks ∧
    toks.filterMap tokenName = printed.map inetNtop

namespace Names

variable {text : CStr}
variable {printed : List (BitVec 32)}

theorem nil : Names [] [] :=
  ⟨[], Spells.nil, rfl⟩

theorem comma
    (hNames : Names text printed)
    (key : BitVec 32) :
    Names (text ++ keyComma key) printed := by
  rcases hNames with ⟨toks, hSpells, hToks⟩
  refine ⟨toks ++ keyCommaToks key,
    hSpells.append (spells_keyComma key)
      (fresh_keyComma key), ?_⟩
  have hNone :
      (keyCommaToks key).filterMap tokenName = [] := by
    unfold keyCommaToks
    split <;> rfl
  rw [List.filterMap_append, hNone, List.append_nil, hToks]

theorem line
    (hNames : Names text printed)
    (key : BitVec 32)
    (count : BitVec 64) :
    Names
      (text ++ ("\n \"".toList ++ inetNtop key ++
        "\" : ".toList ++ showU64 count))
      (printed ++ [key]) := by
  rcases hNames with ⟨toks, hSpells, hToks⟩
  refine ⟨_, hSpells.append (spells_countedAddr key count)
    (fresh_cons (by decide) _), ?_⟩
  rw [List.filterMap_append, hToks, List.map_append]
  rfl

theorem timesPrinted_eq
    (hNames : Names text printed)
    (key : BitVec 32) :
    timesPrinted text key = printed.count key := by
  rcases hNames with ⟨toks, hSpells, hToks⟩
  rw [timesPrinted, lex_of_spells hSpells, Option.getD_some,
    hToks]
  exact List.count_map_of_injective printed inetNtop
    inetNtop_injective key

end Names

------------------------------------------------------------
-- The Listing as a Walk
------------------------------------------------------------

/- Behind a key comes the first of the others. -/
theorem nextIn_eq_head?_restAfter
    (key : BitVec 32)
    (keys : List (BitVec 32)) :
    nextIn key keys = (restAfter key keys).head? := by
  induction keys with
  | nil => rfl
  | cons first keys ih =>
      rw [nextIn, restAfter]
      by_cases hFirst : first = key
      · rw [if_pos hFirst, if_pos hFirst]
      · rw [if_neg hFirst, if_neg hFirst]
        exact ih

/- The keys of the map, and how far the listing is. -/
def ListState.walk
    (s : ListState nrCpus) : Walk (BitVec 32) where
  keys := s.tool.maps.blacklist.entries.keys
  fetched := s.fetched
  ended := s.ended

theorem ListState.contains_iff_mem_walk
    (s : ListState nrCpus)
    (key : BitVec 32) :
    s.tool.maps.blacklist.Contains key ↔ key ∈ s.walk.keys :=
  (PercpuHash.contains_iff_mem _ key).trans AList.mem_keys

theorem nextInOrder_eq_head?_toCome
    (bucketOf : BitVec 32 → ℕ)
    (w : Walk (BitVec 32)) :
    nextInOrder bucketOf w.keys w.fetched.getLast? =
      (w.toCome bucketOf).head? := by
  cases hCursor : w.fetched.getLast? with
  | none => rw [Walk.toCome_of_none hCursor, nextInOrder]
  | some last =>
      rw [nextInOrder]
      by_cases hIn : last ∈ w.keys
      · rw [if_pos hIn, Walk.toCome_of_mem hCursor hIn,
          nextIn_eq_head?_restAfter]
      · rw [if_neg hIn, Walk.toCome_of_notMem hCursor hIn]

/- A call is a step of the walk, or none. -/
def Moves
    (bucketOf : BitVec 32 → ℕ)
    (s s' : ListState nrCpus) : Prop :=
  s'.walk = s.walk ∨ Walk.Step bucketOf s.walk s'.walk

/-
  At most so many fetches will succeed.  Each call that is
  still to be made can make the listing start again.
-/
def fetchesLeft
    (bucketOf : BitVec 32 → ℕ)
    (w : Walk (BitVec 32))
    (pending : ℕ) : ℕ :=
  if w.ended then 0
  else pending * (NR_ADDRS + 1) + (w.toCome bucketOf).length

theorem fetchesLeft_of_ended
    {bucketOf : BitVec 32 → ℕ}
    {w : Walk (BitVec 32)}
    (hEnded : w.ended = true)
    (pending : ℕ) :
    fetchesLeft bucketOf w pending = 0 := by
  rw [fetchesLeft, hEnded, if_pos rfl]

theorem fetchesLeft_of_running
    {bucketOf : BitVec 32 → ℕ}
    {w : Walk (BitVec 32)}
    (hRunning : w.ended = false)
    (pending : ℕ) :
    fetchesLeft bucketOf w pending =
      pending * (NR_ADDRS + 1) +
        (w.toCome bucketOf).length := by
  rw [fetchesLeft, hRunning]
  exact if_neg Bool.false_ne_true

/- Starting again takes at most as many as the map has keys. -/
theorem fetchesLeft_le
    (bucketOf : BitVec 32 → ℕ)
    (s : ListState nrCpus)
    (pending : ℕ) :
    fetchesLeft bucketOf s.walk pending ≤
      pending * (NR_ADDRS + 1) + NR_ADDRS := by
  have hCome : (s.walk.toCome bucketOf).length ≤ NR_ADDRS :=
    Nat.le_trans s.walk.length_toCome_le
      s.tool.maps.blacklist.size_le
  unfold fetchesLeft
  split
  · exact Nat.zero_le _
  · exact Nat.add_le_add_left hCome _

/- A call that is made can only cost one such start. -/
theorem fetchesLeft_of_call
    (bucketOf : BitVec 32 → ℕ)
    (s s' : ListState nrCpus)
    (hEnded : s'.ended = s.ended)
    (pending : ℕ) :
    fetchesLeft bucketOf s'.walk pending ≤
      fetchesLeft bucketOf s.walk (pending + 1) := by
  cases hNow : s.ended with
  | true =>
      have hThen : s'.walk.ended = true := hEnded.trans hNow
      rw [fetchesLeft_of_ended hThen]
      exact Nat.zero_le _
  | false =>
      have hBound := fetchesLeft_le bucketOf s' pending
      have hHere : s.walk.ended = false := hNow
      rw [fetchesLeft_of_running hHere, Nat.add_mul]
      omega
------------------------------------------------------------
-- Phases of the Listing
------------------------------------------------------------

/- How the listing ends when its loop does. -/
def afterLoop :
    Option (BitVec 32) → ToolProg nrCpus ListResult
  | none => return .inl false
  | some key => do
      printf (keyComma key)
      return .inl true

/- The rest of the listing from a fetch on. -/
def fetchOn
    (fuel : ℕ)
    (prevKey : Option (BitVec 32))
    (lastKey : BitVec 32) : ToolProg nrCpus ListResult :=
  listIpv4From .blacklist fuel prevKey lastKey >>= afterLoop

/- From a line on. -/
def lineOn
    (fuel : ℕ)
    (key : BitVec 32)
    (value : BitVec 64) : ToolProg nrCpus ListResult := do
  blacklistPrintIpv4 key value
  fetchOn fuel (some key) key

/- From the lookup of a count on. -/
def countOn
    (fuel : ℕ)
    (key : BitVec 32) : ToolProg nrCpus ListResult := do
  let value ← mapProg (getKey32Value64Percpu .blacklist key)
  lineOn fuel key value

/- From a separator on. -/
def commaOn
    (fuel : ℕ)
    (key : BitVec 32) : ToolProg nrCpus ListResult := do
  printf (keyComma key)
  countOn fuel key

theorem fetchOn_succ
    (fuel : ℕ)
    (prevKey : Option (BitVec 32))
    (lastKey : BitVec 32) :
    (fetchOn (fuel + 1) prevKey lastKey :
      ToolProg nrCpus ListResult) =
      .call (.getNextKey .blacklist prevKey) fun answer =>
        match answer with
        | none => afterLoop (some lastKey)
        | some key => commaOn fuel key := by
  change CallProg.call _ _ = _
  congr 1
  funext answer
  cases answer with
  | none => rfl
  | some key =>
      simp only [commaOn, countOn, lineOn, fetchOn,
        ← CallProg.bind_assoc]
      rfl

theorem countOn_eq
    (fuel : ℕ)
    (key : BitVec 32) :
    (countOn fuel key : ToolProg nrCpus ListResult) =
      .call (.map (.lookupElem .blacklist key)) fun looked =>
        lineOn fuel key
          (match looked with
          | .error _ => 0
          | .ok values => sumValues values) := by
  change CallProg.call _ _ = _
  congr 1
  funext looked
  cases looked with
  | ok values => rfl
  | error errno => rfl

/-
  Where the listing is, by the keys that were fetched and
  printed, the fuel that is left, and the calls up to and
  including the next fetch.
-/
inductive ListPhase
    (frame : StackFrame) :
    List (BitVec 32) → List (BitVec 32) → Bool → ℕ → ℕ →
      ToolProg nrCpus ListResult → Prop where
  | fetch (printed fuel) :
      ListPhase frame printed printed false fuel 2
        (fetchOn fuel printed.getLast?
          (printed.getLast?.getD frame.key))
  | comma (printed fuel key) :
      ListPhase frame (printed ++ [key]) printed false fuel 5
        (commaOn fuel key)
  | count (printed fuel key) :
      ListPhase frame (printed ++ [key]) printed false fuel 4
        (countOn fuel key)
  | line (printed fuel key value) :
      ListPhase frame (printed ++ [key]) printed false fuel 3
        (lineOn fuel key value)
  | close (printed fuel key) :
      ListPhase frame printed printed true fuel 1
        (afterLoop (some key))
  | done (printed fuel) :
      ListPhase frame printed printed true fuel 0
        (.ret (.inl true))

theorem ListPhase.next
    {frame : StackFrame}
    (printed : List (BitVec 32))
    (fuel : ℕ)
    (key : BitVec 32) :
    ListPhase frame (printed ++ [key]) (printed ++ [key])
      false fuel 2
      (fetchOn fuel (some key) key :
        ToolProg nrCpus ListResult) := by
  have hFetch :
      ListPhase frame (printed ++ [key]) (printed ++ [key])
        false fuel 2
        (fetchOn fuel (printed ++ [key]).getLast?
          ((printed ++ [key]).getLast?.getD frame.key) :
          ToolProg nrCpus ListResult) :=
    .fetch _ _
  rwa [List.getLast?_concat] at hFetch

/- The call adds a new address, removes one, or does nothing. -/
def EditsOneKey (op : MapCall nrCpus) : Prop :=
  ∀ (fails : CallFaults) (m : Maps nrCpus),
    let keys := m.blacklist.entries.keys
    let keys' :=
      (Maps.handleFaulty fails op m).2.blacklist.entries.keys
    keys' = keys ∨
      (∃ key, key ∉ keys ∧ keys' = key :: keys) ∨
        ∃ key, keys' = keys.erase key

theorem editsOneKey_update
    (key : BitVec 32)
    (values : Slots nrCpus) :
    EditsOneKey
      (.updateElem .blacklist key values .noexist) := by
  intro fails m
  change _ = _ ∨ _
  simp only [Maps.handleFaulty, Maps.updateFaulty]
  cases fails .blacklist .update key with
  | some errno => exact Or.inl rfl
  | none =>
      rcases m.blacklist.keys_updateElem_noexist key values
        with hSame | hAdded
      · exact Or.inl hSame
      · exact Or.inr (Or.inl ⟨key, hAdded⟩)

theorem editsOneKey_delete
    (key : BitVec 32) :
    EditsOneKey
      (.deleteElem .blacklist key : MapCall nrCpus) := by
  intro fails m
  change _ = _ ∨ _
  simp only [Maps.handleFaulty, Maps.deleteFaulty]
  cases fails .blacklist .delete key with
  | some errno => exact Or.inl rfl
  | none =>
      exact Or.inr (Or.inr ⟨key,
        m.blacklist.keys_deleteElem key⟩)

/- Where a call of `blacklist_modify` is. -/
inductive AddrPhase :
    ToolProg nrCpus ListResult → Prop where
  | call
      {op : MapCall nrCpus}
      {next : op.Resp → ToolProg nrCpus ListResult}
      (hEdits : EditsOneKey op)
      (hNext :
        ∀ answer, ∃ status,
          next answer = .ret (.inr status)) :
      AddrPhase (.call (.map op) next)
  | done
      (status : ℕ) :
      AddrPhase (.ret (.inr status))

theorem addrPhase_prog
    (c : AddrCall) :
    AddrPhase
      (do
        let status ← mapProg c.prog
        return .inr status : ToolProg nrCpus ListResult) := by
  unfold AddrCall.prog blacklistModify
  cases inetPton c.ipString with
  | none => exact .done _
  | some key =>
      dsimp only
      split
      · exact .call (editsOneKey_update key _)
          fun answer => ⟨_, rfl⟩
      · split
        · exact .call (editsOneKey_delete key)
            fun answer => ⟨_, rfl⟩
        · exact .done _

/- The number of calls that were not made yet. -/
def pendingCalls
    {k : ℕ}
    (progs : Option (Fin k) → ToolProg nrCpus ListResult) : ℕ :=
  (Finset.univ.filter fun i =>
    (progs (some i)).nextCall?.isSome).card
section

variable {k : ℕ}
variable {progs : Option (Fin k) → ToolProg nrCpus ListResult}

theorem pendingCalls_update_none
    (prog : ToolProg nrCpus ListResult) :
    pendingCalls (Function.update progs none prog) =
      pendingCalls progs := by
  unfold pendingCalls
  congr 1

/- A call that is made leaves one less. -/
theorem pendingCalls_update_some
    {i : Fin k}
    {op : ToolCall nrCpus}
    {next : op.Resp → ToolProg nrCpus ListResult}
    (hProg : progs (some i) = .call op next)
    (result : ListResult) :
    pendingCalls
          (Function.update progs (some i) (.ret result)) + 1 =
      pendingCalls progs := by
  have hPending :
      i ∈ Finset.univ.filter fun j =>
        (progs (some j)).nextCall?.isSome := by
    rw [Finset.mem_filter, hProg]
    exact ⟨Finset.mem_univ i, rfl⟩
  have hErase :
      (Finset.univ.filter fun j =>
          (Function.update progs (some i) (.ret result)
            (some j)).nextCall?.isSome) =
        (Finset.univ.filter fun j =>
          (progs (some j)).nextCall?.isSome).erase i := by
    ext j
    rw [Finset.mem_filter, Finset.mem_erase, Finset.mem_filter]
    by_cases hSame : j = i
    · subst hSame
      rw [Function.update_self]
      simp [CallProg.nextCall?]
    · have hNe : some j ≠ some i :=
        fun hEq => hSame (Option.some.inj hEq)
      rw [Function.update_of_ne hNe]
      simp only [ne_eq, hSame, not_false_eq_true, true_and]
  unfold pendingCalls
  rw [hErase, Finset.card_erase_add_one hPending]

theorem pendingCalls_le
    (progs : Option (Fin k) → ToolProg nrCpus ListResult) :
    pendingCalls progs ≤ k := by
  have hCard := Finset.card_filter_le
    (Finset.univ : Finset (Fin k))
    (fun i => (progs (some i)).nextCall?.isSome)
  rwa [Finset.card_fin] at hCard

end

------------------------------------------------------------
-- Every Interleaving
------------------------------------------------------------

section

variable {k : ℕ}

/- What holds of the listing and the calls at all times. -/
structure ListInv
    (bucketOf : BitVec 32 → ℕ)
    (frame : StackFrame)
    (pool :
      Pool (ToolCall nrCpus) ToolCall.Resp ListResult
        (ListState nrCpus) (Option (Fin k)))
    (fuel offset : ℕ)
    (printed : List (BitVec 32)) : Prop where
  phase :
    ListPhase frame pool.shared.fetched printed
      pool.shared.ended fuel offset (pool.progs none)
  others : ∀ i, AddrPhase (pool.progs (some i))
  names : Names pool.shared.tool.stdout printed
  enough :
    fetchesLeft bucketOf pool.shared.walk
      (pendingCalls pool.progs) < fuel

/- The calls that the listing makes, at most. -/
def listRank
    (bucketOf : BitVec 32 → ℕ)
    (pool :
      Pool (ToolCall nrCpus) ToolCall.Resp ListResult
        (ListState nrCpus) (Option (Fin k)))
    (offset : ℕ) : ℕ :=
  4 * fetchesLeft bucketOf pool.shared.walk
      (pendingCalls pool.progs) +
    offset

/- The invariant is kept, and a rank is not exceeded. -/
def Advances
    (bucketOf : BitVec 32 → ℕ)
    (frame : StackFrame)
    (pool pool' :
      Pool (ToolCall nrCpus) ToolCall.Resp ListResult
        (ListState nrCpus) (Option (Fin k)))
    (rank : ℕ) : Prop :=
  ∃ fuel offset printed,
    ListInv bucketOf frame pool' fuel offset printed ∧
      listRank bucketOf pool' offset ≤ rank ∧
        Moves bucketOf pool.shared pool'.shared

variable {bucketOf : BitVec 32 → ℕ}
variable {fails : ToolFaults}
variable {frame : StackFrame}
variable
  {pool :
    Pool (ToolCall nrCpus) ToolCall.Resp ListResult
      (ListState nrCpus) (Option (Fin k))}
variable {fuel offset fuel' offset' : ℕ}
variable {printed printed' : List (BitVec 32)}

/- The others do not notice what the listing does. -/
theorem ListInv.of_own
    (hInv : ListInv bucketOf frame pool fuel offset printed)
    {prog : ToolProg nrCpus ListResult}
    {s : ListState nrCpus}
    (hPhase :
      ListPhase frame s.fetched printed' s.ended fuel' offset'
        prog)
    (hNames : Names s.tool.stdout printed')
    (hEnough :
      fetchesLeft bucketOf s.walk (pendingCalls pool.progs) <
        fuel') :
    ListInv bucketOf frame
      ⟨Function.update pool.progs none prog, s⟩ fuel' offset'
      printed' where
  phase := by
    dsimp only
    rw [Function.update_self]
    exact hPhase
  others := by
    intro i
    dsimp only
    rw [Function.update_of_ne (Option.some_ne_none i)]
    exact hInv.others i
  names := hNames
  enough := by
    rw [pendingCalls_update_none]
    exact hEnough

theorem listRank_update_none
    (prog : ToolProg nrCpus ListResult)
    (s : ListState nrCpus)
    (offset : ℕ) :
    listRank bucketOf
        ⟨Function.update pool.progs none prog, s⟩ offset =
      4 * fetchesLeft bucketOf s.walk
          (pendingCalls pool.progs) +
        offset := by
  rw [listRank, pendingCalls_update_none]

/- A key that is fetched is one less that is to come. -/
theorem fetchesLeft_fetch
    {w : Walk (BitVec 32)}
    {key : BitVec 32}
    {rest : List (BitVec 32)}
    (hNodup : w.keys.Nodup)
    (hRunning : w.ended = false)
    (hCome : w.toCome bucketOf = key :: rest)
    (pending : ℕ) :
    fetchesLeft bucketOf w pending =
      fetchesLeft bucketOf
          { w with fetched := w.fetched ++ [key] } pending +
        1 := by
  have hRunning' :
      ({ w with fetched := w.fetched ++ [key] } :
        Walk (BitVec 32)).ended = false := hRunning
  rw [fetchesLeft_of_running hRunning,
    fetchesLeft_of_running hRunning', hCome,
    Walk.toCome_fetch hNodup hCome, List.length_cons,
    Nat.add_assoc]

/- The listing is given the next key, or its loop ends. -/
theorem ListInv.fetch
    (hInv : ListInv bucketOf frame pool fuel 2 printed)
    (hFetched : pool.shared.fetched = printed)
    (hEnded : pool.shared.ended = false)
    (hProg :
      pool.progs none =
        fetchOn fuel printed.getLast?
          (printed.getLast?.getD frame.key)) :
    Advances bucketOf frame pool
      ((listSystem nrCpus k bucketOf fails).step pool none).2
      (listRank bucketOf pool 2 - 1) := by
  have hNodup : pool.shared.walk.keys.Nodup :=
    pool.shared.tool.maps.blacklist.entries.keys_nodup
  obtain ⟨fuel, rfl⟩ :=
    Nat.exists_eq_succ_of_ne_zero
      (Nat.ne_of_gt (Nat.lt_of_le_of_lt (Nat.zero_le _)
        hInv.enough))
  rw [Nat.succ_eq_add_one, fetchOn_succ] at hProg
  have hAnswer :
      nextInOrder bucketOf
          pool.shared.tool.maps.blacklist.entries.keys
          printed.getLast? =
        (pool.shared.walk.toCome bucketOf).head? := by
    rw [← hFetched]
    exact nextInOrder_eq_head?_toCome bucketOf pool.shared.walk
  have hStep :=
    congrArg Prod.snd
      (Pool.step_call (handleList bucketOf fails) hProg)
  change ((listSystem nrCpus k bucketOf fails).step pool
    none).2 = _ at hStep
  simp only [handleList, hAnswer] at hStep
  rw [hStep]
  have hEnough := hInv.enough
  cases hCome : pool.shared.walk.toCome bucketOf with
  | nil =>
      have hZero :
          fetchesLeft bucketOf
              ({ pool.shared with ended := true } :
                ListState nrCpus).walk
              (pendingCalls pool.progs) = 0 :=
        fetchesLeft_of_ended rfl _
      refine ⟨fuel + 1, 1, printed,
        hInv.of_own ?_ hInv.names ?_, ?_, ?_⟩
      · rw [← hFetched]
        exact .close _ _ _
      · exact hZero ▸ Nat.succ_pos fuel
      · rw [listRank_update_none]
        change 4 * fetchesLeft bucketOf
          ({ pool.shared with ended := true } :
            ListState nrCpus).walk _ + 1 ≤ _
        rw [hZero, listRank]
        omega
      · exact Or.inr
          (Walk.Step.finish hEnded (by rw [hCome]; rfl))
  | cons key rest =>
      have hLess :=
        fetchesLeft_fetch hNodup hEnded hCome
          (pendingCalls pool.progs)
      rw [hLess] at hEnough
      refine ⟨fuel, 5, printed,
        hInv.of_own ?_ hInv.names ?_, ?_, ?_⟩
      · rw [← hFetched]
        dsimp only [ListState.note]
        rw [hEnded]
        exact .comma _ _ _
      · exact Nat.lt_of_succ_lt_succ hEnough
      · rw [listRank_update_none, listRank, hLess,
          Nat.mul_add]
        exact Nat.le_refl _
      · exact Or.inr
          (Walk.Step.fetch hEnded (by rw [hCome]; rfl))

/- A call of the listing that leaves the keys alone. -/
theorem ListInv.quiet
    (hInv : ListInv bucketOf frame pool fuel offset printed)
    {op : ToolCall nrCpus}
    {next : op.Resp → ToolProg nrCpus ListResult}
    (hProg : pool.progs none = .call op next)
    (hWalk :
      (handleList bucketOf fails op pool.shared).2.walk =
        pool.shared.walk)
    {fetched : List (BitVec 32)}
    {ended : Bool}
    (hFetched : pool.shared.fetched = fetched)
    (hEnded : pool.shared.ended = ended)
    (hPhase :
      ListPhase frame fetched printed' ended fuel offset'
        (next (handleList bucketOf fails op pool.shared).1))
    (hNames :
      Names
        (handleList bucketOf fails op pool.shared).2.tool.stdout
        printed')
    (hLess : offset' + 1 ≤ offset) :
    Advances bucketOf frame pool
      ((listSystem nrCpus k bucketOf fails).step pool none).2
      (listRank bucketOf pool offset - 1) := by
  have hStep :=
    congrArg Prod.snd
      (Pool.step_call (handleList bucketOf fails) hProg)
  change ((listSystem nrCpus k bucketOf fails).step pool
    none).2 = _ at hStep
  have hFetched' :
      (handleList bucketOf fails op pool.shared).2.fetched =
        fetched :=
    (congrArg Walk.fetched hWalk).trans hFetched
  have hEnded' :
      (handleList bucketOf fails op pool.shared).2.ended =
        ended :=
    (congrArg Walk.ended hWalk).trans hEnded
  rw [hStep]
  refine ⟨fuel, offset', printed', hInv.of_own ?_ hNames ?_,
    ?_, Or.inl hWalk⟩
  · rw [hFetched', hEnded']
    exact hPhase
  · rw [hWalk]
    exact hInv.enough
  · rw [listRank_update_none, hWalk, listRank]
    omega

/- A step of the listing. -/
theorem ListInv.step_own
    (hInv : ListInv bucketOf frame pool fuel offset printed) :
    Advances bucketOf frame pool
      ((listSystem nrCpus k bucketOf fails).step pool none).2
      (listRank bucketOf pool offset - 1) := by
  have hPhase := hInv.phase
  generalize hProg : pool.progs none = prog at hPhase
  generalize hFetched : pool.shared.fetched = fetched
    at hPhase
  generalize hEnded : pool.shared.ended = ended at hPhase
  cases hPhase with
  | fetch => exact hInv.fetch hFetched hEnded hProg
  | comma _ _ key =>
      exact hInv.quiet hProg rfl hFetched hEnded
        (.count _ _ _) (hInv.names.comma key) (Nat.le_refl 5)
  | count _ _ key =>
      rw [countOn_eq] at hProg
      exact hInv.quiet hProg rfl hFetched hEnded
        (.line _ _ _ _) hInv.names (Nat.le_refl 4)
  | line _ _ key value =>
      exact hInv.quiet hProg rfl hFetched hEnded
        (.next _ _ _) (hInv.names.line key value)
        (Nat.le_refl 3)
  | close _ _ key =>
      exact hInv.quiet hProg rfl hFetched hEnded (.done _ _)
        (hInv.names.comma key) (Nat.le_refl 1)
  | done =>
      have hStep :=
        congrArg Prod.snd
          (Pool.step_ret (handleList bucketOf fails) hProg)
      change ((listSystem nrCpus k bucketOf fails).step pool
        none).2 = pool at hStep
      rw [hStep]
      have hWalk : pool.shared.walk.ended = true := hEnded
      refine ⟨fuel, 0, printed, hInv, ?_, Or.inl rfl⟩
      rw [listRank, fetchesLeft_of_ended hWalk]

/- An address that comes or goes is a step of the walk. -/
theorem moves_of_editsOneKey
    {op : MapCall nrCpus}
    (hEdits : EditsOneKey op)
    (s : ListState nrCpus) :
    Moves bucketOf s
      (handleList bucketOf fails (.map op) s).2 := by
  have hWalk (keys : List (BitVec 32))
      (hKeys :
        (Maps.handleFaulty fails.calls op
          s.tool.maps).2.blacklist.entries.keys = keys) :
      (handleList bucketOf fails (.map op) s).2.walk =
        { s.walk with keys := keys } := by
    rw [← hKeys]
    rfl
  rcases hEdits fails.calls s.tool.maps with
    hSame | ⟨key, hNew, hAdded⟩ | ⟨key, hGone⟩
  · exact Or.inl (hWalk _ hSame)
  · right
    rw [hWalk _ hAdded]
    exact Walk.Step.add key hNew
  · right
    rw [hWalk _ hGone]
    exact Walk.Step.remove key

/- A step of another process. -/
theorem ListInv.step_other
    (hInv : ListInv bucketOf frame pool fuel offset printed)
    (i : Fin k) :
    Advances bucketOf frame pool
      ((listSystem nrCpus k bucketOf fails).step pool
        (some i)).2
      (listRank bucketOf pool offset) := by
  have hPhase := hInv.others i
  generalize hProg : pool.progs (some i) = prog at hPhase
  cases hPhase with
  | done status =>
      have hStep :=
        congrArg Prod.snd
          (Pool.step_ret (handleList bucketOf fails) hProg)
      change ((listSystem nrCpus k bucketOf fails).step pool
        (some i)).2 = pool at hStep
      rw [hStep]
      exact ⟨fuel, offset, printed, hInv, Nat.le_refl _,
        Or.inl rfl⟩
  | @call op next hEdits hNext =>
      have hStep :=
        congrArg Prod.snd
          (Pool.step_call (handleList bucketOf fails) hProg)
      change ((listSystem nrCpus k bucketOf fails).step pool
        (some i)).2 = _ at hStep
      rw [hStep]
      rcases hNext (handleList bucketOf fails (.map op)
        pool.shared).1 with ⟨status, hEnds⟩
      rw [hEnds]
      have hLeft :=
        fetchesLeft_of_call bucketOf pool.shared
          (handleList bucketOf fails (.map op) pool.shared).2
          rfl
          (pendingCalls
            (Function.update pool.progs (some i)
              (.ret (.inr status))))
      rw [pendingCalls_update_some hProg (.inr status)] at hLeft
      refine ⟨fuel, offset, printed,
        ⟨?_, ?_, hInv.names,
          Nat.lt_of_le_of_lt hLeft hInv.enough⟩,
        Nat.add_le_add_right (Nat.mul_le_mul_left 4 hLeft)
          offset,
        moves_of_editsOneKey hEdits pool.shared⟩
      · dsimp only
        rw [Function.update_of_ne (Option.some_ne_none i).symm]
        exact hInv.phase
      · intro j
        dsimp only
        by_cases hSame : j = i
        · rw [hSame, Function.update_self]
          exact .done status
        · rw [Function.update_of_ne
            (fun hEq => hSame (Option.some.inj hEq))]
          exact hInv.others j

/- The listing has returned when its rank is zero. -/
theorem ListInv.returned
    (hInv : ListInv bucketOf frame pool fuel offset printed)
    (hRank : listRank bucketOf pool offset ≤ 0) :
    pool.progs none = .ret (.inl true) := by
  have hOffset : offset = 0 := by
    rw [listRank] at hRank
    omega
  have hPhase := hInv.phase
  rw [hOffset] at hPhase
  generalize pool.progs none = prog at hPhase ⊢
  generalize pool.shared.fetched = fetched at hPhase
  generalize pool.shared.ended = ended at hPhase
  cases hPhase with
  | done => rfl

/- When it has returned, it has printed what it fetched. -/
theorem ListInv.of_ret
    (hInv : ListInv bucketOf frame pool fuel offset printed)
    {ended : Bool}
    (hProg : pool.progs none = .ret (.inl ended)) :
    ended = true ∧ pool.shared.ended = true ∧
      printed = pool.shared.fetched := by
  have hPhase := hInv.phase
  have hEnough := hInv.enough
  generalize pool.progs none = prog at hPhase hProg
  generalize pool.shared.fetched = fetched at hPhase ⊢
  generalize pool.shared.ended = ended' at hPhase ⊢
  cases hPhase with
  | fetch =>
      obtain ⟨fuel, rfl⟩ :=
        Nat.exists_eq_succ_of_ne_zero
          (Nat.ne_of_gt (Nat.lt_of_le_of_lt (Nat.zero_le _)
            hEnough))
      rw [Nat.succ_eq_add_one, fetchOn_succ] at hProg
      cases hProg
  | comma => cases hProg
  | count =>
      rw [countOn_eq] at hProg
      cases hProg
  | line => cases hProg
  | close => cases hProg
  | done =>
      cases hProg
      exact ⟨rfl, rfl, rfl⟩

/- The invariant at the start. -/
theorem listInv_listPool
    (bucketOf : BitVec 32 → ℕ)
    (frame : StackFrame)
    (calls : Fin k → AddrCall)
    (m : Maps nrCpus)
    (hFuel : (k + 1) * (NR_ADDRS + 1) ≤ fuel) :
    ListInv bucketOf frame (listPool fuel frame calls m) fuel 2
        [] ∧
      listRank bucketOf (listPool fuel frame calls m) 2 ≤
        4 * ((k + 1) * (NR_ADDRS + 1)) := by
  have hLeft :
      fetchesLeft bucketOf
          (listPool fuel frame calls m).shared.walk
          (pendingCalls (listPool fuel frame calls m).progs) <
        (k + 1) * (NR_ADDRS + 1) := by
    have hBound :=
      fetchesLeft_le bucketOf
        (listPool fuel frame calls m).shared
        (pendingCalls (listPool fuel frame calls m).progs)
    have hPending :=
      Nat.mul_le_mul_right (NR_ADDRS + 1)
        (pendingCalls_le (listPool fuel frame calls m).progs)
    rw [Nat.succ_mul]
    omega
  have hProg :
      (listPool fuel frame calls m).progs none =
        fetchOn fuel none frame.key := by
    simp only [listPool, fetchOn, blacklistListAllIpv4,
      CallProg.bind_assoc]
    congr 1
    funext key
    cases key with
    | none => rfl
    | some key => rfl
  refine ⟨⟨?_, ?_, Names.nil,
    Nat.lt_of_lt_of_le hLeft hFuel⟩, ?_⟩
  · rw [hProg]
    exact .fetch [] fuel
  · intro i
    exact addrPhase_prog (calls i)
  · rw [listRank]
    omega

/- Whoever takes the step. -/
theorem ListInv.step
    (hInv : ListInv bucketOf frame pool fuel offset printed)
    (fails : ToolFaults)
    (j : Option (Fin k)) :
    Advances bucketOf frame pool
      ((listSystem nrCpus k bucketOf fails).step pool j).2
      (if j = none then listRank bucketOf pool offset - 1
        else listRank bucketOf pool offset) := by
  cases j with
  | none =>
      rw [if_pos rfl]
      exact hInv.step_own
  | some i =>
      rw [if_neg (Option.some_ne_none i)]
      exact hInv.step_other i

/- A key that stays is covered after a step, too. -/
theorem Moves.covers
    {s s' : ListState nrCpus}
    {key : BitVec 32}
    (hMoves : Moves bucketOf s s')
    (hStays :
      s.ended = false → s.tool.maps.blacklist.Contains key)
    (hStays' :
      s'.ended = false → s'.tool.maps.blacklist.Contains key)
    (hCovers : s.walk.Covers bucketOf key) :
    s'.walk.Covers bucketOf key := by
  rcases hMoves with hSame | hStep
  · rwa [hSame]
  · exact hStep.covers
      s.tool.maps.blacklist.entries.keys_nodup
      (fun hRunning =>
        (s.contains_iff_mem_walk key).mp (hStays hRunning))
      (fun hRunning =>
        (s'.contains_iff_mem_walk key).mp (hStays' hRunning))
      hCovers

/- Nor does a step fetch it again, if the cursor stays. -/
theorem Moves.fetchedOnce
    {s s' : ListState nrCpus}
    {key : BitVec 32}
    (hMoves : Moves bucketOf s s')
    (hStays :
      s.ended = false → s.tool.maps.blacklist.Contains key)
    (hStays' :
      s'.ended = false → s'.tool.maps.blacklist.Contains key)
    (hLast :
      s.ended = false → ∀ last ∈ s.fetched.getLast?,
        s.tool.maps.blacklist.Contains last)
    (hLast' :
      s'.ended = false → ∀ last ∈ s'.fetched.getLast?,
        s'.tool.maps.blacklist.Contains last)
    (hOnce : s.walk.FetchedOnce bucketOf key) :
    s'.walk.FetchedOnce bucketOf key := by
  rcases hMoves with hSame | hStep
  · rwa [hSame]
  · exact hStep.fetchedOnce
      s.tool.maps.blacklist.entries.keys_nodup
      (fun hRunning =>
        (s.contains_iff_mem_walk key).mp (hStays hRunning))
      (fun hRunning =>
        (s'.contains_iff_mem_walk key).mp (hStays' hRunning))
      (fun hRunning last hMem =>
        (s.contains_iff_mem_walk last).mp
          (hLast hRunning last hMem))
      (fun hRunning last hMem =>
        (s'.contains_iff_mem_walk last).mp
          (hLast' hRunning last hMem))
      hOnce

/- The listing, in progress, within a rank. -/
def Listing
    (bucketOf : BitVec 32 → ℕ)
    (frame : StackFrame)
    (pool :
      Pool (ToolCall nrCpus) ToolCall.Resp ListResult
        (ListState nrCpus) (Option (Fin k)))
    (rank : ℕ) : Prop :=
  ∃ fuel offset printed,
    ListInv bucketOf frame pool fuel offset printed ∧
      listRank bucketOf pool offset ≤ rank

theorem Listing.step
    {rank : ℕ}
    (hListing : Listing bucketOf frame pool rank)
    (fails : ToolFaults)
    (j : Option (Fin k)) :
    Moves bucketOf pool.shared
        ((listSystem nrCpus k bucketOf fails).step pool
          j).2.shared ∧
      Listing bucketOf frame
        ((listSystem nrCpus k bucketOf fails).step pool j).2
        (if j = none then rank - 1 else rank) := by
  rcases hListing with ⟨fuel, offset, printed, hInv, hRank⟩
  rcases hInv.step fails j with
    ⟨fuel', offset', printed', hInv', hRank', hMoves⟩
  refine ⟨hMoves, fuel', offset', printed', hInv',
    Nat.le_trans hRank' ?_⟩
  split
  · exact Nat.sub_le_sub_right hRank 1
  · exact hRank

end

section

variable {k : ℕ}
variable (bucketOf : BitVec 32 → ℕ)
variable (fails : ToolFaults)
variable (frame : StackFrame)
variable (calls : Fin k → AddrCall)
variable (m : Maps nrCpus)
variable {fuel : ℕ}
variable (schedule : List (Option (Fin k)))

/- After a run the listing is in progress, or has returned. -/
theorem listing_final
    (hFuel : (k + 1) * (NR_ADDRS + 1) ≤ fuel) :
    ∃ rank,
      rank ≤
          4 * ((k + 1) * (NR_ADDRS + 1)) -
            schedule.count none ∧
        Listing bucketOf frame
          ((listSystem nrCpus k bucketOf fails).final
            (listPool fuel frame calls m) schedule) rank := by
  rcases listInv_listPool bucketOf frame calls m hFuel with
    ⟨hInit, hRank⟩
  exact Reactive.final_ranked _ none (Listing bucketOf frame)
    (fun pool j rank hListing =>
      ⟨_, Nat.le_refl _, (hListing.step fails j).2⟩)
    ⟨fuel, 2, [], hInit, hRank⟩ schedule

/- An address that stays was fetched or is still to come. -/
theorem covers_final
    (hFuel : (k + 1) * (NR_ADDRS + 1) ≤ fuel)
    (key : BitVec 32)
    (hStays :
      (listSystem nrCpus k bucketOf fails).Always (Stays key)
        (listPool fuel frame calls m) schedule) :
    ((listSystem nrCpus k bucketOf fails).final
      (listPool fuel frame calls m)
      schedule).shared.walk.Covers bucketOf key := by
  rcases listInv_listPool bucketOf frame calls m hFuel with
    ⟨hInit, hRank⟩
  have hBoth :=
    (listSystem nrCpus k bucketOf fails).final_of_always
      (Stays key)
      (fun pool =>
        (∃ rank, Listing bucketOf frame pool rank) ∧
          pool.shared.walk.Covers bucketOf key)
      ?_ hStays ⟨⟨_, fuel, 2, [], hInit, hRank⟩, ?_⟩
  · exact hBoth.2
  · rintro pool j hHere hThere ⟨⟨rank, hListing⟩, hCovers⟩
    rcases hListing.step fails j with ⟨hMoves, hListing'⟩
    exact ⟨⟨_, hListing'⟩,
      hMoves.covers hHere hThere hCovers⟩
  · have hIn := hStays.init rfl
    exact Walk.covers_start
      (((listPool fuel frame calls
        m).shared.contains_iff_mem_walk key).mp hIn)

/- It was fetched once, if the cursor stays, too. -/
theorem fetchedOnce_final
    (hFuel : (k + 1) * (NR_ADDRS + 1) ≤ fuel)
    (key : BitVec 32)
    (hStays :
      (listSystem nrCpus k bucketOf fails).Always (Stays key)
        (listPool fuel frame calls m) schedule)
    (hCursor :
      (listSystem nrCpus k bucketOf fails).Always CursorStays
        (listPool fuel frame calls m) schedule) :
    ((listSystem nrCpus k bucketOf fails).final
      (listPool fuel frame calls m)
      schedule).shared.walk.FetchedOnce bucketOf key := by
  rcases listInv_listPool bucketOf frame calls m hFuel with
    ⟨hInit, hRank⟩
  have hBoth :=
    (listSystem nrCpus k bucketOf fails).final_of_always _
      (fun pool =>
        (∃ rank, Listing bucketOf frame pool rank) ∧
          pool.shared.walk.FetchedOnce bucketOf key)
      ?_ (hStays.and hCursor)
      ⟨⟨_, fuel, 2, [], hInit, hRank⟩, ?_⟩
  · exact hBoth.2
  · rintro pool j ⟨hHere, hLast⟩ ⟨hThere, hLast'⟩
      ⟨⟨rank, hListing⟩, hOnce⟩
    rcases hListing.step fails j with ⟨hMoves, hListing'⟩
    exact ⟨⟨_, hListing'⟩, hMoves.fetchedOnce hHere hThere
      hLast hLast' hOnce⟩
  · exact Walk.fetchedOnce_start _

/-
  Whatever the others do and whenever they do it, the
  listing ends, and an address that stays is printed.  It is
  printed once if the key that was fetched last is never
  gone before the next one is fetched.
-/
theorem listing_of_concurrent_edits
    (hFuel : (k + 1) * (NR_ADDRS + 1) ≤ fuel) :
    (4 * ((k + 1) * (NR_ADDRS + 1)) ≤ schedule.count none →
        ((listSystem nrCpus k bucketOf fails).final
          (listPool fuel frame calls m) schedule).progs none =
          .ret (.inl true)) ∧
      ∀ ended,
        ((listSystem nrCpus k bucketOf fails).final
          (listPool fuel frame calls m) schedule).progs none =
            .ret (.inl ended) →
          ended = true ∧
            ∀ key,
              (listSystem nrCpus k bucketOf fails).Always
                  (Stays key) (listPool fuel frame calls m)
                  schedule →
                1 ≤ timesPrinted
                    ((listSystem nrCpus k bucketOf fails).final
                      (listPool fuel frame calls m)
                      schedule).shared.tool.stdout key ∧
                  ((listSystem nrCpus k bucketOf fails).Always
                      CursorStays
                      (listPool fuel frame calls m)
                      schedule →
                    timesPrinted
                        ((listSystem nrCpus k bucketOf
                          fails).final
                          (listPool fuel frame calls m)
                          schedule).shared.tool.stdout key =
                      1) := by
  have hCovers (key : BitVec 32) :=
    covers_final bucketOf fails frame calls m schedule hFuel
      key
  have hOnce (key : BitVec 32) :=
    fetchedOnce_final bucketOf fails frame calls m schedule
      hFuel key
  rcases listing_final bucketOf fails frame calls m schedule
    hFuel with ⟨rank, hRank, fuel', offset, printed, hInv, hLe⟩
  generalize (listSystem nrCpus k bucketOf fails).final
    (listPool fuel frame calls m) schedule = pool
    at hCovers hOnce hInv hLe ⊢
  constructor
  · intro hCount
    exact hInv.returned (by omega)
  · intro ended hProg
    rcases hInv.of_ret hProg with ⟨rfl, hEnded, rfl⟩
    refine ⟨rfl, fun key hStays => ?_⟩
    rw [hInv.names.timesPrinted_eq]
    have hFetched := (hCovers key hStays).of_ended hEnded
    exact ⟨List.count_pos_iff.mpr hFetched, fun hCursor =>
      (hOnce key hStays hCursor).count_eq hFetched⟩

end

/- Nothing is fetched between the edit and the other end. -/
def beforeCursor : List (Option (Fin 1)) :=
  List.replicate 4 none ++
    some ⟨0, Nat.one_pos⟩ :: List.replicate 2 none

/- An address that is not the cursor is deleted. -/
theorem deleted_other_listed_once :
    timesPrinted
        ((listSystem 1 1 (fun _ => 0) .none).final
          (listPool (2 * (NR_ADDRS + 1)) emptyFrame
            deleteSecond twoListed)
          beforeCursor).shared.tool.stdout 0x0100000a = 1 :=
  (((listing_of_concurrent_edits (fun _ => 0) .none emptyFrame
    deleteSecond twoListed beforeCursor
    (Nat.le_refl (2 * (NR_ADDRS + 1)))).2 true rfl).2
      0x0100000a (by decide +kernel)).2 (by decide +kernel)

end Tool

end XdpDdos
