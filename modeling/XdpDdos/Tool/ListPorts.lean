import XdpDdos.Tool.ListJson

/-
  Which ports are listed when some lookups fail.

  A lookup that fails leaves the value that was read for an
  earlier port, and the loop goes on with that value.

  Main declarations:
    * `PortEntry`, `Lists`, `Lists.unique`
    * `PairBlocked`, `ReportsBlocked`
    * `LookupsFit`, `reportsBlocked_iff`
-/

------------------------------------------------------------
-- What a Text Lists
------------------------------------------------------------

namespace XdpDdos

namespace Tool

open Json

/- A port, with the protocols that are listed for it. -/
abbrev PortEntry :=
  BitVec 16 × List DdosFilter

/- The names of a port and of its protocols. -/
def entryNames (e : PortEntry) : List CStr :=
  Nat.toDigits 10 e.1.toNat :: e.2.map protoFilterName

/- The names in a text are those of the entries, in order. -/
def Lists
    (text : CStr)
    (entries : List PortEntry) : Prop :=
  ∃ toks, lex text = some toks ∧
    toks.filterMap tokenName = entries.flatMap entryNames

/- The pairs of a port and a protocol that are listed. -/
def pairsOf
    (entries : List PortEntry) :
    List (BitVec 16 × DdosFilter) :=
  entries.flatMap fun e => e.2.map fun i => (e.1, i)

theorem mem_pairsOf
    {entries : List PortEntry}
    {port : BitVec 16}
    {i : DdosFilter} :
    (port, i) ∈ pairsOf entries ↔
      ∃ protos, (port, protos) ∈ entries ∧ i ∈ protos := by
  simp [pairsOf]

theorem protoFilterName_inj
    {i j : DdosFilter}
    (hName : protoFilterName i = protoFilterName j) :
    i = j := by
  cases i <;> cases j <;> first | rfl | cases hName

/- The name of a port is a number, that of a protocol is not. -/
theorem protoFilterName_ne_toDigits
    (i : DdosFilter)
    (n : ℕ) :
    protoFilterName i ≠ Nat.toDigits 10 n := by
  intro hName
  have hDigits : ∀ c ∈ protoFilterName i, c.isDigit := by
    rw [hName]
    intro c hMem
    exact Nat.isDigit_of_mem_toDigits (by decide) (by decide)
      hMem
  -- both names have a letter
  have hLetter : 'P' ∈ protoFilterName i := by
    cases i with
    | tcp => decide
    | udp => decide
  exact absurd (hDigits 'P' hLetter) (by decide)

theorem toDigits_toNat_inj
    {port port' : BitVec 16}
    (hName :
      Nat.toDigits 10 port.toNat =
        Nat.toDigits 10 port'.toNat) :
    port = port' :=
  BitVec.eq_of_toNat_eq (toDigits_inj hName)

/- The protocols of a port end where the next port is named. -/
theorem protos_append_inj
    {protos protos' : List DdosFilter}
    {entries entries' : List PortEntry}
    (hNames :
      protos.map protoFilterName ++
          entries.flatMap entryNames =
        protos'.map protoFilterName ++
          entries'.flatMap entryNames) :
    protos = protos' ∧
      entries.flatMap entryNames =
        entries'.flatMap entryNames := by
  induction protos generalizing protos' with
  | nil =>
      cases protos' with
      | nil => exact ⟨rfl, hNames⟩
      | cons j protos' =>
          cases entries with
          | nil => cases hNames
          | cons e entries =>
              injection hNames with hHead _
              exact absurd hHead.symm
                (protoFilterName_ne_toDigits j _)
  | cons i protos ih =>
      cases protos' with
      | nil =>
          cases entries' with
          | nil => cases hNames
          | cons e entries' =>
              injection hNames with hHead _
              exact absurd hHead
                (protoFilterName_ne_toDigits i _)
      | cons j protos' =>
          injection hNames with hHead hTail
          rcases ih hTail with ⟨rfl, hRest⟩
          exact ⟨by rw [protoFilterName_inj hHead], hRest⟩

theorem entryNames_flatMap_inj
    {entries entries' : List PortEntry}
    (hNames :
      entries.flatMap entryNames =
        entries'.flatMap entryNames) :
    entries = entries' := by
  induction entries generalizing entries' with
  | nil =>
      cases entries' with
      | nil => rfl
      | cons e entries' => cases hNames
  | cons e entries ih =>
      cases entries' with
      | nil => cases hNames
      | cons e' entries' =>
          injection hNames with hPort hRest
          rcases protos_append_inj hRest with
            ⟨hProtos, hEntries⟩
          rw [ih hEntries,
            Prod.ext (toDigits_toNat_inj hPort) hProtos]

/- A text does not list two things. -/
theorem Lists.unique
    {text : CStr}
    {entries entries' : List PortEntry}
    (hLists : Lists text entries)
    (hLists' : Lists text entries') :
    entries = entries' := by
  rcases hLists with ⟨toks, hLex, hNames⟩
  rcases hLists' with ⟨toks', hLex', hNames'⟩
  rw [hLex] at hLex'
  cases hLex'
  exact entryNames_flatMap_inj (hNames.symm.trans hNames')

------------------------------------------------------------
-- What Is Listed
------------------------------------------------------------

section

variable {nrCpus : ℕ}
variable {m : Maps nrCpus}
variable {hCpus : 0 < nrCpus}
variable {fails : CallFaults}

/- The ports with a value, and the protocols in its low bits. -/
def listedPorts
    (m : Maps nrCpus)
    (hCpus : 0 < nrCpus)
    (fails : CallFaults)
    (value : BitVec 64)
    (ports : List (BitVec 16)) : List PortEntry :=
  (valuedPorts m hCpus fails value ports).map fun e =>
    (e.1, setProtos (e.2.setWidth 32))

theorem filterMap_separated
    (toks : List (List Token)) :
    (separated .comma toks).filterMap tokenName =
      toks.flatMap (·.filterMap tokenName) := by
  cases toks with
  | nil => rfl
  | cons first toks =>
      rw [separated, List.filterMap_append, List.flatMap_cons,
        List.filterMap_flatMap]
      rfl

/- The names in what is printed for a port. -/
theorem filterMap_countedPortToks
    (counts : DdosFilter → BitVec 64)
    (e : PortEntry) :
    (countedPortToks counts e.1 e.2).filterMap tokenName =
      entryNames e := by
  have hProto (i : DdosFilter) :
      (memberToks
        (protoFilterName i,
          .number (showU64 (counts i)))).filterMap
            tokenName =
        [protoFilterName i] := rfl
  rw [countedPortToks, entryNames]
  by_cases hNone : e.2 = []
  · rw [if_pos hNone, hNone]
    rfl
  · rw [if_neg hNone]
    simp only [List.filterMap_cons, tokenName,
      List.filterMap_append, filterMap_separated,
      List.flatMap_map, hProto, List.filterMap_nil,
      List.append_nil]
    rw [List.map_eq_flatMap]

theorem lists_valuedPorts
    (value : BitVec 64)
    (ports : List (BitVec 16)) :
    Lists
      (separated ','
        ((valuedPorts m hCpus fails value ports).map
          (valuedEntry m fails)))
      (listedPorts m hCpus fails value ports) := by
  let toks (e : BitVec 16 × BitVec 64) : List Token :=
    countedPortToks
      (fun i =>
        countRead m fails (countfds i) (e.1.setWidth 32))
      e.1 (setProtos (e.2.setWidth 32))
  have hSpells :
      Spells
        (separated ','
          ((valuedPorts m hCpus fails value ports).map
            (valuedEntry m fails)))
        (separated .comma
          ((valuedPorts m hCpus fails value ports).map
            toks)) :=
    spells_separated fun e _ => spells_countedPort _ _ _
  refine ⟨_, lex_of_spells hSpells, ?_⟩
  rw [filterMap_separated, listedPorts, List.flatMap_map,
    List.flatMap_map]
  congr 1
  funext e
  exact filterMap_countedPortToks _
    (e.1, setProtos (e.2.setWidth 32))

end

------------------------------------------------------------
-- Values That Are Left
------------------------------------------------------------

/- The lookup of the port's mask does not fail. -/
def LookedUp
    (fails : CallFaults)
    (port : BitVec 16) : Prop :=
  fails .portBlacklist .lookup (port.setWidth 32) = none

instance
    (fails : CallFaults)
    (port : BitVec 16) :
    Decidable (LookedUp fails port) :=
  inferInstanceAs (Decidable (_ = none))

/- No rule is set for the port, nor any other bit. -/
def NoMask
    {nrCpus : ℕ}
    (m : Maps nrCpus)
    (port : BitVec 16) : Prop :=
  ∀ cpu, m.portBlacklist.slots (Maps.portIndex port) cpu = 0

section

variable {nrCpus : ℕ}
variable {m : Maps nrCpus}
variable {hCpus : 0 < nrCpus}
variable {fails : CallFaults}
variable {value : BitVec 64}
variable {port : BitVec 16}
variable {ports : List (BitVec 16)}

theorem valueRead_of_lookedUp
    (hLooked : LookedUp fails port)
    (value : BitVec 64) :
    valueRead m hCpus fails value port =
      firstMask m hCpus port := by
  rw [LookedUp] at hLooked
  simp only [valueRead, hLooked]

theorem valueRead_of_not_lookedUp
    (hFails : ¬ LookedUp fails port)
    (value : BitVec 64) :
    valueRead m hCpus fails value port = value := by
  rcases Option.ne_none_iff_exists'.mp hFails with
    ⟨errno, hFault⟩
  simp only [valueRead, hFault]

theorem firstMask_eq_zero_iff
    (hAgree : MasksAgree m)
    (hCpus : 0 < nrCpus)
    (port : BitVec 16) :
    firstMask m hCpus port = 0 ↔ NoMask m port := by
  constructor
  · intro hZero cpu
    rw [hAgree port cpu ⟨0, hCpus⟩]
    exact hZero
  · intro hNone
    exact hNone ⟨0, hCpus⟩

/- Where a lookup fails, the value that is left is zero. -/
def NoneStale
    (m : Maps nrCpus)
    (hCpus : 0 < nrCpus)
    (fails : CallFaults) :
    BitVec 64 → List (BitVec 16) → Prop
  | _, [] => True
  | value, port :: ports =>
      (¬ LookedUp fails port → value = 0) ∧
        NoneStale m hCpus fails
          (valueRead m hCpus fails value port) ports

/- Then those are listed that have a mask and are looked up. -/
theorem valuedPorts_of_noneStale
    (hNone : NoneStale m hCpus fails value ports) :
    valuedPorts m hCpus fails value ports =
      (ports.filter fun port =>
        LookedUp fails port ∧ firstMask m hCpus port ≠ 0).map
          fun port => (port, firstMask m hCpus port) := by
  induction ports generalizing value with
  | nil => rfl
  | cons port ports ih =>
      rcases hNone with ⟨hHere, hRest⟩
      rw [valuedPorts, ih hRest]
      by_cases hLooked : LookedUp fails port
      · rw [valueRead_of_lookedUp hLooked]
        by_cases hMask : firstMask m hCpus port ≠ 0
        · rw [if_pos hMask, List.filter_cons_of_pos,
            List.map_cons]
          exact decide_eq_true ⟨hLooked, hMask⟩
        · rw [if_neg hMask, List.filter_cons_of_neg]
          simp only [hMask, and_false, decide_false,
            Bool.false_eq_true, not_false_eq_true]
      · rw [valueRead_of_not_lookedUp hLooked, hHere hLooked,
          if_neg (not_not_intro rfl), List.filter_cons_of_neg]
        simp only [hLooked, false_and, decide_false,
          Bool.false_eq_true, not_false_eq_true]

/- Otherwise a port is listed whose lookup failed. -/
theorem exists_stale
    (hStale : ¬ NoneStale m hCpus fails value ports) :
    ∃ e ∈ valuedPorts m hCpus fails value ports,
      ¬ LookedUp fails e.1 := by
  induction ports generalizing value with
  | nil => exact absurd trivial hStale
  | cons port ports ih =>
      rw [NoneStale, Classical.not_and_iff_not_or_not] at hStale
      rw [valuedPorts]
      rcases hStale with hHere | hRest
      · rw [Classical.not_imp] at hHere
        rw [valueRead_of_not_lookedUp hHere.1,
          if_pos hHere.2]
        exact ⟨(port, value), List.mem_cons_self, hHere.1⟩
      · rcases ih hRest with ⟨e, hMem, hFails⟩
        refine ⟨e, ?_, hFails⟩
        split
        · exact List.mem_cons_of_mem _ hMem
        · exact hMem

/- A value is left by the first port or by the one before. -/
theorem noneStale_cons_iff :
    NoneStale m hCpus fails value (port :: ports) ↔
      (¬ LookedUp fails port → value = 0) ∧
        List.IsChain
          (fun p q =>
            LookedUp fails p → ¬ LookedUp fails q →
              firstMask m hCpus p = 0)
          (port :: ports) := by
  induction ports generalizing port value with
  | nil => simp only [NoneStale, List.IsChain.singleton]
  | cons next ports ih =>
      rw [NoneStale, ih, List.isChain_cons_cons]
      refine and_congr_right fun hHere =>
        and_congr_left fun _ => ?_
      by_cases hLooked : LookedUp fails port
      · rw [valueRead_of_lookedUp hLooked]
        simp only [hLooked, true_implies]
      · rw [valueRead_of_not_lookedUp hLooked, hHere hLooked]
        simp only [hLooked, false_implies, implies_true]

end

------------------------------------------------------------
-- Reporting the Blocked Pairs
------------------------------------------------------------

section

variable {nrCpus : ℕ}

/- The mask of the port is looked up and has the bit. -/
structure PairBlocked
    (m : Maps nrCpus)
    (fails : CallFaults)
    (port : BitVec 16)
    (i : DdosFilter) : Prop where
  lookedUp : LookedUp fails port
  bit : ∀ cpu, m.PortBit cpu i port

/-
  The loop ends, and what was printed names each blocked
  pair once, and no other port.
-/
structure ReportsBlocked
    (m : Maps nrCpus)
    (fails : CallFaults)
    (result : Outcome Bool × ToolState nrCpus) : Prop where
  ends : result.1 = .returned true
  listed :
    ∃ entries,
      Lists result.2.stdout entries ∧
        (∀ e ∈ entries, e.2 ≠ []) ∧
          (pairsOf entries).Nodup ∧
            ∀ port i, (port, i) ∈ pairsOf entries ↔
              PairBlocked m fails port i

/-
  The first lookup does not fail, or the stack holds a zero
  there; a port before one whose lookup fails has no mask;
  and masks have at least one of the two rule bits.
-/
structure LookupsFit
    (m : Maps nrCpus)
    (fails : CallFaults)
    (frame : StackFrame) : Prop where
  first : ¬ LookedUp fails 0 → frame.value = 0
  next :
    ∀ n, n + 1 < NR_PORTS →
      LookedUp fails (BitVec.ofNat 16 n) →
        ¬ LookedUp fails (BitVec.ofNat 16 (n + 1)) →
          NoMask m (BitVec.ofNat 16 n)
  known :
    ∀ port, LookedUp fails port → ¬ NoMask m port →
      ∃ i, ∀ cpu, m.PortBit cpu i port

variable {m : Maps nrCpus}
variable {hCpus : 0 < nrCpus}
variable {fails : CallFaults}

theorem mem_allPorts
    (port : BitVec 16) :
    port ∈ allPorts :=
  List.mem_map.mpr ⟨port.toNat,
    List.mem_range.mpr port.isLt, BitVec.ofNat_toNat 16 port⟩

theorem nodup_allPorts : allPorts.Nodup := by
  refine List.nodup_range.map_on ?_
  intro n hN n' hN' hEq
  have hPorts : NR_PORTS = 2 ^ 16 := rfl
  rw [List.mem_range, hPorts] at hN hN'
  have hValue := congrArg BitVec.toNat hEq
  rwa [BitVec.toNat_ofNat, BitVec.toNat_ofNat,
    Nat.mod_eq_of_lt hN, Nat.mod_eq_of_lt hN'] at hValue

theorem mem_blockedProtos
    {port : BitVec 16}
    {i : DdosFilter} :
    i ∈ blockedProtos m port ↔
      ∀ cpu, m.PortBit cpu i port := by
  rw [blockedProtos, List.mem_filter, decide_eq_true_eq]
  refine and_iff_right ?_
  cases i with
  | tcp => exact List.mem_cons_self
  | udp => exact List.mem_cons_of_mem _ List.mem_cons_self

/- The conditions on the lookups, one port after the other. -/
theorem noneStale_allPorts_iff
    (hAgree : MasksAgree m)
    (value : BitVec 64) :
    NoneStale m hCpus fails value allPorts ↔
      (¬ LookedUp fails 0 → value = 0) ∧
        ∀ n, n + 1 < NR_PORTS →
          LookedUp fails (BitVec.ofNat 16 n) →
            ¬ LookedUp fails (BitVec.ofNat 16 (n + 1)) →
              NoMask m (BitVec.ofNat 16 n) := by
  have hPorts : NR_PORTS = 65535 + 1 := rfl
  have hChain :
      List.IsChain
          (fun p q =>
            LookedUp fails p → ¬ LookedUp fails q →
              firstMask m hCpus p = 0) allPorts ↔
        ∀ n, n + 1 < NR_PORTS →
          LookedUp fails (BitVec.ofNat 16 n) →
            ¬ LookedUp fails (BitVec.ofNat 16 (n + 1)) →
              NoMask m (BitVec.ofNat 16 n) := by
    rw [allPorts, List.isChain_map, List.isChain_range]
    simp only [firstMask_eq_zero_iff hAgree,
      Nat.lt_sub_iff_add_lt, Nat.succ_eq_add_one]
  have hCons :
      allPorts =
        0 :: (List.range 65535).map
          (fun n => BitVec.ofNat 16 (n + 1)) := by
    rw [allPorts, hPorts, List.range_succ_eq_map,
      List.map_cons, List.map_map]
    rfl
  rw [← hChain, hCons, noneStale_cons_iff]

/- Ports with a mask that is looked up, and their rules. -/
theorem listedPorts_of_noneStale
    (hAgree : MasksAgree m)
    {value : BitVec 64}
    {ports : List (BitVec 16)}
    (hNone : NoneStale m hCpus fails value ports) :
    listedPorts m hCpus fails value ports =
      (ports.filter fun port =>
        LookedUp fails port ∧ firstMask m hCpus port ≠ 0).map
          fun port => (port, blockedProtos m port) := by
  rw [listedPorts, valuedPorts_of_noneStale hNone,
    List.map_map]
  congr 1
  funext port
  exact congrArg (Prod.mk port)
    (setProtos_eq_blockedProtos hAgree hCpus port)

theorem nodup_pairsOf_map
    {ports : List (BitVec 16)}
    (hNodup : ports.Nodup)
    {protos : BitVec 16 → List DdosFilter}
    (hProtos : ∀ port, (protos port).Nodup) :
    (pairsOf (ports.map fun port =>
      (port, protos port))).Nodup := by
  rw [pairsOf, List.flatMap_map, List.nodup_flatMap]
  constructor
  · intro port _
    exact (hProtos port).map fun i j hEq => (Prod.ext_iff.mp
      hEq).2
  · refine hNodup.imp ?_
    intro port port' hNe e hMem hMem'
    rcases List.mem_map.mp hMem with ⟨i, _, rfl⟩
    rcases List.mem_map.mp hMem' with ⟨j, _, hEq⟩
    exact hNe (Prod.ext_iff.mp hEq).1.symm

end

section

variable {nrCpus : ℕ}
variable {m : Maps nrCpus}
variable {frame : StackFrame}

/- The loop ends with the ports that have a value listed. -/
theorem run_lists
    (hCpus : 0 < nrCpus)
    (fails : ToolFaults)
    {fuel : ℕ}
    (hFuel : NR_PORTS < fuel)
    (hFit : nrCpus ≤ 1 + frame.spare) :
    ∃ s,
      CallProg.run (handle fails)
          (blacklistListAllPorts fuel frame .portBlacklist
            countfds) { maps := m } =
        (.returned true, s) ∧
      Lists s.stdout
        (listedPorts m hCpus fails.calls frame.value
          allPorts) := by
  have hRun :=
    run_blacklistListAllPorts fails m hCpus hFuel hFit []
  generalize allPorts = ports at hRun ⊢
  rw [List.nil_append] at hRun
  exact ⟨_, hRun, lists_valuedPorts frame.value ports⟩

variable {hCpus : 0 < nrCpus}
variable {fails : CallFaults}
variable {result : Outcome Bool × ToolState nrCpus}

/- A list of the blocked pairs has no value left in it. -/
theorem lookupsFit_of_reportsBlocked
    (hAgree : MasksAgree m)
    (hLists :
      Lists result.2.stdout
        (listedPorts m hCpus fails frame.value allPorts))
    (hReports : ReportsBlocked m fails result) :
    LookupsFit m fails frame := by
  have hAll := mem_allPorts
  have hStaleIff :
      NoneStale m hCpus fails frame.value allPorts ↔ _ :=
    noneStale_allPorts_iff hAgree frame.value
  generalize allPorts = ports at hLists hAll hStaleIff
  rcases hReports.listed with
    ⟨entries, hLists', hSome, _, hPairs⟩
  rw [hLists'.unique hLists] at hSome hPairs
  have hNone :
      NoneStale m hCpus fails frame.value ports := by
    by_contra hStale
    rcases exists_stale hStale with ⟨e, hMem, hFails⟩
    have hEntry :
        (e.1, setProtos (e.2.setWidth 32)) ∈
          listedPorts m hCpus fails frame.value ports :=
      List.mem_map.mpr ⟨e, hMem, rfl⟩
    rcases List.exists_mem_of_ne_nil _ (hSome _ hEntry) with
      ⟨i, hProto⟩
    have hBlocked :=
      (hPairs e.1 i).mp (mem_pairsOf.mpr ⟨_, hEntry, hProto⟩)
    exact hFails hBlocked.lookedUp
  rcases hStaleIff.mp hNone with ⟨hFirst, hNext⟩
  refine ⟨hFirst, hNext, ?_⟩
  intro port hLooked hMask
  rw [← firstMask_eq_zero_iff hAgree hCpus] at hMask
  have hEntry :
      (port, blockedProtos m port) ∈
        listedPorts m hCpus fails frame.value ports := by
    rw [listedPorts_of_noneStale hAgree hNone]
    exact List.mem_map.mpr ⟨port,
      List.mem_filter.mpr ⟨hAll port,
        decide_eq_true ⟨hLooked, hMask⟩⟩, rfl⟩
  rcases List.exists_mem_of_ne_nil _ (hSome _ hEntry) with
    ⟨i, hProto⟩
  exact ⟨i, mem_blockedProtos.mp hProto⟩

/- If none is left, the blocked pairs are listed. -/
theorem reportsBlocked_of_lookupsFit
    (hAgree : MasksAgree m)
    (hEnds : result.1 = .returned true)
    (hLists :
      Lists result.2.stdout
        (listedPorts m hCpus fails frame.value allPorts))
    (hFit : LookupsFit m fails frame) :
    ReportsBlocked m fails result := by
  have hAll := mem_allPorts
  have hNodup := nodup_allPorts
  have hStaleIff :
      NoneStale m hCpus fails frame.value allPorts ↔ _ :=
    noneStale_allPorts_iff hAgree frame.value
  generalize allPorts = ports at hLists hAll hNodup hStaleIff
  have hNone : NoneStale m hCpus fails frame.value ports :=
    hStaleIff.mpr ⟨hFit.first, hFit.next⟩
  rw [listedPorts_of_noneStale hAgree hNone] at hLists
  refine ⟨hEnds, _, hLists, ?_, ?_, ?_⟩
  · -- a port that is listed has a rule
    intro e hMem
    rcases List.mem_map.mp hMem with ⟨port, hPort, rfl⟩
    rcases of_decide_eq_true (List.mem_filter.mp hPort).2
      with ⟨hLooked, hMask⟩
    rw [ne_eq, firstMask_eq_zero_iff hAgree hCpus] at hMask
    rcases hFit.known port hLooked hMask with ⟨i, hBit⟩
    exact List.ne_nil_of_mem (mem_blockedProtos.mpr hBit)
  · apply nodup_pairsOf_map
      (hNodup.sublist List.filter_sublist)
    intro port
    have hProtos : [DdosFilter.tcp, DdosFilter.udp].Nodup := by
      decide
    exact hProtos.sublist List.filter_sublist
  · intro port i
    rw [mem_pairsOf]
    constructor
    · rintro ⟨protos, hMem, hProto⟩
      rcases List.mem_map.mp hMem with ⟨port', hPort, hEq⟩
      cases hEq
      rcases of_decide_eq_true (List.mem_filter.mp hPort).2
        with ⟨hLooked, _⟩
      exact ⟨hLooked, mem_blockedProtos.mp hProto⟩
    · rintro ⟨hLooked, hBit⟩
      refine ⟨_, List.mem_map.mpr ⟨port,
        List.mem_filter.mpr ⟨hAll port,
          decide_eq_true ⟨hLooked, ?_⟩⟩, rfl⟩,
        mem_blockedProtos.mpr hBit⟩
      intro hZero
      have hHere := hBit ⟨0, hCpus⟩
      rw [firstMask] at hZero
      rw [Maps.PortBit, hZero] at hHere
      exact absurd hHere (by simp)

/-
  The blocked pairs are reported exactly when no lookup that
  fails leaves a value behind, and no other bits are set.
-/
theorem reportsBlocked_iff
    (hCpus : 0 < nrCpus)
    (hAgree : MasksAgree m)
    (fails : ToolFaults)
    {fuel : ℕ}
    (hFuel : NR_PORTS < fuel)
    (hFit : nrCpus ≤ 1 + frame.spare) :
    ReportsBlocked m fails.calls
        (CallProg.run (handle fails)
          (blacklistListAllPorts fuel frame .portBlacklist
            countfds) { maps := m }) ↔
      LookupsFit m fails.calls frame := by
  rcases run_lists (m := m) hCpus fails hFuel hFit with
    ⟨s, hRun, hLists⟩
  rw [hRun]
  exact ⟨lookupsFit_of_reportsBlocked hAgree hLists,
    reportsBlocked_of_lookupsFit hAgree rfl hLists⟩

end

------------------------------------------------------------
-- A Lookup That Fails
------------------------------------------------------------

/- Only the lookup of one port fails. -/
def lookupFailsAt (port : BitVec 16) : CallFaults
  | .portBlacklist, .lookup, key =>
      if key = port.setWidth 32 then some EINVAL else none
  | _, _, _ => none

theorem lookedUp_lookupFailsAt_iff
    {port port' : BitVec 16} :
    LookedUp (lookupFailsAt port) port' ↔ port' ≠ port := by
  rw [LookedUp, lookupFailsAt]
  by_cases hEq : port' = port
  · rw [hEq, if_pos rfl]
    simp only [reduceCtorEq, ne_eq, not_true_eq_false]
  · rw [if_neg (mt port_setWidth_inj.mp hEq)]
    simp only [ne_eq, hEq, not_false_eq_true]

theorem noMask_bothBlocked_iff
    {port : BitVec 16} :
    NoMask bothBlocked port ↔ port ≠ 53 := by
  constructor
  · rintro hNone rfl
    exact absurd (hNone 0) (by decide)
  · intro hNe cpu
    have hIndex : Maps.portIndex port ≠ Maps.portIndex 53 :=
      mt Maps.portIndex_inj.mp hNe
    rw [bothBlocked]
    simp only [PercpuArray.slots_setSlots,
      Function.update_of_ne hIndex, PercpuArray.slots_fresh]

/- A failure far behind the last rule does no harm. -/
theorem bothBlocked_reported :
    ReportsBlocked bothBlocked (lookupFailsAt 80)
      (CallProg.run (handle ⟨fun _ => none, lookupFailsAt 80⟩)
        (blacklistListAllPorts (NR_PORTS + 1) emptyFrame
          .portBlacklist countfds)
        { maps := bothBlocked }) := by
  refine (reportsBlocked_iff (by decide)
    toolContents_bothBlocked.sameMask
    ⟨fun _ => none, lookupFailsAt 80⟩
    (Nat.lt_succ_self NR_PORTS) (by decide)).mpr ⟨?_, ?_, ?_⟩
  · intro _
    rfl
  · intro n hLt _ hFails
    rw [lookedUp_lookupFailsAt_iff, not_not] at hFails
    rw [noMask_bothBlocked_iff]
    rintro hPort
    rw [BitVec.ofNat_add, hPort] at hFails
    exact absurd hFails (by decide)
  · intro port _ hMask
    rw [noMask_bothBlocked_iff, not_not] at hMask
    rw [hMask]
    exact ⟨.tcp, by decide⟩

/- The rules of port 53 are shown for port 54, too. -/
theorem bothBlocked_misreported :
    ¬ ReportsBlocked bothBlocked (lookupFailsAt 54)
      (CallProg.run (handle ⟨fun _ => none, lookupFailsAt 54⟩)
        (blacklistListAllPorts (NR_PORTS + 1) emptyFrame
          .portBlacklist countfds)
        { maps := bothBlocked }) := by
  intro hReports
  have hRoom : 1 ≤ 1 + emptyFrame.spare := by
    decide
  rcases run_lists (m := bothBlocked) (by decide)
    ⟨fun _ => none, lookupFailsAt 54⟩
    (Nat.lt_succ_self NR_PORTS) hRoom with
    ⟨s, hRun, hLists⟩
  rw [hRun] at hReports
  have hFit : LookupsFit bothBlocked (lookupFailsAt 54)
      emptyFrame :=
    lookupsFit_of_reportsBlocked
      toolContents_bothBlocked.sameMask hLists hReports
  have hNone :=
    hFit.next 53 (by decide)
      (lookedUp_lookupFailsAt_iff.mpr (by decide))
      (fun hLooked =>
        lookedUp_lookupFailsAt_iff.mp hLooked rfl)
  exact noMask_bothBlocked_iff.mp hNone rfl

end Tool

end XdpDdos
