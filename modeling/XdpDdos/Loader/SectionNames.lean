import XdpDdos.Loader.LoadOutcome
import XdpDdos.Lib.CArgs

/-
  The names that select a section, and those that tell what
  to do with the program in it.

  The last pass selects sections by one table of prefixes,
  and `load_and_attach` looks up their type in another.  For
  a program array, the number behind the prefix is an index.

  Main declarations:
    * `UnknownCgroup`, `Recognised`, `Refused`
    * `StoresAt`, `storesAt_of_arrayKind`
    * `dispatch_follows_selection`
-/

------------------------------------------------------------
-- Types of Selected Sections
------------------------------------------------------------

namespace XdpDdos

/- A program for a hook of control groups that is not known. -/
def UnknownCgroup (shname : CStr) : Prop :=
  "cgroup/".toList <+: shname ∧
    ¬ "cgroup/skb".toList <+: shname ∧
      ¬ "cgroup/sock".toList <+: shname

instance (shname : CStr) : Decidable (UnknownCgroup shname) :=
  inferInstanceAs (Decidable (_ ∧ _))

/- The prefixes of the second table. -/
def typedPrefixes : List CStr :=
  ["socket".toList, "kprobe/".toList, "kretprobe/".toList,
    "tracepoint/".toList, "xdp".toList,
    "perf_event".toList, "cgroup/skb".toList,
    "cgroup/sock".toList, "sockops".toList, "sk_skb".toList]

theorem isSome_ite_some
    {α : Type}
    {c : Prop}
    [Decidable c]
    {value : α}
    {other : Option α} :
    (if c then some value else other).isSome = true ↔
      c ∨ other.isSome = true := by
  by_cases hCond : c
  · simp [hCond]
  · simp [hCond]

theorem progTypeOf_isSome_iff_exists
    {shname : CStr} :
    (progTypeOf shname).isSome = true ↔
      ∃ p ∈ typedPrefixes, p <+: shname := by
  simp only [progTypeOf, typedPrefixes, isSome_ite_some,
    List.mem_cons, List.not_mem_nil, or_false,
    exists_eq_or_imp, exists_eq_left,
    List.isPrefixOf_iff_prefix, Option.isSome_none,
    Bool.false_eq_true, or_assoc]

theorem isProgName_iff
    {shname : CStr} :
    isProgName shname = true ↔
      ∃ p ∈ progPrefixes, p <+: shname := by
  simp only [isProgName, List.any_eq_true,
    List.isPrefixOf_iff_prefix]

/- The tables differ in the names of control groups. -/
theorem mem_progPrefixes
    {p : CStr}
    (hMem : p ∈ progPrefixes) :
    p ∈ typedPrefixes ∨ p = "cgroup/".toList := by
  revert p
  decide

theorem cgroup_of_typed
    {p : CStr}
    (hMem : p ∈ typedPrefixes) :
    ¬ p <+: "cgroup/".toList ∧
      ("cgroup/".toList <+: p →
        p = "cgroup/skb".toList ∨
          p = "cgroup/sock".toList) := by
  revert p
  decide

/- Every other name that is selected has a type. -/
theorem progTypeOf_isSome_iff
    {shname : CStr}
    (hProg : isProgName shname = true) :
    (progTypeOf shname).isSome = true ↔
      ¬ UnknownCgroup shname := by
  rw [progTypeOf_isSome_iff_exists]
  constructor
  · rintro ⟨p, hTyped, hPrefix⟩ ⟨hCgroup, hSkb, hSock⟩
    have hKnown := cgroup_of_typed hTyped
    -- both are prefixes of the name
    rcases List.prefix_or_prefix_of_prefix hPrefix hCgroup
      with hShort | hLong
    · exact hKnown.1 hShort
    · rcases hKnown.2 hLong with rfl | rfl
      · exact hSkb hPrefix
      · exact hSock hPrefix
  · intro hKnown
    rcases isProgName_iff.mp hProg with ⟨p, hMem, hPrefix⟩
    rcases mem_progPrefixes hMem with hTyped | rfl
    · exact ⟨p, hTyped, hPrefix⟩
    · by_contra hNone
      refine hKnown ⟨hPrefix, ?_, ?_⟩
      · intro hSkb
        exact hNone ⟨_, by decide, hSkb⟩
      · intro hSock
        exact hNone ⟨_, by decide, hSock⟩

/- A program of some type is loaded, whatever it is. -/
def Recognised (event : CStr) : Prop :=
  ∃ progType, ∀ behind data g, ∃ next,
    loadAndAttach ⟨event, behind⟩ data g =
      .call (.loadProgram progType data.dBuf
        (insnsCount data.dSize) g.license g.kernVersion) next

/- The event is unknown: nothing is loaded. -/
def Refused (event : CStr) : Prop :=
  ∀ behind data g,
    loadAndAttach ⟨event, behind⟩ data g = .ret (-1, g)

theorem refused_of_none
    {event : CStr}
    (hType : progTypeOf event = none) :
    Refused event := by
  intro behind data g
  rw [loadAndAttach, hType]
  rfl

theorem recognised_iff
    {event : CStr} :
    Recognised event ↔ (progTypeOf event).isSome = true := by
  rw [Option.isSome_iff_exists]
  constructor
  · intro hKnown
    rcases hKnown with ⟨progType, hCall⟩
    rcases hCall [] ⟨[], 0⟩ .start with ⟨next, hEq⟩
    cases hType : progTypeOf event with
    | none =>
        rw [refused_of_none hType] at hEq
        cases hEq
    | some progType' => exact ⟨progType', rfl⟩
  · intro hSome
    rcases hSome with ⟨progType, hType⟩
    exact ⟨progType, fun _ data g =>
      ⟨_, loadAndAttach_of_type hType data g⟩⟩

------------------------------------------------------------
-- Indices of a Program Array
------------------------------------------------------------

/-
  In every run, if the program is loaded, its descriptor is
  stored at index `n` of the program array, whatever follows
  the name in the string table.
-/
def StoresAt
    (event : CStr)
    (n : ℕ) : Prop :=
  ∀ (σ : Type)
    (handler : CallProg.Handler LoadCall LoadCall.Resp σ)
    (s : σ) (behind : CStr) (data : ElfData)
    (g : LoaderGlobals) (progType : BpfProgType) (fd : ℤ),
    let calls :=
      (loadAndAttach ⟨event, behind⟩ data g).trace handler s
    g.progCnt < MAX_PROGS → 0 ≤ fd →
      ⟨.loadProgram progType data.dBuf
        (insnsCount data.dSize) g.license g.kernVersion,
        fd⟩ ∈ calls →
      ∃ err : ℤ,
        ⟨.mapUpdateElem g.progArrayFd n fd, err⟩ ∈ calls

theorem atoi_of_digits
    {digits : CStr}
    (hDigits : digits.all Char.isDigit = true)
    (hSmall : decimal digits < 2 ^ 31) :
    atoi digits = decimal digits := by
  have hWhole : digits.takeWhile Char.isDigit = digits := by
    rw [List.takeWhile_eq_self_iff]
    exact List.all_eq_true.mp hDigits
  rw [atoi, hWhole]
  change cInt (min (decimal digits) (2 ^ 63 - 1)) = _
  rw [Nat.min_eq_left (by omega), cInt_of_lt hSmall]

/- The index is read from behind the prefix and the `/`. -/
theorem attachProgArray_of_digits
    (kind : CStr)
    {digits : CStr}
    (hDigits : digits.all Char.isDigit = true)
    (hNonempty : digits ≠ [])
    (behind : CStr)
    (fd : ℤ)
    (g : LoaderGlobals) :
    attachProgArray ⟨kind ++ '/' :: digits, behind⟩
        kind.length fd g =
      populateProgArray digits fd g := by
  rcases List.exists_cons_of_ne_nil hNonempty with
    ⟨c, rest, rfl⟩
  have hFirst : c.isDigit = true :=
    List.all_eq_true.mp hDigits c List.mem_cons_self
  have hSlash :
      charAt ⟨kind ++ '/' :: c :: rest, behind⟩
          kind.length =
        .ok (some '/') := by
    rw [charAt, if_pos (by simp), List.getElem?_append_right
      (Nat.le_refl _), Nat.sub_self]
    rfl
  have hDigit :
      charAt ⟨kind ++ '/' :: c :: rest, behind⟩
          (kind.length + 1) =
        .ok (some c) := by
    rw [charAt, if_pos (by simp), List.getElem?_append_right
      (Nat.le_add_right _ 1), Nat.add_sub_cancel_left]
    rfl
  have hNumeral :
      numeralAt ⟨kind ++ '/' :: c :: rest, behind⟩
          (kind.length + 1) =
        .ok (c :: rest) := by
    rw [numeralAt, if_pos (by simp), ← List.drop_drop,
      List.drop_left, List.drop_one, List.tail_cons]
  rw [attachProgArray, hSlash, hDigit, hNumeral]
  simp only [CallProg.ofExcept_ok, CallProg.ret_bind, ne_eq,
    not_true_eq_false, if_false, Option.any_some, hFirst,
    if_true]

/- The call that stores a program is the only other one. -/
theorem trace_afterLoad_of_attach
    {event : TableStr}
    {index : CStr}
    {progType : BpfProgType}
    (hAttach :
      ∀ fd g,
        attach progType event fd g =
          populateProgArray index fd g)
    {g : LoaderGlobals}
    (hRoom : g.progCnt < MAX_PROGS)
    {fd : ℤ}
    (hFd : 0 ≤ fd)
    {σ : Type}
    (handler : CallProg.Handler LoadCall LoadCall.Resp σ)
    (s : σ) :
    (afterLoad progType event fd g).trace handler s =
      [⟨.mapUpdateElem g.progArrayFd (atoi index) fd,
        (handler (.mapUpdateElem g.progArrayFd (atoi index)
          fd) s).1⟩] := by
  rw [afterLoad, if_neg (Int.not_lt.mpr hFd),
    if_neg (Nat.not_le.mpr hRoom), hAttach, populateProgArray,
    CallProg.call'_bind, CallProg.call_bind, CallProg.trace]
  congr 1
  split <;> rfl

/- Where the program type tells to skip just the prefix. -/
theorem storesAt_of_attach
    {event digits : CStr}
    {progType : BpfProgType}
    (hType : progTypeOf event = some progType)
    (hAttach :
      ∀ behind fd g,
        attach progType ⟨event, behind⟩ fd g =
          populateProgArray digits fd g)
    (hDigits : digits.all Char.isDigit = true)
    (hSmall : decimal digits < 2 ^ 31) :
    StoresAt event (decimal digits) := by
  intro σ handler s behind data g progType' fd
  rw [loadAndAttach_of_type hType, CallProg.trace]
  generalize handler (.loadProgram progType data.dBuf
    (insnsCount data.dSize) g.license g.kernVersion) s =
      answered
  rcases answered with ⟨answer, s'⟩
  intro calls hRoom hFd hMem
  rcases List.mem_cons.mp hMem with hLoad | hLater
  · cases hLoad
    have hCalls :=
      trace_afterLoad_of_attach (hAttach behind) hRoom hFd handler s'
    rw [atoi_of_digits hDigits hSmall] at hCalls
    exact ⟨_, List.mem_cons_of_mem _
      (hCalls ▸ List.mem_singleton_self _)⟩
  · exfalso
    by_cases hAnswer : 0 ≤ answer
    · rw [trace_afterLoad_of_attach (hAttach behind) hRoom hAnswer,
        List.mem_singleton] at hLater
      cases hLater
    · rw [afterLoad, if_pos (Int.not_le.mp hAnswer)] at hLater
      cases hLater

/- The kinds whose prefix is as long as what is skipped. -/
def arrayKinds : List CStr :=
  ["socket".toList, "sockops".toList]

theorem storesAt_of_arrayKind
    {kind digits : CStr}
    (hKind : kind ∈ arrayKinds)
    (hNonempty : digits ≠ [])
    (hDigits : digits.all Char.isDigit = true)
    (hSmall : decimal digits < 2 ^ 31) :
    StoresAt (kind ++ '/' :: digits) (decimal digits) := by
  simp only [arrayKinds, List.mem_cons, List.not_mem_nil,
    or_false] at hKind
  rcases hKind with rfl | rfl
  · exact storesAt_of_attach rfl
      (attachProgArray_of_digits _ hDigits hNonempty)
      hDigits hSmall
  · exact storesAt_of_attach rfl
      (attachProgArray_of_digits _ hDigits hNonempty)
      hDigits hSmall

/-
  Behind `sk_skb` one character more is skipped, so that the
  number is not looked at.
-/
theorem attach_skSkb
    {digits : CStr}
    (hNonempty : digits ≠ [])
    (hDigits : digits.all Char.isDigit = true)
    (behind : CStr)
    (fd : ℤ)
    (g : LoaderGlobals) :
    attach .skSkb
        ⟨"sk_skb".toList ++ '/' :: digits, behind⟩ fd g =
      .ret 0 := by
  rcases List.exists_cons_of_ne_nil hNonempty with
    ⟨c, rest, rfl⟩
  have hDigit : c.isDigit = true :=
    List.all_eq_true.mp hDigits c List.mem_cons_self
  have hSlash : c ≠ '/' := by
    intro hEq
    rw [hEq] at hDigit
    exact absurd hDigit (by decide)
  have hChar :
      charAt ⟨"sk_skb".toList ++ '/' :: c :: rest, behind⟩
          7 =
        .ok (some c) := by
    rw [charAt, if_pos (by simp)]
    rfl
  rw [attach, attachProgArray, hChar]
  simp only [CallProg.ofExcept_ok, CallProg.ret_bind, ne_eq,
    Option.some.injEq, hSlash, not_false_eq_true, if_true]
  rfl

/- So its descriptor is not stored, whatever the number. -/
theorem not_storesAt_skSkb
    {digits : CStr}
    (hNonempty : digits ≠ [])
    (hDigits : digits.all Char.isDigit = true)
    (n : ℕ) :
    ¬ StoresAt ("sk_skb".toList ++ '/' :: digits) n := by
  intro hStores
  let answers := allSucceed ⟨[], fun _ _ => none⟩
  have hCalls :
      (loadAndAttach
          ⟨"sk_skb".toList ++ '/' :: digits, []⟩
          ⟨[], 0⟩ .start).trace answers () =
        [⟨.loadProgram .skSkb [] (insnsCount 0)
          LoaderGlobals.start.license
          LoaderGlobals.start.kernVersion, (0 : ℤ)⟩] := by
    rw [loadAndAttach_of_type rfl, CallProg.trace]
    change _ :: CallProg.trace answers (afterLoad _ _ 0 _) () =
      _
    rw [afterLoad, if_neg (by decide), if_neg (by decide),
      attach_skSkb hNonempty hDigits]
    rfl
  have hLoad :=
    hStores Unit answers () [] ⟨[], 0⟩ .start .skSkb 0
      (by decide) (Int.le_refl 0)
  rw [hCalls] at hLoad
  rcases hLoad (List.mem_singleton_self _) with ⟨err, hMem⟩
  rw [List.mem_singleton] at hMem
  cases hMem

/-
  A selected name is recognised, or else that of an unknown
  hook of control groups, which is refused.  For the program
  arrays of sockets and socket operations, the number in the
  name is the index.
-/
theorem dispatch_follows_selection
    {shname : CStr}
    (hProg : isProgName shname = true) :
    (Recognised shname ↔ ¬ UnknownCgroup shname) ∧
      (UnknownCgroup shname → Refused shname) ∧
      ∀ kind ∈ arrayKinds, ∀ digits,
        shname = kind ++ '/' :: digits →
        digits ≠ [] → digits.all Char.isDigit = true →
        decimal digits < 2 ^ 31 →
          StoresAt shname (decimal digits) := by
  refine ⟨?_, ?_, ?_⟩
  · rw [recognised_iff, progTypeOf_isSome_iff hProg]
  · intro hUnknown
    apply refused_of_none
    rw [← Option.not_isSome_iff_eq_none,
      progTypeOf_isSome_iff hProg]
    exact not_not_intro hUnknown
  · intro kind hKind digits hName hNonempty hDigits hSmall
    rw [hName]
    exact storesAt_of_arrayKind hKind hNonempty hDigits hSmall

/- The eighth program array entry of a socket filter. -/
theorem socket_name_dispatched :
    Recognised "socket/7".toList ∧
      StoresAt "socket/7".toList 7 := by
  have hProg : isProgName "socket/7".toList = true := by
    decide
  have hNames := dispatch_follows_selection hProg
  exact ⟨hNames.1.mpr (by decide),
    hNames.2.2 _ List.mem_cons_self "7".toList rfl (by decide)
      (by decide) (by decide)⟩

/-
  A device hook of control groups is selected, not loaded;
  and a stream parser is not stored.
-/
theorem cgroup_dev_not_recognised :
    isProgName "cgroup/dev".toList = true ∧
      ¬ Recognised "cgroup/dev".toList ∧
        ¬ StoresAt "sk_skb/3".toList 3 := by
  refine ⟨by decide, ?_, ?_⟩
  · rw [recognised_iff]
    decide
  · exact not_storesAt_skSkb (List.cons_ne_nil '3' [])
      (by decide) 3

end XdpDdos
