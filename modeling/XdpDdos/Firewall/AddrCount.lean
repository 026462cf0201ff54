import XdpDdos.Firewall.Abstract
import XdpDdos.Firewall.System
import XdpDdos.Control.Stats

/-
  What the counter of a blacklisted address counts: the
  frames from the address since it was added.

  The control path creates the counter with zeros, the
  packet path increments the slot of its CPU, and the tool
  sums the slots; a repeated ADD changes nothing.

  Main declarations:
    * `Frame.ComesFrom`, `framesSinceAdd`
    * `countsFrames_step`
    * `addrCounts_follow_life`
-/

------------------------------------------------------------
-- Frames from an Address
------------------------------------------------------------

namespace XdpDdos

variable {nrCpus : ℕ}

/-
  Layer 2 of the frame was parsed as IPv4, the frame holds
  the whole fixed header, and this is its source.
-/
def Frame.ComesFrom
    (f : Frame)
    (addr : Ipv4Addr) : Prop :=
  ∃ offset,
    parseEth f = .ok (some (ETH_P_IP, offset)) ∧
      offset + IP_HDR_SIZE ≤ f.length ∧
      Ipv4.source (f.drop offset) = addr

/- The source a view shows, if it shows one. -/
def FrameView.source? : FrameView → Option (BitVec 32)
  | .ipv4 src _ => some src
  | _ => none

/- The word at an offset is one of the packet there. -/
theorem le32At_eq_key_source
    {f : Frame}
    {offset : ℕ}
    (hInside : offset ≤ f.length) :
    f.le32At (offset + 12) =
      (Ipv4.source (f.drop offset)).key := by
  have hRead :=
    ByteSeq.le32At_append_right (f.take offset)
      (f.drop offset) 12
  rw [List.take_append_drop,
    List.length_take_of_le hInside] at hRead
  exact hRead

/- The view shows where a frame comes from. -/
theorem comesFrom_iff
    (f : Frame)
    (addr : Ipv4Addr) :
    f.ComesFrom addr ↔ f.view.source? = some addr.key := by
  unfold Frame.ComesFrom
  rw [parseEth_eq, Frame.view]
  cases f.layer2 with
  | none => simp [FrameView.source?]
  | some header =>
      rcases header with ⟨ethType, start⟩
      constructor
      · rintro ⟨offset, hParsed, hLen, rfl⟩
        cases hParsed
        rw [← le32At_eq_key_source (by omega)]
        simp only [if_true, Frame.ipv4View, hLen,
          FrameView.source?]
      · intro hSource
        by_cases hIp : ethType = ETH_P_IP
        · by_cases hLen : start + IP_HDR_SIZE ≤ f.length
          · simp only [hIp, if_true, Frame.ipv4View, hLen,
              FrameView.source?, Option.some.injEq] at hSource
            refine ⟨start, by rw [hIp], hLen, ?_⟩
            rw [le32At_eq_key_source (by omega)] at hSource
            exact Ipv4Addr.key_injective hSource
          · simp only [hIp, if_true, Frame.ipv4View, hLen,
              if_false, FrameView.source?] at hSource
            cases hSource
        · simp only [hIp, if_false, FrameView.source?]
            at hSource
          cases hSource

instance
    (f : Frame)
    (addr : Ipv4Addr) :
    Decidable (f.ComesFrom addr) :=
  decidable_of_iff _ (comesFrom_iff f addr).symm

------------------------------------------------------------
-- The Life of an Address
------------------------------------------------------------

/- An ADD of the address that does not find it present. -/
def AddsAnew
    (addr : Ipv4Addr)
    (m : Maps nrCpus)
    (ipString : CStr)
    (action : BitVec 32) : Prop :=
  action = ACTION_ADD ∧
    Ipv4Addr.ofString? ipString = some addr ∧
    ¬ m.blacklist.Contains addr.key

instance
    (addr : Ipv4Addr)
    (m : Maps nrCpus)
    (ipString : CStr)
    (action : BitVec 32) :
    Decidable (AddsAnew addr m ipString action) := by
  unfold AddsAnew
  infer_instance

/- Count frames; start again when the address is added. -/
def observeFrames
    (addr : Ipv4Addr)
    (m : Maps nrCpus)
    (e : FilterEvent nrCpus)
    (_r : FilterResponse)
    (count : ℕ) : ℕ :=
  match e with
  | .frame _ ctx =>
      if ctx.ComesFrom addr then count + 1 else count
  | .modifyAddr ipString action =>
      if AddsAnew addr m ipString action then 0 else count
  | .modifyPort _ _ _ => count

/-
  The frames from an address in a run, since the last ADD
  that found the address absent.
-/
def framesSinceAdd
    (addr : Ipv4Addr)
    (m : Maps nrCpus)
    (es : List (FilterEvent nrCpus)) : ℕ :=
  filterSystem.ghost (observeFrames addr) m 0 es

/- If the address is listed, its slots sum to the count. -/
def CountsFrames
    (addr : Ipv4Addr)
    (m : Maps nrCpus)
    (count : ℕ) : Prop :=
  ∀ values, m.blacklist.slots? addr.key = some values →
    sumValues values = BitVec.ofNat 64 count

------------------------------------------------------------
-- One Step
------------------------------------------------------------

/- A frame is counted for its source if that is listed. -/
theorem CountsFrames.afterFrame
    {addr : Ipv4Addr}
    {m : Maps nrCpus}
    {count : ℕ}
    (hCount : CountsFrames addr m count)
    (cpu : Fin nrCpus)
    (f : Frame) :
    CountsFrames addr (m.afterFrame cpu f.view)
      (if f.ComesFrom addr then count + 1 else count) := by
  intro values hValues
  rw [Maps.afterFrame_blacklist] at hValues
  simp only [comesFrom_iff]
  rcases m.countDrop_cases cpu f.view with
    ⟨src, l4, hView, hIn, _, hDrop⟩ |
    ⟨src, fproto, port, hView, hOut, _, _, hDrop⟩ |
    ⟨hKept, hDrop⟩
  · rw [hDrop, Maps.countAddr, PercpuHash.slots?_bump]
      at hValues
    by_cases hSrc : addr.key = src
    · subst hSrc
      rcases Option.isSome_iff_exists.mp hIn with
        ⟨old, hOld⟩
      rw [if_pos rfl, hOld] at hValues
      cases hValues
      rw [hView, FrameView.source?, if_pos rfl,
        sumValues_update, hCount old hOld,
        BitVec.ofNat_add]
      rfl
    · rw [if_neg hSrc] at hValues
      rw [hView, FrameView.source?, if_neg]
      · exact hCount values hValues
      · intro hSame
        exact hSrc (Option.some.inj hSame).symm
  · rw [hDrop] at hValues
    rw [hView, FrameView.source?, if_neg]
    · exact hCount values hValues
    · intro hSame
      apply hOut
      rw [Option.some.inj hSame]
      exact Option.isSome_iff_exists.mpr ⟨values, hValues⟩
  · rw [hDrop] at hValues
    rw [if_neg]
    · exact hCount values hValues
    · intro hSource
      have hIn : m.blacklist.Contains addr.key :=
        Option.isSome_iff_exists.mpr ⟨values, hValues⟩
      apply hKept
      cases hView : f.view with
      | skipped => simp [hView, FrameView.source?] at hSource
      | notIpv4 => simp [hView, FrameView.source?] at hSource
      | shortIpv4 =>
          simp [hView, FrameView.source?] at hSource
      | ipv4 src l4 =>
          simp only [hView, FrameView.source?,
            Option.some.injEq] at hSource
          rw [Maps.verdict, hSource, if_pos hIn]

/- An address that was not added anew keeps its count. -/
theorem CountsFrames.of_unchanged
    {addr : Ipv4Addr}
    {m : Maps nrCpus}
    {count : ℕ}
    (hCount : CountsFrames addr m count)
    (ipString : CStr)
    (action : BitVec 32) :
    CountsFrames addr m
      (if AddsAnew addr m ipString action then 0
        else count) := by
  intro values hValues
  rw [if_neg]
  · exact hCount values hValues
  · rintro ⟨_, _, hOut⟩
    exact hOut (Option.isSome_iff_exists.mpr
      ⟨values, hValues⟩)

/- The strings of an address are those parsed to its key. -/
theorem inetPton_eq_key_iff
    (ipString : CStr)
    (addr : Ipv4Addr) :
    inetPton ipString = some addr.key ↔
      Ipv4Addr.ofString? ipString = some addr := by
  rw [Ipv4Addr.inetPton_eq, Option.map_eq_some_iff]
  constructor
  · rintro ⟨addr', hAddr, hKey⟩
    rw [hAddr, Ipv4Addr.key_injective hKey]
  · intro hAddr
    exact ⟨addr, hAddr, rfl⟩

/- Whatever `blacklist_modify` does, the count stays right. -/
theorem CountsFrames.modifyAddr
    {addr : Ipv4Addr}
    {m : Maps nrCpus}
    {count : ℕ}
    (hCount : CountsFrames addr m count)
    (ipString : CStr)
    (action : BitVec 32) :
    CountsFrames addr
      (filterSystem.step m (.modifyAddr ipString action)).2
      (if AddsAnew addr m ipString action then 0
        else count) := by
  rcases run_blacklistModify_cases m ipString action with
    ⟨status, _, hRun⟩ | ⟨key, _, _, _, hRun⟩ |
    ⟨key, hKey, rfl, hOut, hash, hRun, hSlots⟩ |
    ⟨key, hKey, rfl, _, hash, hRun, hSlots⟩
  · rw [modifyAddr_step m _ _ hRun]
    exact hCount.of_unchanged ipString action
  · rw [modifyAddr_step m _ _ hRun]
    exact hCount.of_unchanged ipString action
  · rw [modifyAddr_step m _ _ hRun]
    intro values hValues
    simp only [hSlots] at hValues
    by_cases hSame : addr.key = key
    · subst hSame
      rw [Function.update_self] at hValues
      cases hValues
      rw [if_pos ⟨rfl,
        (inetPton_eq_key_iff ipString addr).mp hKey, hOut⟩]
      rw [sumValues_eq_sum, Finset.sum_const_zero]
      rfl
    · rw [Function.update_of_ne hSame] at hValues
      rw [if_neg]
      · exact hCount values hValues
      · rintro ⟨_, hAddr, _⟩
        rw [← inetPton_eq_key_iff, hKey] at hAddr
        exact hSame (Option.some.inj hAddr).symm
  · rw [modifyAddr_step m _ _ hRun]
    intro values hValues
    simp only [hSlots] at hValues
    by_cases hSame : addr.key = key
    · rw [hSame, Function.update_self] at hValues
      cases hValues
    · rw [Function.update_of_ne hSame] at hValues
      rw [if_neg]
      · exact hCount values hValues
      · rintro ⟨hAdd, _⟩
        exact absurd hAdd (by decide)

/- Every step keeps the sum of the slots and the count. -/
theorem countsFrames_step
    {addr : Ipv4Addr}
    {m : Maps nrCpus}
    {count : ℕ}
    (hCount : CountsFrames addr m count)
    (e : FilterEvent nrCpus) :
    CountsFrames addr (filterSystem.step m e).2
      (observeFrames addr m e (filterSystem.step m e).1
        count) := by
  cases e with
  | modifyAddr ipString action =>
      exact hCount.modifyAddr ipString action
  | frame cpu ctx =>
      have hStep :
          (filterSystem.step m (.frame cpu ctx)).2 =
            m.afterFrame cpu ctx.view := by
        simp only [filterSystem, frameStep_eq]
      rw [hStep]
      exact hCount.afterFrame cpu ctx
  | modifyPort dport action proto =>
      have hStep :=
        filterSystem_step m (.modifyPort dport action proto)
      rcases hNext :
          filterSystem.step m
            (.modifyPort dport action proto) with ⟨r, m'⟩
      rw [hNext] at hStep
      cases hStep with
      | portRefused => exact hCount
      | portAdded => exact hCount
      | portRemoved => exact hCount

------------------------------------------------------------
-- Calls That Change Nothing
------------------------------------------------------------

/- Adding a listed address succeeds and changes nothing. -/
theorem addPresent_unchanged
    {m : Maps nrCpus}
    {ipString : CStr}
    {addr : Ipv4Addr}
    (hAddr : Ipv4Addr.ofString? ipString = some addr)
    (hIn : m.blacklist.Contains addr.key) :
    filterSystem.step m (.modifyAddr ipString ACTION_ADD) =
      (.status (.returned EXIT_OK), m) := by
  apply modifyAddr_step
  have hKey := (inetPton_eq_key_iff ipString addr).mpr hAddr
  rw [← Maps.handleFaulty_none,
    run_blacklistModify_add .none m hKey,
    Maps.updateFaulty_of_none _ _ rfl, Maps.updateElem,
    PercpuHash.updateElem_noexist_of_contains _ hIn]
  rfl

/- Removing an unlisted address fails, changing nothing. -/
theorem delAbsent_unchanged
    {m : Maps nrCpus}
    {ipString : CStr}
    {addr : Ipv4Addr}
    (hAddr : Ipv4Addr.ofString? ipString = some addr)
    (hOut : ¬ m.blacklist.Contains addr.key) :
    filterSystem.step m (.modifyAddr ipString ACTION_DEL) =
      (.status (.returned EXIT_FAIL_MAP_KEY), m) := by
  apply modifyAddr_step
  have hKey := (inetPton_eq_key_iff ipString addr).mpr hAddr
  rw [← Maps.handleFaulty_none,
    run_blacklistModify_del .none m hKey,
    Maps.deleteFaulty_of_none rfl, Maps.deleteElem,
    PercpuHash.deleteElem_of_absent hOut]
  rfl

/- Adding to a full list fails, changing nothing. -/
theorem addFull_unchanged
    {m : Maps nrCpus}
    {ipString : CStr}
    {addr : Ipv4Addr}
    (hAddr : Ipv4Addr.ofString? ipString = some addr)
    (hOut : ¬ m.blacklist.Contains addr.key)
    (hFull :
      m.blacklist.entries.keys.length = NR_ADDRS) :
    filterSystem.step m (.modifyAddr ipString ACTION_ADD) =
      (.status (.returned EXIT_FAIL_MAP_KEY), m) := by
  apply modifyAddr_step
  have hKey := (inetPton_eq_key_iff ipString addr).mpr hAddr
  rw [← Maps.handleFaulty_none,
    run_blacklistModify_add .none m hKey,
    Maps.updateFaulty_of_none _ _ rfl, Maps.updateElem,
    PercpuHash.updateElem_noexist_of_full _ hOut
      (Nat.le_of_eq hFull.symm)]
  rfl

/-
  From an empty blacklist, whatever the other maps hold, and
  over any run: the count read for a listed address is the
  number of its frames since it was added.  In any state, an
  ADD of a listed address succeeds and changes nothing; a
  DEL of an unlisted one and an ADD of one to a full list
  fail and change nothing.
-/
theorem addrCounts_follow_life
    (other : Maps nrCpus)
    (es : List (FilterEvent nrCpus)) :
    (∀ addr,
        (filterSystem.final
            { other with blacklist := .fresh }
            es).blacklist.Contains addr.key →
          (CallProg.run Maps.handle
              (getKey32Value64Percpu .blacklist addr.key)
              (filterSystem.final
                { other with blacklist := .fresh } es)).1 =
            .returned (BitVec.ofNat 64
              (framesSinceAdd addr
                { other with blacklist := .fresh } es))) ∧
      ∀ (m : Maps nrCpus) ipString addr,
        Ipv4Addr.ofString? ipString = some addr →
          (m.blacklist.Contains addr.key →
              filterSystem.step m
                  (.modifyAddr ipString ACTION_ADD) =
                (.status (.returned EXIT_OK), m)) ∧
            (¬ m.blacklist.Contains addr.key →
              (∃ status, status ≠ EXIT_OK ∧
                  filterSystem.step m
                      (.modifyAddr ipString ACTION_DEL) =
                    (.status (.returned status), m)) ∧
                (m.blacklist.entries.keys.length =
                    NR_ADDRS →
                  ∃ status, status ≠ EXIT_OK ∧
                    filterSystem.step m
                        (.modifyAddr ipString ACTION_ADD) =
                      (.status (.returned status), m))) := by
  constructor
  · intro addr hIn
    have hCount :
        CountsFrames addr
          (filterSystem.final
            { other with blacklist := .fresh } es)
          (framesSinceAdd addr
            { other with blacklist := .fresh } es) := by
      apply Reactive.ghost_simulation filterSystem
        (observeFrames addr) (CountsFrames addr)
      · intro m count e hCount
        exact countsFrames_step hCount e
      · intro values hValues
        simp at hValues
    rcases Option.isSome_iff_exists.mp hIn with
      ⟨values, hValues⟩
    rw [run_getKey32Value64Percpu, keySum_blacklist, hValues]
    exact congrArg Outcome.returned (hCount values hValues)
  · intro m ipString addr hAddr
    refine ⟨addPresent_unchanged hAddr, fun hOut => ⟨?_, ?_⟩⟩
    · exact ⟨EXIT_FAIL_MAP_KEY, by decide,
        delAbsent_unchanged hAddr hOut⟩
    · intro hFull
      exact ⟨EXIT_FAIL_MAP_KEY, by decide,
        addFull_unchanged hAddr hOut hFull⟩

end XdpDdos
