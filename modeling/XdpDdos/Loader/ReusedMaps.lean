import XdpDdos.Loader.LoadObject
import XdpDdos.Loader.MapsStage
import XdpDdos.Lib.LastIndex

/-
  Maps that the callback gives a descriptor, next to those
  that are created.

  Both get their descriptor in both tables.  The variable for
  the program array is set only behind a creation, so that it
  misses a program array that is reused.

  Main declarations:
    * `FixupNote`, `noted`
    * `MapsSetUp`, `returns_loadMaps_noted`
    * `ProgArrayNoted`, `ReuseHarmless`
    * `loadMaps_sets_up`
-/

------------------------------------------------------------
-- Notes About the Callback
------------------------------------------------------------

namespace XdpDdos

/- What the callback left in a map, and the calls it made. -/
structure FixupNote where
  fd : ℤ
  calls : List LoadAnswer

/- Of a map that no callback has looked at. -/
def FixupNote.none : FixupNote := ⟨-1, []⟩

section

variable {υ σ : Type}

/- The callback, which now also notes what it did. -/
def noted
    (cb : FixupMapCb υ) :
    FixupMapCb (υ × (ℕ → FixupNote)) :=
  fun map i u => do
    let ((fd, u'), calls) ← (cb map i u.1).withCalls
    return (fd, u', Function.update u.2 i ⟨fd, calls⟩)

/- A descriptor is valid, or it is left at -1. -/
def SetsValidFds (fixupMap : Option (FixupMapCb υ)) : Prop :=
  ∀ cb ∈ fixupMap, ∀ map i u, map.fd = -1 →
    (cb map i u).Leaves fun r => r.1 = -1 ∨ 0 ≤ r.1

variable
  {handler : CallProg.Handler LoadCall LoadCall.Resp σ}
variable {fixupMap : Option (FixupMapCb υ)}
variable {map : BpfMapData}
variable {i : ℕ}
variable {fd : ℤ}
variable {u u' : υ}
variable {notes : ℕ → FixupNote}
variable {s s' : σ}
variable {calls : List LoadAnswer}

/- With notes, a callback does what it does without. -/
theorem returns_fixupMapFd_noted
    (notes : ℕ → FixupNote)
    (hReturns :
      CallProg.Returns handler (fixupMapFd fixupMap map i u) s
        calls (fd, u') s') :
    CallProg.Returns handler
      (fixupMapFd (fixupMap.map noted) map i (u, notes)) s
      calls
      (fd, u',
        if fixupMap.isSome then
          Function.update notes i ⟨fd, calls⟩
        else notes) s' := by
  cases fixupMap with
  | none =>
      cases hReturns
      exact .ret _ _
  | some cb =>
      have hNoted :=
        hReturns.withCalls.bind
          (.ret (fd, u', Function.update notes i ⟨fd, calls⟩)
            s')
          (f := fun r => CallProg.ret (r.1.1, r.1.2,
            Function.update notes i ⟨r.1.1, r.2⟩))
      rw [List.append_nil] at hNoted
      exact hNoted

------------------------------------------------------------
-- Descriptors of Both Kinds
------------------------------------------------------------

/- The map that a program array is looked for in. -/
def LoaderGlobals.IsProgArray
    (g : LoaderGlobals)
    (i : ℕ) : Prop :=
  (g.mapData i).mapDef.type = BPF_MAP_TYPE_PROG_ARRAY

instance
    (g : LoaderGlobals) :
    DecidablePred g.IsProgArray :=
  fun _ => inferInstanceAs (Decidable (_ = _))

/-
  How a map got its descriptor: the one that the callback set
  is kept and nothing is created, or a call creates the map.
-/
inductive GivenBy
    (map : BpfMapData)
    (fd : ℤ)
    (note : FixupNote) :
    Option LoadAnswer → Prop where
  | reused
      (hNote : note.fd = fd)
      (hSet : fd ≠ -1) :
      GivenBy map fd note none
  | created
      {call : LoadAnswer}
      (hNote : note.fd = -1)
      (hCreates : LoadCall.Creates map fd call) :
      GivenBy map fd note (some call)

/- What the loop over the maps `is` makes of them. -/
structure MapsSetUp
    (is : List ℕ)
    (notes : ℕ → FixupNote)
    (created : ℕ → Option LoadAnswer)
    (calls : List LoadAnswer)
    (g g' : LoaderGlobals) : Prop where
  mapFd_of_notMem : ∀ i, i ∉ is → g'.mapFd i = g.mapFd i
  nonneg : ∀ i ∈ is, 0 ≤ g'.mapFd i
  given :
    ∀ i ∈ is,
      GivenBy (g.mapData i) (g'.mapFd i) (notes i) (created i)
  calls_eq :
    calls = is.flatMap fun i =>
      (notes i).calls ++ (created i).toList
  progArrayFd_eq :
    g'.progArrayFd = is.foldl
      (fun fd i =>
        if g.IsProgArray i ∧ (notes i).fd = -1 then
          g'.mapFd i
        else fd)
      g.progArrayFd

theorem MapsSetUp.nil
    (notes : ℕ → FixupNote)
    (g : LoaderGlobals) :
    MapsSetUp [] notes (fun _ => none) [] g g where
  mapFd_of_notMem := fun _ _ => rfl
  nonneg := by
    intro i hMem
    cases hMem
  given := by
    intro i hMem
    cases hMem
  calls_eq := rfl
  progArrayFd_eq := rfl

theorem MapsSetUp.cons
    {is : List ℕ}
    (hFresh : i ∉ is)
    {g g₁ g' : LoaderGlobals}
    (hGave : GaveFd i fd g g₁)
    (hProgArray :
      g₁.progArrayFd =
        if g.IsProgArray i ∧ (notes i).fd = -1 then fd
        else g.progArrayFd)
    (hNonneg : 0 ≤ fd)
    {call? : Option LoadAnswer}
    (hGiven : GivenBy (g.mapData i) fd (notes i) call?)
    {created : ℕ → Option LoadAnswer}
    (hRest : MapsSetUp is notes created calls g₁ g') :
    MapsSetUp (i :: is) notes
      (Function.update created i call?)
      ((notes i).calls ++ call?.toList ++ calls) g g' := by
  have hHere : g'.mapFd i = fd := by
    rw [hRest.mapFd_of_notMem i hFresh, hGave.mapFd_self]
  have hNe : ∀ j ∈ is, j ≠ i := by
    rintro j hTail rfl
    exact hFresh hTail
  refine ⟨?_, ?_, ?_, ?_, ?_⟩
  · intro j hMem
    rw [List.mem_cons, not_or] at hMem
    rw [hRest.mapFd_of_notMem j hMem.2,
      hGave.mapFd_of_ne j hMem.1]
  · intro j hMem
    rcases List.mem_cons.mp hMem with rfl | hTail
    · rw [hHere]
      exact hNonneg
    · exact hRest.nonneg j hTail
  · intro j hMem
    rcases List.mem_cons.mp hMem with rfl | hTail
    · rw [hHere, Function.update_self]
      exact hGiven
    · rw [Function.update_of_ne (hNe j hTail),
        ← hGave.mapData_of_ne j (hNe j hTail)]
      exact hRest.given j hTail
  · rw [List.flatMap_cons, Function.update_self,
      hRest.calls_eq]
    congr 1
    apply List.flatMap_congr
    intro j hTail
    rw [Function.update_of_ne (hNe j hTail)]
  · rw [hRest.progArrayFd_eq, List.foldl_cons, hHere,
      hProgArray]
    apply List.foldl_ext
    intro a j hTail
    have hSame : g₁.IsProgArray j ↔ g.IsProgArray j := by
      unfold LoaderGlobals.IsProgArray
      rw [hGave.mapData_of_ne j (hNe j hTail)]
    exact if_congr (and_congr_left' hSame) rfl rfl

/- Creating a map that returns is one call. -/
theorem returns_createMap_inv
    {mapFd : ℕ → ℤ}
    (hReturns :
      CallProg.Returns handler (createMap map mapFd) s calls
        fd s') :
    ∃ call, calls = [call] ∧ LoadCall.Creates map fd call := by
  unfold createMap at hReturns
  dsimp only at hReturns
  split at hReturns
  · split at hReturns
    · cases hReturns with
      | call hNext =>
          cases hNext
          exact ⟨_, rfl, rfl, rfl, rfl, rfl, rfl, rfl⟩
    · cases hReturns
  · cases hReturns with
    | call hNext =>
        cases hNext
        exact ⟨_, rfl, rfl, rfl, rfl, rfl, rfl, rfl, rfl⟩

theorem progArrayFd_giveNewFd
    (g : LoaderGlobals)
    (i : ℕ)
    (fd : ℤ) :
    (g.giveNewFd i fd).progArrayFd =
      if g.IsProgArray i then fd else g.progArrayFd := by
  by_cases hType : g.IsProgArray i
  · have hNew :
        g.giveNewFd i fd =
          { g.giveFd i fd with progArrayFd := fd } :=
      if_pos hType
    rw [hNew, if_pos hType]
  · have hNew : g.giveNewFd i fd = g.giveFd i fd :=
      if_neg hType
    rw [hNew, if_neg hType]
    rfl

/-
  A loop that succeeds runs with notes as it does without,
  and its notes tell how the maps got their descriptors.
-/
def SetsUp
    (handler : CallProg.Handler LoadCall LoadCall.Resp σ)
    (fixupMap : Option (FixupMapCb υ))
    (is : List ℕ)
    (g : LoaderGlobals)
    (u : υ)
    (notes : ℕ → FixupNote)
    (s : σ)
    (calls : List LoadAnswer)
    (g' : LoaderGlobals)
    (u' : υ)
    (s' : σ) : Prop :=
  ∃ notes' created,
    CallProg.Returns handler
        (loadMaps (fixupMap.map noted) is g (u, notes)) s
        calls (0, g', u', notes') s' ∧
      (∀ i, i ∉ is → notes' i = notes i) ∧
        MapsSetUp is notes' created calls g g'

/- A round that gave map `i` the descriptor `fd`. -/
theorem SetsUp.round
    {is : List ℕ}
    (hFresh : i ∉ is)
    {g g₁ g' : LoaderGlobals}
    {notes₁ : ℕ → FixupNote}
    {call? : Option LoadAnswer}
    {s₁ : σ}
    {u₁ : υ}
    (hGave : GaveFd i fd g g₁)
    (hProgArray :
      g₁.progArrayFd =
        if g.IsProgArray i ∧ (notes₁ i).fd = -1 then fd
        else g.progArrayFd)
    (hNonneg : 0 ≤ fd)
    (hGiven : GivenBy (g.mapData i) fd (notes₁ i) call?)
    (hOther : ∀ j, j ≠ i → notes₁ j = notes j)
    (hStep :
      ∀ notes',
        CallProg.Returns handler
          (loadMaps (fixupMap.map noted) is g₁ (u₁, notes₁))
          s₁ calls (0, g', u', notes') s' →
        CallProg.Returns handler
          (loadMaps (fixupMap.map noted) (i :: is) g
            (u, notes)) s
          ((notes₁ i).calls ++ call?.toList ++ calls)
          (0, g', u', notes') s')
    (hRest :
      SetsUp handler fixupMap is g₁ u₁ notes₁ s₁ calls g' u'
        s') :
    SetsUp handler fixupMap (i :: is) g u notes s
      ((notes₁ i).calls ++ call?.toList ++ calls) g' u'
      s' := by
  rcases hRest with ⟨notes', created, hRun, hKept, hSetUp⟩
  refine ⟨notes', Function.update created i call?,
    hStep notes' hRun, ?_, ?_⟩
  · intro j hMem
    rw [List.mem_cons, not_or] at hMem
    rw [hKept j hMem.2, hOther j hMem.1]
  · rw [← hKept i hFresh] at hProgArray hGiven ⊢
    exact hSetUp.cons hFresh hGave hProgArray hNonneg hGiven

/- The callback set a descriptor for map `i`. -/
theorem SetsUp.reused
    {is : List ℕ}
    (hFresh : i ∉ is)
    (hLt : i < MAX_MAPS)
    {g g' : LoaderGlobals}
    {notes₁ : ℕ → FixupNote}
    {calls₁ calls₂ : List LoadAnswer}
    {s₁ : σ}
    {u₁ : υ}
    (hNoted :
      CallProg.Returns handler
        (fixupMapFd (fixupMap.map noted) (g.mapData i) i
          (u, notes)) s calls₁ (fd, u₁, notes₁) s₁)
    (hAssigned : fixupMap.isSome ∧ fd ≠ -1)
    (hNonneg : 0 ≤ fd)
    (hNote : notes₁ i = ⟨fd, calls₁⟩)
    (hOther : ∀ j, j ≠ i → notes₁ j = notes j)
    (hRest :
      SetsUp handler fixupMap is (g.giveFd i fd) u₁ notes₁ s₁
        calls₂ g' u' s') :
    SetsUp handler fixupMap (i :: is) g u notes s
      (calls₁ ++ calls₂) g' u' s' := by
  have hUnset :
      ¬ (g.IsProgArray i ∧ (notes₁ i).fd = -1) := by
    rw [hNote]
    exact fun hBoth => hAssigned.2 hBoth.2
  have hRound :=
    SetsUp.round (u := u) (s := s) hFresh
      (gaveFd_giveFd i fd g) (if_neg hUnset).symm hNonneg
      (.reused (by rw [hNote]) hAssigned.2) hOther ?_ hRest
  · rw [hNote, Option.toList_none, List.append_nil] at hRound
    exact hRound
  · intro notes' hRun
    rw [hNote, Option.toList_none, List.append_nil,
      loadMaps_cons _ hLt]
    apply hNoted.bind
    rw [if_pos
      ⟨Option.isSome_map.trans hAssigned.1, hAssigned.2⟩]
    exact hRun

/- It did not, and map `i` was created by a call. -/
theorem SetsUp.created
    {is : List ℕ}
    (hFresh : i ∉ is)
    (hLt : i < MAX_MAPS)
    {g g' : LoaderGlobals}
    {newFd : ℤ}
    {notes₁ : ℕ → FixupNote}
    {calls₁ calls₂ : List LoadAnswer}
    {call : LoadAnswer}
    {s₁ s₂ : σ}
    {u₁ : υ}
    (hNoted :
      CallProg.Returns handler
        (fixupMapFd (fixupMap.map noted) (g.mapData i) i
          (u, notes)) s calls₁ (fd, u₁, notes₁) s₁)
    (hLeft : ¬ (fixupMap.isSome ∧ fd ≠ -1))
    (hCreate :
      CallProg.Returns handler
        (createMap (g.mapData i) g.mapFd) s₁ [call] newFd s₂)
    (hCreates : LoadCall.Creates (g.mapData i) newFd call)
    (hNonneg : 0 ≤ newFd)
    (hNote : notes₁ i = ⟨-1, calls₁⟩)
    (hOther : ∀ j, j ≠ i → notes₁ j = notes j)
    (hRest :
      SetsUp handler fixupMap is (g.giveNewFd i newFd) u₁
        notes₁ s₂ calls₂ g' u' s') :
    SetsUp handler fixupMap (i :: is) g u notes s
      (calls₁ ++ ([call] ++ calls₂)) g' u' s' := by
  have hProgArray :
      (g.giveNewFd i newFd).progArrayFd =
        if g.IsProgArray i ∧ (notes₁ i).fd = -1 then newFd
        else g.progArrayFd := by
    rw [progArrayFd_giveNewFd, hNote]
    exact if_congr (and_iff_left rfl).symm rfl rfl
  have hRound :=
    SetsUp.round (u := u) (s := s) hFresh
      (gaveFd_giveNewFd i newFd g) hProgArray hNonneg
      (.created (by rw [hNote]) hCreates) hOther ?_ hRest
  · rw [hNote, Option.toList_some, List.append_assoc]
      at hRound
    exact hRound
  · intro notes' hRun
    rw [hNote, Option.toList_some, List.append_assoc,
      loadMaps_cons _ hLt]
    apply hNoted.bind
    rw [Option.isSome_map, if_neg hLeft]
    apply hCreate.bind
    rw [if_neg (Int.not_lt.mpr hNonneg)]
    exact hRun

theorem setsUp_loadMaps
    (hSets : SetsValidFds fixupMap)
    {is : List ℕ}
    (hNodup : is.Nodup)
    {g g' : LoaderGlobals}
    (hFds : ∀ i ∈ is, (g.mapData i).fd = -1)
    (hNotes : ∀ i ∈ is, notes i = .none)
    (hReturns :
      CallProg.Returns handler (loadMaps fixupMap is g u) s
        calls (0, g', u') s') :
    SetsUp handler fixupMap is g u notes s calls g' u' s' := by
  induction is generalizing g u notes s calls with
  | nil =>
      cases hReturns
      exact ⟨notes, fun _ => none, .ret _ _, fun _ _ => rfl,
        .nil notes _⟩
  | cons i is ih =>
      rcases List.nodup_cons.mp hNodup with ⟨hFresh, hNodup'⟩
      by_cases hLt : i < MAX_MAPS
      case neg =>
        rw [loadMaps, if_pos (Nat.not_lt.mp hLt)] at hReturns
        cases hReturns
      rw [loadMaps_cons _ hLt] at hReturns
      rcases hReturns.of_bind with
        ⟨⟨fd, u₁⟩, s₁, calls₁, calls₂, hFixup, hRest, rfl⟩
      have hNoted :=
        returns_fixupMapFd_noted notes hFixup
      generalize hNotes₁ :
        (if fixupMap.isSome then
          Function.update notes i ⟨fd, calls₁⟩
        else notes) = notes₁ at hNoted
      have hNe : ∀ j ∈ is, j ≠ i := by
        rintro j hTail rfl
        exact hFresh hTail
      have hOther : ∀ j, j ≠ i → notes₁ j = notes j := by
        intro j hNe
        rw [← hNotes₁]
        split
        · exact Function.update_of_ne hNe _ _
        · rfl
      -- the rest of the list is as it was
      have hNotes' : ∀ j ∈ is, notes₁ j = .none := by
        intro j hTail
        rw [hOther j (hNe j hTail)]
        exact hNotes j (List.mem_cons_of_mem i hTail)
      have hFds'
          {fd₁ : ℤ}
          {g₁ : LoaderGlobals}
          (hGave : GaveFd i fd₁ g g₁) :
          ∀ j ∈ is, (g₁.mapData j).fd = -1 := by
        intro j hTail
        rw [hGave.mapData_of_ne j (hNe j hTail)]
        exact hFds j (List.mem_cons_of_mem i hTail)
      by_cases hAssigned : fixupMap.isSome ∧ fd ≠ -1
      · have hNote : notes₁ i = ⟨fd, calls₁⟩ := by
          rw [← hNotes₁, if_pos hAssigned.1,
            Function.update_self]
        have hNonneg : 0 ≤ fd := by
          rcases Option.isSome_iff_exists.mp hAssigned.1 with
            ⟨cb, rfl⟩
          have hFd := hFds i List.mem_cons_self
          have hValid :=
            (hSets cb rfl (g.mapData i) i u hFd).of_run
              hFixup.run_eq
          exact hValid.resolve_left hAssigned.2
        rw [if_pos hAssigned] at hRest
        exact .reused hFresh hLt hNoted hAssigned hNonneg
          hNote hOther
          (ih hNodup' (hFds' (gaveFd_giveFd i fd g)) hNotes'
            hRest)
      · have hNote : notes₁ i = ⟨-1, calls₁⟩ := by
          rw [← hNotes₁]
          cases fixupMap with
          | none =>
              cases hFixup
              exact hNotes i List.mem_cons_self
          | some cb =>
              have hLeft : fd = -1 := by
                by_contra hSet
                exact hAssigned ⟨rfl, hSet⟩
              rw [if_pos Option.isSome_some,
                Function.update_self, hLeft]
        rw [if_neg hAssigned] at hRest
        rcases hRest.of_bind with
          ⟨newFd, s₂, calls₃, calls₄, hCreate, hRest', rfl⟩
        rcases returns_createMap_inv hCreate with
          ⟨call, rfl, hCreates⟩
        by_cases hFail : newFd < 0
        · rw [if_pos hFail] at hRest'
          cases hRest'
        rw [if_neg hFail] at hRest'
        exact .created hFresh hLt hNoted hAssigned hCreate
          hCreates (Int.not_lt.mp hFail) hNote hOther
          (ih hNodup' (hFds' (gaveFd_giveNewFd i newFd g))
            hNotes' hRest')

------------------------------------------------------------
-- The Program Array
------------------------------------------------------------

/- `prog_array_fd` is that of the last program array. -/
structure ProgArrayNoted
    (nrMaps : ℕ)
    (g g' : LoaderGlobals) : Prop where
  of_last :
    ∀ i, LastBelow g.IsProgArray nrMaps i →
      g'.progArrayFd = (g'.mapData i).fd
  of_none :
    (∀ i < nrMaps, ¬ g.IsProgArray i) →
      g'.progArrayFd = g.progArrayFd

/- A program array that the callback leaves to be created. -/
def LeftProgArray
    (g : LoaderGlobals)
    (notes : ℕ → FixupNote)
    (i : ℕ) : Prop :=
  g.IsProgArray i ∧ (notes i).fd = -1

/-
  The callback does not set the last program array, or just
  as the kernel created the last one that it did not set; if
  there is none, just as the variable was.
-/
def ReuseHarmless
    (nrMaps : ℕ)
    (g : LoaderGlobals)
    (notes : ℕ → FixupNote)
    (created : ℕ → Option LoadAnswer) : Prop :=
  ∀ i, LastBelow g.IsProgArray nrMaps i →
    (notes i).fd = -1 ∨
      (∃ j, LastBelow (LeftProgArray g notes) nrMaps j ∧
        ∃ call ∈ created j,
          LoadCall.Creates (g.mapData j) (notes i).fd call) ∨
      (∀ j < nrMaps, ¬ LeftProgArray g notes j) ∧
        (notes i).fd = g.progArrayFd

/- A call gives one descriptor. -/
theorem creates_unique
    {fd' : ℤ}
    {call : LoadAnswer}
    (hCreates : LoadCall.Creates map fd call)
    (hCreates' : LoadCall.Creates map fd' call) :
    fd = fd' := by
  rcases call with ⟨op, answer⟩
  cases op with
  | createMapNode => exact hCreates.1.symm.trans hCreates'.1
  | createMapInMapNode =>
      exact hCreates.1.symm.trans hCreates'.1
  | _ => cases hCreates

theorem GivenBy.eq_note
    {note : FixupNote}
    {call? : Option LoadAnswer}
    (hGiven : GivenBy map fd note call?)
    (hSet : note.fd ≠ -1) :
    fd = note.fd := by
  cases hGiven with
  | reused hNote => exact hNote.symm
  | created hNote => exact absurd hNote hSet

theorem GivenBy.creates
    {note : FixupNote}
    {call? : Option LoadAnswer}
    (hGiven : GivenBy map fd note call?)
    (hLeft : note.fd = -1) :
    ∃ call ∈ call?, LoadCall.Creates map fd call := by
  cases hGiven with
  | reused hNote hSet =>
      exact absurd (hNote.symm.trans hLeft) hSet
  | created hNote hCreates => exact ⟨_, rfl, hCreates⟩

section

variable {nrMaps : ℕ}
variable {g g' : LoaderGlobals}
variable {created : ℕ → Option LoadAnswer}

/- The variable is that of the last one that was created. -/
theorem MapsSetUp.progArrayFd_last
    (hSetUp :
      MapsSetUp (List.range nrMaps) notes created calls g g') :
    (∀ i, LastBelow (LeftProgArray g notes) nrMaps i →
        g'.progArrayFd = g'.mapFd i) ∧
      ((∀ i < nrMaps, ¬ LeftProgArray g notes i) →
        g'.progArrayFd = g.progArrayFd) := by
  have hLoop :=
    foldl_range_lastBelow
      (p := fun i => g.IsProgArray i ∧ (notes i).fd = -1)
      g'.mapFd g.progArrayFd nrMaps
  rw [hSetUp.progArrayFd_eq]
  exact hLoop

/-
  The variable is right exactly if it does not matter that it
  misses a program array that is reused.
-/
theorem MapsSetUp.progArrayNoted_iff
    (hSetUp :
      MapsSetUp (List.range nrMaps) notes created calls g g')
    (hAgree :
      ∀ i < nrMaps, g'.mapFd i = (g'.mapData i).fd) :
    ProgArrayNoted nrMaps g g' ↔
      ReuseHarmless nrMaps g notes created := by
  rcases hSetUp.progArrayFd_last with ⟨hLast, hNone⟩
  have hGiven :
      ∀ i < nrMaps,
        GivenBy (g.mapData i) (g'.mapFd i) (notes i)
          (created i) :=
    fun i hLt => hSetUp.given i (List.mem_range.mpr hLt)
  constructor
  · intro hNoted i hArray
    by_cases hLeft : (notes i).fd = -1
    · exact .inl hLeft
    right
    have hFd : g'.progArrayFd = (notes i).fd := by
      rw [hNoted.of_last i hArray, ← hAgree i hArray.lt]
      exact (hGiven i hArray.lt).eq_note hLeft
    rcases exists_lastBelow_or (LeftProgArray g notes) nrMaps
      with ⟨j, hBelow⟩ | hAll
    · left
      refine ⟨j, hBelow, ?_⟩
      rw [← hFd, hLast j hBelow]
      exact (hGiven j hBelow.lt).creates hBelow.holds.2
    · right
      exact ⟨hAll, hFd.symm.trans (hNone hAll)⟩
  · intro hHarmless
    constructor
    · intro i hArray
      rw [← hAgree i hArray.lt]
      by_cases hLeft : (notes i).fd = -1
      · exact hLast i
          (hArray.of_imp (fun _ => And.left)
            ⟨hArray.holds, hLeft⟩)
      rw [(hGiven i hArray.lt).eq_note hLeft]
      rcases (hHarmless i hArray).resolve_left hLeft with
        ⟨j, hBelow, call, hCall, hCreates⟩ | ⟨hAll, hFd⟩
      · rcases (hGiven j hBelow.lt).creates hBelow.holds.2
          with ⟨call', hCall', hCreates'⟩
        rw [Option.mem_unique hCall' hCall] at hCreates'
        rw [hLast j hBelow]
        exact creates_unique hCreates' hCreates
      · rw [hNone hAll, hFd]
    · intro hNo
      exact hNone fun i hLt hLeft => hNo i hLt hLeft.1

/-
  If the maps are loaded, each has its descriptor in both
  tables, and nothing is created for one that the callback
  set.  The variable for the program array is right exactly
  if the callback does not set the last program array, or
  sets it to what the variable is without it.
-/
theorem loadMaps_sets_up
    (hSets : SetsValidFds fixupMap)
    (hFds : ∀ i < nrMaps, (g.mapData i).fd = -1)
    (hReturns :
      CallProg.Returns handler
        (loadMaps fixupMap (List.range nrMaps) g u) s calls
        (0, g', u') s') :
    ∃ notes created,
      CallProg.Returns handler
          (loadMaps (fixupMap.map noted) (List.range nrMaps) g
            (u, fun _ => .none)) s
          calls (0, g', u', notes) s' ∧
        (∀ i < nrMaps,
          g'.mapFd i = (g'.mapData i).fd ∧ 0 ≤ g'.mapFd i ∧
            GivenBy (g.mapData i) (g'.mapFd i) (notes i)
              (created i)) ∧
          (calls = (List.range nrMaps).flatMap fun i =>
            (notes i).calls ++ (created i).toList) ∧
            (ProgArrayNoted nrMaps g g' ↔
              ReuseHarmless nrMaps g notes created) := by
  have hFds' : ∀ i ∈ List.range nrMaps,
      (g.mapData i).fd = -1 :=
    fun i hMem => hFds i (List.mem_range.mp hMem)
  rcases setsUp_loadMaps hSets List.nodup_range hFds'
    (fun _ _ => rfl) hReturns with
    ⟨notes, created, hNoted, _, hSetUp⟩
  have hLeaves :=
    (loadMaps_leaves fixupMap (List.range nrMaps) g u).of_run
      hReturns.run_eq
  have hAgree :
      ∀ i < nrMaps, g'.mapFd i = (g'.mapData i).fd := by
    intro i hLt
    have hAgrees :=
      hLeaves.2 rfl i (.inl (List.mem_range.mpr hLt))
    exact hAgrees.symm
  refine ⟨notes, created, hNoted, ?_, hSetUp.calls_eq,
    hSetUp.progArrayNoted_iff hAgree⟩
  intro i hLt
  have hMem := List.mem_range.mpr hLt
  exact ⟨hAgree i hLt, hSetUp.nonneg i hMem,
    hSetUp.given i hMem⟩

end

end

------------------------------------------------------------
-- A Program Array That Is Reused
------------------------------------------------------------

/- A callback that finds descriptor 5 for every map. -/
def reuseFive : FixupMapCb Unit :=
  fun _ _ u => return (5, u)

theorem reuseFive_setsValidFds :
    SetsValidFds (some reuseFive) := by
  intro cb hMem map i u _
  cases hMem
  have hFive : (0 : ℤ) ≤ 5 := by decide
  exact .inr hFive

/- The globals, with a program array as the only map. -/
def oneProgArray : LoaderGlobals :=
  { LoaderGlobals.start with
    mapData := fun _ =>
      ⟨-1, [], 0, ⟨BPF_MAP_TYPE_PROG_ARRAY, 4, 4, 1, 0, 0, 0⟩⟩ }

theorem returns_reuseFive :
    CallProg.Returns (allSucceed ⟨[], fun _ _ => none⟩)
      (loadMaps (some reuseFive) (List.range 1) oneProgArray
        ()) () []
      (0, oneProgArray.giveFd 0 5, ()) () := by
  have hRound :
      loadMaps (some reuseFive) (List.range 1) oneProgArray () =
        .ret (0, oneProgArray.giveFd 0 5, ()) := by
    rw [List.range_one, loadMaps_cons _ (by decide)]
    rfl
  rw [hRound]
  exact .ret _ _

/- The map has its descriptor; the variable does not. -/
theorem reused_progArray_missed :
    SetsValidFds (some reuseFive) ∧
      (∀ i < 1, (oneProgArray.mapData i).fd = -1) ∧
        CallProg.Returns (allSucceed ⟨[], fun _ _ => none⟩)
          (loadMaps (some reuseFive) (List.range 1)
            oneProgArray ()) () []
          (0, oneProgArray.giveFd 0 5, ()) () ∧
          ¬ ProgArrayNoted 1 oneProgArray
            (oneProgArray.giveFd 0 5) := by
  refine ⟨reuseFive_setsValidFds, fun _ _ => rfl,
    returns_reuseFive, ?_⟩
  intro hNoted
  have hLast : LastBelow oneProgArray.IsProgArray 1 0 :=
    lastBelow_self rfl
  exact absurd (hNoted.of_last 0 hLast) (by decide)

theorem reused_progArray_run :
    ∃ notes created,
      CallProg.Returns (allSucceed ⟨[], fun _ _ => none⟩)
          (loadMaps (some (noted reuseFive)) (List.range 1)
            oneProgArray ((), fun _ => .none)) () []
          (0, oneProgArray.giveFd 0 5, (), notes) () ∧
        GivenBy (oneProgArray.mapData 0) 5 (notes 0)
          (created 0) ∧
          (ProgArrayNoted 1 oneProgArray
              (oneProgArray.giveFd 0 5) ↔
            ReuseHarmless 1 oneProgArray notes created) := by
  rcases loadMaps_sets_up reuseFive_setsValidFds
    (fun _ _ => rfl) returns_reuseFive with
    ⟨notes, created, hNoted, hGiven, _, hArray⟩
  exact ⟨notes, created, hNoted,
    (hGiven 0 (Nat.lt_succ_self 0)).2.2, hArray⟩

end XdpDdos
