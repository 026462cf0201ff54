import Mathlib.Data.List.Sort

/-
  Walking over the keys of a hash that changes on the way.

  The keys are kept newest first, and visited bucket by
  bucket.  Each fetch starts from the key fetched before, or
  from the first key if that one is gone.

  Main declarations:
    * `bucketOrder`, `bucketOrder_sublist`
    * `restAfter`, `mem_restAfter_of_sublist`
    * `Walk`, `Walk.toCome`, `Walk.Step`
    * `Walk.Covers`, `Walk.Step.covers`
    * `Walk.FetchedOnce`, `Walk.Step.fetchedOnce`
-/

------------------------------------------------------------
-- The Order of the Keys
------------------------------------------------------------

namespace XdpDdos

section

variable {κ : Type}
variable (bucketOf : κ → ℕ)

/- The keys by their buckets; a new one is put at the head. -/
def bucketOrder (keys : List κ) : List κ :=
  keys.insertionSort fun a b => bucketOf a ≤ bucketOf b

variable {bucketOf : κ → ℕ}

private theorem pairwise_bucketOrder
    (keys : List κ) :
    (bucketOrder bucketOf keys).Pairwise
      fun a b => bucketOf a ≤ bucketOf b := by
  have hTotal :
      Std.Total fun a b : κ => bucketOf a ≤ bucketOf b :=
    ⟨fun a b => Nat.le_total (bucketOf a) (bucketOf b)⟩
  have hTrans :
      IsTrans κ fun a b => bucketOf a ≤ bucketOf b :=
    ⟨fun _ _ _ => Nat.le_trans⟩
  exact List.pairwise_insertionSort _ keys

@[simp] theorem mem_bucketOrder
    {keys : List κ}
    {key : κ} :
    key ∈ bucketOrder bucketOf keys ↔ key ∈ keys :=
  List.mem_insertionSort _

theorem nodup_bucketOrder
    {keys : List κ}
    (hNodup : keys.Nodup) :
    (bucketOrder bucketOf keys).Nodup :=
  (List.perm_insertionSort _ keys).nodup_iff.mpr hNodup

theorem length_bucketOrder
    (keys : List κ) :
    (bucketOrder bucketOf keys).length = keys.length :=
  List.length_insertionSort _ keys

/- Keys that come and go do not move the others. -/
theorem bucketOrder_sublist
    {keys keys' : List κ}
    (hSub : keys.Sublist keys') :
    (bucketOrder bucketOf keys).Sublist
      (bucketOrder bucketOf keys') := by
  have hTrans :
      IsTrans κ fun a b => bucketOf a ≤ bucketOf b :=
    ⟨fun _ _ _ => Nat.le_trans⟩
  induction hSub with
  | slnil => exact .slnil
  | cons key _ ih =>
      exact ih.trans (List.sublist_orderedInsert key _)
  | cons_cons key _ ih =>
      exact ih.orderedInsert_sublist key
        (pairwise_bucketOrder _)

end

------------------------------------------------------------
-- The Keys Behind a Key
------------------------------------------------------------

section

variable {κ : Type}
variable [DecidableEq κ]

/- The elements behind the first occurrence of another. -/
def restAfter (x : κ) : List κ → List κ
  | [] => []
  | y :: ys => if y = x then ys else restAfter x ys

theorem restAfter_cons_self
    (x : κ)
    (ys : List κ) :
    restAfter x (x :: ys) = ys :=
  if_pos rfl

theorem restAfter_append
    {x : κ}
    {pre : List κ}
    (hFirst : x ∉ pre)
    (l : List κ) :
    restAfter x (pre ++ l) = restAfter x l := by
  induction pre with
  | nil => rfl
  | cons y pre ih =>
      rw [List.mem_cons, not_or] at hFirst
      rw [List.cons_append, restAfter,
        if_neg (Ne.symm hFirst.1)]
      exact ih hFirst.2

theorem restAfter_suffix
    (x : κ)
    (l : List κ) :
    restAfter x l <:+ l := by
  induction l with
  | nil => exact List.suffix_rfl
  | cons y ys ih =>
      rw [restAfter]
      split
      · exact List.suffix_cons y ys
      · exact ih.trans (List.suffix_cons y ys)

/- An element that stays is behind the same elements. -/
theorem mem_restAfter_of_sublist
    {l l' : List κ}
    (hSub : l.Sublist l')
    (hNodup : l'.Nodup)
    {x y : κ}
    (hX : x ∈ l)
    (hY : y ∈ l) :
    y ∈ restAfter x l ↔ y ∈ restAfter x l' := by
  induction hSub with
  | slnil => exact Iff.rfl
  | cons z hSub ih =>
      rcases List.nodup_cons.mp hNodup with ⟨hFresh, hRest⟩
      have hNe : z ≠ x := by
        rintro rfl
        exact hFresh (hSub.subset hX)
      rw [restAfter, if_neg hNe]
      exact ih hRest hX hY
  | @cons_cons l l' z hSub ih =>
      rcases List.nodup_cons.mp hNodup with ⟨hFresh, hRest⟩
      have hFresh' : z ∉ l := fun hMem =>
        hFresh (hSub.subset hMem)
      rw [restAfter, restAfter]
      by_cases hEq : z = x
      · subst hEq
        rw [if_pos rfl, if_pos rfl]
        rcases List.mem_cons.mp hY with rfl | hIn
        · exact iff_of_false hFresh' hFresh
        · exact iff_of_true hIn (hSub.subset hIn)
      · rw [if_neg hEq, if_neg hEq]
        have hX' : x ∈ l :=
          (List.mem_cons.mp hX).resolve_left (Ne.symm hEq)
        rcases List.mem_cons.mp hY with rfl | hIn
        · exact iff_of_false
            (fun hMem =>
              hFresh' ((restAfter_suffix x l).subset hMem))
            (fun hMem =>
              hFresh ((restAfter_suffix x l').subset hMem))
        · exact ih hRest hX' hIn

/- A new key comes before all others of its bucket. -/
theorem mem_restAfter_bucketOrder_cons
    {bucketOf : κ → ℕ}
    {key other : κ}
    {keys : List κ}
    (hMem : other ∈ keys)
    (hBucket : bucketOf key ≤ bucketOf other) :
    other ∈ restAfter key (bucketOrder bucketOf (key :: keys)) := by
  have hOther : other ∈ bucketOrder bucketOf keys :=
    mem_bucketOrder.mpr hMem
  rw [bucketOrder, List.insertionSort_cons]
  change other ∈ restAfter key
    ((bucketOrder bucketOf keys).orderedInsert
      (fun a b => bucketOf a ≤ bucketOf b) key)
  generalize bucketOrder bucketOf keys = l at hOther ⊢
  induction l with
  | nil => cases hOther
  | cons first l ih =>
      rw [List.orderedInsert_cons]
      by_cases hFirst : bucketOf key ≤ bucketOf first
      · rw [if_pos hFirst, restAfter_cons_self]
        exact hOther
      · rw [if_neg hFirst, restAfter, if_neg]
        · apply ih
          rcases List.mem_cons.mp hOther with rfl | hIn
          · exact absurd hBucket hFirst
          · exact hIn
        · rintro rfl
          exact hFirst (Nat.le_refl _)

end

------------------------------------------------------------
-- Walks
------------------------------------------------------------

/-
  The keys at some time of a walk, the ones that were fetched
  before, and whether a fetch has found no more.
-/
structure Walk (κ : Type) where
  keys : List κ
  fetched : List κ
  ended : Bool

namespace Walk

variable {κ : Type}
variable [DecidableEq κ]
variable (bucketOf : κ → ℕ)

/- The keys that would be fetched if none came or went. -/
def toCome (w : Walk κ) : List κ :=
  match w.fetched.getLast? with
  | none => bucketOrder bucketOf w.keys
  | some last =>
      if last ∈ w.keys then
        restAfter last (bucketOrder bucketOf w.keys)
      else bucketOrder bucketOf w.keys

/- A key comes or goes, or the next one is fetched. -/
inductive Step : Walk κ → Walk κ → Prop where
  | add
      {w : Walk κ}
      (key : κ)
      (hNew : key ∉ w.keys) :
      Step w { w with keys := key :: w.keys }
  | remove
      {w : Walk κ}
      (key : κ) :
      Step w { w with keys := w.keys.erase key }
  | fetch
      {w : Walk κ}
      {key : κ}
      (hRunning : w.ended = false)
      (hNext : (w.toCome bucketOf).head? = some key) :
      Step w { w with fetched := w.fetched ++ [key] }
  | finish
      {w : Walk κ}
      (hRunning : w.ended = false)
      (hNext : (w.toCome bucketOf).head? = none) :
      Step w { w with ended := true }

variable {bucketOf : κ → ℕ}
variable {w w' : Walk κ}
variable {key last : κ}

theorem toCome_of_none
    (hNone : w.fetched.getLast? = none) :
    w.toCome bucketOf = bucketOrder bucketOf w.keys := by
  rw [toCome, hNone]

theorem toCome_of_mem
    (hLast : w.fetched.getLast? = some last)
    (hMem : last ∈ w.keys) :
    w.toCome bucketOf =
      restAfter last (bucketOrder bucketOf w.keys) := by
  simp only [toCome, hLast, if_pos hMem]

theorem toCome_of_notMem
    (hLast : w.fetched.getLast? = some last)
    (hGone : last ∉ w.keys) :
    w.toCome bucketOf = bucketOrder bucketOf w.keys := by
  simp only [toCome, hLast, if_neg hGone]

theorem toCome_suffix
    (w : Walk κ) :
    w.toCome bucketOf <:+ bucketOrder bucketOf w.keys := by
  unfold toCome
  cases w.fetched.getLast? with
  | none => exact List.suffix_rfl
  | some last =>
      simp only
      split
      · exact restAfter_suffix last _
      · exact List.suffix_rfl

theorem length_toCome_le
    (w : Walk κ) :
    (w.toCome bucketOf).length ≤ w.keys.length := by
  have hSuffix :
      w.toCome bucketOf <:+ bucketOrder bucketOf w.keys :=
    w.toCome_suffix
  have hLength := hSuffix.length_le
  rwa [length_bucketOrder] at hLength

/- A fetch leaves the keys behind the fetched one. -/
theorem toCome_fetch
    {rest : List κ}
    (hNodup : w.keys.Nodup)
    (hCome : w.toCome bucketOf = key :: rest) :
    ({ w with fetched := w.fetched ++ [key] } : Walk κ).toCome
        bucketOf =
      rest := by
  have hSuffix :
      w.toCome bucketOf <:+ bucketOrder bucketOf w.keys :=
    w.toCome_suffix
  rcases hSuffix with ⟨pre, hOrder⟩
  rw [hCome] at hOrder
  have hNodup' : (bucketOrder bucketOf w.keys).Nodup :=
    nodup_bucketOrder hNodup
  have hFirst : key ∉ pre := by
    rw [← hOrder, List.nodup_append] at hNodup'
    intro hMem
    exact hNodup'.2.2 key hMem key List.mem_cons_self rfl
  have hMem : key ∈ bucketOrder bucketOf w.keys := by
    rw [← hOrder]
    exact List.mem_append_right pre List.mem_cons_self
  have hLast :
      ({ w with fetched := w.fetched ++ [key] } :
        Walk κ).fetched.getLast? = some key :=
    List.getLast?_concat
  rw [toCome_of_mem hLast (mem_bucketOrder.mp hMem)]
  change restAfter key (bucketOrder bucketOf w.keys) = rest
  rw [← hOrder, restAfter_append hFirst, restAfter_cons_self]

/- Others do not move a key past the one fetched last. -/
theorem mem_toCome_iff_of_sublist
    (hSame : w'.fetched = w.fetched)
    (hSub : w.keys.Sublist w'.keys)
    (hNodup : w'.keys.Nodup)
    (hLast : ∀ last ∈ w.fetched.getLast?, last ∈ w.keys)
    (hMem : key ∈ w.keys) :
    key ∈ w.toCome bucketOf ↔ key ∈ w'.toCome bucketOf := by
  cases hCursor : w.fetched.getLast? with
  | none =>
      rw [toCome_of_none hCursor, toCome_of_none
        (hSame ▸ hCursor), mem_bucketOrder, mem_bucketOrder]
      exact iff_of_true hMem (hSub.subset hMem)
  | some last =>
      have hIn := hLast last hCursor
      rw [toCome_of_mem hCursor hIn,
        toCome_of_mem (hSame ▸ hCursor) (hSub.subset hIn)]
      exact mem_restAfter_of_sublist (bucketOrder_sublist hSub)
        (nodup_bucketOrder hNodup) (mem_bucketOrder.mpr hIn)
        (mem_bucketOrder.mpr hMem)

------------------------------------------------------------
-- Every Key That Stays Is Fetched
------------------------------------------------------------

/-
  The key was fetched or is still to come.  Then its bucket is
  not before that of the key fetched last, so that it is not
  passed if that one goes and comes back.
-/
def Covers
    (bucketOf : κ → ℕ)
    (w : Walk κ)
    (key : κ) : Prop :=
  key ∈ w.fetched ∨
    w.ended = false ∧ key ∈ w.toCome bucketOf ∧
      ∀ last ∈ w.fetched.getLast?,
        bucketOf last ≤ bucketOf key

theorem covers_start
    {keys : List κ}
    (hMem : key ∈ keys) :
    Covers bucketOf ⟨keys, [], false⟩ key := by
  refine Or.inr ⟨rfl, mem_bucketOrder.mpr hMem, ?_⟩
  intro last hLast
  cases hLast

theorem Covers.of_ended
    (hCovers : Covers bucketOf w key)
    (hEnded : w.ended = true) :
    key ∈ w.fetched := by
  refine hCovers.resolve_right ?_
  rintro ⟨hRunning, _⟩
  rw [hEnded] at hRunning
  cases hRunning

/- A key is not passed when another one comes. -/
theorem mem_toCome_add
    {new : κ}
    (hSame : w'.fetched = w.fetched)
    (hKeys : w'.keys = new :: w.keys)
    (hNodup : w'.keys.Nodup)
    (hMem : key ∈ w.keys)
    (hCome : key ∈ w.toCome bucketOf)
    (hBucket :
      ∀ last ∈ w.fetched.getLast?,
        bucketOf last ≤ bucketOf key) :
    key ∈ w'.toCome bucketOf := by
  have hMem' : key ∈ w'.keys := by
    rw [hKeys]
    exact List.mem_cons_of_mem new hMem
  cases hCursor : w.fetched.getLast? with
  | none =>
      rw [toCome_of_none (hSame ▸ hCursor), mem_bucketOrder]
      exact hMem'
  | some last =>
      have hCursor' : w'.fetched.getLast? = some last :=
        hSame ▸ hCursor
      by_cases hIn : last ∈ w.keys
      · have hStays :
            ∀ last ∈ w.fetched.getLast?, last ∈ w.keys := by
          intro last' hLast'
          rw [hCursor] at hLast'
          cases hLast'
          exact hIn
        have hSub : w.keys.Sublist w'.keys := by
          rw [hKeys]
          exact List.sublist_cons_self new w.keys
        exact (mem_toCome_iff_of_sublist hSame hSub hNodup
          hStays hMem).mp hCome
      · by_cases hNew : last = new
        · -- it comes back, at the head of its bucket
          subst hNew
          have hBack : last ∈ w'.keys := by
            rw [hKeys]
            exact List.mem_cons_self
          rw [toCome_of_mem hCursor' hBack, hKeys]
          exact mem_restAfter_bucketOrder_cons hMem
            (hBucket last hCursor)
        · rw [toCome_of_notMem hCursor', mem_bucketOrder]
          · exact hMem'
          · rw [hKeys, List.mem_cons, not_or]
            exact ⟨hNew, hIn⟩

/- Nor when another one goes. -/
theorem mem_toCome_remove
    (hSame : w.fetched = w'.fetched)
    (hSub : w'.keys.Sublist w.keys)
    (hNodup : w.keys.Nodup)
    (hMem : key ∈ w'.keys)
    (hCome : key ∈ w.toCome bucketOf) :
    key ∈ w'.toCome bucketOf := by
  cases hCursor : w'.fetched.getLast? with
  | none =>
      rw [toCome_of_none hCursor, mem_bucketOrder]
      exact hMem
  | some last =>
      by_cases hIn : last ∈ w'.keys
      · have hStays :
            ∀ last ∈ w'.fetched.getLast?,
              last ∈ w'.keys := by
          intro last' hLast'
          rw [hCursor] at hLast'
          cases hLast'
          exact hIn
        exact (mem_toCome_iff_of_sublist hSame hSub hNodup
          hStays hMem).mpr hCome
      · rw [toCome_of_notMem hCursor hIn, mem_bucketOrder]
        exact hMem

/- The keys to come are in the order of their buckets. -/
theorem bucketOf_le_of_toCome
    {rest : List κ}
    (hCome : w.toCome bucketOf = last :: rest)
    (hMem : key ∈ rest) :
    bucketOf last ≤ bucketOf key := by
  have hSuffix :
      w.toCome bucketOf <:+ bucketOrder bucketOf w.keys :=
    w.toCome_suffix
  have hSorted :=
    (pairwise_bucketOrder w.keys).sublist hSuffix.sublist
  rw [hCome, List.pairwise_cons] at hSorted
  exact hSorted.1 key hMem

/- What a step does to a key that stays. -/
theorem Step.covers
    (hStep : Step bucketOf w w')
    (hNodup : w.keys.Nodup)
    (hStays : w.ended = false → key ∈ w.keys)
    (hStays' : w'.ended = false → key ∈ w'.keys)
    (hCovers : Covers bucketOf w key) :
    Covers bucketOf w' key := by
  rcases hCovers with hFetched | ⟨hRunning, hCome, hBucket⟩
  · left
    cases hStep with
    | add new hNew => exact hFetched
    | remove old => exact hFetched
    | fetch _ hNext => exact List.mem_append_left _ hFetched
    | finish _ hNext => exact hFetched
  · cases hStep with
    | add new hNew =>
        exact Or.inr ⟨hRunning,
          mem_toCome_add (w := w) rfl rfl
            (List.nodup_cons.mpr ⟨hNew, hNodup⟩)
            (hStays hRunning) hCome hBucket, hBucket⟩
    | remove old =>
        exact Or.inr ⟨hRunning,
          mem_toCome_remove (w := w) rfl List.erase_sublist
            hNodup (hStays' hRunning) hCome, hBucket⟩
    | @fetch first _ hNext =>
        rcases List.head?_eq_some_iff.mp hNext with
          ⟨rest, hSplit⟩
        rw [hSplit] at hCome
        rcases List.mem_cons.mp hCome with rfl | hRest
        · exact Or.inl (List.mem_append_right _
            List.mem_cons_self)
        · refine Or.inr ⟨hRunning, ?_, ?_⟩
          · rw [toCome_fetch hNodup hSplit]
            exact hRest
          · intro last hLast
            rw [List.getLast?_concat] at hLast
            cases hLast
            exact bucketOf_le_of_toCome hSplit hRest
    | finish _ hNext =>
        rw [List.head?_eq_none_iff.mp hNext] at hCome
        cases hCome

------------------------------------------------------------
-- No Key That Stays Is Fetched Again
------------------------------------------------------------

/- A key that was fetched is not among those to come. -/
structure FetchedOnce
    (bucketOf : κ → ℕ)
    (w : Walk κ)
    (key : κ) : Prop where
  count_le : w.fetched.count key ≤ 1
  notMem :
    w.ended = false → key ∈ w.fetched →
      key ∉ w.toCome bucketOf

theorem fetchedOnce_start
    (keys : List κ) :
    FetchedOnce bucketOf ⟨keys, [], false⟩ key where
  count_le := Nat.zero_le 1
  notMem := by
    intro _ hFetched
    cases hFetched

/- As long as the key that was fetched last stays, too. -/
theorem Step.fetchedOnce
    (hStep : Step bucketOf w w')
    (hNodup : w.keys.Nodup)
    (hStays : w.ended = false → key ∈ w.keys)
    (hStays' : w'.ended = false → key ∈ w'.keys)
    (hLast :
      w.ended = false →
        ∀ last ∈ w.fetched.getLast?, last ∈ w.keys)
    (hLast' :
      w'.ended = false →
        ∀ last ∈ w'.fetched.getLast?, last ∈ w'.keys)
    (hOnce : FetchedOnce bucketOf w key) :
    FetchedOnce bucketOf w' key := by
  cases hStep with
  | add new hNew =>
      refine ⟨hOnce.count_le, ?_⟩
      intro hRunning hFetched hCome
      have hSame :
          ({ w with keys := new :: w.keys } :
            Walk κ).fetched = w.fetched := rfl
      exact hOnce.notMem hRunning hFetched
        ((mem_toCome_iff_of_sublist hSame
          (List.sublist_cons_self new w.keys)
          (List.nodup_cons.mpr ⟨hNew, hNodup⟩)
          (hLast hRunning) (hStays hRunning)).mpr hCome)
  | remove old =>
      refine ⟨hOnce.count_le, ?_⟩
      intro hRunning hFetched hCome
      have hSame :
          w.fetched =
            ({ w with keys := w.keys.erase old } :
              Walk κ).fetched := rfl
      exact hOnce.notMem hRunning hFetched
        ((mem_toCome_iff_of_sublist hSame List.erase_sublist
          hNodup (hLast' hRunning)
          (hStays' hRunning)).mp hCome)
  | @fetch first hRunning hNext =>
      rcases List.head?_eq_some_iff.mp hNext with
        ⟨rest, hSplit⟩
      have hFresh : first ∉ rest := by
        have hSuffix :
            w.toCome bucketOf <:+
              bucketOrder bucketOf w.keys :=
          w.toCome_suffix
        have hNodup' :=
          (nodup_bucketOrder hNodup).sublist hSuffix.sublist
        rw [hSplit] at hNodup'
        exact (List.nodup_cons.mp hNodup').1
      have hOld (hFetched : key ∈ w.fetched) :
          key ∉ first :: rest := by
        rw [← hSplit]
        exact hOnce.notMem hRunning hFetched
      constructor
      · by_cases hEq : first = key
        · -- it was not fetched before
          subst hEq
          have hNot : first ∉ w.fetched := fun hFetched =>
            hOld hFetched List.mem_cons_self
          rw [List.count_append,
            List.count_eq_zero_of_not_mem hNot,
            List.count_singleton_self]
        · rw [List.count_append,
            List.count_singleton, if_neg (by simpa using hEq)]
          exact hOnce.count_le
      · intro _ hFetched
        rw [toCome_fetch hNodup hSplit]
        rcases List.mem_append.mp hFetched with hIn | hIn
        · exact fun hRest =>
            hOld hIn (List.mem_cons_of_mem first hRest)
        · rw [List.mem_singleton.mp hIn]
          exact hFresh
  | finish hRunning hNext =>
      refine ⟨hOnce.count_le, ?_⟩
      intro hRunning'
      cases hRunning'

/- It was fetched exactly once, if it was at all. -/
theorem FetchedOnce.count_eq
    (hOnce : FetchedOnce bucketOf w key)
    (hFetched : key ∈ w.fetched) :
    w.fetched.count key = 1 :=
  Nat.le_antisymm hOnce.count_le
    (List.count_pos_iff.mpr hFetched)

end Walk

end XdpDdos
