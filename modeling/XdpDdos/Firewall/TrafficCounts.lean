import XdpDdos.Firewall.TrafficVerdict
import XdpDdos.Kern.Accounting

/-
  The verdict counters while frames are in flight on all CPUs
  and rules are edited.

  A counter is loaded and stored in two accesses.  It is one
  CPU that does so, with one frame at a time, and no process
  writes it: so no count is lost.

  Main declarations:
    * `TrafficResponse.Counts`, `verdictCount`
    * `Counting`, `Counting.access`
    * `verdict_counters_exact`
-/

------------------------------------------------------------
-- Who Writes the Counters
------------------------------------------------------------

namespace XdpDdos

variable {ι : Type} [DecidableEq ι]
variable {nrCpus : ℕ}

section

variable {mem : Memory nrCpus}
variable {cpu cpu' : Fin nrCpus}

/- A write on another CPU, or of another map. -/
theorem Memory.setSlot_verdictCnt
    {value : ValuePtr}
    (hOther : cpu' ≠ cpu ∨ value.map ≠ .verdictCnt)
    (word : BitVec 64)
    (idx : Fin XDP_ACTION_MAX) :
    (mem.setSlot cpu' value word).maps.verdictCnt.slots idx
        cpu =
      mem.maps.verdictCnt.slots idx cpu := by
  unfold setSlot
  split
  · split
    · rfl
    · rfl
  · rename_i hMap
    have hCpu : cpu' ≠ cpu :=
      hOther.resolve_right (not_not_intro hMap)
    simp only [setArraySlot]
    split
    · rw [PercpuArray.slots_setSlot,
        if_neg (fun hBoth => hCpu hBoth.2.symm)]
    · rfl
  · rfl
  · rfl

theorem Memory.access_verdictCnt
    {op : FrameCall}
    (hOther : cpu' ≠ cpu ∨ op.Spares .verdictCnt)
    (idx : Fin XDP_ACTION_MAX) :
    (Memory.access cpu' op mem).2.maps.verdictCnt.slots idx
        cpu =
      mem.maps.verdictCnt.slots idx cpu := by
  cases op with
  | lookupElem map key => rfl
  | load32 value => rfl
  | load64 value => rfl
  | store32 value word =>
      exact mem.setSlot_verdictCnt hOther _ idx
  | store64 value word =>
      exact mem.setSlot_verdictCnt hOther _ idx

theorem Memory.control_verdictCnt
    {op : MapCall nrCpus}
    (hOp : op.Allowed) :
    (Memory.control op mem).2.maps.verdictCnt =
      mem.maps.verdictCnt := by
  rw [(mem.control_maps op).2]
  cases op with
  | lookupElem fd key => rfl
  | deleteElem fd key => cases fd <;> rfl
  | updateElem fd key values flag =>
      cases fd with
      | blacklist | portBlacklist | portBlacklistDropCount =>
          rfl
      | verdictCnt => exact hOp.elim

end

------------------------------------------------------------
-- The Phases of a Flight
------------------------------------------------------------

/- The verdict counter of an action. -/
def verdictPtr (action : XdpAction) : ValuePtr :=
  ⟨.verdictCnt, action.code, 0⟩

/- What is left to do once the verdict is known. -/
def countVerdict (action : XdpAction) : FrameProg XdpAction := do
  InFlight.statsActionVerdict action
  return action

/-
  How far a frame is on `cpu`, when `n` frames have been
  counted for `action` and got their verdict: whether it is
  skipped, or about to get a verdict, to load the counter, to
  store it, or to return.
-/
inductive Counting
    (mem : Memory nrCpus)
    (cpu : Fin nrCpus)
    (action : XdpAction)
    (idx : Fin XDP_ACTION_MAX)
    (n : ℕ)
    (ctx : Frame) : FrameProg XdpAction → Prop where
  | skipped
      (hView : ctx.view = .skipped)
      (hSlot :
        mem.maps.verdictCnt.slots idx cpu =
          BitVec.ofNat 64 n) :
      Counting mem cpu action idx n ctx (.ret .pass)
  | deciding {p prog}
      (hView : ctx.view ≠ .skipped)
      (hSpares :
        p.Guarantees FrameCall.Answers
          (FrameCall.Spares .verdictCnt))
      (hProg : prog = p >>= countVerdict)
      (hSlot :
        mem.maps.verdictCnt.slots idx cpu =
          BitVec.ofNat 64 n) :
      Counting mem cpu action idx n ctx prog
  | loading {verdict idx'}
      (hView : ctx.view ≠ .skipped)
      (hIdx : verdict.index? = some idx')
      (hSlot :
        mem.maps.verdictCnt.slots idx cpu =
          BitVec.ofNat 64 n) :
      Counting mem cpu action idx n ctx
        (.call (.load64 (verdictPtr verdict)) fun count =>
          .call (.store64 (verdictPtr verdict) (count + 1))
            fun _ => .ret verdict)
  | storing {verdict idx'}
      (hView : ctx.view ≠ .skipped)
      (hIdx : verdict.index? = some idx')
      (hSlot :
        mem.maps.verdictCnt.slots idx cpu =
          BitVec.ofNat 64 n) :
      Counting mem cpu action idx n ctx
        (.call
          (.store64 (verdictPtr verdict)
            (mem.maps.verdictCnt.slots idx' cpu + 1))
          fun _ => .ret verdict)
  | stored {verdict}
      (hView : ctx.view ≠ .skipped)
      (hSlot :
        mem.maps.verdictCnt.slots idx cpu =
          BitVec.ofNat 64
            (if verdict = action then n + 1 else n)) :
      Counting mem cpu action idx n ctx (.ret verdict)

section

variable {mem mem' : Memory nrCpus}
variable {cpu : Fin nrCpus}
variable {action : XdpAction}
variable {idx : Fin XDP_ACTION_MAX}
variable {n : ℕ}
variable {ctx : Frame}
variable {prog : FrameProg XdpAction}

/- A phase looks at the counters of its CPU only. -/
theorem Counting.congr
    (hCounting : Counting mem cpu action idx n ctx prog)
    (hSame :
      ∀ idx,
        mem'.maps.verdictCnt.slots idx cpu =
          mem.maps.verdictCnt.slots idx cpu) :
    Counting mem' cpu action idx n ctx prog := by
  cases hCounting with
  | skipped hView hSlot =>
      exact .skipped hView ((hSame idx).trans hSlot)
  | deciding hView hSpares hProg hSlot =>
      exact .deciding hView hSpares hProg
        ((hSame idx).trans hSlot)
  | loading hView hIdx hSlot =>
      exact .loading hView hIdx ((hSame idx).trans hSlot)
  | @storing verdict idx' hView hIdx hSlot =>
      rw [← hSame idx']
      exact .storing hView hIdx ((hSame idx).trans hSlot)
  | stored hView hSlot =>
      exact .stored hView ((hSame idx).trans hSlot)

/- The first phase. -/
theorem counting_xdpProgram
    (action : XdpAction)
    (ctx : Frame)
    (hSlot :
      mem.maps.verdictCnt.slots idx cpu =
        BitVec.ofNat 64 n) :
    Counting mem cpu action idx n ctx
      (InFlight.xdpProgram ctx) := by
  rw [InFlight.xdpProgram_eq]
  by_cases hView : ctx.view = .skipped
  · rw [if_pos hView]
    exact .skipped hView hSlot
  · rw [if_neg hView]
    exact .deciding hView
      (InFlight.guarantees_ofView ctx.view (by simp) (by simp))
      rfl hSlot

/- The statistics of a verdict that has a counter. -/
theorem countVerdict_of_some
    {verdict : XdpAction}
    {idx' : Fin XDP_ACTION_MAX}
    (hIdx : verdict.index? = some idx') :
    ∃ next,
      countVerdict verdict =
          .call (.lookupElem .verdictCnt verdict.code) next ∧
        ∀ value, next (some value) =
          .call (.load64 value) fun count =>
            .call (.store64 value (count + 1)) fun _ =>
              .ret verdict := by
  have hRange : ¬ verdict.code.toNat ≥ XDP_ACTION_MAX := by
    intro hGe
    rw [XdpAction.index?, PercpuArray.index?_of_ge hGe] at hIdx
    cases hIdx
  rw [countVerdict, InFlight.statsActionVerdict,
    if_neg hRange]
  exact ⟨_, rfl, fun value => rfl⟩

/- A verdict without a counter is returned at once. -/
theorem countVerdict_of_none
    {verdict : XdpAction}
    (hIdx : verdict.index? = none) :
    countVerdict verdict = .ret verdict := by
  have hRange : verdict.code.toNat ≥ XDP_ACTION_MAX := by
    by_contra hLt
    rw [XdpAction.index?,
      PercpuArray.index?_of_lt (Nat.lt_of_not_ge hLt)] at hIdx
    cases hIdx
  rw [countVerdict, InFlight.statsActionVerdict,
    if_pos hRange]
  rfl

/- Storing the counter of a verdict. -/
theorem slots_store_verdict
    (mem : Memory nrCpus)
    (cpu : Fin nrCpus)
    {verdict : XdpAction}
    {idx' : Fin XDP_ACTION_MAX}
    (hIdx : verdict.index? = some idx')
    (word : BitVec 64)
    (idx : Fin XDP_ACTION_MAX) :
    (mem.setSlot cpu (verdictPtr verdict)
        word).maps.verdictCnt.slots idx cpu =
      if idx = idx' then word
      else mem.maps.verdictCnt.slots idx cpu := by
  rw [XdpAction.index?] at hIdx
  simp only [Memory.setSlot, verdictPtr, Memory.setArraySlot,
    hIdx, PercpuArray.slots_setSlot, and_true]

/- Loading it. -/
theorem slot_verdict
    (mem : Memory nrCpus)
    (cpu : Fin nrCpus)
    {verdict : XdpAction}
    {idx' : Fin XDP_ACTION_MAX}
    (hIdx : verdict.index? = some idx') :
    mem.slot cpu (verdictPtr verdict) =
      mem.maps.verdictCnt.slots idx' cpu := by
  rw [XdpAction.index?] at hIdx
  simp only [Memory.slot, verdictPtr, Memory.arraySlot, hIdx]

/- An access by the CPU itself goes on to a next phase. -/
theorem Counting.access
    {op : FrameCall}
    {next : FrameCall.Resp op → FrameProg XdpAction}
    (hAction : action.index? = some idx)
    (hCounting :
      Counting mem cpu action idx n ctx (.call op next)) :
    Counting (Memory.access cpu op mem).2 cpu action idx n
      ctx (next (Memory.access cpu op mem).1) := by
  generalize hCall : CallProg.call op next = prog at hCounting
  cases hCounting with
  | skipped hView hSlot => cases hCall
  | stored hView hSlot => cases hCall
  | @deciding p _ hView hSpares hProg hSlot =>
      subst hProg
      cases p with
      | halt how => cases hCall
      | ret verdict =>
          cases hIdx : verdict.index? with
          | none =>
              rw [CallProg.ret_bind,
                countVerdict_of_none hIdx] at hCall
              cases hCall
          | some idx' =>
              rcases countVerdict_of_some hIdx with
                ⟨next', hNext, hFound'⟩
              rw [CallProg.ret_bind, hNext] at hCall
              cases hCall
              have hFound :
                  mem.lookupElem .verdictCnt verdict.code =
                    some (verdictPtr verdict) := by
                rw [XdpAction.index?] at hIdx
                simp only [Memory.lookupElem, hIdx,
                  Option.map_some, verdictPtr]
              simp only [Memory.access, hFound]
              rw [hFound']
              exact .loading hView hIdx hSlot
      | call op' next' =>
          cases hCall
          rcases hSpares with ⟨hOp, hNext⟩
          have hAnswer := mem.access_answers cpu op
          exact .deciding hView (hNext _ hAnswer) rfl
            ((Memory.access_verdictCnt (Or.inr hOp) idx).trans
              hSlot)
  | @loading verdict idx' hView hIdx hSlot =>
      cases hCall
      simp only [Memory.access]
      rw [slot_verdict mem cpu hIdx]
      exact .storing hView hIdx hSlot
  | @storing verdict idx' hView hIdx hSlot =>
      cases hCall
      apply Counting.stored hView
      simp only [Memory.access,
        slots_store_verdict mem cpu hIdx]
      by_cases hHere : verdict = action
      · subst hHere
        rw [hAction] at hIdx
        cases hIdx
        rw [if_pos rfl, if_pos rfl, hSlot, BitVec.ofNat_add]
        rfl
      · have hOther : idx ≠ idx' := by
          rintro rfl
          exact hHere
            ((XdpAction.index?_eq_iff hAction).mp hIdx)
        rw [if_neg hOther, if_neg hHere, hSlot]

end

------------------------------------------------------------
-- Verdicts That Are Counted
------------------------------------------------------------

/- A frame of the CPU, parsed at layer 2, got the verdict. -/
def TrafficResponse.Counts
    (cpu : Fin nrCpus)
    (action : XdpAction) : TrafficResponse nrCpus → Prop
  | .quiet => False
  | .verdict cpu' ctx action' =>
      cpu' = cpu ∧ action' = action ∧ parsedEth ctx = true

instance
    (cpu : Fin nrCpus)
    (action : XdpAction) :
    DecidablePred
      (TrafficResponse.Counts cpu action :
        TrafficResponse nrCpus → _)
  | .quiet => isFalse id
  | .verdict cpu' ctx action' =>
      inferInstanceAs
        (Decidable (cpu' = cpu ∧ action' = action ∧
          parsedEth ctx = true))

/- How many frames of a run got a verdict on a CPU. -/
def verdictCount
    (cpu : Fin nrCpus)
    (action : XdpAction)
    (es : List (TrafficEvent ι nrCpus)) : ℕ :=
  trafficSystem.ghost
    (fun _ _ r n => if r.Counts cpu action then n + 1 else n)
    .boot 0 es

/- What the counter has to do with the verdicts so far. -/
def CountsUpTo
    (mem : Memory nrCpus)
    (cpu : Fin nrCpus)
    (action : XdpAction)
    (idx : Fin XDP_ACTION_MAX)
    (n : ℕ) : Option Flight → Prop
  | none =>
      mem.maps.verdictCnt.slots idx cpu = BitVec.ofNat 64 n
  | some flight =>
      Counting mem cpu action idx n flight.ctx flight.prog

section

variable {mem mem' : Memory nrCpus}
variable {cpu : Fin nrCpus}
variable {action : XdpAction}
variable {idx : Fin XDP_ACTION_MAX}
variable {n : ℕ}

theorem CountsUpTo.congr
    {flight : Option Flight}
    (hCounts : CountsUpTo mem cpu action idx n flight)
    (hSame :
      ∀ idx,
        mem'.maps.verdictCnt.slots idx cpu =
          mem.maps.verdictCnt.slots idx cpu) :
    CountsUpTo mem' cpu action idx n flight := by
  cases flight with
  | none => exact (hSame idx).trans hCounts
  | some flight => exact Counting.congr hCounts hSame

/- A frame that returns is one that has been counted. -/
theorem Counting.returned
    {ctx : Frame}
    {verdict : XdpAction}
    (hAction : action.index? = some idx)
    (hCounting :
      Counting mem cpu action idx n ctx (.ret verdict)) :
    mem.maps.verdictCnt.slots idx cpu =
      BitVec.ofNat 64
        (if TrafficResponse.Counts cpu action
            (.verdict cpu ctx verdict)
          then n + 1 else n) := by
  generalize hRet : CallProg.ret verdict = prog at hCounting
  cases hCounting with
  | loading hView hIdx hSlot => cases hRet
  | storing hView hIdx hSlot => cases hRet
  | skipped hView hSlot =>
      have hUnparsed : parsedEth ctx ≠ true :=
        fun hParsed => (parsedEth_iff ctx).mp hParsed hView
      rw [if_neg (fun hCounts => hUnparsed hCounts.2.2)]
      exact hSlot
  | @stored verdict' hView hSlot =>
      cases hRet
      have hParsed := (parsedEth_iff ctx).mpr hView
      have hIff :
          TrafficResponse.Counts cpu action
              (.verdict cpu ctx verdict) ↔
            verdict = action :=
        ⟨fun hCounts => hCounts.2.1,
          fun hSame => ⟨rfl, hSame, hParsed⟩⟩
      rw [hSlot]
      simp only [hIff]
  | @deciding p _ hView hSpares hProg hSlot =>
      subst hProg
      cases p with
      | halt how => cases hRet
      | call op next => cases hRet
      | ret verdict' =>
          cases hIdx : verdict'.index? with
          | some idx' =>
              rcases countVerdict_of_some hIdx with
                ⟨next', hNext, _⟩
              rw [CallProg.ret_bind, hNext] at hRet
              cases hRet
          | none =>
              rw [CallProg.ret_bind,
                countVerdict_of_none hIdx] at hRet
              cases hRet
              rw [if_neg]
              · exact hSlot
              · rintro ⟨_, rfl, _⟩
                rw [hAction] at hIdx
                cases hIdx

/- A step keeps the counter and the count together. -/
theorem TrafficStep.countsUpTo
    {t t' : Traffic ι nrCpus}
    {e : TrafficEvent ι nrCpus}
    {r : TrafficResponse nrCpus}
    (hAction : action.index? = some idx)
    (hStep : TrafficStep t e r t')
    (hInv : t.Inv)
    (hCounts :
      CountsUpTo t.mem cpu action idx n (t.flights cpu)) :
    CountsUpTo t'.mem cpu action idx
      (if r.Counts cpu action then n + 1 else n)
      (t'.flights cpu) := by
  have hQuiet :
      ¬ TrafficResponse.Counts cpu action
        (.quiet : TrafficResponse nrCpus) := id
  cases hStep with
  | stayed =>
      rw [if_neg hQuiet]
      exact hCounts
  | started =>
      rw [if_neg hQuiet]
      exact hCounts
  | @called i op next hProg =>
      have hCall := hInv.procs i
      rw [hProg] at hCall
      rw [if_neg hQuiet]
      apply hCounts.congr
      intro idx
      rw [Memory.control_verdictCnt hCall.1]
  | @received cpu' ctx hIdle =>
      rw [if_neg hQuiet]
      by_cases hHere : cpu = cpu'
      · subst hHere
        rw [hIdle] at hCounts
        simp only [Function.update_self]
        exact counting_xdpProgram action ctx hCounts
      · simp only [Function.update_of_ne hHere]
        exact hCounts
  | @accessed cpu' ctx op next hFlight =>
      rw [if_neg hQuiet]
      by_cases hHere : cpu = cpu'
      · subst hHere
        rw [hFlight] at hCounts
        simp only [Function.update_self]
        exact Counting.access hAction hCounts
      · simp only [Function.update_of_ne hHere]
        apply hCounts.congr
        exact fun idx =>
          Memory.access_verdictCnt (Or.inl (Ne.symm hHere)) idx
  | @returned cpu' ctx verdict hFlight =>
      by_cases hHere : cpu = cpu'
      · subst hHere
        rw [hFlight] at hCounts
        simp only [Function.update_self]
        exact Counting.returned hAction hCounts
      · rw [if_neg (fun hBoth => hHere hBoth.1.symm)]
        simp only [Function.update_of_ne hHere]
        exact hCounts

/-
  Whatever CPUs and processes do in between, a CPU that is
  idle has counted exactly the frames that were parsed and
  that got the verdict on it, modulo 2^64.
-/
theorem verdict_counters_exact
    (es : List (TrafficEvent ι nrCpus))
    (hIdle :
      (trafficSystem.final .boot es).flights cpu = none)
    (hAction : action.index? = some idx) :
    (trafficSystem.final .boot
        es).mem.maps.verdictCnt.slots idx cpu =
      BitVec.ofNat 64 (verdictCount cpu action es) := by
  have hCounts :
      (trafficSystem.final .boot es).Inv ∧
        CountsUpTo (trafficSystem.final .boot es).mem cpu
          action idx (verdictCount cpu action es)
          ((trafficSystem.final .boot es).flights cpu) := by
    apply Reactive.ghost_simulation trafficSystem _
      (fun t n =>
        t.Inv ∧
          CountsUpTo t.mem cpu action idx n (t.flights cpu))
    · rintro t n e ⟨hInv, hCounts⟩
      have hStep := trafficSystem_step t e
      exact ⟨hStep.inv hInv,
        hStep.countsUpTo hAction hInv hCounts⟩
    · exact ⟨traffic_inv_boot, rfl⟩
  rw [hIdle] at hCounts
  exact hCounts.2

end

/- A frame that is dropped while its rule is added. -/
theorem verdict_counters_exact_addInFlight :
    (trafficSystem.final .boot
        (.receive CPU1 plainFrame.bytes :: addInFlight ++
          [.access CPU1])).mem.maps.verdictCnt.slots
            ⟨1, by decide⟩ CPU1 =
      BitVec.ofNat 64
        (verdictCount CPU1 .drop
          (.receive CPU1 plainFrame.bytes :: addInFlight ++
            [.access CPU1])) :=
  verdict_counters_exact _ rfl rfl

end XdpDdos
