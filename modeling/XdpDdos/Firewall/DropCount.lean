import XdpDdos.Firewall.System
import XdpDdos.Control.Stats

/-
  What the drop counter of a port rule counts.

  The maps and the tools take it for a 64-bit count, the
  packet program increments its low half only.  The count
  read back is exact as long as the multiples of 2^32 that
  the CPUs lose cancel out.

  Main declarations:
    * `portDrops`
    * `slots_eq_portDrops`
    * `CountIsExact`
    * `countIsExact_iff`
-/

------------------------------------------------------------
-- Frames Dropped for a Rule
------------------------------------------------------------

namespace XdpDdos

variable {nrCpus : ℕ}

/-
  The protocol and port a dropped frame was dropped for, if
  it was not dropped for its source.
-/
def Maps.dropRule?
    (m : Maps nrCpus) :
    FrameView → Option (DdosFilter × BitVec 16)
  | .ipv4 src (.port fproto port) =>
      if m.blacklist.Contains src then none
      else some (fproto, port)
  | _ => none

/- Frames dropped for each rule, on each CPU. -/
abbrev PortDrops (nrCpus : ℕ) :=
  DdosFilter → BitVec 16 → Fin nrCpus → ℕ

/- One more frame was dropped for a rule. -/
def PortDrops.count
    (drops : PortDrops nrCpus)
    (cpu : Fin nrCpus) :
    Option (DdosFilter × BitVec 16) → PortDrops nrCpus
  | none => drops
  | some (fproto, port) => fun fproto' port' cpu' =>
      if fproto' = fproto ∧ port' = port ∧ cpu' = cpu then
        drops fproto' port' cpu' + 1
      else drops fproto' port' cpu'

/- The rule was deleted: counting starts again. -/
def PortDrops.restart
    (drops : PortDrops nrCpus)
    (fproto : DdosFilter)
    (port : BitVec 16) : PortDrops nrCpus :=
  fun fproto' port' cpu =>
    if fproto' = fproto ∧ port' = port then 0
    else drops fproto' port' cpu

theorem PortDrops.count_some
    (drops : PortDrops nrCpus)
    (cpu cpu' : Fin nrCpus)
    (fproto fproto' : DdosFilter)
    (port port' : BitVec 16) :
    drops.count cpu (some (fproto, port)) fproto' port' cpu' =
      if fproto' = fproto ∧ port' = port ∧ cpu' = cpu then
        drops fproto' port' cpu' + 1
      else drops fproto' port' cpu' := rfl

theorem PortDrops.restart_apply
    (drops : PortDrops nrCpus)
    (fproto fproto' : DdosFilter)
    (port port' : BitVec 16)
    (cpu : Fin nrCpus) :
    drops.restart fproto port fproto' port' cpu =
      if fproto' = fproto ∧ port' = port then 0
      else drops fproto' port' cpu := rfl

/- Count drops, and restart on a successful deletion. -/
def PortDrops.observe
    (m : Maps nrCpus)
    (e : FilterEvent nrCpus)
    (r : FilterResponse)
    (drops : PortDrops nrCpus) : PortDrops nrCpus :=
  match e, r with
  | .frame cpu ctx, .verdict result =>
      if result = .ok .drop then
        drops.count cpu (m.dropRule? ctx.view)
      else drops
  | .modifyPort dport action proto,
      .status (.returned status) =>
      if status = EXIT_OK ∧ action = ACTION_DEL then
        match protoFilter proto with
        | some fproto =>
            drops.restart fproto (dport.setWidth 16)
        | none => drops
      else drops
  | _, _ => drops

/-
  After a run from new maps: the frames dropped for each
  rule since the rule was last deleted.
-/
def portDrops
    (es : List (FilterEvent nrCpus)) : PortDrops nrCpus :=
  filterSystem.ghost PortDrops.observe Maps.fresh
    (fun _ _ _ => 0) es

------------------------------------------------------------
-- Counters Keep the Low Half
------------------------------------------------------------

/- Every counter slot holds its count modulo 2^32. -/
def CountsLow
    (m : Maps nrCpus)
    (drops : PortDrops nrCpus) : Prop :=
  ∀ fproto port cpu,
    (m.dropCount fproto).slots (Maps.portIndex port) cpu =
      BitVec.ofNat 64 (drops fproto port cpu % 2 ^ 32)

/- A frame that is not dropped for a rule counts nothing. -/
theorem CountsLow.afterFrame
    {m : Maps nrCpus}
    {drops : PortDrops nrCpus}
    (hLow : CountsLow m drops)
    (cpu : Fin nrCpus)
    (v : FrameView) :
    CountsLow (m.afterFrame cpu v)
      (if m.verdict cpu v = .drop then
        drops.count cpu (m.dropRule? v)
      else drops) := by
  intro fproto port cpu'
  rw [Maps.afterFrame_dropCount]
  rcases m.countDrop_cases cpu v with
    ⟨src, l4, rfl, hIn, hDrop, hCount⟩ |
    ⟨src, fproto', port', rfl, hOut, _, hDrop, hCount⟩ |
    ⟨hKept, hCount⟩
  · have hRule : m.dropRule? (.ipv4 src l4) = none := by
      unfold Maps.dropRule?
      split
      · rename_i hView
        cases hView
        exact if_pos hIn
      · rfl
    rw [if_pos hDrop, hRule, hCount]
    exact hLow fproto port cpu'
  · have hRule :
        m.dropRule? (.ipv4 src (.port fproto' port')) =
          some (fproto', port') := if_neg hOut
    rw [if_pos hDrop, hRule, hCount, Maps.dropCount_countPort,
      PortDrops.count_some]
    by_cases hHere :
        fproto = fproto' ∧ port = port' ∧ cpu' = cpu
    · rw [if_pos hHere, if_pos hHere, hLow, bumpU32_ofNat]
    · rw [if_neg hHere, if_neg hHere]
      exact hLow fproto port cpu'
  · rw [if_neg hKept, hCount]
    exact hLow fproto port cpu'

/- Every step keeps counters and counts in step. -/
theorem FilterStep.countsLow
    {m m' : Maps nrCpus}
    {e : FilterEvent nrCpus}
    {r : FilterResponse}
    {drops : PortDrops nrCpus}
    (hStep : FilterStep m e r m')
    (hLow : CountsLow m drops) :
    CountsLow m' (drops.observe m e r) := by
  cases hStep with
  | frame cpu ctx =>
      simp only [PortDrops.observe, Except.ok.injEq]
      exact hLow.afterFrame cpu ctx.view
  | addrRefused => exact hLow
  | addrAdded => exact hLow
  | addrRemoved => exact hLow
  | portRefused hStatus =>
      simp only [PortDrops.observe, hStatus, false_and,
        if_false]
      exact hLow
  | portAdded port hProto => exact hLow
  | portRemoved port hProto =>
      have hPort : (port.setWidth 32).setWidth 16 = port := by
        simp
      simp only [PortDrops.observe, hProto, hPort, and_self,
        if_true]
      intro fproto' port' cpu
      rw [Maps.dropCount_resetCount, PortDrops.restart_apply]
      split
      · rfl
      · exact hLow fproto' port' cpu

/- After every run, each slot holds its count modulo 2^32. -/
theorem slots_eq_portDrops
    (es : List (FilterEvent nrCpus)) :
    CountsLow (filterSystem.final Maps.fresh es)
      (portDrops es) := by
  apply Reactive.ghost_simulation filterSystem _ CountsLow
  · intro m drops e hLow
    exact (filterSystem_step m e).countsLow hLow
  · intro fproto port cpu
    rfl

------------------------------------------------------------
-- The Count That Is Read
------------------------------------------------------------

/-
  After a run, the tool reads the number of frames dropped
  for a rule since it was last deleted, modulo 2^64.
-/
def CountIsExact
    (es : List (FilterEvent nrCpus))
    (fproto : DdosFilter)
    (port : BitVec 16) : Prop :=
  (CallProg.run Maps.handle
      (getKey32Value64Percpu
        (.portBlacklistDropCount fproto)
        (port.setWidth 32))
      (filterSystem.final Maps.fresh es)).1 =
    .returned
      (BitVec.ofNat 64 (∑ cpu, portDrops es fproto port cpu))

/-
  Sums of counts and of counts modulo 2^32 agree in 64 bits
  when the lost multiples of 2^32 cancel out.
-/
theorem ofNat_sum_mod_eq_iff
    (count : Fin nrCpus → ℕ) :
    BitVec.ofNat 64 (∑ cpu, count cpu % 2 ^ 32) =
        BitVec.ofNat 64 (∑ cpu, count cpu) ↔
      2 ^ 32 ∣ ∑ cpu, count cpu / 2 ^ 32 := by
  have hSplit :
      ∑ cpu, count cpu =
        ∑ cpu, count cpu % 2 ^ 32 +
          2 ^ 32 * ∑ cpu, count cpu / 2 ^ 32 := by
    rw [Finset.mul_sum, ← Finset.sum_add_distrib]
    apply Finset.sum_congr rfl
    intro cpu _
    exact (Nat.mod_add_div _ _).symm
  rw [← BitVec.toNat_inj, BitVec.toNat_ofNat,
    BitVec.toNat_ofNat, hSplit]
  omega

/-
  The count is exact exactly when the multiples of 2^32 that
  the CPUs have lost sum to a multiple of 2^64.
-/
theorem countIsExact_iff
    (es : List (FilterEvent nrCpus))
    (fproto : DdosFilter)
    (port : BitVec 16) :
    CountIsExact es fproto port ↔
      2 ^ 32 ∣
        ∑ cpu, portDrops es fproto port cpu / 2 ^ 32 := by
  have hSlots :
      ((filterSystem.final Maps.fresh es).dropCount
          fproto).slots (Maps.portIndex port) =
        fun cpu => BitVec.ofNat 64
          (portDrops es fproto port cpu % 2 ^ 32) := by
    funext cpu
    exact slots_eq_portDrops es fproto port cpu
  rw [CountIsExact, run_getKey32Value64Percpu_port, hSlots,
    sumValues_ofNat, Outcome.returned.injEq]
  exact ofNat_sum_mod_eq_iff _

------------------------------------------------------------
-- A Count That Wraps
------------------------------------------------------------

/- A frame from `src` that the state drops for a rule. -/
structure DropsForRule
    (m : Maps nrCpus)
    (cpu : Fin nrCpus)
    (ctx : Frame)
    (src : BitVec 32)
    (fproto : DdosFilter)
    (port : BitVec 16) : Prop where
  view_eq : ctx.view = .ipv4 src (.port fproto port)
  source_absent : ¬ m.blacklist.Contains src
  rule_set : m.PortBit cpu fproto port

/- After the frame, the next copy is dropped as well. -/
theorem DropsForRule.afterFrame
    {m : Maps nrCpus}
    {cpu : Fin nrCpus}
    {ctx : Frame}
    {src : BitVec 32}
    {fproto : DdosFilter}
    {port : BitVec 16}
    (hDrops : DropsForRule m cpu ctx src fproto port) :
    DropsForRule (m.afterFrame cpu ctx.view) cpu ctx src
      fproto port where
  view_eq := hDrops.view_eq
  source_absent := by
    rw [Maps.contains_afterFrame]
    exact hDrops.source_absent
  rule_set := by
    rw [Maps.portBit_afterFrame]
    exact hDrops.rule_set

/- Repeating the frame drops it every time. -/
theorem ghost_replicate_frame
    {cpu : Fin nrCpus}
    {ctx : Frame}
    {src : BitVec 32}
    {fproto : DdosFilter}
    {port : BitVec 16}
    (k : ℕ)
    {m : Maps nrCpus}
    (drops : PortDrops nrCpus)
    (hDrops : DropsForRule m cpu ctx src fproto port) :
    filterSystem.ghost PortDrops.observe m drops
        (List.replicate k (.frame cpu ctx))
        fproto port cpu =
      drops fproto port cpu + k := by
  induction k generalizing m drops with
  | zero => rfl
  | succ k ih =>
      have hDrop :
          m.verdict cpu ctx.view = .drop := by
        rw [hDrops.view_eq, Maps.verdict,
          if_neg hDrops.source_absent, Maps.portVerdict,
          if_pos hDrops.rule_set]
      have hRule :
          m.dropRule? ctx.view = some (fproto, port) := by
        rw [hDrops.view_eq]
        exact if_neg hDrops.source_absent
      have hStep :
          filterSystem.step m (.frame cpu ctx) =
            (.verdict (.ok .drop),
              m.afterFrame cpu ctx.view) := by
        simp only [filterSystem, frameStep_eq, hDrop]
      rw [List.replicate_succ, Reactive.ghost_cons, hStep,
        ih _ hDrops.afterFrame, PortDrops.observe, if_pos rfl, hRule,
        PortDrops.count_some, if_pos ⟨rfl, rfl, rfl⟩]
      omega

/- An untagged UDP packet to port 53. -/
def dnsFrame : Frame :=
  List.replicate 12 0 ++
    [8, 0,
      0x45, 0, 0, 28, 0, 0, 0, 0, 64, 17, 0, 0,
      10, 0, 0, 1, 10, 0, 0, 2,
      0x30, 0x39, 0, 53, 0, 8, 0, 0]

/- Block UDP port 53, then receive `k` packets to it. -/
def dnsFlood (k : ℕ) : List (FilterEvent 1) :=
  .modifyPort 53 ACTION_ADD 17 ::
    List.replicate k (.frame 0 dnsFrame)

theorem dnsFrame_dropsForRule :
    DropsForRule
      ((Maps.fresh : Maps 1).editRule ACTION_ADD .udp 53)
      0 dnsFrame 0x0100000A .udp 53 where
  view_eq := by decide
  source_absent := by
    simp [Maps.editRule, Maps.fresh, PercpuHash.Contains]
  rule_set := by
    rw [Maps.portBit_editRule_add]
    exact Or.inr ⟨rfl, rfl⟩

/- All packets of the flood are dropped for the rule. -/
theorem portDrops_dnsFlood
    (k : ℕ) :
    portDrops (dnsFlood k) .udp 53 0 = k := by
  have hStep :
      filterSystem.step (Maps.fresh : Maps 1)
          (.modifyPort 53 ACTION_ADD 17) =
        (.status (.returned EXIT_OK),
          Maps.fresh.editRule ACTION_ADD .udp 53) :=
    filterSystem_addPort Maps.fresh 53 rfl
  rw [portDrops, dnsFlood, Reactive.ghost_cons, hStep,
    ghost_replicate_frame k _ dnsFrame_dropsForRule]
  exact Nat.zero_add k

/- After 2^32 drops the count that is read is zero. -/
theorem dnsFlood_count_wraps :
    ¬ CountIsExact (dnsFlood (2 ^ 32)) .udp 53 := by
  rw [countIsExact_iff, Fin.sum_univ_one,
    portDrops_dnsFlood]
  decide

end XdpDdos
