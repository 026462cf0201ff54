import XdpDdos.Kern.FrameView
import Mathlib.Algebra.BigOperators.Group.Finset.Piecewise
import Mathlib.Data.BitVec
import Mathlib.Tactic.Abel

/-
  Drop accounting of a run of frames on one CPU.

  Every dropped frame is counted once, at its source or at
  its port; the verdict counters count every frame that
  reached layer 3.  The two bookkeepings agree modulo 2^32,
  the width in which the port counters are incremented.

  Main declarations:
    * `DropCounter`, `FrameAccounted`
    * `frameAccounted`
    * `Maps.dropTotal`, `dropBalance_final`
    * `drop_accounting`
-/

------------------------------------------------------------
-- Drop Counters
------------------------------------------------------------

namespace XdpDdos

variable {nrCpus : ℕ}

/- A slot that counts drops: of a source, or of a port. -/
inductive DropCounter where
  | addr (src : BitVec 32)
  | port (fproto : DdosFilter) (dport : BitVec 16)
  deriving Repr, DecidableEq

namespace DropCounter

/- The counter's value on a CPU, if its entry exists. -/
def read
    (m : Maps nrCpus)
    (cpu : Fin nrCpus) : DropCounter → Option (BitVec 64)
  | addr src => (m.blacklist.slots? src).map (· cpu)
  | port fproto dport =>
      some ((m.dropCount fproto).slots
        (Maps.portIndex dport) cpu)

/- One more drop; port counters are incremented as `u32`. -/
def incr : DropCounter → BitVec 64 → BitVec 64
  | addr _, count => count + 1
  | port _ _, count => bumpU32 count

/- The counters of a frame: of its source and of its port. -/
def OfView : DropCounter → FrameView → Prop
  | addr src, v => ∃ l4, v = .ipv4 src l4
  | port fproto dport, v =>
      ∃ src, v = .ipv4 src (.port fproto dport)

/- Counting at an address changes one slot. -/
theorem read_countAddr
    (m : Maps nrCpus)
    (cpu cpu' : Fin nrCpus)
    (src : BitVec 32)
    (c : DropCounter) :
    c.read (m.countAddr cpu src) cpu' =
      if c = .addr src ∧ cpu' = cpu then
        (c.read m cpu').map c.incr
      else c.read m cpu' := by
  cases c with
  | port fproto dport => simp [read, Maps.countAddr]
  | addr src' =>
      simp only [read, Maps.countAddr, PercpuHash.slots?_bump,
        addr.injEq]
      by_cases hSrc : src' = src
      · subst hSrc
        by_cases hCpu : cpu' = cpu
        · subst hCpu
          simp [incr, Function.comp_def]
        · simp [hCpu, Function.comp_def]
      · simp [hSrc]

/- Counting at a port changes one slot. -/
theorem read_countPort
    (m : Maps nrCpus)
    (cpu cpu' : Fin nrCpus)
    (fproto : DdosFilter)
    (dport : BitVec 16)
    (c : DropCounter) :
    c.read (m.countPort cpu fproto dport) cpu' =
      if c = .port fproto dport ∧ cpu' = cpu then
        (c.read m cpu').map c.incr
      else c.read m cpu' := by
  cases c with
  | addr src => simp [read, Maps.countPort]
  | port fproto' dport' =>
      by_cases hProto : fproto' = fproto
      · subst hProto
        simp only [read, Maps.countPort,
          Function.update_self, PercpuArray.slots_setSlot,
          Maps.portIndex_inj, port.injEq, true_and]
        by_cases hHere : dport' = dport ∧ cpu' = cpu
        · rcases hHere with ⟨rfl, rfl⟩
          simp [incr]
        · simp [hHere]
      · simp [read, Maps.countPort, hProto]

end DropCounter

------------------------------------------------------------
-- Every Frame Is Accounted For
------------------------------------------------------------

/- Exactly one slot counts one more drop. -/
def CountsExactly
    (m m' : Maps nrCpus)
    (cpu : Fin nrCpus)
    (c : DropCounter) : Prop :=
  (∃ count, c.read m cpu = some count ∧
      c.read m' cpu = some (c.incr count)) ∧
    ∀ c' cpu', ¬ (c' = c ∧ cpu' = cpu) →
      c'.read m' cpu' = c'.read m cpu'

/- No slot changes. -/
def CountsNothing
    (m m' : Maps nrCpus) : Prop :=
  ∀ c cpu, DropCounter.read m' cpu c = c.read m cpu

/-
  A dropped frame increments one of its own counters and
  nothing else; any other frame increments none.
-/
def FrameAccounted
    (m : Maps nrCpus)
    (cpu : Fin nrCpus)
    (f : Frame) : Prop :=
  ((frameStep cpu m f).1 = .ok .drop →
      ∃ c : DropCounter, c.OfView f.view ∧
        CountsExactly m (frameStep cpu m f).2 cpu c) ∧
    ((frameStep cpu m f).1 ≠ .ok .drop →
      CountsNothing m (frameStep cpu m f).2)

/- Verdict statistics do not touch the drop counters. -/
theorem read_afterFrame
    (m : Maps nrCpus)
    (cpu cpu' : Fin nrCpus)
    (v : FrameView)
    (c : DropCounter) :
    c.read (m.afterFrame cpu v) cpu' =
      c.read (m.countDrop cpu v) cpu' := by
  cases c with
  | addr src => simp [DropCounter.read]
  | port fproto dport => simp [DropCounter.read]

theorem frameAccounted
    (m : Maps nrCpus)
    (cpu : Fin nrCpus)
    (f : Frame) :
    FrameAccounted m cpu f := by
  unfold FrameAccounted CountsExactly CountsNothing
  simp only [frameStep_eq, read_afterFrame]
  rcases m.countDrop_cases cpu f.view with
    ⟨src, l4, hView, hIn, hDrop, hCount⟩ |
    ⟨src, fproto, dport, hView, _, _, hDrop, hCount⟩ |
    ⟨hKept, hCount⟩
  · refine ⟨fun _ => ⟨.addr src, ⟨l4, hView⟩, ?_, ?_⟩,
      fun hOther => absurd (congrArg Except.ok hDrop) hOther⟩
    · rcases Option.isSome_iff_exists.mp hIn with
        ⟨values, hValues⟩
      refine ⟨values cpu, ?_, ?_⟩
      · simp [DropCounter.read, hValues]
      · rw [hCount, DropCounter.read_countAddr,
          if_pos ⟨rfl, rfl⟩]
        simp [DropCounter.read, hValues]
    · intro c' cpu' hOther
      rw [hCount, DropCounter.read_countAddr, if_neg hOther]
  · refine ⟨fun _ => ⟨.port fproto dport, ⟨src, hView⟩,
        ?_, ?_⟩,
      fun hOther => absurd (congrArg Except.ok hDrop) hOther⟩
    · refine ⟨_, rfl, ?_⟩
      rw [hCount, DropCounter.read_countPort,
        if_pos ⟨rfl, rfl⟩]
      rfl
    · intro c' cpu' hOther
      rw [hCount, DropCounter.read_countPort, if_neg hOther]
  · refine ⟨fun hDrop => absurd (Except.ok.inj hDrop) hKept,
      fun _ c cpu' => ?_⟩
    rw [hCount]

------------------------------------------------------------
-- The Two Balances
------------------------------------------------------------

namespace Maps

/- The address counters of a CPU, in 32 bits. -/
def addrTotal
    (m : Maps nrCpus)
    (cpu : Fin nrCpus) : BitVec 32 :=
  ∑ src ∈ m.blacklist.entries.keys.toFinset,
    loadU32
      (((DropCounter.addr src).read m cpu).getD 0)

/- The port counters of a protocol on a CPU, in 32 bits. -/
def portTotal
    (m : Maps nrCpus)
    (cpu : Fin nrCpus)
    (fproto : DdosFilter) : BitVec 32 :=
  ∑ idx : Fin NR_PORTS,
    loadU32 ((m.dropCount fproto).slots idx cpu)

/- All drop counters of a CPU, in 32 bits. -/
def dropTotal
    (m : Maps nrCpus)
    (cpu : Fin nrCpus) : BitVec 32 :=
  m.addrTotal cpu + m.portTotal cpu .tcp +
    m.portTotal cpu .udp

/- A sum grows by one when one of its terms does. -/
private theorem sum_succ_of_mem
    {ι : Type}
    [DecidableEq ι]
    {s : Finset ι}
    {i : ι}
    (hMem : i ∈ s)
    {g g' : ι → BitVec 32}
    (hTerm : ∀ j ∈ s, g' j = g j + if j = i then 1 else 0) :
    ∑ j ∈ s, g' j = (∑ j ∈ s, g j) + 1 := by
  rw [Finset.sum_congr rfl hTerm, Finset.sum_add_distrib,
    Finset.sum_ite_eq' s i, if_pos hMem]

theorem addrTotal_countAddr
    (m : Maps nrCpus)
    (cpu : Fin nrCpus)
    {src : BitVec 32}
    (hIn : m.blacklist.Contains src) :
    (m.countAddr cpu src).addrTotal cpu =
      m.addrTotal cpu + 1 := by
  have hMem : src ∈ m.blacklist.entries.keys.toFinset := by
    simpa [← AList.mem_keys] using
      (PercpuHash.contains_iff_mem _ _).mp hIn
  have hKeys :
      (m.countAddr cpu src).blacklist.entries.keys =
        m.blacklist.entries.keys :=
    PercpuHash.keys_bump m.blacklist src cpu
  unfold addrTotal
  rw [hKeys]
  apply sum_succ_of_mem hMem
  intro src' hMem'
  rw [DropCounter.read_countAddr]
  by_cases hSrc : src' = src
  · subst hSrc
    rcases Option.isSome_iff_exists.mp hIn with
      ⟨values, hValues⟩
    simp [DropCounter.read, hValues, DropCounter.incr,
      loadU32_add]
    rfl
  · simp [hSrc]

theorem portTotal_countPort
    (m : Maps nrCpus)
    (cpu : Fin nrCpus)
    (fproto fproto' : DdosFilter)
    (dport : BitVec 16) :
    (m.countPort cpu fproto dport).portTotal cpu fproto' =
      m.portTotal cpu fproto' +
        if fproto' = fproto then 1 else 0 := by
  by_cases hProto : fproto' = fproto
  · subst hProto
    rw [if_pos rfl]
    apply sum_succ_of_mem (Finset.mem_univ (portIndex dport))
    intro idx _
    simp only [countPort, Function.update_self,
      PercpuArray.slots_setSlot, and_true]
    by_cases hIdx : idx = portIndex dport
    · simp [hIdx]
    · simp [hIdx]
  · simp [portTotal, countPort, hProto]

end Maps

------------------------------------------------------------
-- Verdict Counters
------------------------------------------------------------

/- The verdict counter of an action. -/
def XdpAction.index?
    (action : XdpAction) : Option (Fin XDP_ACTION_MAX) :=
  PercpuArray.index? action.code

namespace Maps

theorem countDrop_verdictCnt
    (m : Maps nrCpus)
    (cpu : Fin nrCpus)
    (v : FrameView) :
    (m.countDrop cpu v).verdictCnt = m.verdictCnt := by
  rcases m.countDrop_cases cpu v with
    ⟨_, _, _, _, _, hCount⟩ |
    ⟨_, _, _, _, _, _, _, hCount⟩ | ⟨_, hCount⟩
  · rw [hCount]
    rfl
  · rw [hCount]
    rfl
  · rw [hCount]

/- The range check of the program repeats the map's own. -/
theorem statsActionVerdict_eq
    (m : Maps nrCpus)
    (cpu : Fin nrCpus)
    (action : XdpAction) :
    statsActionVerdict cpu action m =
      match action.index? with
      | none => m
      | some idx =>
          { m with
            verdictCnt := m.verdictCnt.setSlot idx cpu
              (m.verdictCnt.slots idx cpu + 1) } := by
  unfold statsActionVerdict
  by_cases hRange : action.code.toNat ≥ XDP_ACTION_MAX
  · have hNone : action.index? = none :=
      PercpuArray.index?_of_ge hRange
    rw [if_pos hRange, hNone]
  · rw [if_neg hRange]
    rfl

/- A counted frame changes the entry of its verdict. -/
theorem verdictCnt_entry_afterFrame
    (m : Maps nrCpus)
    (cpu : Fin nrCpus)
    (v : FrameView)
    (idx : Fin XDP_ACTION_MAX) :
    (m.afterFrame cpu v).verdictCnt.slots idx =
      if v ≠ .skipped ∧
          (m.verdict cpu v).index? = some idx then
        Function.update (m.verdictCnt.slots idx) cpu
          (m.verdictCnt.slots idx cpu + 1)
      else m.verdictCnt.slots idx := by
  unfold afterFrame
  by_cases hSkip : v = .skipped
  · simp [hSkip]
  · rw [if_neg hSkip, statsActionVerdict_eq]
    cases hIdx : (m.verdict cpu v).index? with
    | none => simp [countDrop_verdictCnt]
    | some idx' =>
        simp only [countDrop_verdictCnt,
          PercpuArray.slots_setSlot_entry]
        by_cases hSame : idx = idx'
        · subst hSame
          simp [hSkip]
        · simp [hSame, Ne.symm hSame]

/- A counted frame adds one to the counter of its verdict. -/
theorem verdictCnt_afterFrame
    (m : Maps nrCpus)
    (cpu : Fin nrCpus)
    (v : FrameView)
    (idx : Fin XDP_ACTION_MAX) :
    (m.afterFrame cpu v).verdictCnt.slots idx cpu =
      m.verdictCnt.slots idx cpu +
        if v ≠ .skipped ∧
          (m.verdict cpu v).index? = some idx
        then 1 else 0 := by
  rw [verdictCnt_entry_afterFrame]
  by_cases hCounted :
      v ≠ .skipped ∧ (m.verdict cpu v).index? = some idx
  · rw [if_pos hCounted, if_pos hCounted,
      Function.update_self]
  · rw [if_neg hCounted, if_neg hCounted, add_zero]

/- A drop grows both bookkeepings by one. -/
theorem dropTotal_afterFrame
    (m : Maps nrCpus)
    (cpu : Fin nrCpus)
    (v : FrameView) :
    (m.afterFrame cpu v).dropTotal cpu =
      m.dropTotal cpu +
        if m.verdict cpu v = .drop then 1 else 0 := by
  have hTotal :
      (m.afterFrame cpu v).dropTotal cpu =
        (m.countDrop cpu v).dropTotal cpu := by
    simp only [dropTotal, addrTotal, portTotal,
      read_afterFrame, afterFrame_blacklist,
      afterFrame_dropCount]
  rw [hTotal]
  rcases m.countDrop_cases cpu v with
    ⟨src, _, _, hIn, hDrop, hCount⟩ |
    ⟨_, fproto, dport, _, _, _, hDrop, hCount⟩ |
    ⟨hKept, hCount⟩
  · have hPorts (fproto : DdosFilter) :
        (m.countAddr cpu src).portTotal cpu fproto =
          m.portTotal cpu fproto := rfl
    rw [hCount, if_pos hDrop, dropTotal, dropTotal, hPorts,
      hPorts, addrTotal_countAddr m cpu hIn]
    abel
  · have hAddrs :
        (m.countPort cpu fproto dport).addrTotal cpu =
          m.addrTotal cpu := rfl
    rw [hCount, if_pos hDrop, dropTotal, dropTotal, hAddrs,
      portTotal_countPort, portTotal_countPort]
    cases fproto with
    | tcp =>
        simp only [if_true, reduceCtorEq, if_false]
        abel
    | udp =>
        simp only [if_true, reduceCtorEq, if_false]
        abel
  · rw [hCount, if_neg hKept]
    simp

end Maps

------------------------------------------------------------
-- Runs on One CPU
------------------------------------------------------------

/- The program of one CPU, fed with frames. -/
def frameSystem
    (cpu : Fin nrCpus) :
    Reactive (Maps nrCpus) Frame (Except Fault XdpAction) :=
  ⟨frameStep cpu⟩

/- Layer 2 of the frame was parsed. -/
def parsedEth (f : Frame) : Bool :=
  match parseEth f with
  | .ok (some _) => true
  | _ => false

/- How many frames of a run were parsed and got `action`. -/
def returnedCount
    (cpu : Fin nrCpus)
    (action : XdpAction)
    (m : Maps nrCpus)
    (fs : List Frame) : ℕ :=
  (frameSystem cpu).ghost
    (fun _ f answer count =>
      if parsedEth f ∧ answer = .ok action then count + 1
      else count)
    m 0 fs

theorem parsedEth_iff
    (f : Frame) :
    parsedEth f = true ↔ f.view ≠ .skipped := by
  rw [parsedEth, parseEth_eq, Frame.view]
  cases f.layer2 with
  | none => simp
  | some header =>
      rcases header with ⟨ethType, offset⟩
      by_cases hIp : ethType = ETH_P_IP
      · have hView : f.ipv4View offset ≠ .skipped := by
          unfold Frame.ipv4View
          split <;> simp
        simp [hIp, hView]
      · simp [hIp]

/- Different actions have different counters. -/
theorem XdpAction.index?_eq_iff
    {action action' : XdpAction}
    {idx : Fin XDP_ACTION_MAX}
    (hIdx : action.index? = some idx) :
    action'.index? = some idx ↔ action' = action := by
  have hCode (a : XdpAction) (hSome : a.index? = some idx) :
      a.code.toNat = idx.val := by
    unfold index? PercpuArray.index? at hSome
    split at hSome
    · exact congrArg Fin.val (Option.some.inj hSome)
    · cases hSome
  constructor
  · intro hIdx'
    have hSame : action'.code.toNat = action.code.toNat :=
      (hCode _ hIdx').trans (hCode _ hIdx).symm
    revert hSame
    cases action <;> cases action' <;> decide
  · rintro rfl
    exact hIdx

theorem frameSystem_step
    (cpu : Fin nrCpus)
    (m : Maps nrCpus)
    (f : Frame) :
    (frameSystem cpu).step m f =
      (.ok (m.verdict cpu f.view),
        m.afterFrame cpu f.view) :=
  frameStep_eq m cpu f

/- Both bookkeepings of a CPU move together. -/
theorem dropBalance_final
    (m : Maps nrCpus)
    (cpu : Fin nrCpus)
    {idx : Fin XDP_ACTION_MAX}
    (hIdx : XdpAction.drop.index? = some idx)
    (fs : List Frame) :
    loadU32 (((frameSystem cpu).final m fs).verdictCnt.slots
          idx cpu) -
        loadU32 (m.verdictCnt.slots idx cpu) =
      ((frameSystem cpu).final m fs).dropTotal cpu -
        m.dropTotal cpu := by
  let Balanced : Maps nrCpus → Prop := fun s =>
    loadU32 (s.verdictCnt.slots idx cpu) -
        loadU32 (m.verdictCnt.slots idx cpu) =
      s.dropTotal cpu - m.dropTotal cpu
  apply Reactive.final_invariant (frameSystem cpu) Balanced
  · intro s f hBalance
    simp only [Balanced, frameSystem_step,
      Maps.verdictCnt_afterFrame, Maps.dropTotal_afterFrame,
      XdpAction.index?_eq_iff hIdx] at hBalance ⊢
    by_cases hDrop : s.verdict cpu f.view = .drop
    · have hParsed : f.view ≠ .skipped := by
        intro hSkip
        simp [hSkip, Maps.verdict] at hDrop
      have hOne : loadU32 1 = 1 := rfl
      rw [if_pos ⟨hParsed, hDrop⟩, if_pos hDrop,
        loadU32_add, hOne, add_sub_right_comm, hBalance]
      abel
    · rw [if_neg (fun hBoth => hDrop hBoth.2),
        if_neg hDrop, add_zero, add_zero]
      exact hBalance
  · simp [Balanced]

/- A verdict counter grows by the number of its frames. -/
theorem verdictCnt_final
    (m : Maps nrCpus)
    (cpu : Fin nrCpus)
    {action : XdpAction}
    {idx : Fin XDP_ACTION_MAX}
    (hIdx : action.index? = some idx)
    (fs : List Frame) :
    ((frameSystem cpu).final m fs).verdictCnt.slots idx cpu =
      m.verdictCnt.slots idx cpu +
        BitVec.ofNat 64 (returnedCount cpu action m fs) := by
  apply Reactive.ghost_simulation (frameSystem cpu) _
    (fun s count =>
      s.verdictCnt.slots idx cpu =
        m.verdictCnt.slots idx cpu + BitVec.ofNat 64 count)
  · intro s count f hCount
    simp only [frameSystem_step, Maps.verdictCnt_afterFrame,
      XdpAction.index?_eq_iff hIdx, hCount, parsedEth_iff,
      Except.ok.injEq]
    by_cases hCounted :
        f.view ≠ .skipped ∧ s.verdict cpu f.view = action
    · rw [if_pos hCounted, if_pos hCounted, BitVec.ofNat_add,
        add_assoc]
      rfl
    · rw [if_neg hCounted, if_neg hCounted, add_zero]
  · simp

/-
  Conservation of drops over a run of frames on one CPU:
  verdict counters grow by their frames, every frame is
  accounted for where it happens, and the growth of the drop
  verdicts is that of all drop counters modulo 2^32.
-/
theorem drop_accounting
    (m : Maps nrCpus)
    (cpu : Fin nrCpus)
    (fs : List Frame) :
    (∀ action idx, action.index? = some idx →
        ((frameSystem cpu).final m fs).verdictCnt.slots
            idx cpu =
          m.verdictCnt.slots idx cpu +
            BitVec.ofNat 64
              (returnedCount cpu action m fs)) ∧
      (∀ front f back, fs = front ++ f :: back →
        FrameAccounted ((frameSystem cpu).final m front)
          cpu f) ∧
      ∀ idx, XdpAction.drop.index? = some idx →
        loadU32
            (((frameSystem cpu).final m fs).verdictCnt.slots
              idx cpu) -
          loadU32 (m.verdictCnt.slots idx cpu) =
        ((frameSystem cpu).final m fs).dropTotal cpu -
          m.dropTotal cpu := by
  refine ⟨?_, ?_, ?_⟩
  · intro action idx hIdx
    exact verdictCnt_final m cpu hIdx fs
  · intro front f _ _
    exact frameAccounted _ cpu f
  · intro idx hIdx
    exact dropBalance_final m cpu hIdx fs

end XdpDdos
