import XdpDdos.Kern.Accounting
import XdpDdos.Control.Stats

/-
  Neither the order of frames nor the CPUs that receive them
  matter, as long as all CPUs hold the same rules.

  A frame adds one to the sums of certain keys, and which
  ones depends on the frame and the rules alone.  So a run
  adds to a sum the number of its frames that count there.

  Main declarations:
    * `placedSystem`, `SameMasks`, `PortCountStaysLow`
    * `Maps.Counts`, `keySum_afterFrame`
    * `keySum_final`
    * `placement_irrelevant`
-/

------------------------------------------------------------
-- Placed Frames
------------------------------------------------------------

namespace XdpDdos

variable {nrCpus : ℕ}

/- Frames, each with the CPU that receives it. -/
abbrev Placed (nrCpus : ℕ) :=
  Fin nrCpus × Frame

/- The packet program on all CPUs. -/
def placedSystem :
    Reactive (Maps nrCpus) (Placed nrCpus)
      (Except Fault XdpAction) :=
  ⟨fun m e => frameStep e.1 m e.2⟩

/- Every CPU holds the same 4-byte mask for each port. -/
def SameMasks (m : Maps nrCpus) : Prop :=
  ∀ port cpu cpu',
    loadU32
        (m.portBlacklist.slots (Maps.portIndex port) cpu) =
      loadU32
        (m.portBlacklist.slots (Maps.portIndex port) cpu')

/-
  A frame that is dropped for its port leaves the counter it
  increments below 2^32.
-/
def PortCountStaysLow
    (m : Maps nrCpus)
    (e : Placed nrCpus) : Prop :=
  ∀ src fproto port,
    e.2.view = .ipv4 src (.port fproto port) →
      ¬ m.blacklist.Contains src →
        m.PortBit e.1 fproto port →
          (loadU32 ((m.dropCount fproto).slots
            (Maps.portIndex port) e.1)).toNat + 1 < 2 ^ 32

@[simp] theorem placedSystem_step
    (m : Maps nrCpus)
    (e : Placed nrCpus) :
    placedSystem.step m e =
      (.ok (m.verdict e.1 e.2.view),
        m.afterFrame e.1 e.2.view) :=
  frameStep_eq m e.1 e.2

------------------------------------------------------------
-- Rules Stay
------------------------------------------------------------

/- The same addresses are listed and the masks are equal. -/
structure SameRules
    (m m' : Maps nrCpus) : Prop where
  addrs :
    ∀ key, m'.blacklist.Contains key ↔
      m.blacklist.Contains key
  masks : m'.portBlacklist = m.portBlacklist

/- Frames change no rule. -/
theorem SameRules.afterFrame
    {m m' : Maps nrCpus}
    (hRules : SameRules m m')
    (cpu : Fin nrCpus)
    (v : FrameView) :
    SameRules m (m'.afterFrame cpu v) where
  addrs := by
    intro key
    rw [Maps.contains_afterFrame, hRules.addrs]
  masks := by
    rw [Maps.afterFrame_portBlacklist, hRules.masks]

/- With equal masks, a rule is set on all CPUs or on none. -/
theorem SameMasks.portBit_iff
    {m : Maps nrCpus}
    (hMasks : SameMasks m)
    (cpu cpu' : Fin nrCpus)
    (fproto : DdosFilter)
    (port : BitVec 16) :
    m.PortBit cpu fproto port ↔
      m.PortBit cpu' fproto port := by
  unfold Maps.PortBit
  rw [← mask_test_iff, ← mask_test_iff,
    hMasks port cpu cpu']

/- The rule bits read by the program are the initial ones. -/
theorem SameRules.portBit_iff
    {m m' : Maps nrCpus}
    (hRules : SameRules m m')
    (hMasks : SameMasks m)
    (cpu cpu' : Fin nrCpus)
    (fproto : DdosFilter)
    (port : BitVec 16) :
    m'.PortBit cpu fproto port ↔
      m.PortBit cpu' fproto port := by
  rw [← hMasks.portBit_iff cpu cpu']
  unfold Maps.PortBit
  rw [hRules.masks]

/- The verdict reads no counter. -/
theorem SameRules.verdict_eq
    {m m' : Maps nrCpus}
    (hRules : SameRules m m')
    (hMasks : SameMasks m)
    (cpu cpu' : Fin nrCpus)
    (v : FrameView) :
    m'.verdict cpu v = m.verdict cpu' v := by
  cases v with
  | skipped => rfl
  | notIpv4 => rfl
  | shortIpv4 => rfl
  | ipv4 src l4 =>
      simp only [Maps.verdict, hRules.addrs src]
      cases l4 with
      | other => rfl
      | short => rfl
      | port fproto port =>
          simp only [Maps.portVerdict,
            hRules.portBit_iff hMasks cpu cpu' fproto port]

------------------------------------------------------------
-- What a Frame Adds to a Sum
------------------------------------------------------------

namespace Maps

/- The frame counts once at this key of this map. -/
def Counts
    (m : Maps nrCpus)
    (cpu : Fin nrCpus)
    (v : FrameView)
    (key : BitVec 32) : MapId → Prop
  | .blacklist =>
      (∃ l4, v = .ipv4 key l4) ∧ m.blacklist.Contains key
  | .verdictCnt =>
      v ≠ .skipped ∧
        ∃ idx : Fin XDP_ACTION_MAX,
          PercpuArray.index? key = some idx ∧
            (m.verdict cpu v).index? = some idx
  | .portBlacklist => False
  | .portBlacklistDropCount fproto =>
      ∃ src port,
        v = .ipv4 src (.port fproto port) ∧
          key = port.setWidth 32 ∧
          ¬ m.blacklist.Contains src ∧
          m.PortBit cpu fproto port

end Maps

/- Where a frame counts depends on the rules alone. -/
theorem SameRules.counts_iff
    {m m' : Maps nrCpus}
    (hRules : SameRules m m')
    (hMasks : SameMasks m)
    (cpu cpu' : Fin nrCpus)
    (v : FrameView)
    (key : BitVec 32)
    (fd : MapId) :
    m'.Counts cpu v key fd ↔ m.Counts cpu' v key fd := by
  cases fd with
  | blacklist => simp only [Maps.Counts, hRules.addrs]
  | verdictCnt =>
      simp only [Maps.Counts,
        hRules.verdict_eq hMasks cpu cpu' v]
  | portBlacklist => exact Iff.rfl
  | portBlacklistDropCount fproto =>
      simp only [Maps.Counts, hRules.addrs,
        hRules.portBit_iff hMasks cpu cpu']

/- What a frame adds to the sum at a key. -/
noncomputable def Maps.countWeight
    (m : Maps nrCpus)
    (cpu : Fin nrCpus)
    (v : FrameView)
    (key : BitVec 32)
    (fd : MapId) : BitVec 64 :=
  open Classical in
  if m.Counts cpu v key fd then 1 else 0

theorem countWeight_of
    {m : Maps nrCpus}
    {cpu : Fin nrCpus}
    {v : FrameView}
    {key : BitVec 32}
    {fd : MapId}
    (hCounts : m.Counts cpu v key fd) :
    m.countWeight cpu v key fd = 1 :=
  if_pos hCounts

theorem countWeight_of_not
    {m : Maps nrCpus}
    {cpu : Fin nrCpus}
    {v : FrameView}
    {key : BitVec 32}
    {fd : MapId}
    (hCounts : ¬ m.Counts cpu v key fd) :
    m.countWeight cpu v key fd = 0 :=
  if_neg hCounts

------------------------------------------------------------
-- One Frame
------------------------------------------------------------

/- The count of a listed source grows by one. -/
theorem keySum_blacklist_afterFrame
    (m : Maps nrCpus)
    (cpu : Fin nrCpus)
    (v : FrameView)
    (key : BitVec 32) :
    (m.afterFrame cpu v).keySum .blacklist key =
      m.keySum .blacklist key +
        m.countWeight cpu v key .blacklist := by
  rw [keySum_blacklist, keySum_blacklist,
    Maps.afterFrame_blacklist]
  rcases m.countDrop_cases cpu v with
    ⟨src, l4, rfl, hIn, _, hCount⟩ |
    ⟨src, fproto, port, rfl, hOut, _, _, hCount⟩ |
    ⟨hKept, hCount⟩
  · rw [hCount, Maps.countAddr, PercpuHash.slots?_bump]
    by_cases hKey : key = src
    · subst hKey
      rcases Option.isSome_iff_exists.mp hIn with
        ⟨values, hValues⟩
      have hCounts :
          m.Counts cpu (.ipv4 key l4) key .blacklist :=
        ⟨⟨l4, rfl⟩, hIn⟩
      rw [countWeight_of hCounts, if_pos rfl, hValues]
      exact sumValues_update values cpu
    · rw [countWeight_of_not, if_neg hKey, add_zero]
      rintro ⟨⟨l4', hView⟩, _⟩
      cases hView
      exact hKey rfl
  · rw [hCount, countWeight_of_not, add_zero]
    · rfl
    · rintro ⟨⟨l4', hView⟩, hIn⟩
      cases hView
      exact hOut hIn
  · rw [hCount, countWeight_of_not, add_zero]
    rintro ⟨⟨l4, rfl⟩, hIn⟩
    exact hKept (if_pos hIn)

/- The count of the frame's verdict grows by one. -/
theorem keySum_verdictCnt_afterFrame
    (m : Maps nrCpus)
    (cpu : Fin nrCpus)
    (v : FrameView)
    (key : BitVec 32) :
    (m.afterFrame cpu v).keySum .verdictCnt key =
      m.keySum .verdictCnt key +
        m.countWeight cpu v key .verdictCnt := by
  rw [keySum_of_array key rfl, keySum_of_array key rfl]
  cases hKey :
      (PercpuArray.index? key :
        Option (Fin XDP_ACTION_MAX)) with
  | none =>
      rw [countWeight_of_not]
      · rfl
      · rintro ⟨_, idx, hIdx, _⟩
        rw [hKey] at hIdx
        cases hIdx
  | some idx =>
      simp only [Option.map_some, Option.getD_some,
        Maps.verdictCnt_entry_afterFrame]
      by_cases hCounted :
          v ≠ .skipped ∧ (m.verdict cpu v).index? = some idx
      · have hCounts : m.Counts cpu v key .verdictCnt :=
          ⟨hCounted.1, idx, hKey, hCounted.2⟩
        rw [if_pos hCounted, sumValues_update,
          countWeight_of hCounts]
      · rw [if_neg hCounted, countWeight_of_not, add_zero]
        rintro ⟨hReached, idx', hKey', hIdx⟩
        obtain rfl : idx = idx' :=
          Option.some.inj (hKey.symm.trans hKey')
        exact hCounted ⟨hReached, hIdx⟩

/- A key in the range of the port maps is a port. -/
theorem exists_port_of_index?
    {key : BitVec 32}
    {idx : Fin NR_PORTS}
    (hKey : PercpuArray.index? key = some idx) :
    ∃ port : BitVec 16,
      key = port.setWidth 32 ∧ idx = Maps.portIndex port := by
  have hLt : key.toNat < NR_PORTS := by
    by_contra hGe
    rw [PercpuArray.index?_of_ge (Nat.le_of_not_lt hGe)]
      at hKey
    cases hKey
  rcases exists_port_of_lt hLt with ⟨port, rfl⟩
  rw [index?_port] at hKey
  exact ⟨port, rfl, (Option.some.inj hKey).symm⟩

/- Counting at a port changes the entry of its rule. -/
theorem dropCount_entry_countPort
    (m : Maps nrCpus)
    (cpu : Fin nrCpus)
    (fproto fproto' : DdosFilter)
    (port port' : BitVec 16) :
    ((m.countPort cpu fproto port).dropCount fproto').slots
        (Maps.portIndex port') =
      if fproto' = fproto ∧ port' = port then
        Function.update
          ((m.dropCount fproto).slots (Maps.portIndex port))
          cpu
          (bumpU32 ((m.dropCount fproto).slots
            (Maps.portIndex port) cpu))
      else
        (m.dropCount fproto').slots (Maps.portIndex port') := by
  by_cases hProto : fproto' = fproto
  · subst hProto
    simp only [Maps.countPort, Function.update_self,
      PercpuArray.slots_setSlot_entry, Maps.portIndex_inj,
      true_and]
  · simp [Maps.countPort, hProto]

/- The count of the rule that dropped the frame grows. -/
theorem keySum_dropCount_afterFrame
    (m : Maps nrCpus)
    (cpu : Fin nrCpus)
    (f : Frame)
    (hLow : PortCountStaysLow m (cpu, f))
    (key : BitVec 32)
    (fproto : DdosFilter) :
    (m.afterFrame cpu f.view).keySum
        (.portBlacklistDropCount fproto) key =
      m.keySum (.portBlacklistDropCount fproto) key +
        m.countWeight cpu f.view key
          (.portBlacklistDropCount fproto) := by
  rw [keySum_of_array key rfl, keySum_of_array key rfl,
    Maps.afterFrame_dropCount]
  cases hKey :
      (PercpuArray.index? key : Option (Fin NR_PORTS)) with
  | none =>
      rw [countWeight_of_not]
      · rfl
      · rintro ⟨_, port, _, rfl, _⟩
        rw [index?_port] at hKey
        cases hKey
  | some idx =>
      rcases exists_port_of_index? hKey with ⟨port, rfl, rfl⟩
      simp only [Option.map_some, Option.getD_some]
      rcases m.countDrop_cases cpu f.view with
        ⟨src, l4, hView, hIn, _, hCount⟩ |
        ⟨src, fproto', port', hView, hOut, hBit, _, hCount⟩ |
        ⟨hKept, hCount⟩
      · rw [hCount, countWeight_of_not, add_zero]
        · rfl
        · rintro ⟨src', port', hView', _, hOut, _⟩
          rw [hView] at hView'
          cases hView'
          exact hOut hIn
      · have hBump :
            bumpU32 ((m.dropCount fproto').slots
                (Maps.portIndex port') cpu) =
              (m.dropCount fproto').slots
                (Maps.portIndex port') cpu + 1 :=
          bumpU32_of_lt
            (hLow src fproto' port' hView hOut hBit)
        rw [hCount, dropCount_entry_countPort, hBump]
        by_cases hHere : fproto = fproto' ∧ port = port'
        · rcases hHere with ⟨rfl, rfl⟩
          have hCounts :
              m.Counts cpu f.view (port.setWidth 32)
                (.portBlacklistDropCount fproto) :=
            ⟨src, port, hView, rfl, hOut, hBit⟩
          rw [if_pos ⟨rfl, rfl⟩, sumValues_update,
            countWeight_of hCounts]
        · rw [if_neg hHere, countWeight_of_not, add_zero]
          rintro ⟨src', port'', hView', hPort, _⟩
          rw [hView] at hView'
          cases hView'
          refine hHere ⟨rfl, ?_⟩
          exact Maps.portIndex_inj.mp (Option.some.inj
            (by rw [← index?_port, ← index?_port, hPort]))
      · rw [hCount, countWeight_of_not, add_zero]
        rintro ⟨src, port', hView, _, hOut, hBit⟩
        apply hKept
        rw [hView, Maps.verdict, if_neg hOut,
          Maps.portVerdict, if_pos hBit]

/- What a frame adds to each sum that is read. -/
theorem keySum_afterFrame
    (m : Maps nrCpus)
    (cpu : Fin nrCpus)
    (f : Frame)
    (hLow : PortCountStaysLow m (cpu, f))
    (key : BitVec 32)
    (fd : MapId) :
    (m.afterFrame cpu f.view).keySum fd key =
      m.keySum fd key + m.countWeight cpu f.view key fd := by
  cases fd with
  | blacklist =>
      exact keySum_blacklist_afterFrame m cpu f.view key
  | verdictCnt =>
      exact keySum_verdictCnt_afterFrame m cpu f.view key
  | portBlacklist =>
      have hNever : ¬ m.Counts cpu f.view key .portBlacklist :=
        fun hCounts => hCounts
      rw [countWeight_of_not hNever, add_zero]
      simp only [Maps.keySum, Maps.lookupElem,
        Maps.afterFrame_portBlacklist]
  | portBlacklistDropCount fproto =>
      exact keySum_dropCount_afterFrame m cpu f hLow key fproto

------------------------------------------------------------
-- Runs
------------------------------------------------------------

/- What a frame adds to a sum, whichever CPU receives it. -/
noncomputable def Maps.frameWeight
    (m : Maps nrCpus)
    (key : BitVec 32)
    (fd : MapId)
    (f : Frame) : BitVec 64 :=
  open Classical in
  if ∃ cpu, m.Counts cpu f.view key fd then 1 else 0

theorem SameRules.countWeight_eq
    {m m' : Maps nrCpus}
    (hRules : SameRules m m')
    (hMasks : SameMasks m)
    (cpu : Fin nrCpus)
    (f : Frame)
    (key : BitVec 32)
    (fd : MapId) :
    m'.countWeight cpu f.view key fd =
      m.frameWeight key fd f := by
  unfold Maps.countWeight Maps.frameWeight
  have hSame :
      m'.Counts cpu f.view key fd ↔
        ∃ cpu', m.Counts cpu' f.view key fd := by
    constructor
    · intro hCounts
      exact ⟨cpu, (hRules.counts_iff hMasks cpu cpu f.view
        key fd).mp hCounts⟩
    · rintro ⟨cpu', hCounts⟩
      exact (hRules.counts_iff hMasks cpu cpu' f.view
        key fd).mpr hCounts
  by_cases hCounts : m'.Counts cpu f.view key fd
  · rw [if_pos hCounts, if_pos (hSame.mp hCounts)]
  · rw [if_neg hCounts, if_neg (fun hAny =>
      hCounts (hSame.mpr hAny))]

/- The rules are the initial ones during the whole run. -/
theorem sameRules_final
    (m : Maps nrCpus)
    (run : List (Placed nrCpus)) :
    SameRules m (placedSystem.final m run) := by
  apply Reactive.final_invariant placedSystem (SameRules m)
  · intro s e hRules
    rw [placedSystem_step]
    exact hRules.afterFrame e.1 e.2.view
  · exact ⟨fun _ => Iff.rfl, rfl⟩

/- A run adds the weights of its frames to every sum. -/
theorem keySum_final
    {m : Maps nrCpus}
    (hMasks : SameMasks m)
    {run : List (Placed nrCpus)}
    (hLow : placedSystem.AllSteps PortCountStaysLow m run)
    (key : BitVec 32)
    (fd : MapId) :
    (placedSystem.final m run).keySum fd key =
      m.keySum fd key +
        ((run.map Prod.snd).map
          (m.frameWeight key fd)).sum := by
  rw [List.map_map]
  apply Reactive.final_eq_add_weights placedSystem
    (SameRules m) PortCountStaysLow
    (fun s => s.keySum fd key)
    (fun e => m.frameWeight key fd e.2)
  · intro s e hRules
    rw [placedSystem_step]
    exact hRules.afterFrame e.1 e.2.view
  · intro s e hRules hHere
    rw [placedSystem_step]
    rw [keySum_afterFrame s e.1 e.2 hHere key fd,
      hRules.countWeight_eq hMasks]
  · exact ⟨fun _ => Iff.rfl, rfl⟩
  · exact hLow

/-
  Two runs of the same frames, in any order and on any CPUs:
  a frame gets the same verdict wherever it stands in either
  run, and the sums read afterwards are the same.
-/
theorem placement_irrelevant
    (m : Maps nrCpus)
    (hMasks : SameMasks m)
    (run run' : List (Placed nrCpus))
    (hFrames :
      (run.map Prod.snd).Perm (run'.map Prod.snd))
    (hLow : placedSystem.AllSteps PortCountStaysLow m run)
    (hLow' : placedSystem.AllSteps PortCountStaysLow m run') :
    (∀ f front cpu back front' cpu' back',
        run = front ++ (cpu, f) :: back →
          run' = front' ++ (cpu', f) :: back' →
            xdpVerdict cpu f (placedSystem.final m front) =
              xdpVerdict cpu' f
                (placedSystem.final m front')) ∧
      ∀ fd key,
        (CallProg.run Maps.handle
            (getKey32Value64Percpu fd key)
            (placedSystem.final m run)).1 =
          (CallProg.run Maps.handle
            (getKey32Value64Percpu fd key)
            (placedSystem.final m run')).1 := by
  constructor
  · intro f front cpu back front' cpu' back' _ _
    rw [xdpVerdict_eq, xdpVerdict_eq,
      (sameRules_final m front).verdict_eq hMasks cpu cpu,
      (sameRules_final m front').verdict_eq hMasks cpu' cpu]
  · intro fd key
    rw [run_getKey32Value64Percpu, run_getKey32Value64Percpu,
      keySum_final hMasks hLow, keySum_final hMasks hLow',
      (hFrames.map _).sum_eq]

/- A frame adds at most one to a port's drop counter. -/
theorem loadU32_dropCount_afterFrame_le
    (m : Maps nrCpus)
    (cpu cpu' : Fin nrCpus)
    (v : FrameView)
    (fproto : DdosFilter)
    (port : BitVec 16) :
    (loadU32 (((m.afterFrame cpu v).dropCount fproto).slots
        (Maps.portIndex port) cpu')).toNat ≤
      (loadU32 ((m.dropCount fproto).slots
        (Maps.portIndex port) cpu')).toNat + 1 := by
  rw [Maps.afterFrame_dropCount]
  rcases m.countDrop_cases cpu v with
    ⟨src, _, _, _, _, hCount⟩ |
    ⟨_, fproto', port', _, _, _, _, hCount⟩ | ⟨_, hCount⟩
  · rw [hCount]
    exact Nat.le_succ _
  · rw [hCount, dropCount_entry_countPort]
    by_cases hHere :
        (fproto = fproto' ∧ port = port') ∧ cpu' = cpu
    · rcases hHere with ⟨⟨rfl, rfl⟩, rfl⟩
      rw [if_pos ⟨rfl, rfl⟩, Function.update_self,
        loadU32_bumpU32, BitVec.toNat_add]
      exact Nat.mod_le _ _
    · by_cases hRule : fproto = fproto' ∧ port = port'
      · have hCpu : cpu' ≠ cpu :=
          fun hCpu => hHere ⟨hRule, hCpu⟩
        rcases hRule with ⟨rfl, rfl⟩
        rw [if_pos ⟨rfl, rfl⟩, Function.update_of_ne hCpu]
        exact Nat.le_succ _
      · rw [if_neg hRule]
        exact Nat.le_succ _
  · rw [hCount]
    exact Nat.le_succ _

/- Counters as far from 2^32 as the run is long never wrap. -/
theorem allSteps_portCountStaysLow
    {m : Maps nrCpus}
    {run : List (Placed nrCpus)}
    (hRoom :
      ∀ fproto port cpu,
        (loadU32 ((m.dropCount fproto).slots
            (Maps.portIndex port) cpu)).toNat + run.length <
          2 ^ 32) :
    placedSystem.AllSteps PortCountStaysLow m run := by
  induction run generalizing m with
  | nil => trivial
  | cons e run ih =>
      constructor
      · intro src fproto port _ _ _
        have hHere := hRoom fproto port e.1
        rw [List.length_cons] at hHere
        omega
      · rw [placedSystem_step]
        apply ih
        intro fproto port cpu
        have hBefore := hRoom fproto port cpu
        have hAfter :=
          loadU32_dropCount_afterFrame_le m e.1 cpu e.2.view
            fproto port
        rw [List.length_cons] at hBefore
        change (loadU32
          (((m.afterFrame e.1 e.2.view).dropCount
            fproto).slots _ cpu)).toNat + _ < _
        omega

------------------------------------------------------------
-- Two Frames on Two CPUs
------------------------------------------------------------

/- A UDP packet to port 53. -/
def dnsQuery : Frame :=
  [0, 0, 0, 0, 0, 0, 0, 0, 0, 0, 0, 0, 0x08, 0x00,
    0x45, 0, 0, 28, 0, 0, 0, 0, 64, 17, 0, 0,
    10, 0, 0, 1, 10, 0, 0, 2, 0x30, 0x39, 0, 53, 0, 8, 0, 0]

/- A frame that is not IPv4. -/
def arpRequest : Frame :=
  [0, 0, 0, 0, 0, 0, 0, 0, 0, 0, 0, 0, 0x08, 0x06]

/- UDP port 53 is blocked on two CPUs. -/
def dnsBlocked : Maps 2 :=
  { Maps.fresh with
    portBlacklist :=
      PercpuArray.fresh.setSlots (Maps.portIndex 53)
        (fun _ => 2) }

theorem dnsBlocked_sameMasks :
    SameMasks dnsBlocked := by
  intro port cpu cpu'
  simp only [dnsBlocked, PercpuArray.slots_setSlots]
  by_cases hPort : Maps.portIndex port = Maps.portIndex 53
  · rw [hPort, Function.update_self]
  · rw [Function.update_of_ne hPort]
    rfl

theorem dnsBlocked_staysLow
    (e e' : Placed 2) :
    placedSystem.AllSteps PortCountStaysLow dnsBlocked
      [e, e'] := by
  apply allSteps_portCountStaysLow
  intro fproto port cpu
  exact Nat.lt_of_le_of_lt
    (Nat.le_of_eq (Nat.zero_add 2)) (by decide)

theorem placement_irrelevant_dnsQuery :
    (∀ f front cpu back front' cpu' back',
        [(0, dnsQuery), (0, arpRequest)] =
            front ++ (cpu, f) :: back →
          [(1, arpRequest), (1, dnsQuery)] =
              front' ++ (cpu', f) :: back' →
            xdpVerdict cpu f
                (placedSystem.final dnsBlocked front) =
              xdpVerdict cpu' f
                (placedSystem.final dnsBlocked front')) ∧
      ∀ fd key,
        (CallProg.run Maps.handle
            (getKey32Value64Percpu fd key)
            (placedSystem.final dnsBlocked
              [(0, dnsQuery), (0, arpRequest)])).1 =
          (CallProg.run Maps.handle
            (getKey32Value64Percpu fd key)
            (placedSystem.final dnsBlocked
              [(1, arpRequest), (1, dnsQuery)])).1 :=
  placement_irrelevant dnsBlocked dnsBlocked_sameMasks _ _
    (List.Perm.swap arpRequest dnsQuery [])
    (dnsBlocked_staysLow _ _) (dnsBlocked_staysLow _ _)

end XdpDdos
