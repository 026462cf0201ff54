import XdpDdos.Control.Modify

/-
  The deployed filter as one system: processes edit rules
  and CPUs receive frames, one complete step at a time.

  Main declarations:
    * `FilterEvent`, `FilterResponse`, `filterSystem`
    * `FilterStep`, `filterSystem_step`
    * `RuleInvariant`
    * `portMaps_keep_invariant`
-/

------------------------------------------------------------
-- Events and Steps
------------------------------------------------------------

namespace XdpDdos

variable {nrCpus : ℕ}

/- A call of one of the modify functions, or a frame. -/
inductive FilterEvent (nrCpus : ℕ) where
  | modifyAddr (ipString : CStr) (action : BitVec 32)
  | modifyPort (dport action proto : BitVec 32)
  | frame (cpu : Fin nrCpus) (ctx : Frame)

/- A call returns its status, a frame gets its verdict. -/
inductive FilterResponse where
  | status (outcome : Outcome ℕ)
  | verdict (result : Except Fault XdpAction)

/- The answer and effect of an event on the maps. -/
def filterSystem :
    Reactive (Maps nrCpus) (FilterEvent nrCpus)
      FilterResponse where
  step m
    | .modifyAddr ipString action =>
        let (outcome, m') :=
          CallProg.run Maps.handle
            (blacklistModify .blacklist ipString action) m
        (.status outcome, m')
    | .modifyPort dport action proto =>
        let (outcome, m') :=
          CallProg.run Maps.handle
            (blacklistPortModify .portBlacklist
              (countFd proto) dport action proto) m
        (.status outcome, m')
    | .frame cpu ctx =>
        let (result, m') := frameStep cpu m ctx
        (.verdict result, m')

/- Everything that a step of the system can do. -/
inductive FilterStep
    (m : Maps nrCpus) :
    FilterEvent nrCpus → FilterResponse →
      Maps nrCpus → Prop where
  | frame (cpu : Fin nrCpus) (ctx : Frame) :
      FilterStep m (.frame cpu ctx)
        (.verdict (.ok (m.verdict cpu ctx.view)))
        (m.afterFrame cpu ctx.view)
  | addrRefused {ipString action status}
      (hStatus : status ≠ EXIT_OK) :
      FilterStep m (.modifyAddr ipString action)
        (.status (.returned status)) m
  | addrAdded {ipString key hash}
      (hKey : inetPton ipString = some key)
      (hContains :
        ∀ key', hash.Contains key' ↔
          key' = key ∨ m.blacklist.Contains key') :
      FilterStep m (.modifyAddr ipString ACTION_ADD)
        (.status (.returned EXIT_OK))
        { m with blacklist := hash }
  | addrRemoved {ipString key hash}
      (hKey : inetPton ipString = some key)
      (hContains :
        ∀ key', hash.Contains key' ↔
          m.blacklist.Contains key' ∧ key' ≠ key) :
      FilterStep m (.modifyAddr ipString ACTION_DEL)
        (.status (.returned EXIT_OK))
        { m with blacklist := hash }
  | portRefused {dport action proto status}
      (hStatus : status ≠ EXIT_OK) :
      FilterStep m (.modifyPort dport action proto)
        (.status (.returned status)) m
  | portAdded {proto fproto}
      (port : BitVec 16)
      (hProto : protoFilter proto = some fproto) :
      FilterStep m
        (.modifyPort (port.setWidth 32) ACTION_ADD proto)
        (.status (.returned EXIT_OK))
        (m.editRule ACTION_ADD fproto port)
  | portRemoved {proto fproto}
      (port : BitVec 16)
      (hProto : protoFilter proto = some fproto) :
      FilterStep m
        (.modifyPort (port.setWidth 32) ACTION_DEL proto)
        (.status (.returned EXIT_OK))
        ((m.editRule ACTION_DEL fproto port).resetCount
          fproto port)

theorem modifyAddr_step
    (m : Maps nrCpus)
    (ipString : CStr)
    (action : BitVec 32)
    {status : ℕ}
    {m' : Maps nrCpus}
    (hRun :
      CallProg.run Maps.handle
          (blacklistModify .blacklist ipString action) m =
        (.returned status, m')) :
    filterSystem.step m (.modifyAddr ipString action) =
      (.status (.returned status), m') := by
  simp only [filterSystem, hRun]

private theorem modifyPort_step
    (m : Maps nrCpus)
    (dport action proto : BitVec 32)
    {status : ℕ}
    {m' : Maps nrCpus}
    (hRun :
      CallProg.run Maps.handle
          (blacklistPortModify .portBlacklist
            (countFd proto) dport action proto) m =
        (.returned status, m')) :
    filterSystem.step m (.modifyPort dport action proto) =
      (.status (.returned status), m') := by
  simp only [filterSystem, hRun]

/- Adding a rule for a valid port succeeds. -/
theorem filterSystem_addPort
    (m : Maps nrCpus)
    {proto : BitVec 32}
    {fproto : DdosFilter}
    (port : BitVec 16)
    (hProto : protoFilter proto = some fproto) :
    filterSystem.step m
        (.modifyPort (port.setWidth 32) ACTION_ADD proto) =
      (.status (.returned EXIT_OK),
        m.editRule ACTION_ADD fproto port) := by
  apply modifyPort_step
  exact run_blacklistPortModify_of_port m port hProto
    (Or.inl rfl)

/- Every step of the system is one of those listed. -/
theorem filterSystem_step
    (m : Maps nrCpus)
    (e : FilterEvent nrCpus) :
    FilterStep m e (filterSystem.step m e).1
      (filterSystem.step m e).2 := by
  cases e with
  | frame cpu ctx =>
      have hStep :
          filterSystem.step m (.frame cpu ctx) =
            (.verdict (.ok (m.verdict cpu ctx.view)),
              m.afterFrame cpu ctx.view) := by
        simp only [filterSystem, frameStep_eq]
      rw [hStep]
      exact FilterStep.frame cpu ctx
  | modifyAddr ipString action =>
      rcases run_blacklistModify_cases m ipString action with
        ⟨status, hStatus, hRun⟩ |
        ⟨key, hKey, rfl, hIn, hRun⟩ |
        ⟨key, hKey, rfl, _, hash, hRun, hSlots⟩ |
        ⟨key, hKey, rfl, _, hash, hRun, hSlots⟩
      · rw [modifyAddr_step m _ _ hRun]
        exact FilterStep.addrRefused hStatus
      · rw [modifyAddr_step m _ _ hRun]
        refine FilterStep.addrAdded hKey ?_
        intro key'
        constructor
        · exact Or.inr
        · rintro (rfl | hOld)
          · exact hIn
          · exact hOld
      · rw [modifyAddr_step m _ _ hRun]
        refine FilterStep.addrAdded hKey ?_
        intro key'
        unfold PercpuHash.Contains
        by_cases hSame : key' = key
        · simp [hSlots, hSame]
        · simp [hSlots, hSame]
      · rw [modifyAddr_step m _ _ hRun]
        refine FilterStep.addrRemoved hKey ?_
        intro key'
        unfold PercpuHash.Contains
        by_cases hSame : key' = key
        · simp [hSlots, hSame]
        · simp [hSlots, hSame]
  | modifyPort dport action proto =>
      rcases run_blacklistPortModify_cases m dport action
          proto with
        ⟨status, hStatus, hRun⟩ |
        ⟨fproto, port, hProto, rfl, rfl, hRun⟩ |
        ⟨fproto, port, hProto, rfl, rfl, hRun⟩
      · rw [modifyPort_step m _ _ _ hRun]
        exact FilterStep.portRefused hStatus
      · rw [modifyPort_step m _ _ _ hRun]
        exact FilterStep.portAdded port hProto
      · rw [modifyPort_step m _ _ _ hRun]
        exact FilterStep.portRemoved port hProto

------------------------------------------------------------
-- Rules After Each Step
------------------------------------------------------------

theorem DdosFilter.index_inj
    {fproto fproto' : DdosFilter} :
    fproto.index = fproto'.index ↔ fproto = fproto' := by
  cases fproto <;> cases fproto' <;> decide

namespace Maps

/- The masks of a port after an edit of some port. -/
theorem slots_editRule
    (m : Maps nrCpus)
    (action : BitVec 32)
    (fproto : DdosFilter)
    (port port' : BitVec 16)
    (cpu : Fin nrCpus) :
    (m.editRule action fproto port).portBlacklist.slots
        (portIndex port') cpu =
      if port' = port then
        editMask action fproto.mask
          (m.portBlacklist.slots (portIndex port') cpu)
      else
        m.portBlacklist.slots (portIndex port') cpu := by
  change (m.writeRule action fproto port
    (m.portBlacklist.slots (portIndex port))).portBlacklist.slots
      (portIndex port') cpu = _
  rw [slots_writeRule]
  by_cases hPort : port' = port
  · rw [if_pos hPort, if_pos hPort, hPort]
  · rw [if_neg hPort, if_neg hPort]

theorem portBit_editRule_add
    (m : Maps nrCpus)
    (fproto fproto' : DdosFilter)
    (port port' : BitVec 16)
    (cpu : Fin nrCpus) :
    (m.editRule ACTION_ADD fproto port).PortBit cpu
        fproto' port' ↔
      m.PortBit cpu fproto' port' ∨
        (fproto' = fproto ∧ port' = port) := by
  unfold PortBit
  rw [slots_editRule]
  by_cases hPort : port' = port
  · rw [if_pos hPort, getLsbD_editMask_add]
    simp [hPort, DdosFilter.index_inj]
  · simp [hPort]

theorem portBit_editRule_del
    (m : Maps nrCpus)
    (fproto fproto' : DdosFilter)
    (port port' : BitVec 16)
    (cpu : Fin nrCpus) :
    (m.editRule ACTION_DEL fproto port).PortBit cpu
        fproto' port' ↔
      m.PortBit cpu fproto' port' ∧
        ¬ (fproto' = fproto ∧ port' = port) := by
  unfold PortBit
  rw [slots_editRule]
  by_cases hPort : port' = port
  · rw [if_pos hPort, getLsbD_editMask_del]
    simp [hPort, DdosFilter.index_inj]
  · simp [hPort]

/- Clearing a counter changes no rule. -/
@[simp] theorem portBit_resetCount
    (m : Maps nrCpus)
    (fproto fproto' : DdosFilter)
    (port port' : BitVec 16)
    (cpu : Fin nrCpus) :
    (m.resetCount fproto port).PortBit cpu fproto' port' ↔
      m.PortBit cpu fproto' port' := Iff.rfl

/- Clearing a counter clears that counter only. -/
theorem dropCount_resetCount
    (m : Maps nrCpus)
    (fproto fproto' : DdosFilter)
    (port port' : BitVec 16)
    (cpu : Fin nrCpus) :
    ((m.resetCount fproto port).dropCount fproto').slots
        (portIndex port') cpu =
      if fproto' = fproto ∧ port' = port then 0
      else
        (m.dropCount fproto').slots (portIndex port') cpu := by
  by_cases hProto : fproto' = fproto
  · subst hProto
    by_cases hPort : port' = port
    · simp [resetCount, hPort]
    · simp [resetCount, hPort, portIndex_inj]
  · simp [resetCount, hProto]

/- Counting a drop changes one slot. -/
theorem dropCount_countPort
    (m : Maps nrCpus)
    (cpu cpu' : Fin nrCpus)
    (fproto fproto' : DdosFilter)
    (port port' : BitVec 16) :
    ((m.countPort cpu fproto port).dropCount fproto').slots
        (portIndex port') cpu' =
      if fproto' = fproto ∧ port' = port ∧ cpu' = cpu then
        bumpU32
          ((m.dropCount fproto').slots
            (portIndex port') cpu')
      else
        (m.dropCount fproto').slots (portIndex port') cpu' := by
  by_cases hProto : fproto' = fproto
  · subst hProto
    simp only [countPort, Function.update_self,
      PercpuArray.slots_setSlot, portIndex_inj, true_and]
    by_cases hHere : port' = port ∧ cpu' = cpu
    · rcases hHere with ⟨rfl, rfl⟩
      simp
    · simp [hHere]
  · simp [countPort, hProto]

/- Rules are what the verdict reads after any frame. -/
@[simp] theorem portBit_afterFrame
    (m : Maps nrCpus)
    (cpu cpu' : Fin nrCpus)
    (v : FrameView)
    (fproto : DdosFilter)
    (port : BitVec 16) :
    (m.afterFrame cpu v).PortBit cpu' fproto port ↔
      m.PortBit cpu' fproto port := by
  simp [PortBit]

end Maps

------------------------------------------------------------
-- Representation Invariant of the Port Maps
------------------------------------------------------------

/-
  Every CPU holds the same mask, with bits of the two
  protocols only, and a rule that is not set has no drops.
-/
structure RuleInvariant
    (m : Maps nrCpus) : Prop where
  sameMask :
    ∀ port cpu cpu',
      m.portBlacklist.slots (Maps.portIndex port) cpu =
        m.portBlacklist.slots (Maps.portIndex port) cpu'
  knownBits :
    ∀ port cpu i,
      (m.portBlacklist.slots
          (Maps.portIndex port) cpu).getLsbD i = true →
        i = DdosFilter.tcp.index ∨ i = DdosFilter.udp.index
  countZero :
    ∀ port cpu fproto, ¬ m.PortBit cpu fproto port →
      (m.dropCount fproto).slots
        (Maps.portIndex port) cpu = 0

/- Editing one rule keeps the masks well formed. -/
private theorem masks_editRule
    {m : Maps nrCpus}
    (hInv : RuleInvariant m)
    {action : BitVec 32}
    (hAction : action = ACTION_ADD ∨ action = ACTION_DEL)
    (fproto : DdosFilter)
    (port : BitVec 16) :
    (∀ port' cpu cpu',
        (m.editRule action fproto port).portBlacklist.slots
            (Maps.portIndex port') cpu =
          (m.editRule action fproto port).portBlacklist.slots
            (Maps.portIndex port') cpu') ∧
      ∀ port' cpu i,
        ((m.editRule action fproto port).portBlacklist.slots
            (Maps.portIndex port') cpu).getLsbD i = true →
          i = DdosFilter.tcp.index ∨
            i = DdosFilter.udp.index := by
  constructor
  · intro port' cpu cpu'
    rw [Maps.slots_editRule, Maps.slots_editRule,
      hInv.sameMask port' cpu cpu']
  · intro port' cpu i hBit
    rw [Maps.slots_editRule] at hBit
    by_cases hPort : port' = port
    · rw [if_pos hPort] at hBit
      rcases hAction with rfl | rfl
      · rw [getLsbD_editMask_add, Bool.or_eq_true,
          decide_eq_true_eq] at hBit
        rcases hBit with hOld | hNew
        · exact hInv.knownBits port' cpu i hOld
        · cases fproto with
          | tcp => exact Or.inl hNew
          | udp => exact Or.inr hNew
      · rw [getLsbD_editMask_del, Bool.and_eq_true] at hBit
        exact hInv.knownBits port' cpu i hBit.1
    · rw [if_neg hPort] at hBit
      exact hInv.knownBits port' cpu i hBit

/- A frame counts only where the rule is set. -/
theorem RuleInvariant.afterFrame
    {m : Maps nrCpus}
    (hInv : RuleInvariant m)
    (cpu : Fin nrCpus)
    (v : FrameView) :
    RuleInvariant (m.afterFrame cpu v) where
  sameMask := by
    simpa using hInv.sameMask
  knownBits := by
    simpa using hInv.knownBits
  countZero := by
    intro port cpu' fproto hClear
    rw [Maps.portBit_afterFrame] at hClear
    have hZero := hInv.countZero port cpu' fproto hClear
    rw [Maps.afterFrame_dropCount]
    rcases m.countDrop_cases cpu v with
      ⟨_, _, _, _, _, hCount⟩ |
      ⟨_, fproto', port', _, _, hSet, _, hCount⟩ |
      ⟨_, hCount⟩
    · rw [hCount]
      exact hZero
    · rw [hCount, Maps.dropCount_countPort, if_neg]
      · exact hZero
      · rintro ⟨rfl, rfl, rfl⟩
        exact hClear hSet
    · rw [hCount]
      exact hZero

/- Setting a rule only shrinks the clear ones. -/
theorem RuleInvariant.portAdded
    {m : Maps nrCpus}
    (hInv : RuleInvariant m)
    (fproto : DdosFilter)
    (port : BitVec 16) :
    RuleInvariant (m.editRule ACTION_ADD fproto port) where
  sameMask :=
    (masks_editRule hInv (Or.inl rfl) fproto port).1
  knownBits :=
    (masks_editRule hInv (Or.inl rfl) fproto port).2
  countZero := by
    intro port' cpu fproto' hClear
    apply hInv.countZero port' cpu fproto'
    intro hOld
    exact hClear
      ((m.portBit_editRule_add _ _ _ _ _).mpr (Or.inl hOld))

/- A rule that is deleted leaves a cleared counter. -/
theorem RuleInvariant.portRemoved
    {m : Maps nrCpus}
    (hInv : RuleInvariant m)
    (fproto : DdosFilter)
    (port : BitVec 16) :
    RuleInvariant
      ((m.editRule ACTION_DEL fproto port).resetCount
        fproto port) where
  sameMask :=
    (masks_editRule hInv (Or.inr rfl) fproto port).1
  knownBits :=
    (masks_editRule hInv (Or.inr rfl) fproto port).2
  countZero := by
    intro port' cpu fproto' hClear
    rw [Maps.portBit_resetCount,
      Maps.portBit_editRule_del] at hClear
    rw [Maps.dropCount_resetCount]
    by_cases hHere : fproto' = fproto ∧ port' = port
    · rw [if_pos hHere]
    · rw [if_neg hHere]
      apply hInv.countZero port' cpu fproto'
      intro hOld
      exact hClear ⟨hOld, hHere⟩

/- Every step keeps the port maps well formed. -/
theorem FilterStep.ruleInvariant
    {m m' : Maps nrCpus}
    {e : FilterEvent nrCpus}
    {r : FilterResponse}
    (hStep : FilterStep m e r m')
    (hInv : RuleInvariant m) :
    RuleInvariant m' := by
  cases hStep with
  | frame cpu ctx => exact hInv.afterFrame cpu ctx.view
  | addrRefused => exact hInv
  | addrAdded =>
      exact ⟨hInv.sameMask, hInv.knownBits, hInv.countZero⟩
  | addrRemoved =>
      exact ⟨hInv.sameMask, hInv.knownBits, hInv.countZero⟩
  | portRefused => exact hInv
  | portAdded port => exact hInv.portAdded _ port
  | portRemoved port => exact hInv.portRemoved _ port

/- Zeroed port maps are well formed. -/
theorem ruleInvariant_of_fresh
    (blacklist : PercpuHash (BitVec 32) nrCpus NR_ADDRS)
    (verdictCnt : PercpuArray nrCpus XDP_ACTION_MAX) :
    RuleInvariant
      { (Maps.fresh : Maps nrCpus) with
        blacklist := blacklist
        verdictCnt := verdictCnt } where
  sameMask := fun _ _ _ => rfl
  knownBits := by
    intro port cpu i hBit
    simp [Maps.fresh] at hBit
  countZero := fun _ _ _ _ => rfl

/- Every run keeps the port maps well formed. -/
theorem RuleInvariant.final
    {m : Maps nrCpus}
    (hInv : RuleInvariant m)
    (es : List (FilterEvent nrCpus)) :
    RuleInvariant (filterSystem.final m es) :=
  Reactive.final_invariant filterSystem RuleInvariant
    (fun m e hInv => (filterSystem_step m e).ruleInvariant hInv)
    hInv es

/-
  From zeroed port maps, and whatever the other maps hold,
  every sequence of calls and frames keeps the invariant.
-/
theorem portMaps_keep_invariant
    (blacklist : PercpuHash (BitVec 32) nrCpus NR_ADDRS)
    (verdictCnt : PercpuArray nrCpus XDP_ACTION_MAX)
    (es : List (FilterEvent nrCpus)) :
    RuleInvariant
      (filterSystem.final
        { Maps.fresh with
          blacklist := blacklist
          verdictCnt := verdictCnt } es) :=
  (ruleInvariant_of_fresh blacklist verdictCnt).final es

end XdpDdos
