import XdpDdos.Control.Modify

/-
  What `blacklist_port_modify` does to the port maps when
  some of its map calls fail.

  Both protocols share one mask, which is written back as a
  whole, and a deletion writes two maps one after the other.
  So a lookup that fails loses the rule of the other
  protocol, and a second write that fails leaves half of a
  deletion behind.

  Main declarations:
    * `OthersKept`, `MasksLost`, `othersKept_iff`
    * `AllOrNothing`, `HalfDeleted`, `allOrNothing_iff`
-/

------------------------------------------------------------
-- Edited Masks
------------------------------------------------------------

namespace XdpDdos

variable {nrCpus : ℕ}

/- The other protocol in the same mask. -/
def DdosFilter.other : DdosFilter → DdosFilter
  | .tcp => .udp
  | .udp => .tcp

theorem DdosFilter.index_other_ne
    (fproto : DdosFilter) :
    fproto.other.index ≠ fproto.index := by
  cases fproto with
  | tcp => exact Nat.one_ne_zero
  | udp => exact Nat.zero_ne_one

/- An edit keeps the bits of all other protocols. -/
theorem getLsbD_editMask_of_ne
    {action : BitVec 32}
    (hAction : action = ACTION_ADD ∨ action = ACTION_DEL)
    {fproto : DdosFilter}
    {i : ℕ}
    (hOther : i ≠ fproto.index)
    (slot : BitVec 64) :
    (editMask action fproto.mask slot).getLsbD i =
      slot.getLsbD i := by
  rcases hAction with rfl | rfl
  · simp [getLsbD_editMask_add, hOther]
  · simp [getLsbD_editMask_del, hOther]

/- Deleting a rule changes the masks that hold it. -/
theorem editMask_del_eq_self_iff
    (fproto : DdosFilter)
    (slot : BitVec 64) :
    editMask ACTION_DEL fproto.mask slot = slot ↔
      ¬ slot.getLsbD fproto.index = true := by
  constructor
  · intro hSame hBit
    have hEdited :=
      getLsbD_editMask_del fproto slot fproto.index
    rw [hSame, hBit] at hEdited
    simp at hEdited
  · intro hClear
    apply BitVec.eq_of_getLsbD_eq
    intro i _
    rw [getLsbD_editMask_del]
    by_cases hIndex : i = fproto.index
    · subst hIndex
      simp [hClear]
    · simp [hIndex]

namespace Maps

/- Written masks are the old ones if no edit changed any. -/
theorem portBlacklist_writeRule_eq_iff
    (m : Maps nrCpus)
    (action : BitVec 32)
    (fproto : DdosFilter)
    (port : BitVec 16)
    (masks : Slots nrCpus) :
    (m.writeRule action fproto port masks).portBlacklist =
        m.portBlacklist ↔
      ∀ cpu, editMask action fproto.mask (masks cpu) =
        m.portBlacklist.slots (portIndex port) cpu := by
  constructor
  · intro hSame cpu
    have hSlot :=
      m.slots_writeRule action fproto port port masks cpu
    rw [if_pos rfl, hSame] at hSlot
    exact hSlot.symm
  · intro hSame
    have hEntry :
        (fun cpu => editMask action fproto.mask (masks cpu)) =
          m.portBlacklist.slots (portIndex port) :=
      funext hSame
    unfold writeRule
    rw [hEntry]
    simp [PercpuArray.setSlots]

end Maps

------------------------------------------------------------
-- Other Rules
------------------------------------------------------------

/-
  The rule of the other protocol for the port, and every
  entry of every other port, are the same on every CPU.
-/
structure OthersKept
    (m m' : Maps nrCpus)
    (dport : BitVec 32)
    (fproto : DdosFilter) : Prop where
  otherRule :
    ∀ port cpu, dport = port.setWidth 32 →
      (m'.PortBit cpu fproto.other port ↔
        m.PortBit cpu fproto.other port)
  otherPorts :
    ∀ port cpu, dport ≠ port.setWidth 32 →
      m'.portBlacklist.slots (Maps.portIndex port) cpu =
          m.portBlacklist.slots (Maps.portIndex port) cpu ∧
        ∀ fproto',
          (m'.dropCount fproto').slots
              (Maps.portIndex port) cpu =
            (m.dropCount fproto').slots
              (Maps.portIndex port) cpu

theorem OthersKept.refl
    (m : Maps nrCpus)
    (dport : BitVec 32)
    (fproto : DdosFilter) :
    OthersKept m m dport fproto where
  otherRule := fun _ _ _ => Iff.rfl
  otherPorts := fun _ _ _ => ⟨rfl, fun _ => rfl⟩

/- Ports stay apart when they are passed as numbers. -/
theorem port_setWidth_inj
    {port port' : BitVec 16} :
    port.setWidth 32 = port'.setWidth 32 ↔
      port = port' := by
  constructor
  · intro hSame
    have hNarrow := congrArg (BitVec.setWidth 16) hSame
    simpa using hNarrow
  · intro hSame
    rw [hSame]

/- Clearing the counter of the port disturbs nothing else. -/
theorem othersKept_resetCount_iff
    {m m' : Maps nrCpus}
    {fproto : DdosFilter}
    (port : BitVec 16)
    (cproto : DdosFilter) :
    OthersKept m (m'.resetCount cproto port)
        (port.setWidth 32) fproto ↔
      OthersKept m m' (port.setWidth 32) fproto := by
  have hCount (port' : BitVec 16) (cpu : Fin nrCpus)
      (fproto' : DdosFilter)
      (hPort : port.setWidth 32 ≠ port'.setWidth 32) :
      ((m'.resetCount cproto port).dropCount fproto').slots
          (Maps.portIndex port') cpu =
        (m'.dropCount fproto').slots
          (Maps.portIndex port') cpu := by
    have hNe : port' ≠ port := by
      rintro rfl
      exact hPort rfl
    by_cases hProto : fproto' = cproto
    · subst hProto
      simp [Maps.resetCount, hNe, Maps.portIndex_inj]
    · simp [Maps.resetCount, hProto]
  constructor
  · intro hKept
    refine ⟨hKept.otherRule, fun port' cpu hPort => ?_⟩
    rcases hKept.otherPorts port' cpu hPort with
      ⟨hMask, hCounts⟩
    refine ⟨hMask, fun fproto' => ?_⟩
    rw [← hCounts fproto', hCount port' cpu fproto' hPort]
  · intro hKept
    refine ⟨hKept.otherRule, fun port' cpu hPort => ?_⟩
    rcases hKept.otherPorts port' cpu hPort with
      ⟨hMask, hCounts⟩
    refine ⟨hMask, fun fproto' => ?_⟩
    rw [hCount port' cpu fproto' hPort, hCounts fproto']

/- A write keeps the other rule if the masks had it right. -/
theorem othersKept_writeRule_iff
    (m : Maps nrCpus)
    {action : BitVec 32}
    (hAction : action = ACTION_ADD ∨ action = ACTION_DEL)
    (fproto : DdosFilter)
    (port : BitVec 16)
    (masks : Slots nrCpus) :
    OthersKept m (m.writeRule action fproto port masks)
        (port.setWidth 32) fproto ↔
      ∀ cpu,
        ((masks cpu).getLsbD fproto.other.index = true ↔
          m.PortBit cpu fproto.other port) := by
  have hBit (cpu : Fin nrCpus) :
      (m.writeRule action fproto port masks).PortBit cpu
          fproto.other port ↔
        (masks cpu).getLsbD fproto.other.index = true := by
    unfold Maps.PortBit
    rw [Maps.slots_writeRule, if_pos rfl,
      getLsbD_editMask_of_ne hAction fproto.index_other_ne]
  constructor
  · intro hKept cpu
    rw [← hBit cpu]
    exact hKept.otherRule port cpu rfl
  · intro hMasks
    constructor
    · intro port' cpu hPort
      obtain rfl := port_setWidth_inj.mp hPort
      rw [hBit cpu, hMasks cpu]
    · intro port' cpu hPort
      refine ⟨?_, fun _ => rfl⟩
      rw [Maps.slots_writeRule, if_neg]
      rintro rfl
      exact hPort rfl

------------------------------------------------------------
-- Lost Rules
------------------------------------------------------------

variable {fails : CallFaults}

/- A run of the function in which the given calls fail. -/
def runPortModify
    (fails : CallFaults)
    (m : Maps nrCpus)
    (cproto : DdosFilter)
    (dport action proto : BitVec 32) :
    Outcome ℕ × Maps nrCpus :=
  CallProg.run (Maps.handleFaulty fails)
    (blacklistPortModify .portBlacklist
      (.portBlacklistDropCount cproto) dport action proto) m

/-
  The masks of a port cannot be read but can be written, and
  the other protocol has a rule in them.
-/
def MasksLost
    (fails : CallFaults)
    (m : Maps nrCpus)
    (dport action : BitVec 32)
    (fproto : DdosFilter) : Prop :=
  ∃ port : BitVec 16,
    dport = port.setWidth 32 ∧
      (action = ACTION_ADD ∨ action = ACTION_DEL) ∧
      fails .portBlacklist .lookup dport ≠ none ∧
      fails .portBlacklist .update dport = none ∧
      ∃ cpu, m.PortBit cpu fproto.other port

/- A call that does not write keeps everything. -/
theorem runPortModify_of_not_written
    (m : Maps nrCpus)
    (cproto : DdosFilter)
    {dport action proto : BitVec 32}
    (hRefused :
      ∀ fproto, ValidPortCall dport action proto fproto →
        NR_PORTS ≤ dport.toNat ∨
          fails .portBlacklist .update dport ≠ none) :
    (runPortModify fails m cproto dport action proto).2 =
      m := by
  unfold runPortModify
  by_cases hValid :
      ∃ fproto, ValidPortCall dport action proto fproto
  · rcases hValid with ⟨fproto, hValid⟩
    cases hFault : fails .portBlacklist .update dport with
    | some errno =>
        rw [run_portModify_of_fault m _ hValid hFault]
    | none =>
        have hRange : NR_PORTS ≤ dport.toNat :=
          (hRefused fproto hValid).resolve_right
            (fun hSome => hSome hFault)
        rw [run_portModify_of_ge m _ hValid hRange hFault]
  · rcases run_portModify_of_invalid
        (Maps.handleFaulty fails) m .portBlacklist
        (.portBlacklistDropCount cproto)
        (not_exists.mp hValid) with ⟨status, _, hRun⟩
    rw [hRun]

/- Writing the masks keeps the other rule if it was read. -/
theorem runPortModify_othersKept_iff
    (m : Maps nrCpus)
    (cproto : DdosFilter)
    {action : BitVec 32}
    (hAction : action = ACTION_ADD ∨ action = ACTION_DEL)
    (fproto : DdosFilter)
    (port : BitVec 16)
    (hUpdate :
      fails .portBlacklist .update (port.setWidth 32) = none) :
    OthersKept m
        (runPortModify fails m cproto (port.setWidth 32) action
          fproto.proto).2 (port.setWidth 32) fproto ↔
      (fails .portBlacklist .lookup (port.setWidth 32) ≠ none →
        ∀ cpu, ¬ m.PortBit cpu fproto.other port) := by
  have hKept :
      OthersKept m
          (runPortModify fails m cproto (port.setWidth 32)
            action fproto.proto).2 (port.setWidth 32) fproto ↔
        OthersKept m
          (m.writeRule action fproto port
            (m.readMasks fails (port.setWidth 32)))
          (port.setWidth 32) fproto := by
    unfold runPortModify
    rw [run_portModify_of_port m cproto port
      (validPortCall_of_port port (protoFilter_proto fproto)
        hAction) hUpdate]
    by_cases hDel : action = ACTION_DEL
    · rw [if_pos hDel]
      cases fails (.portBlacklistDropCount cproto) .update
          (port.setWidth 32) with
      | none => exact othersKept_resetCount_iff port cproto
      | some errno => exact Iff.rfl
    · rw [if_neg hDel]
  rw [hKept, othersKept_writeRule_iff m hAction]
  cases hLookup :
      fails .portBlacklist .lookup (port.setWidth 32) with
  | none =>
      rw [Maps.readMasks_of_none port hLookup]
      refine iff_of_true (fun cpu => Iff.rfl) ?_
      intro hLost
      exact absurd rfl hLost
  | some errno =>
      rw [Maps.readMasks_of_some hLookup]
      constructor
      · intro hMasks _ cpu hBit
        have hZero := (hMasks cpu).mpr hBit
        simp at hZero
      · intro hNone cpu
        refine iff_of_false (by simp) (hNone ?_ cpu)
        simp

/-
  The rest of the maps is kept exactly when no rule is lost
  through a failed lookup.
-/
theorem othersKept_iff
    (fails : CallFaults)
    (m : Maps nrCpus)
    (cproto : DdosFilter)
    (dport action : BitVec 32)
    (fproto : DdosFilter) :
    OthersKept m
        (runPortModify fails m cproto dport action
          fproto.proto).2 dport fproto ↔
      ¬ MasksLost fails m dport action fproto := by
  by_cases hWritten :
      dport.toNat < NR_PORTS ∧
        (action = ACTION_ADD ∨ action = ACTION_DEL) ∧
        fails .portBlacklist .update dport = none
  · rcases hWritten with ⟨hRange, hAction, hUpdate⟩
    rcases exists_port_of_lt hRange with ⟨port, rfl⟩
    rw [runPortModify_othersKept_iff m cproto hAction fproto
      port hUpdate]
    constructor
    · rintro hKept ⟨port', hPort, _, hLost, _, cpu, hBit⟩
      obtain rfl := port_setWidth_inj.mp hPort
      exact hKept hLost cpu hBit
    · intro hNotLost hLost cpu hBit
      exact hNotLost
        ⟨port, rfl, hAction, hLost, hUpdate, cpu, hBit⟩
  · have hSame :
        (runPortModify fails m cproto dport action
          fproto.proto).2 = m := by
      apply runPortModify_of_not_written
      intro fproto' hValid
      by_contra hNone
      rw [not_or, not_not] at hNone
      exact hWritten ⟨Nat.lt_of_not_le hNone.1,
        hValid.action_eq, hNone.2⟩
    rw [hSame]
    refine iff_of_true (OthersKept.refl m dport fproto) ?_
    rintro ⟨port, rfl, hAction, _, hUpdate, _⟩
    exact hWritten ⟨port_toNat_lt port, hAction, hUpdate⟩

/- TCP and UDP port 53 are blocked on the only CPU. -/
def bothBlocked : Maps 1 :=
  { Maps.fresh with
    portBlacklist :=
      PercpuArray.fresh.setSlots (Maps.portIndex 53)
        (fun _ => 3) }

/- Reading the masks of a port fails. -/
def lookupFails : CallFaults
  | .portBlacklist, .lookup, _ => some EINVAL
  | _, _, _ => none

/- Blocking TCP port 53 again unblocks UDP port 53. -/
theorem bothBlocked_loses_udp :
    (runPortModify lookupFails bothBlocked .tcp 53 ACTION_ADD
          DdosFilter.tcp.proto).1 = .returned EXIT_OK ∧
      ¬ OthersKept bothBlocked
        (runPortModify lookupFails bothBlocked .tcp 53
          ACTION_ADD DdosFilter.tcp.proto).2 53 .tcp := by
  have hAction :
      ACTION_ADD = ACTION_ADD ∨ ACTION_ADD = ACTION_DEL :=
    Or.inl rfl
  constructor
  · have hValid :=
      validPortCall_of_port 53 (protoFilter_proto .tcp)
        hAction
    have hUpdate :
        lookupFails .portBlacklist .update
          ((53 : BitVec 16).setWidth 32) = none := rfl
    exact congrArg Prod.fst
      (run_portModify_of_port bothBlocked .tcp 53 hValid
        hUpdate)
  · intro hKept
    have hNone :=
      (runPortModify_othersKept_iff bothBlocked .tcp hAction
        .tcp 53 rfl).mp hKept
    have hBit : bothBlocked.PortBit 0 .udp 53 := by decide
    exact hNone (by simp [lookupFails]) 0 hBit

------------------------------------------------------------
-- Half a Deletion
------------------------------------------------------------

/-
  If the call fails, the masks and the counter map that was
  passed are what they were.
-/
def AllOrNothing
    (m : Maps nrCpus)
    (cproto : DdosFilter)
    (result : Outcome ℕ × Maps nrCpus) : Prop :=
  ∀ status, result.1 = .returned status →
    status ≠ EXIT_OK →
      result.2.portBlacklist = m.portBlacklist ∧
        result.2.dropCount cproto = m.dropCount cproto

/-
  A deletion writes the masks, changes them, and then cannot
  clear the counter.  If the masks could not be read, any
  bit in them is lost.
-/
def HalfDeleted
    (fails : CallFaults)
    (m : Maps nrCpus)
    (cproto : DdosFilter)
    (dport action proto : BitVec 32) : Prop :=
  ∃ (port : BitVec 16) (fproto : DdosFilter),
    dport = port.setWidth 32 ∧
      action = ACTION_DEL ∧
      protoFilter proto = some fproto ∧
      fails .portBlacklist .update dport = none ∧
      fails (.portBlacklistDropCount cproto) .update dport ≠
        none ∧
      ((fails .portBlacklist .lookup dport = none ∧
          ∃ cpu, m.PortBit cpu fproto port) ∨
        (fails .portBlacklist .lookup dport ≠ none ∧
          ∃ cpu,
            m.portBlacklist.slots (Maps.portIndex port) cpu ≠
              0))

/- Which deletions change the masks they write. -/
theorem deletion_changes_masks_iff
    (m : Maps nrCpus)
    (fproto : DdosFilter)
    (port : BitVec 16) :
    (m.writeRule ACTION_DEL fproto port
          (m.readMasks fails
            (port.setWidth 32))).portBlacklist ≠
        m.portBlacklist ↔
      (fails .portBlacklist .lookup (port.setWidth 32) =
          none ∧
        ∃ cpu, m.PortBit cpu fproto port) ∨
      (fails .portBlacklist .lookup (port.setWidth 32) ≠
          none ∧
        ∃ cpu,
          m.portBlacklist.slots (Maps.portIndex port) cpu ≠
            0) := by
  rw [ne_eq, Maps.portBlacklist_writeRule_eq_iff, not_forall]
  cases hLookup :
      fails .portBlacklist .lookup (port.setWidth 32) with
  | none =>
      rw [Maps.readMasks_of_none port hLookup]
      simp only [editMask_del_eq_self_iff, not_not, true_and,
        ne_eq, not_true, false_and, or_false]
      rfl
  | some errno =>
      have hZero :
          editMask ACTION_DEL fproto.mask 0 = 0 := by
        rw [editMask_del_eq_self_iff]
        simp
      rw [Maps.readMasks_of_some hLookup]
      simp only [hZero, reduceCtorEq, false_and, false_or,
        ne_eq, not_false_iff, true_and, eq_comm]

/- A call that succeeds need not undo anything. -/
theorem AllOrNothing.of_ok
    {m : Maps nrCpus}
    {cproto : DdosFilter}
    {result : Outcome ℕ × Maps nrCpus}
    (hOk : result.1 = .returned EXIT_OK) :
    AllOrNothing m cproto result := by
  intro status hStatus hFailed
  rw [hOk] at hStatus
  cases hStatus
  exact absurd rfl hFailed

/-
  A deletion that cannot clear the counter must have written
  the masks as they were.
-/
theorem runPortModify_allOrNothing_iff
    (m : Maps nrCpus)
    {cproto : DdosFilter}
    {proto : BitVec 32}
    {fproto : DdosFilter}
    (hProto : protoFilter proto = some fproto)
    (port : BitVec 16)
    (hUpdate :
      fails .portBlacklist .update (port.setWidth 32) = none)
    (hCount :
      fails (.portBlacklistDropCount cproto) .update
        (port.setWidth 32) ≠ none) :
    AllOrNothing m cproto
        (runPortModify fails m cproto (port.setWidth 32)
          ACTION_DEL proto) ↔
      (m.writeRule ACTION_DEL fproto port
          (m.readMasks fails
            (port.setWidth 32))).portBlacklist =
        m.portBlacklist := by
  have hValid :=
    validPortCall_of_port port hProto (Or.inr rfl)
  rcases Option.ne_none_iff_exists'.mp hCount with
    ⟨errno, hErrno⟩
  unfold runPortModify
  rw [run_portModify_of_port m cproto port hValid hUpdate,
    if_pos rfl, hErrno]
  constructor
  · intro hAll
    exact (hAll _ rfl (by decide)).1
  · intro hSame status _ _
    exact ⟨hSame, rfl⟩

/-
  The call is all-or-nothing exactly when it does not leave
  half a deletion behind.
-/
theorem allOrNothing_iff
    (fails : CallFaults)
    (m : Maps nrCpus)
    (cproto : DdosFilter)
    (dport action proto : BitVec 32) :
    AllOrNothing m cproto
        (runPortModify fails m cproto dport action proto) ↔
      ¬ HalfDeleted fails m cproto dport action proto := by
  by_cases hWritten :
      ∃ fproto,
        ValidPortCall dport action proto fproto ∧
          dport.toNat < NR_PORTS ∧
          fails .portBlacklist .update dport = none
  · rcases hWritten with ⟨fproto, hValid, hRange, hUpdate⟩
    rcases exists_port_of_lt hRange with ⟨port, rfl⟩
    by_cases hHalf :
        action = ACTION_DEL ∧
          fails (.portBlacklistDropCount cproto) .update
            (port.setWidth 32) ≠ none
    · rcases hHalf with ⟨rfl, hCount⟩
      rw [runPortModify_allOrNothing_iff m hValid.proto_eq port
          hUpdate hCount,
        ← not_iff_not, not_not, ← ne_eq,
        deletion_changes_masks_iff]
      constructor
      · intro hMasks
        exact ⟨port, fproto, rfl, rfl, hValid.proto_eq,
          hUpdate, hCount, hMasks⟩
      · rintro ⟨port', fproto', hPort, _, hProto, _, _,
          hMasks⟩
        obtain rfl := port_setWidth_inj.mp hPort
        obtain rfl : fproto = fproto' :=
          Option.some.inj (hValid.proto_eq.symm.trans hProto)
        exact hMasks
    · refine iff_of_true (AllOrNothing.of_ok ?_) ?_
      · unfold runPortModify
        rw [run_portModify_of_port m cproto port hValid
          hUpdate]
        by_cases hDel : action = ACTION_DEL
        · have hCleared :
              fails (.portBlacklistDropCount cproto) .update
                (port.setWidth 32) = none := by
            by_contra hCount
            exact hHalf ⟨hDel, hCount⟩
          rw [if_pos hDel, hCleared]
        · rw [if_neg hDel]
      · rintro ⟨_, _, _, hDel, _, _, hCount, _⟩
        exact hHalf ⟨hDel, hCount⟩
  · have hSame :
        (runPortModify fails m cproto dport action proto).2 =
          m := by
      apply runPortModify_of_not_written
      intro fproto hValid
      by_contra hNone
      rw [not_or, not_not] at hNone
      exact hWritten ⟨fproto, hValid,
        Nat.lt_of_not_le hNone.1, hNone.2⟩
    refine iff_of_true ?_ ?_
    · intro status _ _
      rw [hSame]
      exact ⟨rfl, rfl⟩
    · rintro ⟨port, fproto, rfl, rfl, hProto, hUpdate, _⟩
      exact hWritten ⟨fproto,
        validPortCall_of_port port hProto (Or.inr rfl),
        port_toNat_lt port, hUpdate⟩

/- Clearing a drop counter fails. -/
def clearFails : CallFaults
  | .portBlacklistDropCount _, .update, _ => some EINVAL
  | _, _, _ => none

/- The rules are gone, although the deletion failed. -/
theorem bothBlocked_half_deleted :
    ¬ AllOrNothing bothBlocked .tcp
      (runPortModify clearFails bothBlocked .tcp 53 ACTION_DEL
        DdosFilter.tcp.proto) := by
  have hCount :
      clearFails (.portBlacklistDropCount .tcp) .update
        ((53 : BitVec 16).setWidth 32) ≠ none := by
    simp [clearFails]
  have hBit : bothBlocked.PortBit 0 .tcp 53 := by decide
  intro hAll
  have hSame :=
    (runPortModify_allOrNothing_iff bothBlocked
      (protoFilter_proto .tcp) 53 rfl hCount).mp hAll
  exact (deletion_changes_masks_iff bothBlocked .tcp 53).mpr
    (Or.inl ⟨rfl, 0, hBit⟩) hSame

end XdpDdos
