import XdpDdos.Tool.Update

/-
  Runs of the tool that are not asked to add or to delete.

  They make no call that writes to a map, so they leave the
  maps as they are, whatever fails and wherever they end.

  Main declarations:
    * `ToolCall.Reads`, `ReadsOnly`
    * `readsOnly_listBlacklists`, `readsOnly_showStats`
    * `runTool_of_no_action`
-/

------------------------------------------------------------
-- Programs That Only Read
------------------------------------------------------------

namespace XdpDdos

variable {nrCpus : ℕ}
variable {α : Type}

/- A call that writes to no map. -/
def MapCall.Reads : MapCall nrCpus → Prop
  | .lookupElem _ _ => True
  | _ => False

def ToolCall.Reads : ToolCall nrCpus → Prop
  | .map op => op.Reads
  | _ => True

namespace Tool

/- No call of the program writes, in whatever environment. -/
def ReadsOnly (p : ToolProg nrCpus α) : Prop :=
  p.Obeys ToolCall.Reads fun _ => True

theorem ReadsOnly.bind
    {β : Type}
    {p : ToolProg nrCpus α}
    {f : α → ToolProg nrCpus β}
    (hFirst : ReadsOnly p)
    (hSecond : ∀ value, ReadsOnly (f value)) :
    ReadsOnly (p >>= f) :=
  CallProg.Obeys.bind hFirst hSecond

/- A read leaves the maps alone, whether or not it fails. -/
theorem maps_handle
    (fails : ToolFaults)
    {op : ToolCall nrCpus}
    (hReads : op.Reads)
    (s : ToolState nrCpus) :
    (handle fails op s).2.maps = s.maps := by
  cases op with
  | objGet file => rfl
  | getNextKey fd prevKey => rfl
  | printf text => rfl
  | close fd => rfl
  | map op =>
      cases op with
      | lookupElem fd key => rfl
      | updateElem fd key values flag => exact hReads.elim
      | deleteElem fd key => exact hReads.elim

/- So does a run of a program that only reads. -/
theorem ReadsOnly.maps_run
    {p : ToolProg nrCpus α}
    (hReads : ReadsOnly p)
    (fails : ToolFaults)
    (s : ToolState nrCpus) :
    (CallProg.run (handle fails) p s).2.maps = s.maps := by
  have hKeep
      (op : ToolCall nrCpus)
      (s' : ToolState nrCpus)
      (hCall : op.Reads)
      (hSame : s'.maps = s.maps) :
      (handle fails op s').2.maps = s.maps := by
    rw [maps_handle fails hCall, hSame]
  exact CallProg.Obeys.invariant hKeep hReads rfl

------------------------------------------------------------
-- Reading and Printing
------------------------------------------------------------

theorem readsOnly_printf
    (text : CStr) :
    ReadsOnly (printf text : ToolProg nrCpus Unit) :=
  ⟨trivial, fun _ => trivial⟩

theorem readsOnly_close
    (fd : MapId) :
    ReadsOnly (close fd : ToolProg nrCpus Unit) :=
  ⟨trivial, fun _ => trivial⟩

theorem readsOnly_openBpfMap
    (file : CStr) :
    ReadsOnly (openBpfMap file : ToolProg nrCpus MapId) := by
  refine ReadsOnly.bind ⟨trivial, fun _ => trivial⟩ ?_
  intro opened
  cases opened with
  | error errno => trivial
  | ok fd => trivial

theorem readsOnly_getNextKey
    (fd : MapId)
    (prevKey : Option (BitVec 32)) :
    ReadsOnly (bpfMapGetNextKey fd prevKey :
      ToolProg nrCpus _) :=
  ⟨trivial, fun _ => trivial⟩

/- The sum over the CPUs makes one lookup. -/
theorem readsOnly_count
    (fd : MapId)
    (key : BitVec 32) :
    ReadsOnly (mapProg (getKey32Value64Percpu fd key) :
      ToolProg nrCpus (BitVec 64)) := by
  refine ⟨trivial, ?_⟩
  intro looked
  cases looked with
  | error errno => trivial
  | ok values => trivial

theorem readsOnly_printProtos
    (key val : BitVec 32)
    (countfds : DdosFilter → MapId)
    (protos : List DdosFilter)
    (started : Bool) :
    ReadsOnly (printProtos key val countfds protos started :
      ToolProg nrCpus Bool) := by
  induction protos generalizing started with
  | nil => trivial
  | cons i is ih =>
      rw [printProtos]
      split
      · refine (readsOnly_printf _).bind fun _ => ?_
        refine (readsOnly_count _ _).bind fun _ => ?_
        refine (readsOnly_printf _).bind fun _ => ?_
        exact ih true
      · exact ih started

theorem readsOnly_blacklistPrintPort
    (key val : BitVec 32)
    (countfds : DdosFilter → MapId) :
    ReadsOnly (blacklistPrintPort key val countfds :
      ToolProg nrCpus Unit) := by
  unfold blacklistPrintPort
  refine (readsOnly_printf _).bind fun _ => ?_
  refine (readsOnly_printProtos _ _ _ _ _).bind ?_
  intro started
  split
  · exact readsOnly_printf _
  · trivial

------------------------------------------------------------
-- Listing
------------------------------------------------------------

/- By induction on the rounds of the loop. -/
theorem readsOnly_listIpv4From
    (fd : MapId)
    (fuel : ℕ)
    (prevKey : Option (BitVec 32))
    (lastKey : BitVec 32) :
    ReadsOnly (listIpv4From fd fuel prevKey lastKey :
      ToolProg nrCpus _) := by
  induction fuel generalizing prevKey lastKey with
  | zero => trivial
  | succ fuel ih =>
      rw [listIpv4From]
      refine (readsOnly_getNextKey _ _).bind ?_
      intro next
      cases next with
      | none => trivial
      | some key =>
          refine (readsOnly_printf _).bind fun _ => ?_
          refine (readsOnly_count _ _).bind fun _ => ?_
          refine (readsOnly_printf _).bind fun _ => ?_
          exact ih (some key) key

theorem readsOnly_lookupValue
    (frame : StackFrame)
    (fd : MapId)
    (key : BitVec 32)
    (value : BitVec 64) :
    ReadsOnly (lookupValue frame fd key value :
      ToolProg nrCpus (BitVec 64)) := by
  refine ReadsOnly.bind ⟨trivial, fun _ => trivial⟩ ?_
  intro looked
  cases looked with
  | error errno => trivial
  | ok values =>
      dsimp only
      split
      · split
        · trivial
        · trivial
      · trivial

theorem readsOnly_listPortsFrom
    (frame : StackFrame)
    (portfd : MapId)
    (countfds : DdosFilter → MapId)
    (fuel : ℕ)
    (prevKey : Option (BitVec 32))
    (value : BitVec 64)
    (started : Bool) :
    ReadsOnly (listPortsFrom frame portfd countfds fuel prevKey
      value started : ToolProg nrCpus Bool) := by
  induction fuel generalizing prevKey value started with
  | zero => trivial
  | succ fuel ih =>
      rw [listPortsFrom]
      refine (readsOnly_getNextKey _ _).bind ?_
      intro next
      cases next with
      | none => trivial
      | some key =>
          refine (readsOnly_lookupValue _ _ _ _).bind ?_
          intro value'
          split
          · refine (readsOnly_printf _).bind fun _ => ?_
            refine (readsOnly_blacklistPrintPort _ _ _).bind
              fun _ => ?_
            exact ih (some key) value' true
          · exact ih (some key) value' started

theorem readsOnly_listBlacklists
    (fuel : ℕ)
    (frame : StackFrame) :
    ReadsOnly (listBlacklists fuel frame :
      ToolProg nrCpus Bool) := by
  unfold listBlacklists
  refine (readsOnly_printf _).bind fun _ => ?_
  refine (readsOnly_openBpfMap _).bind fun fd => ?_
  have hAddrs :
      ReadsOnly (blacklistListAllIpv4 fuel frame fd :
        ToolProg nrCpus Bool) := by
    unfold blacklistListAllIpv4
    refine (readsOnly_listIpv4From _ _ _ _).bind ?_
    intro last
    cases last with
    | none => trivial
    | some key => exact (readsOnly_printf _).bind fun _ => trivial
  refine hAddrs.bind fun ended => ?_
  split
  · refine (readsOnly_close _).bind fun _ => ?_
    refine (readsOnly_openBpfMap _).bind fun _ => ?_
    refine (readsOnly_openBpfMap _).bind fun _ => ?_
    refine (readsOnly_openBpfMap _).bind fun _ => ?_
    refine (readsOnly_listPortsFrom _ _ _ _ _ _ _).bind ?_
    intro ended'
    split
    · refine (readsOnly_close _).bind fun _ => ?_
      refine (readsOnly_printf _).bind fun _ => ?_
      refine (readsOnly_close _).bind fun _ => ?_
      exact (readsOnly_close _).bind fun _ => trivial
    · trivial
  · trivial

theorem readsOnly_showStats
    (fd : MapId)
    (st : OptionState) :
    ReadsOnly (showStats fd st : ToolProg nrCpus Ending) := by
  unfold showStats
  split
  · exact (readsOnly_openBpfMap _).bind fun _ => trivial
  · exact (readsOnly_close _).bind fun _ => trivial

------------------------------------------------------------
-- The Whole Tool
------------------------------------------------------------

/- What `main` does when no action was asked for. -/
theorem readsOnly_main
    (fuel : ℕ)
    (frame : StackFrame)
    {args : List CStr}
    (hAction :
      ∀ st, optionLoop {} (options args) = some st →
        st.action = 0) :
    ReadsOnly (main fuel frame args :
      ToolProg nrCpus Ending) := by
  unfold main
  cases hLoop : optionLoop {} (options args) with
  | none => trivial
  | some st =>
      refine (readsOnly_openBpfMap _).bind fun fd => ?_
      rw [if_neg (not_not_intro (hAction st hLoop))]
      split
      · trivial
      · split
        · refine (readsOnly_listBlacklists _ _).bind ?_
          intro ended
          split
          · exact readsOnly_showStats fd st
          · trivial
        · exact readsOnly_showStats fd st

/- Without an action the maps stay as they are. -/
theorem runTool_of_no_action
    (fuel : ℕ)
    (frame : StackFrame)
    (fails : ToolFaults)
    (m : Maps nrCpus)
    {args : List CStr}
    (hAction :
      ∀ st, optionLoop {} (options args) = some st →
        st.action = 0) :
    (runTool fuel frame fails m args).2.maps = m :=
  (readsOnly_main fuel frame hAction).maps_run fails _

end Tool

end XdpDdos
