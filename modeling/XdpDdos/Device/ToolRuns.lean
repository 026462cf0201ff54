import XdpDdos.Device.Policy
import XdpDdos.Tool.ExitStatus
import XdpDdos.Tool.ReadOnly

/-
  What a run of the tool does to maps that represent a
  firewall: it carries out some of the edits that are asked
  for, and the last one if it exits with 0 and no failing
  call passes for a success.

  Main declarations:
    * `flatMap_carriedOut`
    * `Edited`, `represents_writeRule`
    * `edited_runModify`, `edited_runPortModify`
    * `edited_updateIp`, `edited_updatePort`
    * `runTool_edits`
-/

------------------------------------------------------------
-- Carrying Out Edits
------------------------------------------------------------

namespace XdpDdos

variable {nrCpus : ℕ}

@[simp] theorem Firewall.editAll_nil
    (fw : Firewall) :
    fw.editAll [] = fw := rfl

@[simp] theorem Firewall.editAll_cons
    (fw : Firewall)
    (e : RuleEdit)
    (edits : List RuleEdit) :
    fw.editAll (e :: edits) = (fw.edit e).editAll edits := rfl

theorem Firewall.editAll_append
    (fw : Firewall)
    (edits edits' : List RuleEdit) :
    fw.editAll (edits ++ edits') =
      (fw.editAll edits).editAll edits' :=
  List.foldl_append

/- If all masks can be read, edits are what they are. -/
theorem flatMap_carriedOut
    {fails : CallFaults}
    (hReads : ∀ key, fails .portBlacklist .lookup key = none)
    (edits : List RuleEdit) :
    edits.flatMap (RuleEdit.carriedOut fails) = edits := by
  have hSingle :
      RuleEdit.carriedOut fails = fun e => [e] := by
    funext e
    cases e with
    | addr action src => rfl
    | rule action fproto port =>
        rw [RuleEdit.carriedOut, if_pos (hReads _)]
  rw [hSingle, List.flatMap_singleton']

/-
  A call that returned `status` carried out some of the
  requested edits, and all of them if that is success.
-/
def Edited
    (fails : CallFaults)
    (requested : List RuleEdit)
    (fw : Firewall)
    (status : ℕ)
    (m' : Maps nrCpus) : Prop :=
  ∃ edits : List RuleEdit, edits.Sublist requested ∧
    Represents m'
      (fw.editAll
        (edits.flatMap (RuleEdit.carriedOut fails))) ∧
    (fails.Honest → status = EXIT_OK → edits = requested)

section

variable {fails : CallFaults}
variable {m m' : Maps nrCpus}
variable {fw : Firewall}
variable {status : ℕ}

/- A call that changes nothing and fails. -/
theorem Edited.refused
    (hRep : Represents m fw)
    (requested : List RuleEdit)
    (hFails : fails.Honest → status ≠ EXIT_OK) :
    Edited fails requested fw status m :=
  ⟨[], List.nil_sublist _, hRep, fun hHonest hOk =>
    absurd hOk (hFails hHonest)⟩

/- A call that carries out all that is requested. -/
theorem Edited.done
    {requested : List RuleEdit}
    (hRep :
      Represents m
        (fw.editAll
          (requested.flatMap (RuleEdit.carriedOut fails))))
    (status : ℕ) :
    Edited fails requested fw status m :=
  ⟨requested, List.Sublist.refl _, hRep, fun _ _ => rfl⟩

/- A failing call is no success, unless it says so. -/
theorem modifyStatus_ne_ok
    {fd : MapId}
    {verb : MapVerb}
    {key : BitVec 32}
    {errno : Errno}
    (hFault : fails fd verb key = some errno)
    (hHonest : fails.Honest) :
    modifyStatus (.error errno) ≠ EXIT_OK := by
  intro hOk
  rw [Tool.modifyStatus_error_eq_ok_iff] at hOk
  rw [hOk] at hFault
  exact hHonest fd verb key hFault

------------------------------------------------------------
-- Addresses
------------------------------------------------------------

/- A step of the filter carries out the edit of an address. -/
theorem FilterStep.edited_addr
    {ipString : CStr}
    {action : BitVec 32}
    {outcome : Outcome ℕ}
    (hStep :
      FilterStep m (.modifyAddr ipString action)
        (.status outcome) m')
    (hRep : Represents m fw)
    (fails : CallFaults) :
    ∃ status, outcome = .returned status ∧
      Edited fails (addrEdit action ipString) fw status
        m' := by
  have hAfter := hStep.represents hRep
  cases hStep with
  | addrRefused hStatus =>
      exact ⟨_, rfl, .refused hRep _ fun _ => hStatus⟩
  | addrAdded hKey _ | addrRemoved hKey _ =>
      rcases Ipv4Addr.of_inetPton hKey with ⟨addr, hAddr, _⟩
      rw [Firewall.observe_ok_addr, Firewall.editAddr, hAddr]
        at hAfter
      refine ⟨_, rfl, Edited.done ?_ _⟩
      rw [addrEdit, if_pos (by decide), hAddr]
      exact hAfter

/- The call that an edit makes fails, or the run is usual. -/
theorem runModify_cases
    (fails : CallFaults)
    (m : Maps nrCpus)
    {ipString : CStr}
    {key : BitVec 32}
    (hKey : inetPton ipString = some key)
    {action : BitVec 32}
    (hAction : action = ACTION_ADD ∨ action = ACTION_DEL) :
    (∃ verb errno, fails .blacklist verb key = some errno ∧
        Tool.runModify fails m ipString action =
          (.returned (modifyStatus (.error errno)), m)) ∨
      Tool.runModify fails m ipString action =
        Tool.runModify .none m ipString action := by
  have hWorks
      (verb : MapVerb) :
      CallFaults.none .blacklist verb key = none := rfl
  unfold Tool.runModify
  rcases hAction with rfl | rfl
  · rw [run_blacklistModify_add fails m hKey,
      run_blacklistModify_add .none m hKey,
      Maps.updateFaulty_of_none _ _ (hWorks .update)]
    cases hFault : fails .blacklist .update key with
    | some errno =>
        rw [Maps.updateFaulty_of_some _ _ hFault]
        exact Or.inl ⟨_, errno, hFault, rfl⟩
    | none =>
        rw [Maps.updateFaulty_of_none _ _ hFault]
        exact Or.inr rfl
  · rw [run_blacklistModify_del fails m hKey,
      run_blacklistModify_del .none m hKey,
      Maps.deleteFaulty_of_none (hWorks .delete)]
    cases hFault : fails .blacklist .delete key with
    | some errno =>
        rw [Maps.deleteFaulty_of_some hFault]
        exact Or.inl ⟨_, errno, hFault, rfl⟩
    | none =>
        rw [Maps.deleteFaulty_of_none hFault]
        exact Or.inr rfl

/- Editing an address, whatever fails. -/
theorem edited_runModify
    (fails : CallFaults)
    (hRep : Represents m fw)
    (ipString : CStr)
    (action : BitVec 32) :
    ∃ status m',
      Tool.runModify fails m ipString action =
          (.returned status, m') ∧
        Edited fails (addrEdit action ipString) fw status
          m' := by
  by_cases hInvalid :
      inetPton ipString = none ∨
        ¬ (action = ACTION_ADD ∨ action = ACTION_DEL)
  · rcases run_blacklistModify_of_invalid
        (Maps.handleFaulty fails) m .blacklist hInvalid with
      ⟨status, hStatus, hRun⟩
    exact ⟨status, m, hRun, .refused hRep _ fun _ => hStatus⟩
  · rw [not_or, not_not] at hInvalid
    obtain ⟨key, hKey⟩ :=
      Option.ne_none_iff_exists'.mp hInvalid.1
    rcases runModify_cases fails m hKey hInvalid.2 with
      ⟨verb, errno, hFault, hRun⟩ | hRun
    · exact ⟨_, m, hRun,
        .refused hRep _ (modifyStatus_ne_ok hFault)⟩
    · have hStep :=
        filterSystem_step m
          (.modifyAddr ipString action : FilterEvent nrCpus)
      rcases hStep.edited_addr hRep fails with
        ⟨status, hReturned, hEdited⟩
      refine ⟨status, _, ?_, hEdited⟩
      rw [hRun, Tool.runModify, Maps.handleFaulty_none,
        ← hReturned]
      rfl

------------------------------------------------------------
-- Ports
------------------------------------------------------------

/- An edit leaves the rules alone that it is not about. -/
theorem mem_rules_edit_iff
    {action : BitVec 32}
    (hAction : action = ACTION_ADD ∨ action = ACTION_DEL)
    (fw : Firewall)
    (fproto : DdosFilter)
    (port : BitVec 16)
    (rule : DdosFilter × BitVec 16) :
    rule ∈ (fw.edit (.rule action fproto port)).rules ↔
      if rule = (fproto, port) then action = ACTION_ADD
      else rule ∈ fw.rules := by
  have hOther : ACTION_DEL ≠ ACTION_ADD := by decide
  by_cases hHere : rule = (fproto, port)
  · rcases hAction with rfl | rfl
    · simp [Firewall.edit, editSet, hHere]
    · simp [Firewall.edit, editSet, hHere, hOther]
  · rcases hAction with rfl | rfl
    · simp [Firewall.edit, editSet, hHere]
    · simp [Firewall.edit, editSet, hHere, hOther]

/- Nor those of other ports, whatever cannot be read. -/
theorem mem_rules_carriedOut_iff
    (fails : CallFaults)
    {action : BitVec 32}
    (hAction : action = ACTION_ADD ∨ action = ACTION_DEL)
    (fw : Firewall)
    (fproto fproto' : DdosFilter)
    (port port' : BitVec 16) :
    (fproto', port') ∈
        (fw.editAll
          ((RuleEdit.rule action fproto port).carriedOut
            fails)).rules ↔
      if port' ≠ port then (fproto', port') ∈ fw.rules
      else if fproto' = fproto then action = ACTION_ADD
      else
        fails .portBlacklist .lookup (port.setWidth 32) =
            none ∧
          (fproto', port') ∈ fw.rules := by
  have hDel : ACTION_DEL ≠ ACTION_ADD := by decide
  rw [RuleEdit.carriedOut]
  split
  · rename_i hReads
    rw [Firewall.editAll_cons, Firewall.editAll_nil,
      mem_rules_edit_iff hAction]
    by_cases hPort : port' = port
    · simp [hPort, hReads]
    · simp [hPort]
  · rename_i hFails
    rw [Firewall.editAll_cons, Firewall.editAll_cons,
      Firewall.editAll_nil, mem_rules_edit_iff hAction,
      mem_rules_edit_iff (Or.inr rfl)]
    by_cases hPort : port' = port
    · cases fproto <;> cases fproto' <;>
        simp [hPort, hFails, hDel, DdosFilter.other]
    · simp [hPort]

/- The masks that are written are those of the new rules. -/
theorem represents_writeRule
    (fails : CallFaults)
    (hRep : Represents m fw)
    {action : BitVec 32}
    (hAction : action = ACTION_ADD ∨ action = ACTION_DEL)
    (fproto : DdosFilter)
    (port : BitVec 16) :
    Represents
      (m.writeRule action fproto port
        (m.readMasks fails (port.setWidth 32)))
      (fw.editAll
        ((RuleEdit.rule action fproto port).carriedOut
          fails)) := by
  constructor
  · intro addr
    rw [RuleEdit.carriedOut]
    split
    · exact hRep.addrs addr
    · exact hRep.addrs addr
  · intro cpu fproto' port'
    rw [mem_rules_carriedOut_iff fails hAction]
    by_cases hPort : port' = port
    · subst hPort
      rw [Tool.portBit_writeRule m hAction,
        if_neg (not_not_intro rfl), ← hRep.rules cpu]
      cases hLookup :
          fails .portBlacklist .lookup (port'.setWidth 32) with
      | none =>
          rw [Maps.readMasks_of_none port' hLookup]
          simp [Maps.PortBit]
      | some errno =>
          rw [Maps.readMasks_of_some hLookup]
          simp
    · rw [if_pos hPort, ← hRep.rules cpu, Maps.PortBit,
        Maps.slots_writeRule, if_neg hPort, Maps.PortBit]

/- A number that is a port stands for its edit. -/
theorem portEdit_of_port
    {action : BitVec 32}
    (hAction : action = ACTION_ADD ∨ action = ACTION_DEL)
    (fproto : DdosFilter)
    (port : BitVec 16) :
    portEdit action fproto (port.setWidth 32) =
      [.rule action fproto port] := by
  rw [portEdit, if_pos ⟨hAction, port_toNat_lt port⟩]
  simp

/- Once its masks are written, the edit of a port is made. -/
theorem edited_of_written
    {action : BitVec 32}
    (hAction : action = ACTION_ADD ∨ action = ACTION_DEL)
    {fproto : DdosFilter}
    {port : BitVec 16}
    (hRep :
      Represents m'
        (fw.editAll
          ((RuleEdit.rule action fproto port).carriedOut
            fails)))
    (status : ℕ) :
    Edited fails (portEdit action fproto (port.setWidth 32))
        fw status m' ∧
      (fails.Honest → status = EXIT_OK →
        portEdit action fproto (port.setWidth 32) ≠ []) := by
  rw [portEdit_of_port hAction]
  refine ⟨.done ?_ status, fun _ _ => List.cons_ne_nil _ _⟩
  rw [List.flatMap_singleton]
  exact hRep

/- Editing the rule of a port, whatever fails. -/
theorem edited_runPortModify
    (fails : CallFaults)
    (hRep : Represents m fw)
    (fproto : DdosFilter)
    (dport action : BitVec 32) :
    ∃ status m',
      runPortModify fails m fproto dport action
            fproto.proto =
          (.returned status, m') ∧
        Edited fails (portEdit action fproto dport) fw status
          m' ∧
        (fails.Honest → status = EXIT_OK →
          portEdit action fproto dport ≠ []) := by
  have hRefused
      {status : ℕ}
      (hFails : fails.Honest → status ≠ EXIT_OK) :
      Edited fails (portEdit action fproto dport) fw status
          m ∧
        (fails.Honest → status = EXIT_OK →
          portEdit action fproto dport ≠ []) :=
    ⟨.refused hRep _ hFails, fun hHonest hOk =>
      absurd hOk (hFails hHonest)⟩
  unfold runPortModify
  by_cases hValid :
      ∃ fproto',
        ValidPortCall dport action fproto.proto fproto'
  · rcases hValid with ⟨fproto', hValid⟩
    obtain rfl : fproto = fproto' :=
      Option.some.inj
        ((protoFilter_proto fproto).symm.trans hValid.proto_eq)
    cases hFault : fails .portBlacklist .update dport with
    | some errno =>
        exact ⟨_, m, run_portModify_of_fault m _ hValid hFault,
          hRefused (modifyStatus_ne_ok hFault)⟩
    | none =>
        by_cases hRange : dport.toNat < NR_PORTS
        · rcases exists_port_of_lt hRange with ⟨port, rfl⟩
          have hWritten :=
            represents_writeRule fails hRep hValid.action_eq
              fproto port
          rw [run_portModify_of_port m fproto port hValid
            hFault]
          split
          · split
            · -- setting a count to zero changes no rule
              refine ⟨_, _, rfl, edited_of_written
                hValid.action_eq ?_ _⟩
              exact ⟨hWritten.addrs, hWritten.rules⟩
            · exact ⟨_, _, rfl, edited_of_written
                hValid.action_eq hWritten _⟩
          · exact ⟨_, _, rfl, edited_of_written
              hValid.action_eq hWritten _⟩
        · exact ⟨_, m, run_portModify_of_ge m _ hValid
            (Nat.not_lt.mp hRange) hFault,
            hRefused fun _ => by decide⟩
  · rcases run_portModify_of_invalid (Maps.handleFaulty fails)
        m .portBlacklist (.portBlacklistDropCount fproto)
        (not_exists.mp hValid) with ⟨status, hFails, hRun⟩
    exact ⟨status, m, hRun, hRefused fun _ => hFails⟩

end

/- Each kind of edit is made through one file. -/
theorem file_of_mem_addrEdit
    {action : BitVec 32}
    {ipString : CStr}
    {e : RuleEdit}
    (hMem : e ∈ addrEdit action ipString) :
    e.file = fileBlacklist := by
  unfold addrEdit at hMem
  split at hMem
  · rcases Option.map_eq_some_iff.mp
      (Option.mem_toList.mp hMem) with ⟨addr, _, rfl⟩
    rfl
  · cases hMem

theorem file_of_mem_portEdit
    {action dport : BitVec 32}
    {fproto : DdosFilter}
    {e : RuleEdit}
    (hMem : e ∈ portEdit action fproto dport) :
    e.file = filePortBlacklist := by
  unfold portEdit at hMem
  split at hMem
  · rw [List.mem_singleton.mp hMem]
    rfl
  · cases hMem

------------------------------------------------------------
-- The Parts of an Update
------------------------------------------------------------

namespace Tool

variable {fails : ToolFaults}
variable {st : OptionState}
variable {s : ToolState nrCpus}
variable {fw : Firewall}

/- The part for `--ip` edits the address, or ends the tool. -/
theorem edited_updateIp
    (st : OptionState)
    (hRep : Represents s.maps fw) :
    (∃ status m',
      CallProg.run (handle fails) (updateIp st) s =
          (.returned status, { s with maps := m' }) ∧
        Edited fails.calls (addrEditsOf st.request) fw status
          m' ∧
        ∀ e ∈ addrEditsOf st.request,
          fails.opens e.file = .none) ∨
      CallProg.run (handle fails) (updateIp st) s =
        (.halted (.exit EXIT_FAIL_MAP_FILE), s) := by
  cases hIp : st.ipString with
  | none =>
      have hNone : addrEditsOf st.request = [] := by
        simp only [addrEditsOf, OptionState.request, hIp]
      refine Or.inl ⟨0, s.maps, run_updateIp_of_none hIp s, ?_⟩
      rw [hNone]
      exact ⟨.done hRep _, fun _ hMem => absurd hMem
        List.not_mem_nil⟩
  | some ipString =>
      have hSome :
          addrEditsOf st.request =
            addrEdit st.action ipString := by
        simp only [addrEditsOf, OptionState.request, hIp]
      by_cases hOpen : fails.opens fileBlacklist = .none
      · rcases edited_runModify fails.calls hRep ipString
            st.action with ⟨status, m', hRun, hEdited⟩
        refine Or.inl ⟨status, m',
          run_updateIp_of_some hIp hOpen hRun, ?_⟩
        rw [hSome]
        refine ⟨hEdited, fun e hMem => ?_⟩
        rw [file_of_mem_addrEdit hMem]
        exact hOpen
      · have hGiven : st.ipString ≠ none := by
          rw [hIp]
          exact Option.some_ne_none ipString
        exact Or.inr (run_updateIp_of_not_open hGiven hOpen s)

/- The part for a port does so with the rule. -/
theorem edited_updatePort
    (hProto : st.proto = st.filter.proto)
    (hPort : st.dport ≠ 0)
    (res : ℕ)
    (hRep : Represents s.maps fw) :
    (∃ status m',
      CallProg.run (handle fails) (updatePort st res) s =
          (.returned status, { s with maps := m' }) ∧
        Edited fails.calls (portEditsOf st.request) fw status
          m' ∧
        (fails.calls.Honest → status = EXIT_OK →
          portEditsOf st.request ≠ []) ∧
        ∀ e ∈ portEditsOf st.request,
          fails.opens e.file = .none) ∨
      CallProg.run (handle fails) (updatePort st res) s =
        (.halted (.exit EXIT_FAIL_MAP_FILE), s) := by
  have hSome :
      portEditsOf st.request =
        portEdit st.action st.filter st.dport := by
    simp only [portEditsOf, OptionState.request, hPort,
      if_false]
  by_cases hOpen : PortMapsOpen fails st
  · rcases edited_runPortModify fails.calls hRep st.filter
      st.dport st.action with
      ⟨status, m', hRun, hEdited, hRange⟩
    rw [← hProto] at hRun
    refine Or.inl ⟨status, m',
      run_updatePort_of_ne hPort hOpen hRun res, ?_⟩
    rw [hSome]
    refine ⟨hEdited, hRange, fun e hMem => ?_⟩
    rw [file_of_mem_portEdit hMem]
    exact hOpen.1
  · exact Or.inr
      (run_updatePort_of_not_open hPort hOpen res s)

------------------------------------------------------------
-- The Whole Tool
------------------------------------------------------------

/-
  What a run that ends with `outcome` leaves: some of the
  requested edits, through files that open, and the last one
  if the tool exits with 0 and is not deceived.
-/
def EditedAtEnd
    (fails : ToolFaults)
    (requested : List RuleEdit)
    (fw : Firewall)
    (outcome : Outcome Ending)
    (m' : Maps nrCpus) : Prop :=
  ∃ edits : List RuleEdit, edits.Sublist requested ∧
    (∀ e ∈ edits, fails.opens e.file = .none) ∧
    Represents m'
      (fw.editAll
        (edits.flatMap (RuleEdit.carriedOut fails.calls))) ∧
    (fails.calls.Honest → outcome = .returned (.exited 0) →
      edits.getLast? = requested.getLast?)

variable {m : Maps nrCpus}

/- A run that changes nothing and does not exit with 0. -/
theorem EditedAtEnd.refused
    (hRep : Represents m fw)
    (requested : List RuleEdit)
    {outcome : Outcome Ending}
    (hFails : outcome ≠ .returned (.exited 0)) :
    EditedAtEnd fails requested fw outcome m :=
  ⟨[], List.nil_sublist _, fun _ hMem => absurd hMem
    List.not_mem_nil, hRep, fun _ hOk => absurd hOk hFails⟩

/- The end of a run without the part for a port. -/
theorem EditedAtEnd.of_addr
    {request : Request}
    {status : ℕ}
    (hNone : portEditsOf request = [])
    (hEdited :
      Edited fails.calls (addrEditsOf request) fw status m)
    (hOpen :
      ∀ e ∈ addrEditsOf request,
        fails.opens e.file = .none) :
    EditedAtEnd fails
      (addrEditsOf request ++ portEditsOf request) fw
      (.returned (.exited status)) m := by
  rcases hEdited with ⟨edits, hSome, hRep, hAll⟩
  rw [hNone, List.append_nil]
  refine ⟨edits, hSome,
    fun e hMem => hOpen e (hSome.subset hMem), hRep, ?_⟩
  intro hHonest hOk
  cases hOk
  rw [hAll hHonest rfl]

/-
  The status of the part for a port replaces that of the
  part for `--ip`, so that only the last edit is certain.
-/
theorem EditedAtEnd.of_port
    {request : Request}
    {edits : List RuleEdit}
    {status : ℕ}
    (hSome : edits.Sublist (addrEditsOf request))
    (hOpen :
      ∀ e ∈ addrEditsOf request ++ portEditsOf request,
        fails.opens e.file = .none)
    (hEdited :
      Edited fails.calls (portEditsOf request)
        (fw.editAll
          (edits.flatMap (RuleEdit.carriedOut fails.calls)))
        status m)
    (hRange :
      fails.calls.Honest → status = EXIT_OK →
        portEditsOf request ≠ []) :
    EditedAtEnd fails
      (addrEditsOf request ++ portEditsOf request) fw
      (.returned (.exited status)) m := by
  rcases hEdited with ⟨edits', hSome', hRep, hAll⟩
  rw [← Firewall.editAll_append, ← List.flatMap_append]
    at hRep
  have hBoth := hSome.append hSome'
  refine ⟨edits ++ edits', hBoth,
    fun e hMem => hOpen e (hBoth.subset hMem), hRep, ?_⟩
  intro hHonest hOk
  cases hOk
  have hNonempty := hRange hHonest rfl
  rw [hAll hHonest rfl, List.getLast?_append_of_ne_nil _ hNonempty,
    List.getLast?_append_of_ne_nil _ hNonempty]

/- A run that adds or deletes, once the options are parsed. -/
theorem editedAtEnd_of_action
    (fuel : ℕ)
    (frame : StackFrame)
    {args : List CStr}
    (hLoop : optionLoop {} (options args) = some st)
    (hAction : st.action ≠ 0)
    (hProto : st.proto = st.filter.proto)
    (hRep : Represents m fw) :
    EditedAtEnd fails
      (addrEditsOf st.request ++ portEditsOf st.request) fw
      (runTool fuel frame fails m args).1
      (runTool fuel frame fails m args).2.maps := by
  by_cases hOpen : fails.opens fileVerdict = .none
  · by_cases hTarget : st.ipString = none ∧ st.dport = 0
    · rw [runTool_of_action hLoop hAction hOpen,
        updateBlacklist, if_pos hTarget]
      exact .refused hRep _ (by rintro ⟨⟩)
    · have hIpRun :=
        @edited_updateIp _ fails { maps := m } _ st hRep
      rcases hIpRun with
        ⟨res, m', hRun, hEdited, hOpenIp⟩ | hRun
      · rw [runTool_of_updateIp hLoop hAction hOpen hTarget
          hRun]
        by_cases hPort : st.dport = 0
        · have hNone : portEditsOf st.request = [] := by
            simp only [portEditsOf, OptionState.request, hPort,
              if_true]
          rw [run_updatePort_of_eq hPort]
          exact .of_addr hNone hEdited hOpenIp
        · rcases hEdited with ⟨edits, hSome, hRep', _⟩
          rcases @edited_updatePort _ fails _ { maps := m' } _
              hProto hPort res hRep' with
            ⟨status, m'', hRun', hEdited', hRange, hOpenPort⟩ |
              hRun'
          · rw [hRun']
            exact .of_port hSome
              (List.forall_mem_append.mpr ⟨hOpenIp, hOpenPort⟩)
              hEdited' hRange
          · rw [hRun']
            exact ⟨edits,
              hSome.trans (List.sublist_append_left _ _),
              fun e hMem => hOpenIp e (hSome.subset hMem),
              hRep', by rintro _ ⟨⟩⟩
      · rw [runTool_of_action hLoop hAction hOpen,
          updateBlacklist, if_neg hTarget, CallProg.run_bind,
          hRun]
        exact .refused hRep _ (by rintro ⟨⟩)
  · rw [runTool_of_not_open hLoop hOpen]
    exact .refused hRep _ (by rintro ⟨⟩)

/- Without an action nothing is asked for. -/
theorem editsOf_of_no_action
    {request : Request}
    (hNone : request.action = 0) :
    editsOf request = [] := by
  have hNeither :
      ¬ ((0 : BitVec 32) = ACTION_ADD ∨
        (0 : BitVec 32) = ACTION_DEL) := by
    decide
  have hAddr : addrEditsOf request = [] := by
    simp only [addrEditsOf, addrEdit, hNone, hNeither,
      if_false]
    split <;> rfl
  have hPort : portEditsOf request = [] := by
    simp only [portEditsOf, portEdit, hNone, hNeither,
      false_and, if_false, ite_self]
  rw [editsOf, hAddr, hPort, List.append_nil]

/-
  Whatever its arguments are and whatever fails, a run of the
  tool carries out some of the edits that they ask for, in
  their order, and the last of them if it exits with 0 and
  no failing call passes for a success.
-/
theorem runTool_edits
    (fuel : ℕ)
    (frame : StackFrame)
    (args : List CStr)
    (hRep : Represents m fw) :
    EditedAtEnd fails (requestedEdits args) fw
      (runTool fuel frame fails m args).1
      (runTool fuel frame fails m args).2.maps := by
  cases hLoop : optionLoop {} (options args) with
  | none =>
      rw [runTool_of_rejected hLoop]
      exact .refused hRep _ (by rintro ⟨⟩)
  | some st =>
      rcases request_of_optionLoop hLoop with
        ⟨hRequest, hProto⟩
      rw [requestedEdits, ← hRequest]
      by_cases hNone : st.action = 0
      · rw [editsOf_of_no_action hNone, runTool_of_no_action]
        · exact ⟨[], List.Sublist.refl _, fun _ hMem =>
            absurd hMem List.not_mem_nil, hRep,
            fun _ _ => rfl⟩
        · intro st' hLoop'
          rw [hLoop] at hLoop'
          cases hLoop'
          exact hNone
      · exact editedAtEnd_of_action fuel frame hLoop hNone
          hProto hRep

end Tool

end XdpDdos
