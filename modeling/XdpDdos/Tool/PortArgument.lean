import XdpDdos.Tool.ExitStatus

/-
  Which number a port argument stands for.

  The tool reads as much of the argument as is a number,
  truncates it, and takes what is left if it is a port.

  Main declarations:
    * `SpellsPort`, `atoi_of_spellsPort`
    * `MeansItsNumber`, `Refused`, `portArgument_iff`
-/

------------------------------------------------------------
-- Numerals
------------------------------------------------------------

namespace XdpDdos

namespace Tool

variable {nrCpus : ℕ}

/- A decimal numeral of a port other than zero. -/
structure SpellsPort
    (s : CStr)
    (port : BitVec 16) : Prop where
  nonempty : s ≠ []
  digits : s.all Char.isDigit = true
  value : decimal s = port.toNat
  nonzero : port ≠ 0

/- Such a numeral is read as its port. -/
theorem atoi_of_spellsPort
    {s : CStr}
    {port : BitVec 16}
    (hSpells : SpellsPort s port) :
    CLib.atoi s = port.setWidth 32 := by
  have hLt := port.isLt
  apply BitVec.eq_of_toInt_eq
  rw [toInt_port, CLib.toInt_atoi_of_digits hSpells.digits,
    hSpells.value]
  rw [hSpells.value]
  omega

------------------------------------------------------------
-- Refused Numbers
------------------------------------------------------------

/- A number that is no port, or the zero port. -/
def NoPort (dport : BitVec 32) : Prop :=
  dport.toInt < 1 ∨ 65535 < dport.toInt

/- An update that must find its entry never reports one. -/
def NeverExists (calls : CallFaults) : Prop :=
  ∀ dport, calls .portBlacklist .update dport ≠ some EEXIST

/- A negative number is a key beyond the array. -/
theorem le_toNat_of_toInt_neg
    {dport : BitVec 32}
    (hNegative : dport.toInt < 0) :
    NR_PORTS ≤ dport.toNat := by
  have hLt := dport.isLt
  rw [BitVec.toInt_eq_toNat_cond] at hNegative
  unfold NR_PORTS
  split at hNegative <;> omega

/- Other numbers that are ports are keys of the array. -/
theorem exists_port_of_not_noPort
    {dport : BitVec 32}
    (hPort : ¬ NoPort dport) :
    ∃ port : BitVec 16,
      dport = port.setWidth 32 ∧ port ≠ 0 := by
  unfold NoPort at hPort
  have hLt := dport.isLt
  have hCond := BitVec.toInt_eq_toNat_cond dport
  have hRange : dport.toNat < NR_PORTS := by
    unfold NR_PORTS
    split at hCond <;> omega
  rcases exists_port_of_lt hRange with ⟨port, rfl⟩
  refine ⟨port, rfl, ?_⟩
  rintro rfl
  rw [toInt_port] at hPort
  simp at hPort

/- Such a number, or a double action, changes nothing. -/
theorem runPortModify_of_refused
    {calls : CallFaults}
    (hErrno : NeverExists calls)
    (m : Maps nrCpus)
    {action : BitVec 32}
    (filter : DdosFilter)
    {dport : BitVec 32}
    (hNonzero : dport ≠ 0)
    (hRefused :
      ¬ (action = ACTION_ADD ∨ action = ACTION_DEL) ∨
        NoPort dport) :
    ∃ status, status ≠ 0 ∧
      runPortModify calls m filter dport action filter.proto =
        (.returned status, m) := by
  unfold runPortModify
  by_cases hValid :
      ∃ fproto, ValidPortCall dport action filter.proto fproto
  · rcases hValid with ⟨fproto, hValid⟩
    have hRange : NR_PORTS ≤ dport.toNat := by
      have hNoPort : NoPort dport :=
        hRefused.resolve_left (not_not.mpr hValid.action_eq)
      have hSmall := hValid.dport_le
      have hNotZero : dport.toInt ≠ 0 := by
        intro hZero
        exact hNonzero (BitVec.eq_of_toInt_eq hZero)
      apply le_toNat_of_toInt_neg
      unfold NoPort at hNoPort
      omega
    cases hFault : calls .portBlacklist .update dport with
    | none =>
        exact ⟨EXIT_FAIL_MAP_KEY, by decide,
          run_portModify_of_ge m _ hValid hRange hFault⟩
    | some errno =>
        refine ⟨_, ?_,
          run_portModify_of_fault m _ hValid hFault⟩
        intro hZero
        obtain rfl :=
          (modifyStatus_error_eq_ok_iff errno).mp hZero
        exact hErrno dport hFault
  · rcases run_portModify_of_invalid (Maps.handleFaulty calls)
        m .portBlacklist (.portBlacklistDropCount filter)
        (not_exists.mp hValid) with ⟨status, hFails, hRun⟩
    exact ⟨status, hFails, hRun⟩

------------------------------------------------------------
-- Requests for a Port
------------------------------------------------------------

variable {fuel : ℕ}
variable {frame : StackFrame}
variable {fails : ToolFaults}
variable {args : List CStr}

/- The function on ports always returns. -/
theorem runPortModify_returns
    (calls : CallFaults)
    (m : Maps nrCpus)
    (action : BitVec 32)
    (filter : DdosFilter)
    {dport : BitVec 32}
    (hPort : dport ≠ 0) :
    ∃ status m',
      runPortModify calls m filter dport action filter.proto =
        (.returned status, m') := by
  by_cases hReported : PortReported calls action filter dport
  · rcases runPortModify_of_reported m hPort hReported with
      ⟨m', hRun, _⟩
    exact ⟨EXIT_OK, m', hRun⟩
  · rcases runPortModify_of_not_reported m hReported with
      ⟨status, m', hRun, _⟩
    exact ⟨status, m', hRun⟩

/-
  Without `--ip` the tool fails and changes nothing, or it
  ends as the function on ports does.
-/
theorem runTool_port_cases
    {st : OptionState}
    (hLoop : optionLoop {} (options args) = some st)
    (hAction : st.action ≠ 0)
    (hIp : st.ipString = none)
    (m : Maps nrCpus) :
    (FailsWith (runTool fuel frame fails m args).1 ∧
        (runTool fuel frame fails m args).2.maps = m) ∨
      (st.dport ≠ 0 ∧
        ∃ status m',
          runPortModify fails.calls m st.filter st.dport
                st.action st.filter.proto =
              (.returned status, m') ∧
            runTool fuel frame fails m args =
              (.returned (.exited status),
                { maps := m' })) := by
  have hProto := (request_of_optionLoop hLoop).2
  by_cases hVerdict : fails.opens fileVerdict = none
  · by_cases hPort : st.dport = 0
    · rw [runTool_of_action hLoop hAction hVerdict,
        updateBlacklist, if_pos ⟨hIp, hPort⟩]
      exact Or.inl
        ⟨⟨EXIT_FAIL_OPTION, by decide, Or.inl rfl⟩, rfl⟩
    · have hTarget : ¬ (st.ipString = none ∧ st.dport = 0) :=
        fun hNone => hPort hNone.2
      rw [runTool_of_updateIp hLoop hAction hVerdict hTarget
        (run_updateIp_of_none hIp _)]
      by_cases hOpen : PortMapsOpen fails st
      · rcases runPortModify_returns fails.calls m st.action
            st.filter hPort with ⟨status, m', hRun⟩
        refine Or.inr ⟨hPort, status, m', hRun, ?_⟩
        rw [← hProto] at hRun
        rw [run_updatePort_of_ne hPort hOpen hRun]
        rfl
      · rw [run_updatePort_of_not_open hPort hOpen]
        exact Or.inl
          ⟨⟨EXIT_FAIL_MAP_FILE, by decide, Or.inr rfl⟩, rfl⟩
  · rw [runTool_of_not_open hLoop hVerdict]
    exact Or.inl
      ⟨⟨EXIT_FAIL_MAP_FILE, by decide, Or.inr rfl⟩, rfl⟩

/- The tool passes on a port, and ends as the function does. -/
structure AppliedTo
    (fails : ToolFaults)
    (m : Maps nrCpus)
    (req : Request)
    (port : BitVec 16)
    (result : Outcome Ending × ToolState nrCpus) : Prop where
  dport_eq : req.dport = port.setWidth 32
  result_eq :
    ∃ status m',
      runPortModify fails.calls m req.filter
            (port.setWidth 32) req.action req.filter.proto =
          (.returned status, m') ∧
        result = (.returned (.exited status), { maps := m' })

/-
  A port argument is a numeral and its port is edited, or
  the tool fails and changes nothing.
-/
def MeansItsNumber
    (fails : ToolFaults)
    (m : Maps nrCpus)
    (req : Request)
    (s : CStr)
    (result : Outcome Ending × ToolState nrCpus) : Prop :=
  (∃ port, SpellsPort s port ∧
      AppliedTo fails m req port result) ∨
    (FailsWith result.1 ∧ result.2.maps = m)

/-
  The options are rejected, or are for both actions, or the
  number of the last port argument is no port.
-/
def Refused (args : List CStr) : Prop :=
  optionLoop {} (options args) = none ∨
    ¬ ((request (options args)).action = ACTION_ADD ∨
        (request (options args)).action = ACTION_DEL) ∨
    NoPort (request (options args)).dport

/- The argument is a numeral of the number that is used. -/
def SpellsRequest
    (s : CStr)
    (args : List CStr) : Prop :=
  (∃ port, SpellsPort s port) ∧
    CLib.atoi s = (request (options args)).dport

/- A request that nothing refuses is reported as a success. -/
theorem reported_of_not_refused
    {st : OptionState}
    (m : Maps nrCpus)
    (hAction :
      st.request.action = ACTION_ADD ∨
        st.request.action = ACTION_DEL)
    (hPort : ¬ NoPort st.request.dport) :
    Reported .none m st.request := by
  rcases exists_port_of_not_noPort hPort with
    ⟨port, hPort, hNonzero⟩
  exact reported_of_port m hAction hNonzero hPort

/- A request that is refused fails, whatever fails besides. -/
theorem failsWith_of_refused
    {st : OptionState}
    (hLoop : optionLoop {} (options args) = some st)
    (hAction : st.action ≠ 0)
    (hIp : st.ipString = none)
    (hErrno : NeverExists fails.calls)
    (m : Maps nrCpus)
    (hRefused :
      ¬ (st.action = ACTION_ADD ∨ st.action = ACTION_DEL) ∨
        NoPort st.dport) :
    FailsWith (runTool fuel frame fails m args).1 ∧
      (runTool fuel frame fails m args).2.maps = m := by
  rcases runTool_port_cases hLoop hAction hIp m with
    hFails | ⟨hNonzero, status, m', hModify, hRun⟩
  · exact hFails
  · rcases runPortModify_of_refused hErrno m st.filter hNonzero
        hRefused with ⟨status', hStatus, hUnchanged⟩
    rw [hModify] at hUnchanged
    cases hUnchanged
    rw [hRun]
    exact ⟨⟨status, hStatus, Or.inl rfl⟩, rfl⟩

/- An argument that spells the number used means it. -/
theorem meansItsNumber_of_spells
    {st : OptionState}
    (hLoop : optionLoop {} (options args) = some st)
    (hAction : st.action ≠ 0)
    (hIp : st.ipString = none)
    (m : Maps nrCpus)
    {s : CStr}
    (hSpelled : SpellsRequest s args) :
    MeansItsNumber fails m (request (options args)) s
      (runTool fuel frame fails m args) := by
  rcases hSpelled with ⟨⟨port, hSpells⟩, hAtoi⟩
  rw [← (request_of_optionLoop hLoop).1] at hAtoi ⊢
  have hDport : st.dport = port.setWidth 32 := by
    rw [← atoi_of_spellsPort hSpells, hAtoi]
    rfl
  rcases runTool_port_cases hLoop hAction hIp m with
    hFails | ⟨_, status, m', hModify, hRun⟩
  · exact Or.inr hFails
  · rw [hDport] at hModify
    exact Or.inl
      ⟨port, hSpells, hDport, status, m', hModify, hRun⟩

/-
  If nothing fails and the number used is a port, only its
  own numerals mean it.
-/
theorem spellsRequest_of_means
    {st : OptionState}
    (hLoop : optionLoop {} (options args) = some st)
    (hAction : st.action = ACTION_ADD ∨ st.action = ACTION_DEL)
    (hPort : ¬ NoPort st.dport)
    (m : Maps nrCpus)
    {s : CStr}
    (hMeans :
      MeansItsNumber .none m (request (options args)) s
        (runTool fuel frame .none m args)) :
    SpellsRequest s args := by
  have hGiven : st.action ≠ 0 := by
    rcases hAction with hAdd | hDel
    · rw [hAdd]
      decide
    · rw [hDel]
      decide
  rcases runTool_of_reported hLoop hGiven
      (reported_of_not_refused m hAction hPort) with
    ⟨m', hRun, _⟩
  rw [hRun] at hMeans
  rcases hMeans with
    ⟨port, hSpells, hApplied⟩ |
    ⟨⟨status, hStatus, hReturned | hHalted⟩, _⟩
  · refine ⟨⟨port, hSpells⟩, ?_⟩
    rw [atoi_of_spellsPort hSpells]
    exact hApplied.dport_eq.symm
  · cases hReturned
    exact absurd rfl hStatus
  · cases hHalted

/-
  Whatever fails and whatever the maps hold, a port argument
  means its number exactly when the request is refused or
  the argument spells the number that is used.
-/
theorem portArgument_iff
    (nrCpus fuel : ℕ)
    (frame : StackFrame)
    (args : List CStr)
    (hAction : requestedAction (options args) ≠ 0)
    (hIp : ipOptions (options args) = [])
    (s : CStr) :
    (∀ (fails : ToolFaults) (m : Maps nrCpus),
        NeverExists fails.calls →
          MeansItsNumber fails m (request (options args)) s
            (runTool fuel frame fails m args)) ↔
      Refused args ∨ SpellsRequest s args := by
  cases hLoop : optionLoop {} (options args) with
  | none =>
      refine iff_of_true (fun fails m _ => Or.inr ?_)
        (Or.inl (Or.inl hLoop))
      rw [runTool_of_rejected hLoop]
      exact ⟨⟨EXIT_FAIL_OPTION, by decide, Or.inl rfl⟩, rfl⟩
  | some st =>
      have hRequest := (request_of_optionLoop hLoop).1
      have hActionArg : st.action ≠ 0 := by
        have hSame := congrArg Request.action hRequest
        exact fun hZero => hAction (hSame.symm.trans hZero)
      have hIpArg : st.ipString = none := by
        have hSame := congrArg Request.ip hRequest
        simp only [request, hIp] at hSame
        exact hSame
      have hRefusedArg :
          Refused args ↔
            ¬ (st.action = ACTION_ADD ∨
                st.action = ACTION_DEL) ∨
              NoPort st.dport := by
        unfold Refused
        rw [← hRequest, hLoop]
        exact or_iff_right (Option.some_ne_none st)
      rw [hRefusedArg]
      constructor
      · intro hMeans
        by_contra hNone
        rw [not_or, not_or, not_not] at hNone
        rcases hNone with ⟨⟨hEdit, hIsPort⟩, hNotSpelled⟩
        apply hNotSpelled
        apply spellsRequest_of_means hLoop hEdit hIsPort
          Maps.fresh
        apply hMeans .none Maps.fresh
        intro _ hNever
        cases hNever
      · rintro (hRefused | hSpelled) fails m hErrno
        · exact Or.inr (failsWith_of_refused hLoop hActionArg
            hIpArg hErrno m hRefused)
        · exact meansItsNumber_of_spells hLoop hActionArg
            hIpArg m hSpelled

/- `--add -t 443`. -/
def addPort443 : List CStr :=
  ["--add".toList, "-t".toList, "443".toList]

/- The argument spells a port, so it means that port. -/
theorem addPort443_means_443 :
    MeansItsNumber .none (Maps.fresh : Maps 2)
      (request (options addPort443)) "443".toList
      (runTool 0 emptyFrame .none (Maps.fresh : Maps 2)
        addPort443) := by
  refine (portArgument_iff 2 0 emptyFrame addPort443
    (by decide) (by decide) "443".toList).mpr ?_ .none _ ?_
  · refine Or.inr ⟨⟨443, ?_⟩, by decide⟩
    exact ⟨by decide, by decide, by decide, by decide⟩
  · intro _ hNever
    cases hNever

/- `--add -t 80abc`. -/
def addPort80abc : List CStr :=
  ["--add".toList, "-t".toList, "80abc".toList]

/- No numeral, but the tool blocks TCP port 80. -/
theorem addPort80abc_means_nothing :
    (runTool 0 emptyFrame .none (Maps.fresh : Maps 1)
          addPort80abc).1 =
        .returned (.exited 0) ∧
      ¬ MeansItsNumber .none (Maps.fresh : Maps 1)
        (request (options addPort80abc)) "80abc".toList
        (runTool 0 emptyFrame .none (Maps.fresh : Maps 1)
          addPort80abc) := by
  have hLoop :
      optionLoop {} (options addPort80abc) =
        some { action := ACTION_ADD, dport := 80 } := rfl
  have hNonzero : (80 : BitVec 16) ≠ 0 := by decide
  rcases runTool_of_reported hLoop (by decide)
      (reported_of_port (Maps.fresh : Maps 1) (Or.inl rfl)
        hNonzero rfl) with
    ⟨m', hRun, _⟩
  rw [hRun]
  refine ⟨rfl, ?_⟩
  rintro (⟨port, hSpells, _⟩ |
    ⟨⟨status, hStatus, hReturned | hHalted⟩, _⟩)
  · exact absurd hSpells.digits (by decide)
  · cases hReturned
    exact hStatus rfl
  · cases hHalted

end Tool

end XdpDdos
