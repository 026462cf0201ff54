import XdpDdos.Tool.Main
import XdpDdos.Control.PortEffects

/-
  Runs of the tool that update the blacklists, seen as runs
  of the two functions they call.

  Main declarations:
    * `runTool`, `run_openBpfMap_bind`
    * `run_updateIp_of_some`, `run_updatePort_of_ne`
    * `runTool_of_action`, `runTool_of_updateIp`
-/

------------------------------------------------------------
-- Opening Maps
------------------------------------------------------------

namespace XdpDdos

variable {nrCpus : ℕ}
variable {fails : ToolFaults}

theorem ToolFaults.objGet_of_none
    {file : CStr}
    {fd : MapId}
    (hOpen : fails.opens file = .none)
    (hFile : mapOfFile file = some fd) :
    fails.objGet file = .ok fd := by
  simp only [objGet, hOpen, hFile]

theorem ToolFaults.objGet_of_some
    {file : CStr}
    {errno : Errno}
    (hOpen : fails.opens file = some errno) :
    fails.objGet file = .error errno := by
  simp only [objGet, hOpen]

namespace Tool

variable {α : Type}

theorem run_openBpfMap_bind
    (file : CStr)
    (next : MapId → ToolProg nrCpus α)
    (s : ToolState nrCpus) :
    CallProg.run (handle fails) (openBpfMap file >>= next) s =
      match fails.objGet file with
      | .error _ => (.halted (.exit EXIT_FAIL_MAP_FILE), s)
      | .ok fd => CallProg.run (handle fails) (next fd) s := by
  unfold openBpfMap
  rw [CallProg.bind_assoc, run_objGet_bind]
  cases fails.objGet file with
  | error errno => rfl
  | ok fd => rfl

/- A file that opens gives the map that is pinned at it. -/
theorem run_openBpfMap_of_none
    {file : CStr}
    {fd : MapId}
    (hOpen : fails.opens file = .none)
    (hFile : mapOfFile file = some fd)
    (next : MapId → ToolProg nrCpus α)
    (s : ToolState nrCpus) :
    CallProg.run (handle fails) (openBpfMap file >>= next) s =
      CallProg.run (handle fails) (next fd) s := by
  rw [run_openBpfMap_bind,
    ToolFaults.objGet_of_none hOpen hFile]

/- A file that does not open ends the process. -/
theorem run_openBpfMap_of_ne
    {file : CStr}
    (hOpen : fails.opens file ≠ .none)
    (next : MapId → ToolProg nrCpus α)
    (s : ToolState nrCpus) :
    CallProg.run (handle fails) (openBpfMap file >>= next) s =
      (.halted (.exit EXIT_FAIL_MAP_FILE), s) := by
  rcases Option.ne_none_iff_exists'.mp hOpen with
    ⟨errno, hErrno⟩
  rw [run_openBpfMap_bind, ToolFaults.objGet_of_some hErrno]

------------------------------------------------------------
-- The Two Parts of an Update
------------------------------------------------------------

/- A run of the function that edits addresses. -/
def runModify
    (calls : CallFaults)
    (m : Maps nrCpus)
    (ipString : CStr)
    (action : BitVec 32) : Outcome ℕ × Maps nrCpus :=
  CallProg.run (Maps.handleFaulty calls)
    (blacklistModify .blacklist ipString action) m

theorem run_updateIp_of_none
    {st : OptionState}
    (hIp : st.ipString = none)
    (s : ToolState nrCpus) :
    CallProg.run (handle fails) (updateIp st) s =
      (.returned 0, s) := by
  simp only [updateIp, hIp]
  rfl

/- The part for `--ip` returns what its function returns. -/
theorem run_updateIp_of_some
    {st : OptionState}
    {ipString : CStr}
    {s : ToolState nrCpus}
    {status : ℕ}
    {m' : Maps nrCpus}
    (hIp : st.ipString = some ipString)
    (hOpen : fails.opens fileBlacklist = .none)
    (hModify :
      runModify fails.calls s.maps ipString st.action =
        (.returned status, m')) :
    CallProg.run (handle fails) (updateIp st) s =
      (.returned status, { s with maps := m' }) := by
  simp only [updateIp, hIp]
  rw [run_openBpfMap_of_none hOpen mapOfFile_fileBlacklist,
    run_mapProg_bind fails hModify]
  rfl

/- A blacklist file that does not open ends the process. -/
theorem run_updateIp_of_not_open
    {st : OptionState}
    (hIp : st.ipString ≠ none)
    (hOpen : fails.opens fileBlacklist ≠ .none)
    (s : ToolState nrCpus) :
    CallProg.run (handle fails) (updateIp st) s =
      (.halted (.exit EXIT_FAIL_MAP_FILE), s) := by
  rcases Option.ne_none_iff_exists'.mp hIp with
    ⟨ipString, hSome⟩
  simp only [updateIp, hSome]
  exact run_openBpfMap_of_ne hOpen _ s

theorem run_updatePort_of_eq
    {st : OptionState}
    (hPort : st.dport = 0)
    (res : ℕ)
    (s : ToolState nrCpus) :
    CallProg.run (handle fails) (updatePort st res) s =
      (.returned res, s) := by
  simp only [updatePort, hPort, ne_eq, not_true, if_false]
  rfl

/- Both files that a port needs can be opened. -/
def PortMapsOpen
    (fails : ToolFaults)
    (st : OptionState) : Prop :=
  fails.opens filePortBlacklist = .none ∧
    fails.opens (filePortBlacklistCount st.filter) = .none

/- The part for a port returns what its function returns. -/
theorem run_updatePort_of_ne
    {st : OptionState}
    {s : ToolState nrCpus}
    {status : ℕ}
    {m' : Maps nrCpus}
    (hPort : st.dport ≠ 0)
    (hOpen : PortMapsOpen fails st)
    (hModify :
      runPortModify fails.calls s.maps st.filter st.dport
          st.action st.proto =
        (.returned status, m'))
    (res : ℕ) :
    CallProg.run (handle fails) (updatePort st res) s =
      (.returned status, { s with maps := m' }) := by
  simp only [updatePort, hPort, ne_eq, not_false_eq_true,
    if_true]
  rw [run_openBpfMap_of_none hOpen.1
      mapOfFile_filePortBlacklist,
    run_openBpfMap_of_none hOpen.2
      (mapOfFile_filePortBlacklistCount st.filter),
    run_mapProg_bind fails hModify]
  rfl

theorem run_updatePort_of_not_open
    {st : OptionState}
    (hPort : st.dport ≠ 0)
    (hOpen : ¬ PortMapsOpen fails st)
    (res : ℕ)
    (s : ToolState nrCpus) :
    CallProg.run (handle fails) (updatePort st res) s =
      (.halted (.exit EXIT_FAIL_MAP_FILE), s) := by
  simp only [updatePort, hPort, ne_eq, not_false_eq_true,
    if_true]
  by_cases hFirst : fails.opens filePortBlacklist = .none
  · rw [run_openBpfMap_of_none hFirst
      mapOfFile_filePortBlacklist]
    exact run_openBpfMap_of_ne
      (fun hSecond => hOpen ⟨hFirst, hSecond⟩) _ s
  · exact run_openBpfMap_of_ne hFirst _ s

------------------------------------------------------------
-- The Whole Tool
------------------------------------------------------------

/- A run of the tool, from nothing printed. -/
def runTool
    (fuel : ℕ)
    (frame : StackFrame)
    (fails : ToolFaults)
    (m : Maps nrCpus)
    (args : List CStr) : Outcome Ending × ToolState nrCpus :=
  CallProg.run (handle fails) (main fuel frame args)
    { maps := m }

/- A stack that holds zeros, and no slot to spare. -/
def emptyFrame : StackFrame :=
  ⟨0, 0, 0⟩

/- The tool ends with a status other than zero. -/
def FailsWith
    (result : Outcome Ending) : Prop :=
  ∃ status, status ≠ 0 ∧
    (result = .returned (.exited status) ∨
      result = .halted (.exit status))

variable {fuel : ℕ}
variable {frame : StackFrame}
variable {m : Maps nrCpus}
variable {args : List CStr}

theorem runTool_of_rejected
    (hLoop : optionLoop {} (options args) = none) :
    runTool fuel frame fails m args =
      (.returned (.exited EXIT_FAIL_OPTION),
        { maps := m }) := by
  simp only [runTool, main, hLoop]
  rfl

/- The end of `main` after an update. -/
def exitWith :
    Outcome ℕ × ToolState nrCpus →
      Outcome Ending × ToolState nrCpus
  | (.returned res, s) => (.returned (.exited res), s)
  | (.halted how, s) => (.halted how, s)

/- With an action, the tool is an update of the blacklists. -/
theorem runTool_of_action
    {st : OptionState}
    (hLoop : optionLoop {} (options args) = some st)
    (hAction : st.action ≠ 0)
    (hOpen : fails.opens fileVerdict = .none) :
    runTool fuel frame fails m args =
      exitWith (CallProg.run (handle fails)
        (updateBlacklist st) { maps := m }) := by
  simp only [runTool, main, hLoop]
  rw [run_openBpfMap_of_none hOpen mapOfFile_fileVerdict]
  simp only [hAction, ne_eq, not_false_eq_true, if_true]
  rw [CallProg.run_bind]
  rcases CallProg.run (handle fails) (updateBlacklist st)
      { maps := m } with ⟨res | how, s⟩
  · rfl
  · rfl

theorem runTool_of_not_open
    {st : OptionState}
    (hLoop : optionLoop {} (options args) = some st)
    (hOpen : fails.opens fileVerdict ≠ .none) :
    runTool fuel frame fails m args =
      (.halted (.exit EXIT_FAIL_MAP_FILE), { maps := m }) := by
  simp only [runTool, main, hLoop]
  exact run_openBpfMap_of_ne hOpen _ _

/- After the part for `--ip` comes the one for a port. -/
theorem runTool_of_updateIp
    {st : OptionState}
    {res : ℕ}
    {m' : Maps nrCpus}
    (hLoop : optionLoop {} (options args) = some st)
    (hAction : st.action ≠ 0)
    (hOpen : fails.opens fileVerdict = .none)
    (hTarget : ¬ (st.ipString = none ∧ st.dport = 0))
    (hIpRun :
      CallProg.run (handle fails) (updateIp st)
          { maps := m } =
        (.returned res, { maps := m' })) :
    runTool fuel frame fails m args =
      exitWith (CallProg.run (handle fails)
        (updatePort st res) { maps := m' }) := by
  rw [runTool_of_action hLoop hAction hOpen, updateBlacklist,
    if_neg hTarget, CallProg.run_bind_of_returned hIpRun]

end Tool

end XdpDdos
