import XdpDdos.Tool.Update

/-
  What exit status zero says about an update.

  One result variable serves both targets, so the status of
  the port replaces that of the address; a port of number
  zero is taken for none; and errno 17 counts as success
  whichever call it comes from.

  Main declarations:
    * `IpReported`, `IpDone`, `runModify_effect`
    * `PortReported`, `PortDone`
    * `RequestInEffect`, `Misreported`, `exitStatus_iff`
-/

------------------------------------------------------------
-- Addresses
------------------------------------------------------------

namespace XdpDdos

namespace Tool

variable {nrCpus : ℕ}
variable {calls : CallFaults}

/- A failing call is passed as a success if errno is 17. -/
def CountsAsSuccess
    (fault : Option Errno)
    (succeeds : Prop) : Prop :=
  match fault with
  | some errno => errno = EEXIST
  | none => succeeds

/- The blacklist is as an action on an address asks for. -/
def IpInEffect
    (m : Maps nrCpus)
    (action : BitVec 32)
    (ipString : CStr) : Prop :=
  ∃ key, inetPton ipString = some key ∧
    (action = ACTION_ADD → m.blacklist.Contains key) ∧
    (action = ACTION_DEL → ¬ m.blacklist.Contains key)

/- There is room for one more address. -/
def HasRoom (m : Maps nrCpus) : Prop :=
  m.blacklist.entries.keys.length < NR_ADDRS

/- When `blacklist_modify` returns zero. -/
def IpReported
    (calls : CallFaults)
    (m : Maps nrCpus)
    (action : BitVec 32)
    (ipString : CStr) : Prop :=
  ∃ key, inetPton ipString = some key ∧
    ((action = ACTION_ADD ∧
        CountsAsSuccess (calls .blacklist .update key)
          (m.blacklist.Contains key ∨ HasRoom m)) ∨
      (action = ACTION_DEL ∧
        CountsAsSuccess (calls .blacklist .delete key)
          (m.blacklist.Contains key)))

/- When the address is afterwards as the action asks for. -/
def IpDone
    (calls : CallFaults)
    (m : Maps nrCpus)
    (action : BitVec 32)
    (ipString : CStr) : Prop :=
  ∃ key, inetPton ipString = some key ∧
    (action = ACTION_ADD →
      m.blacklist.Contains key ∨
        (calls .blacklist .update key = none ∧ HasRoom m)) ∧
    (action = ACTION_DEL →
      ¬ m.blacklist.Contains key ∨
        calls .blacklist .delete key = none)

/- What a call of `blacklist_modify` returns and leaves. -/
structure IpEffect
    (calls : CallFaults)
    (m : Maps nrCpus)
    (action : BitVec 32)
    (ipString : CStr)
    (status : ℕ)
    (m' : Maps nrCpus) : Prop where
  status_iff :
    status = EXIT_OK ↔ IpReported calls m action ipString
  inEffect_iff :
    IpInEffect m' action ipString ↔
      IpDone calls m action ipString
  ports_eq : m'.portBlacklist = m.portBlacklist

theorem modifyStatus_error_eq_ok_iff
    (errno : Errno) :
    modifyStatus (.error errno) = EXIT_OK ↔ errno = EEXIST := by
  unfold modifyStatus
  by_cases hErrno : errno = EEXIST
  · simp [hErrno]
  · simp [hErrno, EXIT_OK, EXIT_FAIL_MAP_KEY]

theorem runModify_add_effect
    (m : Maps nrCpus)
    {ipString : CStr}
    {key : BitVec 32}
    (hKey : inetPton ipString = some key) :
    ∃ status m',
      runModify calls m ipString ACTION_ADD =
          (.returned status, m') ∧
        IpEffect calls m ACTION_ADD ipString status m' := by
  have hOther : ACTION_ADD ≠ ACTION_DEL := by decide
  refine ⟨_, _, run_blacklistModify_add calls m hKey, ?_⟩
  cases hFault : calls .blacklist .update key with
  | some errno =>
      rw [Maps.updateFaulty_of_some _ _ hFault]
      refine ⟨?_, ?_, rfl⟩
      · rw [modifyStatus_error_eq_ok_iff]
        simp [IpReported, CountsAsSuccess, hKey, hFault, hOther]
      · simp [IpInEffect, IpDone, hKey, hFault, hOther]
  | none =>
      rw [Maps.updateFaulty_of_none _ _ hFault,
        Maps.updateElem]
      rcases m.blacklist.updateElem_noexist_cases key
          (fun _ => 0) with
        ⟨hIn, hUpdate⟩ | ⟨hOut, hFull, hUpdate⟩ |
        ⟨hOut, hRoom, hash, hUpdate, hSlots⟩
      · rw [hUpdate]
        refine ⟨?_, ?_, rfl⟩
        · rw [modifyStatus_error_eq_ok_iff]
          simp [IpReported, CountsAsSuccess, hKey, hFault,
            hOther, hIn]
        · simp [IpInEffect, IpDone, hKey, hFault, hOther, hIn]
      · rw [hUpdate]
        have hNoRoom : ¬ HasRoom m := Nat.not_lt.mpr hFull
        refine ⟨?_, ?_, rfl⟩
        · rw [modifyStatus_error_eq_ok_iff]
          simp [IpReported, CountsAsSuccess, hKey, hFault,
            hOther, hOut, hNoRoom, E2BIG, EEXIST]
        · simp [IpInEffect, IpDone, hKey, hOther, hOut,
            hNoRoom]
      · rw [hUpdate]
        have hIn : hash.Contains key := by
          simp [PercpuHash.Contains, hSlots]
        have hHasRoom : HasRoom m := hRoom
        refine ⟨?_, ?_, rfl⟩
        · simp [modifyStatus, IpReported, CountsAsSuccess,
            hKey, hFault, hHasRoom]
        · simp [IpInEffect, IpDone, hKey, hFault, hOther, hIn,
            hHasRoom]

theorem runModify_del_effect
    (m : Maps nrCpus)
    {ipString : CStr}
    {key : BitVec 32}
    (hKey : inetPton ipString = some key) :
    ∃ status m',
      runModify calls m ipString ACTION_DEL =
          (.returned status, m') ∧
        IpEffect calls m ACTION_DEL ipString status m' := by
  have hOther : ACTION_DEL ≠ ACTION_ADD := by decide
  refine ⟨_, _, run_blacklistModify_del calls m hKey, ?_⟩
  cases hFault : calls .blacklist .delete key with
  | some errno =>
      rw [Maps.deleteFaulty_of_some hFault]
      refine ⟨?_, ?_, rfl⟩
      · rw [modifyStatus_error_eq_ok_iff]
        simp [IpReported, CountsAsSuccess, hKey, hFault, hOther]
      · simp [IpInEffect, IpDone, hKey, hFault, hOther]
  | none =>
      rw [Maps.deleteFaulty_of_none hFault, Maps.deleteElem]
      rcases m.blacklist.deleteElem_cases key with
        ⟨hIn, hash, hDelete, hSlots⟩ | ⟨hOut, hDelete⟩
      · rw [hDelete]
        have hGone : ¬ hash.Contains key := by
          simp [PercpuHash.Contains, hSlots]
        refine ⟨?_, ?_, rfl⟩
        · simp [modifyStatus, IpReported, CountsAsSuccess,
            hKey, hFault, hIn]
        · simp [IpInEffect, IpDone, hKey, hFault, hOther, hGone]
      · rw [hDelete]
        refine ⟨?_, ?_, rfl⟩
        · rw [modifyStatus_error_eq_ok_iff]
          simp [IpReported, CountsAsSuccess, hKey, hFault,
            hOther, hOut, ENOENT, EEXIST]
        · simp [IpInEffect, IpDone, hKey, hFault, hOther, hOut]

/- Every call of `blacklist_modify` has such an effect. -/
theorem runModify_effect
    (calls : CallFaults)
    (m : Maps nrCpus)
    (ipString : CStr)
    (action : BitVec 32) :
    ∃ status m',
      runModify calls m ipString action =
          (.returned status, m') ∧
        IpEffect calls m action ipString status m' := by
  by_cases hInvalid :
      inetPton ipString = none ∨
        ¬ (action = ACTION_ADD ∨ action = ACTION_DEL)
  · rcases run_blacklistModify_of_invalid
        (Maps.handleFaulty calls) m .blacklist hInvalid with
      ⟨status, hStatus, hRun⟩
    refine ⟨status, m, hRun, ?_, ?_, rfl⟩
    · refine iff_of_false hStatus ?_
      rintro ⟨key, hKey, hAction⟩
      rcases hInvalid with hNone | hNeither
      · rw [hKey] at hNone
        cases hNone
      · exact hNeither (hAction.imp And.left And.left)
    · rcases hInvalid with hNone | hNeither
      · simp [IpInEffect, IpDone, hNone]
      · rw [not_or] at hNeither
        simp [IpInEffect, IpDone, hNeither.1, hNeither.2]
  · rw [not_or, not_not] at hInvalid
    obtain ⟨key, hKey⟩ :=
      Option.ne_none_iff_exists'.mp hInvalid.1
    rcases hInvalid.2 with rfl | rfl
    · exact runModify_add_effect m hKey
    · exact runModify_del_effect m hKey

------------------------------------------------------------
-- Ports
------------------------------------------------------------

/- The masks are as an action on a rule asks for. -/
def PortInEffect
    (m : Maps nrCpus)
    (action : BitVec 32)
    (fproto : DdosFilter)
    (dport : BitVec 32) : Prop :=
  ∃ port : BitVec 16, dport = port.setWidth 32 ∧
    ∀ cpu,
      (action = ACTION_ADD → m.PortBit cpu fproto port) ∧
        (action = ACTION_DEL → ¬ m.PortBit cpu fproto port)

/- When `blacklist_port_modify` returns zero. -/
def PortReported
    (calls : CallFaults)
    (action : BitVec 32)
    (filter : DdosFilter)
    (dport : BitVec 32) : Prop :=
  (action = ACTION_ADD ∨ action = ACTION_DEL) ∧
    ¬ dport.toInt > 65535 ∧
    CountsAsSuccess (calls .portBlacklist .update dport)
      (dport.toNat < NR_PORTS ∧
        (action = ACTION_DEL →
          calls (.portBlacklistDropCount filter) .update dport =
            none))

/-
  A rule after the tool edited the one of `filter`: the port
  zero is not edited, a failing update changes nothing, and
  other protocols keep what was read of their bits.
-/
def BitAfter
    (calls : CallFaults)
    (m : Maps nrCpus)
    (action : BitVec 32)
    (filter fproto : DdosFilter)
    (port : BitVec 16)
    (cpu : Fin nrCpus) : Prop :=
  if port ≠ 0 ∧
      calls .portBlacklist .update (port.setWidth 32) = none then
    if fproto = filter then action = ACTION_ADD
    else
      (m.readMasks calls (port.setWidth 32)
        cpu).getLsbD fproto.index = true
  else m.PortBit cpu fproto port

/- When the rule is afterwards as the action asks for. -/
def PortDone
    (calls : CallFaults)
    (m : Maps nrCpus)
    (action : BitVec 32)
    (filter fproto : DdosFilter)
    (dport : BitVec 32) : Prop :=
  ∃ port : BitVec 16, dport = port.setWidth 32 ∧
    ∀ cpu,
      (action = ACTION_ADD →
        BitAfter calls m action filter fproto port cpu) ∧
      (action = ACTION_DEL →
        ¬ BitAfter calls m action filter fproto port cpu)

/- A call that does not report success fails. -/
theorem runPortModify_of_not_reported
    (m : Maps nrCpus)
    {action : BitVec 32}
    {filter : DdosFilter}
    {dport : BitVec 32}
    (hReported : ¬ PortReported calls action filter dport) :
    ∃ status m',
      runPortModify calls m filter dport action filter.proto =
          (.returned status, m') ∧
        status ≠ EXIT_OK := by
  unfold runPortModify
  by_cases hValid :
      ∃ fproto, ValidPortCall dport action filter.proto fproto
  · rcases hValid with ⟨fproto, hValid⟩
    have hResult :
        ¬ CountsAsSuccess (calls .portBlacklist .update dport)
          (dport.toNat < NR_PORTS ∧
            (action = ACTION_DEL →
              calls (.portBlacklistDropCount filter) .update
                dport = none)) :=
      fun hSuccess =>
        hReported ⟨hValid.action_eq, hValid.dport_le, hSuccess⟩
    cases hFault : calls .portBlacklist .update dport with
    | some errno =>
        rw [hFault] at hResult
        refine ⟨_, m, run_portModify_of_fault m _ hValid hFault,
          ?_⟩
        rw [ne_eq, modifyStatus_error_eq_ok_iff]
        exact hResult
    | none =>
        rw [hFault] at hResult
        by_cases hRange : dport.toNat < NR_PORTS
        · rcases exists_port_of_lt hRange with ⟨port, rfl⟩
          have hClear : action = ACTION_DEL ∧
              calls (.portBlacklistDropCount filter) .update
                (port.setWidth 32) ≠ none := by
            by_contra hNone
            refine hResult ⟨hRange, fun hDel => ?_⟩
            by_contra hFails
            exact hNone ⟨hDel, hFails⟩
          rcases Option.ne_none_iff_exists'.mp hClear.2 with
            ⟨errno, hErrno⟩
          rw [run_portModify_of_port m filter port hValid
            hFault, if_pos hClear.1, hErrno]
          exact ⟨_, _, rfl, by decide⟩
        · exact ⟨_, m, run_portModify_of_ge m _ hValid
            (Nat.not_lt.mp hRange) hFault, by decide⟩
  · rcases run_portModify_of_invalid (Maps.handleFaulty calls)
        m .portBlacklist (.portBlacklistDropCount filter)
        (not_exists.mp hValid) with ⟨status, hFails, hRun⟩
    exact ⟨status, m, hRun, hFails⟩

/- The bits of a port after the masks were written. -/
theorem portBit_writeRule
    (m : Maps nrCpus)
    {action : BitVec 32}
    (hAction : action = ACTION_ADD ∨ action = ACTION_DEL)
    (filter fproto : DdosFilter)
    (port : BitVec 16)
    (masks : Slots nrCpus)
    (cpu : Fin nrCpus) :
    (m.writeRule action filter port masks).PortBit cpu fproto
        port ↔
      if fproto = filter then action = ACTION_ADD
      else (masks cpu).getLsbD fproto.index = true := by
  have hAddDel : ACTION_ADD ≠ ACTION_DEL := by decide
  unfold Maps.PortBit
  rw [Maps.slots_writeRule, if_pos rfl]
  by_cases hProto : fproto = filter
  · subst hProto
    rcases hAction with rfl | rfl
    · simp [getLsbD_editMask_add]
    · simp [getLsbD_editMask_del, hAddDel.symm]
  · have hIndex : fproto.index ≠ filter.index := by
      cases fproto <;> cases filter <;> simp_all [DdosFilter.index]
    rw [getLsbD_editMask_of_ne hAction hIndex, if_neg hProto]

/- Rules after the masks were written, whatever else was. -/
theorem portInEffect_writeRule_iff
    (m : Maps nrCpus)
    {m' : Maps nrCpus}
    {action : BitVec 32}
    (hAction : action = ACTION_ADD ∨ action = ACTION_DEL)
    {filter : DdosFilter}
    {port : BitVec 16}
    (hNonzero : port ≠ 0)
    (hUpdate :
      calls .portBlacklist .update (port.setWidth 32) = none)
    (hMasks :
      m'.portBlacklist =
        (m.writeRule action filter port
          (m.readMasks calls
            (port.setWidth 32))).portBlacklist)
    (fproto : DdosFilter) :
    PortInEffect m' action fproto (port.setWidth 32) ↔
      PortDone calls m action filter fproto
        (port.setWidth 32) := by
  have hBit (cpu : Fin nrCpus) :
      m'.PortBit cpu fproto port ↔
        BitAfter calls m action filter fproto port cpu := by
    rw [BitAfter, if_pos ⟨hNonzero, hUpdate⟩,
      ← portBit_writeRule m hAction, Maps.PortBit, hMasks,
      ← Maps.PortBit]
  unfold PortInEffect PortDone
  apply exists_congr
  intro port'
  apply and_congr_right
  intro hSame
  obtain rfl := port_setWidth_inj.mp hSame
  apply forall_congr'
  intro cpu
  rw [hBit]

/- A call that reports success has the effect it has. -/
theorem runPortModify_of_reported
    (m : Maps nrCpus)
    {action : BitVec 32}
    {filter : DdosFilter}
    {dport : BitVec 32}
    (hPort : dport ≠ 0)
    (hReported : PortReported calls action filter dport) :
    ∃ m',
      runPortModify calls m filter dport action filter.proto =
          (.returned EXIT_OK, m') ∧
        m'.blacklist = m.blacklist ∧
        ∀ fproto,
          PortInEffect m' action fproto dport ↔
            PortDone calls m action filter fproto dport := by
  rcases hReported with ⟨hAction, hSmall, hSuccess⟩
  have hValid :
      ValidPortCall dport action filter.proto filter :=
    ⟨hAction, protoFilter_proto filter, hSmall⟩
  unfold runPortModify
  cases hFault : calls .portBlacklist .update dport with
  | some errno =>
      rw [hFault] at hSuccess
      have hErrno : errno = EEXIST := hSuccess
      refine ⟨m, ?_, rfl, fun fproto => ?_⟩
      · rw [run_portModify_of_fault m _ hValid hFault,
          (modifyStatus_error_eq_ok_iff errno).mpr hErrno]
      · unfold PortInEffect PortDone
        apply exists_congr
        intro port
        apply and_congr_right
        rintro rfl
        simp [BitAfter, hFault]
  | none =>
      rw [hFault] at hSuccess
      rcases exists_port_of_lt hSuccess.1 with ⟨port, rfl⟩
      have hNonzero : port ≠ 0 := by
        rintro rfl
        exact hPort rfl
      rw [run_portModify_of_port m filter port hValid hFault]
      by_cases hDel : action = ACTION_DEL
      · rw [if_pos hDel, hSuccess.2 hDel]
        exact ⟨_, rfl, rfl,
          portInEffect_writeRule_iff m hAction hNonzero hFault
            rfl⟩
      · rw [if_neg hDel]
        exact ⟨_, rfl, rfl,
          portInEffect_writeRule_iff m hAction hNonzero hFault
            rfl⟩

------------------------------------------------------------
-- Updates
------------------------------------------------------------

variable {fails : ToolFaults}

/- The file that `--ip` needs can be opened, if it is given. -/
def IpMapOpen
    (fails : ToolFaults)
    (ip : Option CStr) : Prop :=
  ip ≠ none → fails.opens fileBlacklist = none

/-
  When the tool returns zero for a request: the address
  decides the status if there is no port, otherwise the port
  does.
-/
inductive Reported
    (fails : ToolFaults)
    (m : Maps nrCpus)
    (req : Request) : Prop where
  | ip
      {ipString : CStr}
      (hVerdict : fails.opens fileVerdict = none)
      (hOpen : fails.opens fileBlacklist = none)
      (hPort : req.dport = 0)
      (hIp : req.ip = some ipString)
      (hReported :
        IpReported fails.calls m req.action ipString)
  | port
      (hVerdict : fails.opens fileVerdict = none)
      (hIpOpen : IpMapOpen fails req.ip)
      (hPort : req.dport ≠ 0)
      (hMap : fails.opens filePortBlacklist = none)
      (hCount :
        fails.opens (filePortBlacklistCount req.filter) = none)
      (hReported :
        PortReported fails.calls req.action req.filter
          req.dport)

/- What the part of an update for `--ip` leaves. -/
structure IpPart
    (fails : ToolFaults)
    (m : Maps nrCpus)
    (st : OptionState)
    (status : ℕ)
    (m' : Maps nrCpus) : Prop where
  status_iff :
    ∀ ipString, st.ipString = some ipString →
      (status = EXIT_OK ↔
        IpReported fails.calls m st.action ipString)
  inEffect_iff :
    ∀ ipString, st.ipString = some ipString →
      (IpInEffect m' st.action ipString ↔
        IpDone fails.calls m st.action ipString)
  ports_eq : m'.portBlacklist = m.portBlacklist

theorem run_updateIp_effect
    {st : OptionState}
    (hOpen : IpMapOpen fails st.ipString)
    (m : Maps nrCpus) :
    ∃ status m',
      CallProg.run (handle fails) (updateIp st)
            { maps := m } =
          (.returned status, { maps := m' }) ∧
        IpPart fails m st status m' := by
  cases hIp : st.ipString with
  | none =>
      refine ⟨0, m, run_updateIp_of_none hIp _, ?_, ?_, rfl⟩
      · intro ipString hSome
        rw [hIp] at hSome
        cases hSome
      · intro ipString hSome
        rw [hIp] at hSome
        cases hSome
  | some ipString =>
      have hFile : fails.opens fileBlacklist = none := by
        apply hOpen
        rw [hIp]
        simp
      rcases runModify_effect fails.calls m ipString st.action
        with ⟨status, m', hRun, hEffect⟩
      refine ⟨status, m', run_updateIp_of_some hIp hFile hRun,
        ?_, ?_, hEffect.ports_eq⟩
      · intro other hSome
        obtain rfl : ipString = other :=
          Option.some.inj (hIp.symm.trans hSome)
        exact hEffect.status_iff
      · intro other hSome
        obtain rfl : ipString = other :=
          Option.some.inj (hIp.symm.trans hSome)
        exact hEffect.inEffect_iff

/- The address and the port given last are in effect. -/
structure RequestInEffect
    (m : Maps nrCpus)
    (rs : List GetoptResult) : Prop where
  ip :
    ∀ ipString, (ipOptions rs).getLast? = some ipString →
      IpInEffect m (requestedAction rs) ipString
  port :
    ∀ port, (portOptions rs).getLast? = some port →
      PortInEffect m (requestedAction rs) port.1
        (CLib.atoi port.2)

/- When both will be in effect. -/
structure RequestDone
    (calls : CallFaults)
    (m : Maps nrCpus)
    (rs : List GetoptResult) : Prop where
  ip :
    ∀ ipString, (ipOptions rs).getLast? = some ipString →
      IpDone calls m (requestedAction rs) ipString
  port :
    ∀ port, (portOptions rs).getLast? = some port →
      PortDone calls m (requestedAction rs) (keptFilter rs)
        port.1 (CLib.atoi port.2)

variable {fuel : ℕ}
variable {frame : StackFrame}
variable {m : Maps nrCpus}
variable {args : List CStr}
variable {st : OptionState}

/- A request that is not reported ends otherwise. -/
theorem runTool_of_not_reported
    (hLoop : optionLoop {} (options args) = some st)
    (hAction : st.action ≠ 0)
    (hReported : ¬ Reported fails m st.request) :
    (runTool fuel frame fails m args).1 ≠
      .returned (.exited 0) := by
  have hProto := (request_of_optionLoop hLoop).2
  by_cases hVerdict : fails.opens fileVerdict = none
  · by_cases hTarget : st.ipString = none ∧ st.dport = 0
    · rw [runTool_of_action hLoop hAction hVerdict,
        updateBlacklist, if_pos hTarget]
      simp [exitWith, EXIT_FAIL_OPTION]
    · by_cases hIpOpen : IpMapOpen fails st.ipString
      · rcases run_updateIp_effect hIpOpen m with
          ⟨res, m₁, hIpRun, hIpPart⟩
        rw [runTool_of_updateIp hLoop hAction hVerdict hTarget
          hIpRun]
        by_cases hPort : st.dport = 0
        · rw [run_updatePort_of_eq hPort]
          obtain ⟨ipString, hIp⟩ :
              ∃ ipString, st.ipString = some ipString := by
            apply Option.ne_none_iff_exists'.mp
            exact fun hNone => hTarget ⟨hNone, hPort⟩
          have hFails :
              ¬ IpReported fails.calls m st.action ipString := by
            intro hIpReported
            refine hReported (.ip hVerdict (hIpOpen ?_) hPort
              hIp hIpReported)
            rw [hIp]
            simp
          rw [← hIpPart.status_iff ipString hIp] at hFails
          simpa [exitWith, EXIT_OK] using hFails
        · by_cases hOpen : PortMapsOpen fails st
          · have hFails :
                ¬ PortReported fails.calls st.action st.filter
                  st.dport := by
              intro hPortReported
              exact hReported (.port hVerdict hIpOpen hPort
                hOpen.1 hOpen.2 hPortReported)
            rcases runPortModify_of_not_reported m₁ hFails with
              ⟨status, m₂, hPortRun, hStatus⟩
            rw [← hProto] at hPortRun
            rw [run_updatePort_of_ne hPort hOpen hPortRun]
            simpa [exitWith, EXIT_OK] using hStatus
          · rw [run_updatePort_of_not_open hPort hOpen]
            simp [exitWith]
      · unfold IpMapOpen at hIpOpen
        rw [Classical.not_imp] at hIpOpen
        rw [runTool_of_action hLoop hAction hVerdict,
          updateBlacklist, if_neg hTarget, CallProg.run_bind,
          run_updateIp_of_not_open hIpOpen.1 hIpOpen.2]
        simp [exitWith]
  · rw [runTool_of_not_open hLoop hVerdict]
    simp

/- What becomes of a rule depends on the masks only. -/
theorem portDone_congr
    {m₁ m₂ : Maps nrCpus}
    (hPorts : m₁.portBlacklist = m₂.portBlacklist)
    {action : BitVec 32}
    {filter fproto : DdosFilter}
    {dport : BitVec 32} :
    PortDone calls m₁ action filter fproto dport ↔
      PortDone calls m₂ action filter fproto dport := by
  unfold PortDone BitAfter Maps.PortBit Maps.readMasks
    Maps.lookupFaulty Maps.lookupElem
  rw [hPorts]

/- A port of number zero is left as it was. -/
theorem portInEffect_zero_iff
    {m' : Maps nrCpus}
    (hPorts : m'.portBlacklist = m.portBlacklist)
    (action : BitVec 32)
    (filter fproto : DdosFilter) :
    PortInEffect m' action fproto 0 ↔
      PortDone calls m action filter fproto 0 := by
  unfold PortInEffect PortDone
  apply exists_congr
  intro port
  apply and_congr_right
  intro hZero
  have hPort : port = 0 :=
    port_setWidth_inj.mp (hZero.symm.trans (by decide))
  subst hPort
  apply forall_congr'
  intro cpu
  have hBit :
      BitAfter calls m action filter fproto 0 cpu ↔
        m'.PortBit cpu fproto 0 := by
    unfold BitAfter Maps.PortBit
    rw [hPorts, if_neg]
    simp
  rw [hBit]

/-
  The targets that the variables hold are those that were
  asked for last.
-/
theorem requestInEffect_iff
    {m' : Maps nrCpus}
    (hLoop : optionLoop {} (options args) = some st)
    (hIp :
      ∀ ipString, st.ipString = some ipString →
        (IpInEffect m' st.action ipString ↔
          IpDone calls m st.action ipString))
    (hPort :
      ∀ fproto,
        PortInEffect m' st.action fproto st.dport ↔
          PortDone calls m st.action st.filter fproto
            st.dport) :
    RequestInEffect m' (options args) ↔
      RequestDone calls m (options args) := by
  have hRequest := (request_of_optionLoop hLoop).1
  have hIpArg :
      st.ipString = (ipOptions (options args)).getLast? :=
    congrArg Request.ip hRequest
  have hActionArg :
      st.action = requestedAction (options args) :=
    congrArg Request.action hRequest
  have hFilterArg : st.filter = keptFilter (options args) :=
    congrArg Request.filter hRequest
  have hPortArg :
      ∀ port,
        (portOptions (options args)).getLast? = some port →
          st.dport = CLib.atoi port.2 := by
    intro port hLast
    have hDport := congrArg Request.dport hRequest
    rw [request, hLast] at hDport
    exact hDport
  rw [hIpArg, hActionArg] at hIp
  rw [hActionArg, hFilterArg] at hPort
  constructor
  · intro hEffect
    refine ⟨fun ipString hLast => ?_, fun port hLast => ?_⟩
    · exact (hIp ipString hLast).mp (hEffect.ip ipString hLast)
    · rw [← hPortArg port hLast, ← hPort, hPortArg port hLast]
      exact hEffect.port port hLast
  · intro hDone
    refine ⟨fun ipString hLast => ?_, fun port hLast => ?_⟩
    · exact (hIp ipString hLast).mpr (hDone.ip ipString hLast)
    · rw [← hPortArg port hLast, hPort, hPortArg port hLast]
      exact hDone.port port hLast

/-
  A request that is reported ends with zero, with exactly
  those targets in effect.
-/
theorem runTool_of_reported
    (hLoop : optionLoop {} (options args) = some st)
    (hAction : st.action ≠ 0)
    (hReported : Reported fails m st.request) :
    ∃ m',
      runTool fuel frame fails m args =
          (.returned (.exited 0), { maps := m' }) ∧
        (RequestInEffect m' (options args) ↔
          RequestDone fails.calls m (options args)) := by
  have hProto := (request_of_optionLoop hLoop).2
  cases hReported with
  | ip hVerdict hOpen hPort hIp hIpReported =>
      have hPort : st.dport = 0 := hPort
      have hIp : st.ipString = some _ := hIp
      rcases run_updateIp_effect (fun _ => hOpen) m with
        ⟨res, m₁, hIpRun, hIpPart⟩
      have hTarget : ¬ (st.ipString = none ∧ st.dport = 0) := by
        rw [hIp]
        simp
      have hRes : res = EXIT_OK :=
        (hIpPart.status_iff _ hIp).mpr hIpReported
      refine ⟨m₁, ?_,
        requestInEffect_iff hLoop hIpPart.inEffect_iff ?_⟩
      · rw [runTool_of_updateIp hLoop hAction hVerdict hTarget
            hIpRun,
          run_updatePort_of_eq hPort, hRes]
        rfl
      · intro fproto
        rw [hPort]
        exact portInEffect_zero_iff hIpPart.ports_eq _ _ _
  | port hVerdict hIpOpen hPort hMap hCount hPortReported =>
      have hPort : st.dport ≠ 0 := hPort
      have hPortReported :
          PortReported fails.calls st.action st.filter
            st.dport :=
        hPortReported
      rcases run_updateIp_effect hIpOpen m with
        ⟨res, m₁, hIpRun, hIpPart⟩
      have hTarget : ¬ (st.ipString = none ∧ st.dport = 0) :=
        fun hNone => hPort hNone.2
      rcases runPortModify_of_reported m₁ hPort hPortReported
        with ⟨m₂, hPortRun, hBlacklist, hEffect⟩
      rw [← hProto] at hPortRun
      refine ⟨m₂, ?_, requestInEffect_iff hLoop ?_ ?_⟩
      · rw [runTool_of_updateIp hLoop hAction hVerdict hTarget
            hIpRun,
          run_updatePort_of_ne hPort ⟨hMap, hCount⟩ hPortRun]
        rfl
      · intro ipString hIp
        rw [← hIpPart.inEffect_iff ipString hIp]
        unfold IpInEffect
        rw [hBlacklist]
      · intro fproto
        rw [hEffect fproto, portDone_congr hIpPart.ports_eq]

/-
  The options are accepted and the update is reported as a
  success, but a target is not as the action asks for.
-/
structure Misreported
    (fails : ToolFaults)
    (m : Maps nrCpus)
    (args : List CStr) : Prop where
  accepted : (optionLoop {} (options args)).isSome
  reported : Reported fails m (request (options args))
  not_done : ¬ RequestDone fails.calls m (options args)

/-
  Exit status zero means that the request is in effect,
  unless it is misreported.
-/
theorem exitStatus_iff
    (fuel : ℕ)
    (frame : StackFrame)
    (fails : ToolFaults)
    (m : Maps nrCpus)
    (args : List CStr)
    (hAction : requestedAction (options args) ≠ 0) :
    ((runTool fuel frame fails m args).1 =
          .returned (.exited 0) →
        RequestInEffect
          (runTool fuel frame fails m args).2.maps
          (options args)) ↔
      ¬ Misreported fails m args := by
  cases hLoop : optionLoop {} (options args) with
  | none =>
      rw [runTool_of_rejected hLoop]
      refine iff_of_true ?_ ?_
      · intro hZero
        cases hZero
      · rintro ⟨hAccepted, _, _⟩
        rw [hLoop] at hAccepted
        cases hAccepted
  | some st =>
      have hRequest := (request_of_optionLoop hLoop).1
      have hActionArg : st.action ≠ 0 := by
        have hSame := congrArg Request.action hRequest
        exact fun hZero => hAction (hSame.symm.trans hZero)
      by_cases hReported : Reported fails m st.request
      · rcases runTool_of_reported hLoop hActionArg hReported
          with ⟨m', hRun, hEffect⟩
        rw [hRun]
        constructor
        · intro hInEffect hMisreported
          exact hMisreported.not_done
            (hEffect.mp (hInEffect rfl))
        · intro hDone _
          rw [hEffect]
          by_contra hNotDone
          refine hDone ⟨?_, ?_, hNotDone⟩
          · rw [hLoop]
            rfl
          · rw [← hRequest]
            exact hReported
      · refine iff_of_true ?_ ?_
        · intro hZero
          exact absurd hZero
            (runTool_of_not_reported hLoop hActionArg hReported)
        · intro hMisreported
          apply hReported
          rw [hRequest]
          exact hMisreported.reported

/- If nothing fails, an edit of a port is a success. -/
theorem reported_of_port
    (m : Maps nrCpus)
    {req : Request}
    (hAction :
      req.action = ACTION_ADD ∨ req.action = ACTION_DEL)
    {port : BitVec 16}
    (hNonzero : port ≠ 0)
    (hPort : req.dport = port.setWidth 32) :
    Reported .none m req := by
  refine .port rfl (fun _ => rfl) ?_ rfl rfl
    ⟨hAction, ?_, ?_, fun _ => rfl⟩
  · rw [hPort]
    intro hZero
    exact hNonzero (port_setWidth_inj.mp hZero)
  · have hLt := port.isLt
    rw [hPort, toInt_port]
    omega
  · rw [hPort]
    exact port_toNat_lt port

/- `--add --ip 10.0.0.1 -t 80`. -/
def addBoth : List CStr :=
  ["--add".toList, "--ip".toList, "10.0.0.1".toList,
    "-t".toList, "80".toList]

/- `--add --ip 10.0.0 -t 80`, whose address is not one. -/
def addBadIp : List CStr :=
  ["--add".toList, "--ip".toList, "10.0.0".toList,
    "-t".toList, "80".toList]

/- On fresh maps both targets are in effect. -/
theorem addBoth_in_effect :
    RequestInEffect
      (runTool 0 emptyFrame .none (Maps.fresh : Maps 1)
        addBoth).2.maps
      (options addBoth) := by
  have hDone :
      RequestDone .none (Maps.fresh : Maps 1)
        (options addBoth) := by
    constructor
    · intro ipString hLast
      cases hLast
      refine ⟨0x0100000a, by decide, fun _ => Or.inr ?_, ?_⟩
      · exact ⟨rfl, Nat.zero_lt_succ _⟩
      · intro hDel
        exact absurd hDel (by decide)
    · intro port hLast
      cases hLast
      refine ⟨80, by decide, fun cpu => ⟨fun _ => ?_, ?_⟩⟩
      · unfold BitAfter
        rw [if_pos ⟨by decide, rfl⟩, if_pos (by decide)]
        decide
      · intro hDel
        exact absurd hDel (by decide)
  apply (exitStatus_iff 0 emptyFrame .none Maps.fresh addBoth
    (by decide)).mpr
  · exact fun hMisreported => hMisreported.not_done hDone
  · have hLoop :
        optionLoop {} (options addBoth) =
          some {
            ipString := some "10.0.0.1".toList
            action := ACTION_ADD
            dport := 80 } := rfl
    have hNonzero : (80 : BitVec 16) ≠ 0 := by decide
    rcases runTool_of_reported hLoop (by decide)
        (reported_of_port _ (Or.inl rfl) hNonzero rfl) with
      ⟨m', hRun, _⟩
    rw [hRun]

/- The status of the port hides that of the address. -/
theorem addBadIp_misreported :
    (runTool 0 emptyFrame .none (Maps.fresh : Maps 1)
          addBadIp).1 =
        .returned (.exited 0) ∧
      ¬ RequestInEffect
        (runTool 0 emptyFrame .none (Maps.fresh : Maps 1)
          addBadIp).2.maps
        (options addBadIp) := by
  have hLoop :
      optionLoop {} (options addBadIp) =
        some {
          ipString := some "10.0.0".toList
          action := ACTION_ADD
          dport := 80 } := rfl
  have hNonzero : (80 : BitVec 16) ≠ 0 := by decide
  rcases runTool_of_reported hLoop (by decide)
      (reported_of_port _ (Or.inl rfl) hNonzero rfl) with
    ⟨m', hRun, _⟩
  rw [hRun]
  refine ⟨rfl, fun hEffect => ?_⟩
  rcases hEffect.ip "10.0.0".toList (by decide) with
    ⟨key, hKey, _⟩
  have hNone : inetPton "10.0.0".toList = none := by decide
  rw [hNone] at hKey
  cases hKey

end Tool

end XdpDdos
