import XdpDdos.Kern.FrameFormat
import XdpDdos.Lib.CArgs

/-
  The two functions through which processes edit the rules:
  `blacklist_modify` and `blacklist_port_modify`.

  Main declarations:
    * `inetPton`
    * `blacklistModify`, `blacklistPortModify`
    * `run_blacklistModify_add`, `run_blacklistModify_del`
    * `run_blacklistModify_cases`
    * `run_blacklistPortModify_cases`
-/

------------------------------------------------------------
-- Exit Codes and Actions
------------------------------------------------------------

namespace XdpDdos

def EXIT_OK : ℕ := 0

def EXIT_FAIL_OPTION : ℕ := 2

def EXIT_FAIL_MAP_KEY : ℕ := 21

def EXIT_FAIL_IP : ℕ := 30

def EXIT_FAIL_PORT : ℕ := 31

def ACTION_ADD : BitVec 32 := 1

def ACTION_DEL : BitVec 32 := 2

------------------------------------------------------------
-- Addresses in Presentation Format
------------------------------------------------------------

/-
  A decimal number of at most 255; only the number 0 begins
  with a zero.
-/
def octet? (digits : CStr) : Option Byte :=
  if digits ≠ [] ∧ digits.all Char.isDigit ∧
      (digits.head? = some '0' → digits = ['0']) ∧
      decimal digits ≤ 255 then
    some (BitVec.ofNat 8 (decimal digits))
  else none

/- Four octets separated by dots. -/
def dottedQuad?
    (ipString : CStr) : Option (Byte × Byte × Byte × Byte) :=
  match (ipString.splitOn '.').map octet? with
  | [some a, some b, some c, some d] => some (a, b, c, d)
  | _ => none

/-
  The C library's `inet_pton(AF_INET, …)`: the octets are
  stored in network order.
-/
def inetPton (ipString : CStr) : Option (BitVec 32) :=
  (dottedQuad? ipString).map
    fun (a, b, c, d) => (d ++ c) ++ (b ++ a)

example :
    (inetPton "10.0.0.1".toList).isSome ∧
      inetPton "010.0.0.1".toList = none := by
  decide

------------------------------------------------------------
-- blacklist_modify
------------------------------------------------------------

variable {nrCpus : ℕ}

/- An existing entry is not an error. -/
def modifyStatus : Except Errno Unit → ℕ
  | .ok () => EXIT_OK
  | .error errno =>
      if errno = EEXIST then EXIT_OK else EXIT_FAIL_MAP_KEY

/- Add or remove the address `ipString` names. -/
def blacklistModify
    (fd : MapId)
    (ipString : CStr)
    (action : BitVec 32) : MapProg nrCpus ℕ :=
  match inetPton ipString with
  | none => return EXIT_FAIL_IP
  | some key =>
      if action = ACTION_ADD then do
        let res ←
          bpfMapUpdateElem fd key (fun _ => 0) .noexist
        return modifyStatus res
      else if action = ACTION_DEL then do
        let res ← bpfMapDeleteElem fd key
        return modifyStatus res
      else
        return EXIT_FAIL_OPTION

------------------------------------------------------------
-- blacklist_port_modify
------------------------------------------------------------

/- The rule bit of a protocol in a mask. -/
def DdosFilter.mask (fproto : DdosFilter) : BitVec 64 :=
  1#64 <<< fproto.index

/- The filter of an IP protocol number. -/
def protoFilter
    (proto : BitVec 32) : Option DdosFilter :=
  if proto = IPPROTO_TCP.setWidth 32 then some .tcp
  else if proto = IPPROTO_UDP.setWidth 32 then some .udp
  else none

/- The protocol number that a caller passes. -/
def DdosFilter.proto (fproto : DdosFilter) : BitVec 32 :=
  fproto.ipproto.setWidth 32

theorem protoFilter_proto
    (fproto : DdosFilter) :
    protoFilter fproto.proto = some fproto := by
  cases fproto with
  | tcp => rfl
  | udp => rfl

/- Set or clear the bits of `value` in one slot. -/
def editMask
    (action : BitVec 32)
    (value slot : BitVec 64) : BitVec 64 :=
  if action = ACTION_ADD then slot ||| value
  else if action = ACTION_DEL then slot &&& ~~~ value
  else slot

theorem DdosFilter.getLsbD_mask
    (fproto : DdosFilter)
    (i : ℕ) :
    fproto.mask.getLsbD i = decide (i = fproto.index) := by
  have hIndex : fproto.index < 64 := by
    cases fproto <;> decide
  rw [mask, ← BitVec.twoPow_eq, BitVec.getLsbD_twoPow]
  simp [hIndex, eq_comm]

/- Adding a rule sets its bit and keeps the others. -/
theorem getLsbD_editMask_add
    (fproto : DdosFilter)
    (slot : BitVec 64)
    (i : ℕ) :
    (editMask ACTION_ADD fproto.mask slot).getLsbD i =
      (slot.getLsbD i || decide (i = fproto.index)) := by
  rw [editMask, if_pos rfl, BitVec.getLsbD_or,
    DdosFilter.getLsbD_mask]

/- Deleting a rule clears its bit and keeps the others. -/
theorem getLsbD_editMask_del
    (fproto : DdosFilter)
    (slot : BitVec 64)
    (i : ℕ) :
    (editMask ACTION_DEL fproto.mask slot).getLsbD i =
      (slot.getLsbD i && !decide (i = fproto.index)) := by
  have hOther : ACTION_DEL ≠ ACTION_ADD := by decide
  rw [editMask, if_neg hOther, if_pos rfl,
    BitVec.getLsbD_and, BitVec.getLsbD_not,
    DdosFilter.getLsbD_mask]
  cases hBit : slot.getLsbD i with
  | false => rfl
  | true =>
      have hInside : i < 64 := BitVec.lt_of_getLsbD hBit
      simp [hInside]

/- Deleting a rule clears its drop counter last. -/
def clearStats
    (countfd : MapId)
    (key : BitVec 32)
    (action : BitVec 32) : MapProg nrCpus ℕ :=
  if action = ACTION_DEL then do
    let res ←
      bpfMapUpdateElem countfd key (fun _ => 0) .exist
    match res with
    | .error _ => return EXIT_FAIL_MAP_KEY
    | .ok () => return EXIT_OK
  else
    return EXIT_OK

/-
  Read the masks of a port, edit the bit of a protocol on
  every CPU and write the masks back.  A failed lookup is
  reported and otherwise ignored: the buffer keeps its
  zeros.
-/
def blacklistPortModify
    (fd countfd : MapId)
    (dport action proto : BitVec 32) : MapProg nrCpus ℕ :=
  if action ≠ ACTION_ADD ∧ action ≠ ACTION_DEL then
    return EXIT_FAIL_OPTION
  else
    match protoFilter proto with
    | none => return EXIT_FAIL_OPTION
    | some fproto =>
        let value := fproto.mask
        if dport.toInt > 65535 then
          return EXIT_FAIL_PORT
        else do
          let key := dport
          let looked ← bpfMapLookupElem fd key
          let currValues : Slots nrCpus :=
            match looked with
            | .ok values => values
            | .error _ => fun _ => 0
          let currValues := fun cpu =>
            editMask action value (currValues cpu)
          let res ←
            bpfMapUpdateElem fd key currValues .exist
          match res with
          | .error errno => return modifyStatus (.error errno)
          | .ok () => clearStats countfd key action

/- The counter map that callers open for a protocol. -/
def countFd (proto : BitVec 32) : MapId :=
  .portBlacklistDropCount ((protoFilter proto).getD .tcp)

------------------------------------------------------------
-- Sequential Effect of blacklist_modify
------------------------------------------------------------

/- A bad address, or no single action, changes nothing. -/
theorem run_blacklistModify_of_invalid
    (handler : CallProg.Handler (MapCall nrCpus)
      MapCall.Resp (Maps nrCpus))
    (m : Maps nrCpus)
    (fd : MapId)
    {ipString : CStr}
    {action : BitVec 32}
    (hInvalid :
      inetPton ipString = none ∨
        ¬ (action = ACTION_ADD ∨ action = ACTION_DEL)) :
    ∃ status, status ≠ EXIT_OK ∧
      CallProg.run handler (blacklistModify fd ipString action)
          m =
        (.returned status, m) := by
  unfold blacklistModify
  cases hKey : inetPton ipString with
  | none => exact ⟨EXIT_FAIL_IP, by decide, rfl⟩
  | some key =>
      have hAction :
          ¬ (action = ACTION_ADD ∨ action = ACTION_DEL) := by
        refine hInvalid.resolve_left ?_
        rw [hKey]
        exact Option.some_ne_none key
      rw [not_or] at hAction
      simp only [hAction.1, hAction.2, if_false]
      exact ⟨EXIT_FAIL_OPTION, by decide, rfl⟩

/- An addition ends as its one map call does. -/
theorem run_blacklistModify_add
    (fails : CallFaults)
    (m : Maps nrCpus)
    {ipString : CStr}
    {key : BitVec 32}
    (hKey : inetPton ipString = some key) :
    CallProg.run (Maps.handleFaulty fails)
        (blacklistModify .blacklist ipString ACTION_ADD) m =
      (.returned (modifyStatus
          (m.updateFaulty fails key (fun _ => 0) .noexist
            .blacklist).1),
        (m.updateFaulty fails key (fun _ => 0) .noexist
          .blacklist).2) := by
  simp [blacklistModify, hKey]

/- So does a removal. -/
theorem run_blacklistModify_del
    (fails : CallFaults)
    (m : Maps nrCpus)
    {ipString : CStr}
    {key : BitVec 32}
    (hKey : inetPton ipString = some key) :
    CallProg.run (Maps.handleFaulty fails)
        (blacklistModify .blacklist ipString ACTION_DEL) m =
      (.returned (modifyStatus
          (m.deleteFaulty fails key .blacklist).1),
        (m.deleteFaulty fails key .blacklist).2) := by
  have hOther : ACTION_DEL ≠ ACTION_ADD := by decide
  simp [blacklistModify, hKey, hOther]

/-
  Run to its end, `blacklist_modify` fails and changes
  nothing, finds the address already present, adds it with
  a zero count, or removes it.
-/
theorem run_blacklistModify_cases
    (m : Maps nrCpus)
    (ipString : CStr)
    (action : BitVec 32) :
    (∃ status, status ≠ EXIT_OK ∧
        CallProg.run Maps.handle
            (blacklistModify .blacklist ipString action) m =
          (.returned status, m)) ∨
      (∃ key, inetPton ipString = some key ∧
        action = ACTION_ADD ∧ m.blacklist.Contains key ∧
        CallProg.run Maps.handle
            (blacklistModify .blacklist ipString action) m =
          (.returned EXIT_OK, m)) ∨
      (∃ key, inetPton ipString = some key ∧
        action = ACTION_ADD ∧ ¬ m.blacklist.Contains key ∧
        ∃ hash, CallProg.run Maps.handle
            (blacklistModify .blacklist ipString action) m =
          (.returned EXIT_OK, { m with blacklist := hash }) ∧
          hash.slots? =
            Function.update m.blacklist.slots? key
              (some fun _ => 0)) ∨
      (∃ key, inetPton ipString = some key ∧
        action = ACTION_DEL ∧ m.blacklist.Contains key ∧
        ∃ hash, CallProg.run Maps.handle
            (blacklistModify .blacklist ipString action) m =
          (.returned EXIT_OK, { m with blacklist := hash }) ∧
          hash.slots? =
            Function.update m.blacklist.slots? key none) := by
  by_cases hInvalid :
      inetPton ipString = none ∨
        ¬ (action = ACTION_ADD ∨ action = ACTION_DEL)
  · exact Or.inl
      (run_blacklistModify_of_invalid _ m _ hInvalid)
  rw [not_or, not_not] at hInvalid
  obtain ⟨key, hKey⟩ :=
    Option.ne_none_iff_exists'.mp hInvalid.1
  rw [← Maps.handleFaulty_none]
  rcases hInvalid.2 with rfl | rfl
  · rw [run_blacklistModify_add .none m hKey,
      Maps.updateFaulty_of_none _ _ rfl, Maps.updateElem]
    rcases m.blacklist.updateElem_noexist_cases key
        (fun _ => 0) with
      ⟨hIn, hUpdate⟩ | ⟨_, _, hUpdate⟩ |
      ⟨hOut, _, hash, hUpdate, hSlots⟩
    · rw [hUpdate]
      exact Or.inr (Or.inl ⟨key, hKey, rfl, hIn, rfl⟩)
    · rw [hUpdate]
      exact Or.inl ⟨EXIT_FAIL_MAP_KEY, by decide, rfl⟩
    · rw [hUpdate]
      exact Or.inr (Or.inr (Or.inl
        ⟨key, hKey, rfl, hOut, hash, rfl, hSlots⟩))
  · rw [run_blacklistModify_del .none m hKey,
      Maps.deleteFaulty_of_none rfl, Maps.deleteElem]
    rcases m.blacklist.deleteElem_cases key with
      ⟨hIn, hash, hDelete, hSlots⟩ | ⟨_, hDelete⟩
    · rw [hDelete]
      exact Or.inr (Or.inr (Or.inr
        ⟨key, hKey, rfl, hIn, hash, rfl, hSlots⟩))
    · rw [hDelete]
      exact Or.inl ⟨EXIT_FAIL_MAP_KEY, by decide, rfl⟩

------------------------------------------------------------
-- Sequential Effect of blacklist_port_modify
------------------------------------------------------------

namespace Maps

/- Edit the rule bit of a protocol and port on every CPU. -/
def editRule
    (m : Maps nrCpus)
    (action : BitVec 32)
    (fproto : DdosFilter)
    (dport : BitVec 16) : Maps nrCpus :=
  { m with
    portBlacklist :=
      m.portBlacklist.setSlots (portIndex dport)
        (fun cpu => editMask action fproto.mask
          (m.portBlacklist.slots (portIndex dport) cpu)) }

/- Clear the drop counters of a protocol and port. -/
def resetCount
    (m : Maps nrCpus)
    (fproto : DdosFilter)
    (dport : BitVec 16) : Maps nrCpus :=
  { m with
    dropCount := Function.update m.dropCount fproto
      ((m.dropCount fproto).setSlots (portIndex dport)
        (fun _ => 0)) }

@[simp] theorem lookupElem_port
    (m : Maps nrCpus)
    (dport : BitVec 16) :
    m.lookupElem (dport.setWidth 32) .portBlacklist =
      .ok (m.portBlacklist.slots (portIndex dport)) := by
  simp only [lookupElem, PercpuArray.lookupElem, index?_port]

@[simp] theorem updateElem_port
    (m : Maps nrCpus)
    (dport : BitVec 16)
    (values : Slots nrCpus) :
    m.updateElem (dport.setWidth 32) values .exist
        .portBlacklist =
      (.ok (), { m with
        portBlacklist :=
          m.portBlacklist.setSlots (portIndex dport)
            values }) := by
  simp only [updateElem, PercpuArray.updateElem, index?_port]

@[simp] theorem updateElem_dropCount
    (m : Maps nrCpus)
    (fproto : DdosFilter)
    (dport : BitVec 16) :
    m.updateElem (dport.setWidth 32) (fun _ => 0) .exist
        (.portBlacklistDropCount fproto) =
      (.ok (), m.resetCount fproto dport) := by
  simp only [updateElem, PercpuArray.updateElem, index?_port,
    resetCount]

/- A port map refuses a key outside its range. -/
theorem updateElem_port_of_ge
    (m : Maps nrCpus)
    {key : BitVec 32}
    (values : Slots nrCpus)
    (hRange : NR_PORTS ≤ key.toNat) :
    m.updateElem key values .exist .portBlacklist =
      (.error E2BIG, m) := by
  simp only [updateElem, PercpuArray.updateElem,
    PercpuArray.index?_of_ge hRange]

/- The masks to be edited; a failed lookup leaves zeros. -/
def readMasks
    (m : Maps nrCpus)
    (fails : CallFaults)
    (key : BitVec 32) : Slots nrCpus :=
  match m.lookupFaulty fails key .portBlacklist with
  | .ok values => values
  | .error _ => fun _ => 0

/- Write the edited masks of a port. -/
def writeRule
    (m : Maps nrCpus)
    (action : BitVec 32)
    (fproto : DdosFilter)
    (dport : BitVec 16)
    (masks : Slots nrCpus) : Maps nrCpus :=
  { m with
    portBlacklist :=
      m.portBlacklist.setSlots (portIndex dport)
        (fun cpu => editMask action fproto.mask (masks cpu)) }

/- The masks of a port after masks were written. -/
theorem slots_writeRule
    (m : Maps nrCpus)
    (action : BitVec 32)
    (fproto : DdosFilter)
    (port port' : BitVec 16)
    (masks : Slots nrCpus)
    (cpu : Fin nrCpus) :
    (m.writeRule action fproto port
        masks).portBlacklist.slots (portIndex port') cpu =
      if port' = port then
        editMask action fproto.mask (masks cpu)
      else
        m.portBlacklist.slots (portIndex port') cpu := by
  by_cases hPort : port' = port
  · subst hPort
    simp [writeRule]
  · simp [writeRule, hPort, portIndex_inj]

theorem readMasks_of_none
    {m : Maps nrCpus}
    {fails : CallFaults}
    (dport : BitVec 16)
    (hFault :
      fails .portBlacklist .lookup (dport.setWidth 32) =
        none) :
    m.readMasks fails (dport.setWidth 32) =
      m.portBlacklist.slots (portIndex dport) := by
  simp only [readMasks, lookupFaulty_of_none hFault,
    lookupElem_port]

theorem readMasks_of_some
    {m : Maps nrCpus}
    {fails : CallFaults}
    {key : BitVec 32}
    {errno : Errno}
    (hFault :
      fails .portBlacklist .lookup key = some errno) :
    m.readMasks fails key = fun _ => 0 := by
  simp only [readMasks, lookupFaulty_of_some hFault]

end Maps

/- A call that passes all checks before the map is read. -/
structure ValidPortCall
    (dport action proto : BitVec 32)
    (fproto : DdosFilter) : Prop where
  action_eq : action = ACTION_ADD ∨ action = ACTION_DEL
  proto_eq : protoFilter proto = some fproto
  dport_le : ¬ dport.toInt > 65535

/- What is left to do after the checks. -/
theorem blacklistPortModify_of_valid
    {fd countfd : MapId}
    {dport action proto : BitVec 32}
    {fproto : DdosFilter}
    (hValid : ValidPortCall dport action proto fproto) :
    (blacklistPortModify fd countfd dport action proto :
        MapProg nrCpus ℕ) =
      (bpfMapLookupElem fd dport >>= fun looked =>
        bpfMapUpdateElem fd dport
            (fun cpu => editMask action fproto.mask
              ((match looked with
                | .ok values => values
                | .error _ => fun _ => 0) cpu)) .exist >>=
          fun res =>
            match res with
            | .error errno =>
                return modifyStatus (.error errno)
            | .ok () => clearStats countfd dport action) := by
  have hAction :
      ¬ (action ≠ ACTION_ADD ∧ action ≠ ACTION_DEL) :=
    fun hNone => hValid.action_eq.elim hNone.1 hNone.2
  simp only [blacklistPortModify, hAction, hValid.proto_eq,
    hValid.dport_le, if_false]

/- A call that fails a check changes nothing. -/
theorem run_portModify_of_invalid
    (handler : CallProg.Handler (MapCall nrCpus)
      MapCall.Resp (Maps nrCpus))
    (m : Maps nrCpus)
    (fd countfd : MapId)
    {dport action proto : BitVec 32}
    (hInvalid :
      ∀ fproto,
        ¬ ValidPortCall dport action proto fproto) :
    ∃ status, status ≠ EXIT_OK ∧
      CallProg.run handler
          (blacklistPortModify fd countfd dport action proto)
          m =
        (.returned status, m) := by
  unfold blacklistPortModify
  by_cases hAction : action ≠ ACTION_ADD ∧ action ≠ ACTION_DEL
  · rw [if_pos hAction]
    exact ⟨EXIT_FAIL_OPTION, by decide, rfl⟩
  · rw [if_neg hAction]
    cases hProto : protoFilter proto with
    | none => exact ⟨EXIT_FAIL_OPTION, by decide, rfl⟩
    | some fproto =>
        have hPort : dport.toInt > 65535 := by
          by_contra hSmall
          refine hInvalid fproto ⟨?_, hProto, hSmall⟩
          by_contra hNone
          exact hAction (not_or.mp hNone)
        refine ⟨EXIT_FAIL_PORT, by decide, ?_⟩
        simp only [hPort, if_true]
        rfl

variable {fails : CallFaults}

/- If the masks cannot be written, nothing changes. -/
theorem run_portModify_of_fault
    (m : Maps nrCpus)
    (countfd : MapId)
    {dport action proto : BitVec 32}
    {fproto : DdosFilter}
    (hValid : ValidPortCall dport action proto fproto)
    {errno : Errno}
    (hFault :
      fails .portBlacklist .update dport = some errno) :
    CallProg.run (Maps.handleFaulty fails)
        (blacklistPortModify .portBlacklist countfd dport
          action proto) m =
      (.returned (modifyStatus (.error errno)), m) := by
  rw [blacklistPortModify_of_valid hValid]
  simp only [Maps.run_lookupFaulty_bind,
    Maps.run_updateFaulty_bind,
    Maps.updateFaulty_of_some _ _ hFault]
  rfl

/- A key outside the array is not written. -/
theorem run_portModify_of_ge
    (m : Maps nrCpus)
    (countfd : MapId)
    {dport action proto : BitVec 32}
    {fproto : DdosFilter}
    (hValid : ValidPortCall dport action proto fproto)
    (hRange : NR_PORTS ≤ dport.toNat)
    (hFault : fails .portBlacklist .update dport = none) :
    CallProg.run (Maps.handleFaulty fails)
        (blacklistPortModify .portBlacklist countfd dport
          action proto) m =
      (.returned EXIT_FAIL_MAP_KEY, m) := by
  rw [blacklistPortModify_of_valid hValid]
  simp only [Maps.run_lookupFaulty_bind,
    Maps.run_updateFaulty_bind,
    Maps.updateFaulty_of_none _ _ hFault,
    m.updateElem_port_of_ge _ hRange]
  rfl

/-
  Otherwise the edited masks are written; to delete, the
  drop counter is cleared after that, which may fail.
-/
theorem run_portModify_of_port
    (m : Maps nrCpus)
    (cproto : DdosFilter)
    {action proto : BitVec 32}
    {fproto : DdosFilter}
    (dport : BitVec 16)
    (hValid :
      ValidPortCall (dport.setWidth 32) action proto fproto)
    (hFault :
      fails .portBlacklist .update (dport.setWidth 32) =
        none) :
    CallProg.run (Maps.handleFaulty fails)
        (blacklistPortModify .portBlacklist
          (.portBlacklistDropCount cproto)
          (dport.setWidth 32) action proto) m =
      (if action = ACTION_DEL then
        match fails (.portBlacklistDropCount cproto) .update
            (dport.setWidth 32) with
        | none =>
            (.returned EXIT_OK,
              (m.writeRule action fproto dport
                (m.readMasks fails
                  (dport.setWidth 32))).resetCount
                    cproto dport)
        | some _ =>
            (.returned EXIT_FAIL_MAP_KEY,
              m.writeRule action fproto dport
                (m.readMasks fails (dport.setWidth 32)))
      else
        (.returned EXIT_OK,
          m.writeRule action fproto dport
            (m.readMasks fails (dport.setWidth 32)))) := by
  rw [blacklistPortModify_of_valid hValid]
  simp only [Maps.run_lookupFaulty_bind,
    Maps.run_updateFaulty_bind,
    Maps.updateFaulty_of_none _ _ hFault,
    Maps.updateElem_port, clearStats]
  by_cases hDel : action = ACTION_DEL
  · simp only [hDel, if_true, Maps.run_updateFaulty_bind]
    cases hCount :
        fails (.portBlacklistDropCount cproto) .update
          (dport.setWidth 32) with
    | none =>
        simp only [Maps.updateFaulty_of_none _ _ hCount,
          Maps.updateElem_dropCount]
        rfl
    | some errno =>
        simp only [Maps.updateFaulty_of_some _ _ hCount]
        rfl
  · simp only [hDel, if_false]
    rfl

theorem toInt_port
    (port : BitVec 16) :
    (port.setWidth 32).toInt = port.toNat := by
  have hLt := port.isLt
  rw [BitVec.toInt_eq_toNat_of_lt]
  · simp only [BitVec.toNat_setWidth]
    omega
  · simp only [BitVec.toNat_setWidth]
    omega

/- A port is in the range the function accepts. -/
theorem validPortCall_of_port
    {proto : BitVec 32}
    {fproto : DdosFilter}
    (dport : BitVec 16)
    (hProto : protoFilter proto = some fproto)
    {action : BitVec 32}
    (hAction : action = ACTION_ADD ∨ action = ACTION_DEL) :
    ValidPortCall (dport.setWidth 32) action proto fproto where
  action_eq := hAction
  proto_eq := hProto
  dport_le := by
    have hLt := dport.isLt
    rw [toInt_port]
    omega

/- A key outside the array is refused. -/
theorem run_blacklistPortModify_of_ge
    (m : Maps nrCpus)
    (countfd : MapId)
    {dport : BitVec 32}
    (action proto : BitVec 32)
    (hRange : NR_PORTS ≤ dport.toNat) :
    ∃ status, status ≠ EXIT_OK ∧
      CallProg.run Maps.handle
          (blacklistPortModify .portBlacklist countfd
            dport action proto) m =
        (.returned status, m) := by
  by_cases hValid :
      ∃ fproto, ValidPortCall dport action proto fproto
  · rcases hValid with ⟨fproto, hValid⟩
    refine ⟨EXIT_FAIL_MAP_KEY, by decide, ?_⟩
    rw [← Maps.handleFaulty_none]
    exact run_portModify_of_ge m countfd hValid hRange rfl
  · exact run_portModify_of_invalid _ m _ countfd
      (not_exists.mp hValid)

/- A call on a port edits its masks on every CPU. -/
theorem run_blacklistPortModify_of_port
    (m : Maps nrCpus)
    {proto : BitVec 32}
    {fproto : DdosFilter}
    (dport : BitVec 16)
    (hProto : protoFilter proto = some fproto)
    {action : BitVec 32}
    (hAction : action = ACTION_ADD ∨ action = ACTION_DEL) :
    CallProg.run Maps.handle
        (blacklistPortModify .portBlacklist (countFd proto)
          (dport.setWidth 32) action proto) m =
      (.returned EXIT_OK,
        if action = ACTION_DEL then
          (m.editRule action fproto dport).resetCount
            fproto dport
        else m.editRule action fproto dport) := by
  have hCount :
      countFd proto = .portBlacklistDropCount fproto := by
    rw [countFd, hProto]
    rfl
  have hRead :
      m.readMasks .none (dport.setWidth 32) =
        m.portBlacklist.slots (Maps.portIndex dport) :=
    Maps.readMasks_of_none dport rfl
  rw [← Maps.handleFaulty_none, hCount,
    run_portModify_of_port m fproto dport
      (validPortCall_of_port dport hProto hAction) rfl, hRead]
  by_cases hDel : action = ACTION_DEL
  · rw [if_pos hDel, if_pos hDel]
    rfl
  · rw [if_neg hDel, if_neg hDel]
    rfl

/- A number in range is a port. -/
theorem exists_port_of_lt
    {dport : BitVec 32}
    (hRange : dport.toNat < NR_PORTS) :
    ∃ port : BitVec 16, dport = port.setWidth 32 := by
  refine ⟨dport.setWidth 16, BitVec.eq_of_toNat_eq ?_⟩
  simp only [NR_PORTS] at hRange
  simp
  omega

/- A port is a number in range. -/
theorem port_toNat_lt
    (port : BitVec 16) :
    (port.setWidth 32).toNat < NR_PORTS := by
  have hLt := port.isLt
  simp only [NR_PORTS, BitVec.toNat_setWidth]
  omega

/-
  Run to its end, `blacklist_port_modify` fails and changes
  nothing, or edits one rule bit and, to delete, clears the
  drop counter of the rule.
-/
theorem run_blacklistPortModify_cases
    (m : Maps nrCpus)
    (dport action proto : BitVec 32) :
    (∃ status, status ≠ EXIT_OK ∧
        CallProg.run Maps.handle
            (blacklistPortModify .portBlacklist
              (countFd proto) dport action proto) m =
          (.returned status, m)) ∨
      (∃ fproto port, protoFilter proto = some fproto ∧
        dport = port.setWidth 32 ∧ action = ACTION_ADD ∧
        CallProg.run Maps.handle
            (blacklistPortModify .portBlacklist
              (countFd proto) dport action proto) m =
          (.returned EXIT_OK,
            m.editRule ACTION_ADD fproto port)) ∨
      (∃ fproto port, protoFilter proto = some fproto ∧
        dport = port.setWidth 32 ∧ action = ACTION_DEL ∧
        CallProg.run Maps.handle
            (blacklistPortModify .portBlacklist
              (countFd proto) dport action proto) m =
          (.returned EXIT_OK,
            (m.editRule ACTION_DEL fproto port).resetCount
              fproto port)) := by
  by_cases hValid :
      ∃ fproto, ValidPortCall dport action proto fproto
  · rcases hValid with ⟨fproto, hValid⟩
    rcases Nat.lt_or_ge dport.toNat NR_PORTS with hLt | hGe
    · rcases exists_port_of_lt hLt with ⟨port, rfl⟩
      rw [run_blacklistPortModify_of_port m port
        hValid.proto_eq hValid.action_eq]
      rcases hValid.action_eq with rfl | rfl
      · exact Or.inr (Or.inl
          ⟨fproto, port, hValid.proto_eq, rfl, rfl, rfl⟩)
      · exact Or.inr (Or.inr
          ⟨fproto, port, hValid.proto_eq, rfl, rfl, rfl⟩)
    · exact Or.inl
        (run_blacklistPortModify_of_ge m _ action proto hGe)
  · exact Or.inl (run_portModify_of_invalid _ m _ _
      (not_exists.mp hValid))

end XdpDdos
