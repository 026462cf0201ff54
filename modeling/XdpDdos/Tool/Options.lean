import XdpDdos.Tool.Calls

/-
  The option loop of the command line tool.

  Port, protocol and counter map are three variables.  The
  case of `-u` sets all of them, falling through to the case
  of `-t`, which sets the port only.

  Main declarations:
    * `OptionState`, `scanOption`, `optionLoop`
    * `portOptions`, `Scanned`, `scanned_options`
    * `Request`, `request_of_optionLoop`
    * `FromPortOption`, `fromPortOption_getLast_iff`
-/

------------------------------------------------------------
-- The Loop
------------------------------------------------------------

namespace XdpDdos

namespace Tool

def longOptions : List LongOption :=
  [⟨"help".toList, false, 'h'⟩,
    ⟨"add".toList, false, 'a'⟩,
    ⟨"del".toList, false, 'x'⟩,
    ⟨"ip".toList, true, 'i'⟩,
    ⟨"stats".toList, false, 's'⟩,
    ⟨"sec".toList, true, 's'⟩,
    ⟨"list".toList, false, 'l'⟩,
    ⟨"udp-dport".toList, true, 'u'⟩,
    ⟨"tcp-dport".toList, true, 't'⟩]

def optstring : CStr :=
  "adshi:t:u:".toList

/- What `getopt_long` makes of the arguments. -/
def options (args : List CStr) : List GetoptResult :=
  (getoptLong optstring longOptions args).1

/- The arguments left over. -/
def nonOptions (args : List CStr) : List CStr :=
  (getoptLong optstring longOptions args).2

def STR_MAX : ℕ := 42

/- The variables that the loop sets. -/
structure OptionState where
  ipString : Option CStr := none
  action : BitVec 32 := 0
  stats : Bool := false
  interval : BitVec 32 := 1
  doList : Bool := false
  dport : BitVec 32 := 0
  proto : BitVec 32 := IPPROTO_TCP.setWidth 32
  filter : DdosFilter := .tcp

/- `case 't'`: the port of an option that has one. -/
def OptionState.setDport
    (st : OptionState)
    (optarg : Option CStr) : OptionState :=
  match optarg with
  | some optarg => { st with dport := CLib.atoi optarg }
  | none => st

/- One round of the switch; `none` is `fail_opt`. -/
def scanOption
    (st : OptionState)
    (r : GetoptResult) : Option OptionState :=
  match r.opt with
  | 'a' => some { st with action := st.action ||| ACTION_ADD }
  | 'x' => some { st with action := st.action ||| ACTION_DEL }
  | 'i' =>
      match r.optarg with
      | none => none
      | some optarg =>
          if optarg.length ≥ STR_MAX then none
          else some { st with ipString := some optarg }
  | 'u' =>
      -- falls through to the case of -t
      some ({ st with
        proto := IPPROTO_UDP.setWidth 32
        filter := .udp }.setDport r.optarg)
  | 't' => some (st.setDport r.optarg)
  | 's' =>
      match r.optarg with
      | some optarg =>
          some { st with
            stats := true
            interval := CLib.atoi optarg }
      | none => some { st with stats := true }
  | 'l' => some { st with doList := true }
  | _ => none

/- The loop over all options. -/
def optionLoop
    (st : OptionState) :
    List GetoptResult → Option OptionState
  | [] => some st
  | r :: rs =>
      match scanOption st r with
      | none => none
      | some st => optionLoop st rs

------------------------------------------------------------
-- Port Options
------------------------------------------------------------

/- The protocol and argument of a port option. -/
def portOption?
    (r : GetoptResult) : Option (DdosFilter × CStr) :=
  match r.optarg with
  | none => none
  | some optarg =>
      if r.opt = 'u' then some (.udp, optarg)
      else if r.opt = 't' then some (.tcp, optarg)
      else none

/- The port options among all options. -/
def portOptions
    (rs : List GetoptResult) : List (DdosFilter × CStr) :=
  rs.filterMap portOption?

theorem portOptions_cons
    (r : GetoptResult)
    (rs : List GetoptResult) :
    portOptions (r :: rs) =
      (portOption? r).toList ++ portOptions rs := by
  unfold portOptions
  rw [List.filterMap_cons]
  cases portOption? r with
  | none => rfl
  | some port => rfl

theorem portOption?_of_ne
    {r : GetoptResult}
    (hUdp : r.opt ≠ 'u')
    (hTcp : r.opt ≠ 't') :
    portOption? r = none := by
  unfold portOption?
  cases r.optarg with
  | none => rfl
  | some optarg => simp only [hUdp, hTcp, if_false]

/- Port options are all about TCP if none is about UDP. -/
theorem forall_tcp_iff
    {ports : List (DdosFilter × CStr)} :
    (∀ port ∈ ports, port.1 = .tcp) ↔
      ¬ ∃ port ∈ ports, port.1 = .udp := by
  constructor
  · rintro hTcp ⟨port, hMem, hUdp⟩
    rw [hTcp port hMem] at hUdp
    cases hUdp
  · intro hNone port hMem
    cases hProto : port.1 with
    | tcp => rfl
    | udp => exact absurd ⟨port, hMem, hProto⟩ hNone

/- A port option comes with its argument. -/
def PortHasArg (r : GetoptResult) : Prop :=
  r.opt = 'u' ∨ r.opt = 't' → ∃ optarg, r.optarg = some optarg

theorem portHasArg_of_mem
    {args : List CStr}
    {r : GetoptResult}
    (hMem : r ∈ options args) :
    PortHasArg r := by
  intro hPort
  cases hArg : r.optarg with
  | some optarg => exact ⟨optarg, rfl⟩
  | none =>
      have hNoArg :=
        argsComplete_getoptLong optstring longOptions args r
          hMem hArg
      unfold TakesNoArg at hNoArg
      rcases hPort with hOpt | hOpt
      · rw [hOpt] at hNoArg
        exact absurd hNoArg (by decide)
      · rw [hOpt] at hNoArg
        exact absurd hNoArg (by decide)

/- The addresses given to `--ip`. -/
def ipOptions
    (rs : List GetoptResult) : List CStr :=
  rs.filterMap fun r => if r.opt = 'i' then r.optarg else none

/- Whether an option occurs. -/
def Given (opt : Char) (rs : List GetoptResult) : Prop :=
  opt ∈ rs.map GetoptResult.opt

instance (opt : Char) (rs : List GetoptResult) :
    Decidable (Given opt rs) := by
  unfold Given
  infer_instance

/- The action that `--add` and `--del` ask for. -/
def requestedAction
    (rs : List GetoptResult) : BitVec 32 :=
  (if Given 'a' rs then ACTION_ADD else 0) |||
    (if Given 'x' rs then ACTION_DEL else 0)

theorem requestedAction_append
    (rs rs' : List GetoptResult) :
    requestedAction (rs ++ rs') =
      requestedAction rs ||| requestedAction rs' := by
  have hFlag (opt : Char) (flag : BitVec 32) :
      (if Given opt (rs ++ rs') then flag else 0) =
        (if Given opt rs then flag else 0) |||
          (if Given opt rs' then flag else 0) := by
    have hGiven :
        Given opt (rs ++ rs') ↔ Given opt rs ∨ Given opt rs' := by
      unfold Given
      rw [List.map_append, List.mem_append]
    by_cases hLeft : Given opt rs <;>
      by_cases hRight : Given opt rs' <;>
        simp [hGiven, hLeft, hRight]
  unfold requestedAction
  rw [hFlag, hFlag]
  ac_rfl

------------------------------------------------------------
-- What the Loop Computes
------------------------------------------------------------

/-
  What options make of the variables.  The last port option
  sets the port, and one of `-u` settles protocol and map.
-/
structure Scanned
    (st : OptionState)
    (rs : List GetoptResult)
    (st' : OptionState) : Prop where
  action_eq : st'.action = st.action ||| requestedAction rs
  ip_eq :
    st'.ipString = (ipOptions rs).getLast?.or st.ipString
  dport_eq :
    st'.dport =
      ((portOptions rs).getLast?.map fun port =>
        CLib.atoi port.2).getD st.dport
  udp_of :
    (∃ port ∈ portOptions rs, port.1 = .udp) →
      st'.proto = DdosFilter.udp.proto ∧ st'.filter = .udp
  same_of :
    (∀ port ∈ portOptions rs, port.1 = .tcp) →
      st'.proto = st.proto ∧ st'.filter = st.filter

namespace Scanned

theorem nil (st : OptionState) : Scanned st [] st where
  action_eq := by simp [requestedAction, Given]
  ip_eq := rfl
  dport_eq := rfl
  udp_of := by
    rintro ⟨port, hMem, _⟩
    cases hMem
  same_of := fun _ => ⟨rfl, rfl⟩

/- An option that is not about ports. -/
theorem of_no_port
    {st st' : OptionState}
    {r : GetoptResult}
    (hUdp : r.opt ≠ 'u')
    (hTcp : r.opt ≠ 't')
    (hAction : st'.action = st.action ||| requestedAction [r])
    (hIp :
      st'.ipString = (ipOptions [r]).getLast?.or st.ipString)
    (hPort : st'.dport = st.dport)
    (hProto : st'.proto = st.proto)
    (hFilter : st'.filter = st.filter) :
    Scanned st [r] st' := by
  have hNone : portOptions [r] = [] := by
    rw [portOptions_cons, portOption?_of_ne hUdp hTcp]
    rfl
  refine ⟨hAction, hIp, ?_, ?_, fun _ => ⟨hProto, hFilter⟩⟩
  · rw [hNone]
    exact hPort
  · rw [hNone]
    rintro ⟨port, hMem, _⟩
    cases hMem

theorem append
    {st st' st'' : OptionState}
    {rs rs' : List GetoptResult}
    (hLeft : Scanned st rs st')
    (hRight : Scanned st' rs' st'') :
    Scanned st (rs ++ rs') st'' := by
  have hPorts :
      portOptions (rs ++ rs') =
        portOptions rs ++ portOptions rs' :=
    List.filterMap_append
  have hIps :
      ipOptions (rs ++ rs') = ipOptions rs ++ ipOptions rs' :=
    List.filterMap_append
  constructor
  · rw [hRight.action_eq, hLeft.action_eq,
      requestedAction_append]
    ac_rfl
  · rw [hRight.ip_eq, hLeft.ip_eq, hIps, List.getLast?_append,
      Option.or_assoc]
  · rw [hRight.dport_eq, hLeft.dport_eq, hPorts,
      List.getLast?_append]
    cases (portOptions rs').getLast? with
    | none => rfl
    | some port => rfl
  · rw [hPorts]
    rintro ⟨port, hMem, hUdp⟩
    by_cases hLater : ∃ port ∈ portOptions rs', port.1 = .udp
    · exact hRight.udp_of hLater
    · have hTcp := forall_tcp_iff.mpr hLater
      have hEarlier : port ∈ portOptions rs := by
        rcases List.mem_append.mp hMem with hIn | hIn
        · exact hIn
        · exact absurd ⟨port, hIn, hUdp⟩ hLater
      rw [(hRight.same_of hTcp).1, (hRight.same_of hTcp).2]
      exact hLeft.udp_of ⟨port, hEarlier, hUdp⟩
  · rw [hPorts]
    intro hTcp
    have hLeftSame := hLeft.same_of fun port hMem =>
      hTcp port (List.mem_append_left _ hMem)
    have hRightSame := hRight.same_of fun port hMem =>
      hTcp port (List.mem_append_right _ hMem)
    rw [hRightSame.1, hRightSame.2]
    exact hLeftSame

end Scanned

/- One round of the switch. -/
theorem scanned_scanOption
    {st st' : OptionState}
    {r : GetoptResult}
    (hArg : PortHasArg r)
    (hScan : scanOption st r = some st') :
    Scanned st [r] st' := by
  rcases r with ⟨opt, optarg⟩
  unfold scanOption at hScan
  split at hScan
  case h_1 hOpt | h_2 hOpt | h_7 hOpt =>
    dsimp only at hOpt
    subst hOpt
    cases hScan
    refine .of_no_port (by simp) (by simp) ?_ rfl rfl rfl rfl
    simp [requestedAction, Given]
  case h_3 hOpt =>
    dsimp only at hOpt
    subst hOpt
    split at hScan
    case h_1 => cases hScan
    case h_2 hSome =>
      cases hSome
      split at hScan
      · cases hScan
      · cases hScan
        refine .of_no_port (by simp) (by simp) ?_ rfl rfl
          rfl rfl
        simp [requestedAction, Given]
  case h_4 hOpt =>
    -- a port option has its argument, so the port is set too
    dsimp only at hOpt
    subst hOpt
    obtain ⟨arg, rfl⟩ := hArg (Or.inl rfl)
    cases hScan
    refine ⟨?_, rfl, rfl, fun _ => ⟨rfl, rfl⟩, ?_⟩
    · simp [requestedAction, Given, OptionState.setDport]
    · intro hTcp
      cases hTcp (.udp, arg) List.mem_cons_self
  case h_5 hOpt =>
    dsimp only at hOpt
    subst hOpt
    obtain ⟨arg, rfl⟩ := hArg (Or.inr rfl)
    cases hScan
    refine ⟨?_, rfl, rfl, ?_, fun _ => ⟨rfl, rfl⟩⟩
    · simp [requestedAction, Given, OptionState.setDport]
    · rintro ⟨port, hMem, hPort⟩
      cases List.mem_singleton.mp hMem
      cases hPort
  case h_6 hOpt =>
    dsimp only at hOpt
    subst hOpt
    split at hScan <;>
      · cases hScan
        refine .of_no_port (by simp) (by simp) ?_ rfl rfl
          rfl rfl
        simp [requestedAction, Given]
  case h_8 => cases hScan

/- By induction, the loop scans all options. -/
theorem scanned_of_optionLoop
    {rs : List GetoptResult}
    (hArgs : ∀ r ∈ rs, PortHasArg r)
    {st st' : OptionState}
    (hLoop : optionLoop st rs = some st') :
    Scanned st rs st' := by
  induction rs generalizing st with
  | nil =>
      cases hLoop
      exact .nil _
  | cons r rs ih =>
      unfold optionLoop at hLoop
      split at hLoop
      case h_1 => cases hLoop
      case h_2 next hScan =>
        have hStep :=
          scanned_scanOption (hArgs r List.mem_cons_self) hScan
        exact hStep.append
          (ih (fun r hMem =>
            hArgs r (List.mem_cons_of_mem _ hMem)) hLoop)

/- What the tool's own arguments make of its variables. -/
theorem scanned_options
    {args : List CStr}
    {st : OptionState}
    (hLoop : optionLoop {} (options args) = some st) :
    Scanned {} (options args) st :=
  scanned_of_optionLoop (fun _ hMem => portHasArg_of_mem hMem)
    hLoop

/- What the options ask for, as the loop understands them. -/
structure Request where
  ip : Option CStr
  action : BitVec 32
  dport : BitVec 32
  filter : DdosFilter

/- The protocol that is kept: UDP once `-u` was given. -/
def keptFilter (rs : List GetoptResult) : DdosFilter :=
  if ∃ port ∈ portOptions rs, port.1 = .udp then .udp
  else .tcp

def request (rs : List GetoptResult) : Request where
  ip := (ipOptions rs).getLast?
  action := requestedAction rs
  dport :=
    ((portOptions rs).getLast?.map fun port =>
      CLib.atoi port.2).getD 0
  filter := keptFilter rs

/- The request that the variables hold. -/
def OptionState.request (st : OptionState) : Request where
  ip := st.ipString
  action := st.action
  dport := st.dport
  filter := st.filter

/- After the loop the variables hold what was asked for. -/
theorem request_of_optionLoop
    {args : List CStr}
    {st : OptionState}
    (hLoop : optionLoop {} (options args) = some st) :
    st.request = request (options args) ∧
      st.proto = st.filter.proto := by
  have hScanned := scanned_options hLoop
  have hAction :
      st.action = requestedAction (options args) := by
    rw [hScanned.action_eq]
    exact BitVec.zero_or
  have hIp :
      st.ipString = (ipOptions (options args)).getLast? := by
    rw [hScanned.ip_eq]
    exact Option.or_none
  have hFilter :
      st.filter = keptFilter (options args) ∧
        st.proto = st.filter.proto := by
    unfold keptFilter
    by_cases hUdp :
        ∃ port ∈ portOptions (options args), port.1 = .udp
    · rw [if_pos hUdp, (hScanned.udp_of hUdp).1,
        (hScanned.udp_of hUdp).2]
      exact ⟨rfl, rfl⟩
    · have hTcp := forall_tcp_iff.mpr hUdp
      rw [if_neg hUdp, (hScanned.same_of hTcp).1,
        (hScanned.same_of hTcp).2]
      exact ⟨rfl, rfl⟩
  refine ⟨?_, hFilter.2⟩
  unfold OptionState.request request
  rw [hIp, hAction, hScanned.dport_eq, hFilter.1]

------------------------------------------------------------
-- Protocol and Port
------------------------------------------------------------

/-
  Port, protocol and counter map are those of one option.
-/
structure FromPortOption
    (st : OptionState)
    (port : DdosFilter × CStr) : Prop where
  dport_eq : st.dport = CLib.atoi port.2
  proto_eq : st.proto = port.1.proto
  count_eq :
    mapOfFile (filePortBlacklistCount st.filter) =
      some (.portBlacklistDropCount port.1)

/- With the right port, that is a matter of the protocol. -/
theorem fromPortOption_iff
    {st : OptionState}
    {port : DdosFilter × CStr}
    (hPort : st.dport = CLib.atoi port.2)
    (hProto : st.proto = st.filter.proto) :
    FromPortOption st port ↔ st.filter = port.1 := by
  constructor
  · intro hFrom
    have hCount := hFrom.count_eq
    rw [mapOfFile_filePortBlacklistCount] at hCount
    injection hCount with hMap
    injection hMap
  · intro hFilter
    refine ⟨hPort, ?_, ?_⟩
    · rw [hProto, hFilter]
    · rw [hFilter, mapOfFile_filePortBlacklistCount]

/- The protocol kept is that of a port option. -/
theorem keptFilter_eq_iff
    {rs : List GetoptResult}
    {port : DdosFilter × CStr}
    (hMem : port ∈ portOptions rs) :
    keptFilter rs = port.1 ↔
      port.1 = .udp ∨
        ∀ other ∈ portOptions rs, other.1 = .tcp := by
  rw [forall_tcp_iff]
  unfold keptFilter
  by_cases hUdp : ∃ other ∈ portOptions rs, other.1 = .udp
  · rw [if_pos hUdp, or_iff_left (not_not_intro hUdp)]
    exact eq_comm
  · have hTcp := forall_tcp_iff.mpr hUdp port hMem
    rw [if_neg hUdp]
    simp only [hUdp, not_false_eq_true, or_true, hTcp]

/-
  They are those of the last port option exactly when that
  one is about UDP or none is.
-/
theorem fromPortOption_getLast_iff
    (args : List CStr)
    {st : OptionState}
    (hLoop : optionLoop {} (options args) = some st)
    {port : DdosFilter × CStr}
    (hLast :
      (portOptions (options args)).getLast? = some port) :
    FromPortOption st port ↔
      port.1 = .udp ∨
        ∀ other ∈ portOptions (options args),
          other.1 = .tcp := by
  rcases request_of_optionLoop hLoop with ⟨hRequest, hProto⟩
  have hPort : st.dport = CLib.atoi port.2 := by
    rw [(scanned_options hLoop).dport_eq, hLast]
    rfl
  have hFilter : st.filter = keptFilter (options args) :=
    congrArg Request.filter hRequest
  rw [fromPortOption_iff hPort hProto, hFilter]
  exact keptFilter_eq_iff (List.mem_of_getLast? hLast)

/- `-u 53 -u 54`: both options are about UDP. -/
def udpTwice : List CStr :=
  ["-u".toList, "53".toList, "-u".toList, "54".toList]

/- Port, protocol and counter map are those of `-u 54`. -/
theorem fromPortOption_udpTwice :
    FromPortOption
      { dport := 54
        proto := IPPROTO_UDP.setWidth 32
        filter := .udp }
      (.udp, "54".toList) :=
  (fromPortOption_getLast_iff udpTwice rfl rfl).mpr
    (Or.inl rfl)

/- `-u 53 -t 80`: the last option is about TCP. -/
def udpThenTcp : List CStr :=
  ["-u".toList, "53".toList, "-t".toList, "80".toList]

/- The tool takes it for UDP port 80. -/
theorem udpThenTcp_mixes_options :
    ∃ st port,
      optionLoop {} (options udpThenTcp) = some st ∧
        (portOptions (options udpThenTcp)).getLast? =
          some port ∧
        ¬ FromPortOption st port := by
  refine ⟨{ dport := 80
            proto := IPPROTO_UDP.setWidth 32
            filter := .udp },
    (.tcp, "80".toList), rfl, rfl, ?_⟩
  intro hFrom
  exact absurd hFrom.proto_eq (by decide)

end Tool

end XdpDdos
