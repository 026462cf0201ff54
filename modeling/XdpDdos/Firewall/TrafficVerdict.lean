import XdpDdos.Firewall.Traffic

/-
  The verdict on a frame that is in flight while rules are
  edited.

  Main declarations:
    * `Maps.firewall`, `Maps.SameMasks`
    * `Traffic.Inv`, `traffic_invariant`
    * `verdict_of_flight`
    * `flight_sees_two_firewalls`
-/

------------------------------------------------------------
-- Masks That Are the Same on All CPUs
------------------------------------------------------------

namespace XdpDdos

variable {ι : Type} [DecidableEq ι]
variable {nrCpus : ℕ}

/- Every port has one mask, whatever the CPU. -/
def Maps.SameMasks (m : Maps nrCpus) : Prop :=
  ∀ idx cpu cpu',
    m.portBlacklist.slots idx cpu =
      m.portBlacklist.slots idx cpu'

theorem Maps.SameMasks.setSlots
    {m : Maps nrCpus}
    (hSame : m.SameMasks)
    (idx : Fin NR_PORTS)
    {values : Slots nrCpus}
    (hValues : ∀ cpu cpu', values cpu = values cpu') :
    { m with
      portBlacklist :=
        m.portBlacklist.setSlots idx values }.SameMasks := by
  intro idx' cpu cpu'
  simp only [PercpuArray.slots_setSlots]
  by_cases hHere : idx' = idx
  · rw [hHere, Function.update_self]
    exact hValues cpu cpu'
  · rw [Function.update_of_ne hHere]
    exact hSame idx' cpu cpu'

/- What the masks read by a process are like. -/
def MapCall.Answers :
    (op : MapCall nrCpus) → MapCall.Resp op → Prop
  | .lookupElem .portBlacklist _, answer =>
      ∀ values, answer = .ok values →
        ∀ cpu cpu', values cpu = values cpu'
  | _, _ => True

/-
  What a process writes: masks that are the same, and no
  verdict counter.
-/
def MapCall.Allowed : MapCall nrCpus → Prop
  | .updateElem .portBlacklist _ values _ =>
      ∀ cpu cpu', values cpu = values cpu'
  | .updateElem .verdictCnt _ _ _ => False
  | _ => True

/- A pointer refers to the map that it was found in. -/
def FrameCall.Answers :
    (op : FrameCall) → FrameCall.Resp op → Prop
  | .lookupElem map _, answer =>
      ∀ value, answer = some value → value.map = map
  | _, _ => True

/- An access that does not write a map. -/
def FrameCall.Spares (map : MapId) : FrameCall → Prop
  | .store32 value _ => value.map ≠ map
  | .store64 value _ => value.map ≠ map
  | _ => True

section

variable {mem : Memory nrCpus}

theorem Memory.lookupElem_map
    {map : MapId}
    {key : BitVec 32}
    {value : ValuePtr}
    (hFound : mem.lookupElem map key = some value) :
    value.map = map := by
  cases map with
  | blacklist =>
      simp only [lookupElem] at hFound
      split at hFound
      · cases hFound
        rfl
      · cases hFound
  | verdictCnt | portBlacklist | portBlacklistDropCount =>
      rcases Option.map_eq_some_iff.mp hFound with
        ⟨_, _, rfl⟩
      rfl

/- Values of other maps do not hold the masks. -/
theorem Memory.setSlot_portBlacklist
    (cpu : Fin nrCpus)
    {value : ValuePtr}
    (hMap : value.map ≠ .portBlacklist)
    (word : BitVec 64) :
    (mem.setSlot cpu value word).maps.portBlacklist =
      mem.maps.portBlacklist := by
  unfold setSlot
  split
  · split
    · rfl
    · rfl
  · rfl
  · exact absurd (by assumption) hMap
  · rfl

theorem Memory.access_answers
    (cpu : Fin nrCpus)
    (op : FrameCall) :
    op.Answers (Memory.access cpu op mem).1 := by
  cases op with
  | lookupElem map key => exact fun _ => mem.lookupElem_map
  | load32 | load64 | store32 | store64 => trivial

/- An access that a packet program makes. -/
theorem Memory.access_portBlacklist
    (cpu : Fin nrCpus)
    {op : FrameCall}
    (hOp : op.Spares .portBlacklist) :
    (Memory.access cpu op mem).2.maps.portBlacklist =
      mem.maps.portBlacklist := by
  cases op with
  | lookupElem map key => rfl
  | load32 value => rfl
  | load64 value => rfl
  | store32 value word =>
      exact mem.setSlot_portBlacklist cpu hOp _
  | store64 value word =>
      exact mem.setSlot_portBlacklist cpu hOp _

/- A map system call is one on the maps. -/
theorem Memory.control_maps
    (op : MapCall nrCpus) :
    (Memory.control op mem).1 = (Maps.handle op mem.maps).1 ∧
      (Memory.control op mem).2.maps =
        (Maps.handle op mem.maps).2 := by
  unfold Memory.control
  split
  · exact ⟨rfl, rfl⟩
  · exact ⟨rfl, rfl⟩

/- A call that a process makes. -/
theorem Memory.control_keeps
    (hSame : mem.maps.SameMasks)
    {op : MapCall nrCpus}
    (hOp : op.Allowed) :
    op.Answers (Memory.control op mem).1 ∧
      (Memory.control op mem).2.maps.SameMasks := by
  rcases mem.control_maps op with ⟨hAnswer, hMaps⟩
  rw [hAnswer, hMaps]
  cases op with
  | lookupElem fd key =>
      refine ⟨?_, hSame⟩
      cases fd with
      | blacklist | verdictCnt | portBlacklistDropCount =>
          trivial
      | portBlacklist =>
          intro values hValues cpu cpu'
          simp only [Maps.handle, Maps.lookupElem,
            PercpuArray.lookupElem] at hValues
          split at hValues
          · cases hValues
            exact hSame _ cpu cpu'
          · cases hValues
  | deleteElem fd key =>
      cases fd with
      | blacklist | verdictCnt | portBlacklistDropCount =>
          exact ⟨trivial, hSame⟩
      | portBlacklist => exact ⟨trivial, hSame⟩
  | updateElem fd key values flag =>
      cases fd with
      | blacklist | portBlacklistDropCount =>
          exact ⟨trivial, hSame⟩
      | verdictCnt => exact hOp.elim
      | portBlacklist =>
          refine ⟨trivial, ?_⟩
          simp only [Maps.handle, Maps.updateElem,
            PercpuArray.updateElem]
          cases (PercpuArray.index? key :
              Option (Fin NR_PORTS)) with
          | none => exact hSame
          | some idx =>
              cases flag with
              | noexist => exact hSame
              | any | exist => exact hSame.setSlots idx hOp

end

------------------------------------------------------------
-- The Programs Keep the Masks the Same
------------------------------------------------------------

section

variable {mem : Memory nrCpus}

/- The edit of an address makes no call on the masks. -/
theorem guarantees_blacklistModify
    (ipString : CStr)
    (action : BitVec 32) :
    (blacklistModify .blacklist ipString action :
      MapProg nrCpus ℕ).Guarantees MapCall.Answers
        MapCall.Allowed := by
  unfold blacklistModify
  split
  · trivial
  · split
    · exact ⟨trivial, fun _ _ => trivial⟩
    · split
      · exact ⟨trivial, fun _ _ => trivial⟩
      · trivial

theorem guarantees_clearStats
    (proto key action : BitVec 32) :
    (clearStats (countFd proto) key action :
      MapProg nrCpus ℕ).Guarantees MapCall.Answers
        MapCall.Allowed := by
  unfold clearStats
  split
  · refine ⟨trivial, fun answer _ => ?_⟩
    cases answer with
    | error errno => trivial
    | ok _ => trivial
  · trivial

/- The edit of a port writes what it made of what it read. -/
theorem guarantees_blacklistPortModify
    (dport action proto : BitVec 32) :
    (blacklistPortModify .portBlacklist (countFd proto) dport
        action proto :
      MapProg nrCpus ℕ).Guarantees MapCall.Answers
        MapCall.Allowed := by
  unfold blacklistPortModify
  split
  · trivial
  · split
    · trivial
    · split
      · trivial
      · refine ⟨trivial, fun looked hLooked => ?_⟩
        refine ⟨?_, fun answer _ => ?_⟩
        · intro cpu cpu'
          cases looked with
          | error errno => rfl
          | ok values =>
              exact congrArg _ (hLooked values rfl cpu cpu')
        · cases answer with
          | error errno => trivial
          | ok _ => exact guarantees_clearStats proto _ action

theorem ControlCmd.guarantees
    (cmd : ControlCmd) :
    (cmd.prog : MapProg nrCpus ℕ).Guarantees
      MapCall.Answers MapCall.Allowed := by
  cases cmd with
  | modifyAddr ipString action =>
      exact guarantees_blacklistModify ipString action
  | modifyPort dport action proto =>
      exact guarantees_blacklistPortModify dport action proto

namespace InFlight

/- Both increments write what their pointer refers to. -/
theorem guarantees_increment
    {map : MapId}
    {value : ValuePtr}
    (hMap : value.map ≠ map) :
    (increment32 value).Guarantees FrameCall.Answers
        (FrameCall.Spares map) ∧
      (increment64 value).Guarantees FrameCall.Answers
        (FrameCall.Spares map) :=
  ⟨⟨trivial, fun _ _ => ⟨hMap, fun _ _ => trivial⟩⟩,
    ⟨trivial, fun _ _ => ⟨hMap, fun _ _ => trivial⟩⟩⟩

theorem guarantees_matchPort
    (dport : BitVec 16)
    (fproto : DdosFilter)
    {map : MapId}
    (hMap : .portBlacklistDropCount fproto ≠ map) :
    (matchPort dport fproto).Guarantees FrameCall.Answers
      (FrameCall.Spares map) := by
  refine ⟨trivial, fun found _ => ?_⟩
  cases found with
  | none => trivial
  | some value =>
      refine ⟨trivial, fun mask _ => ?_⟩
      dsimp only [CallProg.bind]
      split
      · refine ⟨trivial, fun found hFound => ?_⟩
        cases found with
        | none => trivial
        | some drops =>
            have hDrops : drops.map ≠ map := by
              rw [hFound drops rfl]
              exact hMap
            exact (guarantees_increment hDrops).1.bind
              fun _ => trivial
      · trivial

/- Before the statistics, only drops are counted. -/
theorem guarantees_ofView
    (v : FrameView)
    {map : MapId}
    (hAddrs : .blacklist ≠ map)
    (hPorts :
      ∀ fproto, .portBlacklistDropCount fproto ≠ map) :
    (ofView v).Guarantees FrameCall.Answers
      (FrameCall.Spares map) := by
  cases v with
  | skipped | notIpv4 | shortIpv4 => trivial
  | ipv4 src l4 =>
      refine ⟨trivial, fun found hFound => ?_⟩
      cases found with
      | none =>
          cases l4 with
          | other | short => trivial
          | port fproto dport =>
              exact guarantees_matchPort dport fproto
                (hPorts fproto)
      | some value =>
          have hValue : value.map ≠ map := by
            rw [hFound value rfl]
            exact hAddrs
          exact (guarantees_increment hValue).2.bind
            fun _ => trivial

theorem guarantees_statsActionVerdict
    (action : XdpAction) :
    (statsActionVerdict action).Guarantees FrameCall.Answers
      (FrameCall.Spares .portBlacklist) := by
  unfold statsActionVerdict
  split
  · trivial
  · refine ⟨trivial, fun found hFound => ?_⟩
    cases found with
    | none => trivial
    | some value =>
        have hValue : value.map ≠ .portBlacklist := by
          rw [hFound value rfl]
          exact fun hEq => by cases hEq
        exact (guarantees_increment hValue).2

theorem guarantees_xdpProgram
    (ctx : Frame) :
    (xdpProgram ctx).Guarantees FrameCall.Answers
      (FrameCall.Spares .portBlacklist) := by
  rw [xdpProgram_eq]
  split
  · trivial
  · have hDecides :
        (ofView ctx.view).Guarantees FrameCall.Answers
          (FrameCall.Spares .portBlacklist) :=
      guarantees_ofView ctx.view (by simp) (by simp)
    exact hDecides.bind fun action =>
      (guarantees_statsActionVerdict action).bind
        fun _ => trivial

end InFlight

end

------------------------------------------------------------
-- The Invariant
------------------------------------------------------------

/- A flight, if there is one, leaves the masks alone. -/
def FlightKeepsMasks (flight : Option Flight) : Prop :=
  ∀ ctx prog, flight = some ⟨ctx, prog⟩ →
    prog.Guarantees FrameCall.Answers
      (FrameCall.Spares .portBlacklist)

/- All masks agree, and all programs do as they should. -/
structure Traffic.Inv (t : Traffic ι nrCpus) : Prop where
  masks : t.mem.maps.SameMasks
  flights : ∀ cpu, FlightKeepsMasks (t.flights cpu)
  procs :
    ∀ i,
      (t.procs i).Guarantees MapCall.Answers
        MapCall.Allowed

omit [DecidableEq ι] in
theorem traffic_inv_boot :
    (Traffic.boot : Traffic ι nrCpus).Inv where
  masks := fun _ _ _ => rfl
  flights := by
    intro cpu ctx prog hFlight
    cases hFlight
  procs := fun _ => trivial

theorem TrafficStep.inv
    {t t' : Traffic ι nrCpus}
    {e : TrafficEvent ι nrCpus}
    {r : TrafficResponse nrCpus}
    (hStep : TrafficStep t e r t')
    (hInv : t.Inv) :
    t'.Inv := by
  have hFlights
      (cpu : Fin nrCpus)
      {flight : Option Flight}
      (hFlight : FlightKeepsMasks flight)
      (cpu' : Fin nrCpus) :
      FlightKeepsMasks
        (Function.update t.flights cpu flight cpu') :=
    (Function.forall_update_iff t.flights
      fun _ => FlightKeepsMasks).mpr
        ⟨hFlight, fun cpu' _ => hInv.flights cpu'⟩ cpu'
  have hProcs
      (i : ι)
      {prog : MapProg nrCpus ℕ}
      (hProg :
        prog.Guarantees MapCall.Answers MapCall.Allowed)
      (i' : ι) :
      (Function.update t.procs i prog i').Guarantees
        MapCall.Answers MapCall.Allowed :=
    (Function.forall_update_iff t.procs
      fun _ prog => prog.Guarantees MapCall.Answers
        MapCall.Allowed).mpr
        ⟨hProg, fun i' _ => hInv.procs i'⟩ i'
  cases hStep with
  | stayed => exact hInv
  | @received cpu ctx hIdle =>
      refine ⟨hInv.masks, hFlights cpu ?_, hInv.procs⟩
      rintro ctx' prog ⟨⟩
      exact InFlight.guarantees_xdpProgram ctx
  | @accessed cpu ctx op next hFlight =>
      rcases hInv.flights cpu _ _ hFlight with ⟨hOp, hNext⟩
      refine ⟨?_, hFlights cpu ?_, hInv.procs⟩
      · intro idx cpu₁ cpu₂
        rw [t.mem.access_portBlacklist cpu hOp]
        exact hInv.masks idx cpu₁ cpu₂
      · rintro ctx' prog ⟨⟩
        exact hNext _ (t.mem.access_answers cpu op)
  | @returned cpu ctx action hFlight =>
      refine ⟨hInv.masks, hFlights cpu ?_, hInv.procs⟩
      rintro ctx' prog ⟨⟩
  | @started i cmd =>
      exact ⟨hInv.masks, hInv.flights,
        hProcs i cmd.guarantees⟩
  | @called i op next hProg =>
      have hCall := hInv.procs i
      rw [hProg] at hCall
      rcases t.mem.control_keeps hInv.masks hCall.1 with
        ⟨hAnswer, hMasks⟩
      exact ⟨hMasks, hInv.flights,
        hProcs i (hCall.2 _ hAnswer)⟩

/- In every state of every interleaving. -/
theorem traffic_invariant
    (es : List (TrafficEvent ι nrCpus)) :
    (trafficSystem.final .boot es).Inv :=
  Reactive.final_invariant trafficSystem Traffic.Inv
    (fun t e => (trafficSystem_step t e).inv)
    traffic_inv_boot es

------------------------------------------------------------
-- The States That a Frame Sees
------------------------------------------------------------

section

variable {t : Traffic ι nrCpus}
variable {cpu : Fin nrCpus}

/- A frame of the CPU gets its verdict. -/
def TrafficResponse.IsOn
    (cpu : Fin nrCpus) : TrafficResponse nrCpus → Prop
  | .quiet => False
  | .verdict cpu' _ _ => cpu' = cpu

instance
    (cpu : Fin nrCpus) :
    DecidablePred
      (TrafficResponse.IsOn cpu : TrafficResponse nrCpus → _)
  | .quiet => isFalse id
  | .verdict cpu' _ _ => inferInstanceAs (Decidable (cpu' = cpu))

/- No frame of the CPU gets its verdict in a run. -/
def QuietOn
    (cpu : Fin nrCpus)
    (t : Traffic ι nrCpus)
    (es : List (TrafficEvent ι nrCpus)) : Prop :=
  ∀ label ∈ trafficSystem.trace t es, ¬ label.2.IsOn cpu

instance
    (cpu : Fin nrCpus)
    (t : Traffic ι nrCpus)
    (es : List (TrafficEvent ι nrCpus)) :
    Decidable (QuietOn cpu t es) := by
  unfold QuietOn
  infer_instance

/- A frame stays in flight while others take steps. -/
theorem TrafficStep.flights_eq
    {t' : Traffic ι nrCpus}
    {e : TrafficEvent ι nrCpus}
    {r : TrafficResponse nrCpus}
    (hStep : TrafficStep t e r t')
    (hOther : e ≠ .access cpu)
    {flight : Flight}
    (hFlight : t.flights cpu = some flight) :
    t'.flights cpu = some flight := by
  cases hStep with
  | stayed => exact hFlight
  | started => exact hFlight
  | called hProg => exact hFlight
  | @received cpu' ctx hIdle =>
      have hNe : cpu ≠ cpu' := by
        rintro rfl
        rw [hIdle] at hFlight
        cases hFlight
      exact (Function.update_of_ne hNe _ _).trans hFlight
  | accessed _ | returned _ =>
      have hNe : cpu ≠ _ := fun hEq =>
        hOther (congrArg TrafficEvent.access hEq.symm)
      exact (Function.update_of_ne hNe _ _).trans hFlight

/-
  The verdict on a frame is judged by the states that there
  were while it was in flight.
-/
theorem judged_by_visited
    {P : List (Memory nrCpus) → XdpAction → Prop}
    {ctx ctx' : Frame}
    {prog : FrameProg XdpAction}
    {action : XdpAction}
    {seen : List (Memory nrCpus)}
    (hFlight : t.flights cpu = some ⟨ctx, prog⟩)
    (hTolerates : prog.Tolerates (Memory.access cpu) P seen)
    {es : List (TrafficEvent ι nrCpus)}
    (hQuiet : QuietOn cpu t es)
    (hVerdict :
      (trafficSystem.step (trafficSystem.final t es)
        (.access cpu)).1 = .verdict cpu ctx' action) :
    ctx' = ctx ∧
      P (seen ++
          (trafficSystem.visited t
            (es ++ [.access cpu])).map Traffic.mem)
        action := by
  induction es generalizing t prog seen with
  | nil =>
      simp only [trafficSystem, Reactive.final,
        Traffic.access, hFlight] at hVerdict
      cases prog with
      | ret value =>
          cases hVerdict
          exact ⟨rfl, hTolerates [t.mem]⟩
      | halt how => cases hVerdict
      | call op next => cases hVerdict
  | cons e es ih =>
      have hHere :
          ¬ (trafficSystem.step t e).1.IsOn cpu :=
        hQuiet _ List.mem_cons_self
      have hRest :
          QuietOn cpu (trafficSystem.step t e).2 es :=
        fun label hMem =>
          hQuiet label (List.mem_cons_of_mem _ hMem)
      have hSeen :
          seen ++
              (trafficSystem.visited t
                (e :: es ++ [.access cpu])).map Traffic.mem =
            seen ++ [t.mem] ++
              (trafficSystem.visited
                (trafficSystem.step t e).2
                (es ++ [.access cpu])).map Traffic.mem := by
        rw [List.append_assoc]
        rfl
      rw [hSeen]
      by_cases hOwn : e = .access cpu
      · subst hOwn
        cases prog with
        | ret value =>
            have hDone :
                (trafficSystem.step t (.access cpu)).1 =
                  .verdict cpu ctx value := by
              simp only [trafficSystem, Traffic.access,
                hFlight]
            rw [hDone] at hHere
            exact absurd rfl hHere
        | halt how => exact hTolerates.elim
        | call op next =>
            have hNext := hTolerates [] t.mem
            rw [List.append_nil] at hNext
            have hGoesOn :
                (trafficSystem.step t
                    (.access cpu)).2.flights cpu =
                  some ⟨ctx,
                    next (Memory.access cpu op t.mem).1⟩ := by
              simp only [trafficSystem, Traffic.access,
                hFlight]
              exact Function.update_self _ _ _
            exact ih hGoesOn hNext hRest hVerdict
      · have hStays :=
          (trafficSystem_step t e).flights_eq hOwn hFlight
        exact ih hStays (hTolerates.later [t.mem]) hRest
          hVerdict

end

------------------------------------------------------------
-- The Firewalls That a Frame Sees
------------------------------------------------------------

/- The addresses and rules that all CPUs act on. -/
def Maps.firewall (m : Maps nrCpus) : Firewall where
  addrs := { addr | m.blacklist.Contains addr.key }
  rules := { rule | ∀ cpu, m.PortBit cpu rule.1 rule.2 }

/- The tables of two moments make up a firewall. -/
theorem represents_two
    (m : Maps nrCpus)
    {m' : Maps nrCpus}
    (hSame : m'.SameMasks) :
    Represents { m' with blacklist := m.blacklist }
      ⟨m.firewall.addrs, m'.firewall.rules⟩ where
  addrs := fun _ => Iff.rfl
  rules := by
    intro cpu fproto port
    constructor
    · intro (hBit : m'.PortBit cpu fproto port) cpu'
      rw [Maps.PortBit, hSame _ cpu' cpu]
      exact hBit
    · intro hAll
      exact hAll cpu

/-
  However processes edit the rules meanwhile, a plain frame
  is dropped exactly if it is blocked by the firewall whose
  addresses are those of one moment of its flight, and whose
  rules are those of a later moment, or of the same.
-/
theorem flight_sees_two_firewalls
    {es es' : List (TrafficEvent ι nrCpus)}
    {cpu : Fin nrCpus}
    {f : EthFrame}
    (hPlain : PlainIpv4Frame f)
    {t : Traffic ι nrCpus}
    (hReceived :
      t = trafficSystem.final .boot
        (es ++ [.receive cpu f.bytes]))
    (hIdle :
      (trafficSystem.final .boot es).flights cpu = none)
    (hQuiet : QuietOn cpu t es')
    {ctx : Frame}
    {action : XdpAction}
    (hVerdict :
      (trafficSystem.step (trafficSystem.final t es')
        (.access cpu)).1 = .verdict cpu ctx action) :
    ∃ fw fw',
      SeenInOrder
        ((trafficSystem.visited t
          (es' ++ [.access cpu])).map fun s =>
            s.mem.maps.firewall) fw fw' ∧
      (action = .drop ↔
        Firewall.Blocks ⟨fw.addrs, fw'.rules⟩ f.payload) := by
  rw [Reactive.final_append] at hReceived
  have hBefore := traffic_invariant es
  generalize trafficSystem.final .boot es = t₀ at *
  have hFlight :
      t.flights cpu =
        some ⟨f.bytes, InFlight.xdpProgram f.bytes⟩ := by
    simp only [hReceived, Reactive.final, trafficSystem,
      hIdle]
    exact Function.update_self _ _ _
  have hInv : t.Inv := by
    rw [hReceived]
    exact (trafficSystem_step t₀ _).inv hBefore
  have hTolerates :=
    InFlight.tolerates_xdpProgram cpu f.bytes
      (List.cons_ne_nil t.mem [])
  rcases (judged_by_visited hFlight hTolerates hQuiet
    hVerdict).2 with ⟨mem, mem', hSeen, rfl⟩
  -- the first state of the flight was put in front once more
  have hVisited :
      ∃ later,
        trafficSystem.visited t (es' ++ [.access cpu]) =
          t :: later := by
    cases es' with
    | nil => exact ⟨_, rfl⟩
    | cons e es' => exact ⟨_, rfl⟩
  rcases hVisited with ⟨later, hVisited⟩
  have hInvs :=
    trafficSystem.visited_invariant
      (fun t e => (trafficSystem_step t e).inv) hInv
      (es' ++ [.access cpu])
  rw [hVisited] at hSeen hInvs ⊢
  have hSeen' :
      SeenInOrder ((t :: later).map Traffic.mem) mem mem' :=
    hSeen.of_twice
  have hMem' := hSeen'.mem.2
  rcases List.mem_map.mp hMem' with ⟨s', hMem, rfl⟩
  have hRep :=
    represents_two mem.maps (hInvs s' hMem).masks
  have hDrops := hRep.drops_iff_blocks cpu hPlain
  rw [xdpVerdict_eq, Except.ok.injEq] at hDrops
  refine ⟨_, _, ?_, hDrops⟩
  have hMapped := hSeen'.map fun m => m.maps.firewall
  rw [List.map_map] at hMapped
  exact hMapped

/- The second CPU of two. -/
def CPU1 : Fin 2 := Fin.last 1

/- The rule of a port is added while a frame is in flight. -/
def addInFlight : List (TrafficEvent Unit 2) :=
  [.access CPU1, .start () (.modifyPort 80 ACTION_ADD 6),
    .call (), .call ()] ++ List.replicate 8 (.access CPU1)

def plainFlight : Traffic Unit 2 :=
  trafficSystem.final .boot [.receive CPU1 plainFrame.bytes]

theorem flight_sees_two_firewalls_addInFlight :
    ∃ fw fw',
      SeenInOrder
        ((trafficSystem.visited plainFlight
          (addInFlight ++ [.access CPU1])).map fun s =>
            s.mem.maps.firewall) fw fw' ∧
      (XdpAction.drop = .drop ↔
        Firewall.Blocks ⟨fw.addrs, fw'.rules⟩
          plainFrame.payload) := by
  have hQuiet : QuietOn CPU1 plainFlight addInFlight := by
    decide +kernel
  have hDropped :
      (trafficSystem.step
        (trafficSystem.final plainFlight addInFlight)
        (.access CPU1)).1 =
          .verdict CPU1 plainFrame.bytes .drop := rfl
  exact @flight_sees_two_firewalls Unit _ 2 [] addInFlight
    CPU1 plainFrame plainFrame_plain plainFlight rfl rfl hQuiet
    _ _ hDropped

end XdpDdos
