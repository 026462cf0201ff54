import XdpDdos.Lib.Refinement
import XdpDdos.Device.System
import XdpDdos.Firewall.Simulation

/-
  What a device is for: interfaces that are protected by the
  tables of a firewall.

  Tables are numbered.  The tool edits the tables that the
  files refer to, a start of the loader protects an interface
  with these, or with new ones where it cannot have them.

  Main declarations:
    * `RuleEdit`, `Firewall.editAll`, `requestedEdits`
    * `RuleEdit.carriedOut`, `CallFaults.Honest`
    * `Policy`, `Policy.firewall`, `Policy.editAll`
    * `TableOf`, `TableOf.file_eq`, `FileKept`
    * `PolicyStep`
-/

------------------------------------------------------------
-- Edits
------------------------------------------------------------

namespace XdpDdos

/- An edit of one address or of one port rule. -/
inductive RuleEdit where
  | addr (action : BitVec 32) (addr : Ipv4Addr)
  | rule (action : BitVec 32) (fproto : DdosFilter)
      (port : BitVec 16)
  deriving Repr, DecidableEq

/- Carry out an edit. -/
def Firewall.edit
    (fw : Firewall) : RuleEdit → Firewall
  | .addr action addr =>
      { fw with addrs := editSet action addr fw.addrs }
  | .rule action fproto port =>
      { fw with
        rules := editSet action (fproto, port) fw.rules }

/- Carry out edits, the first one first. -/
def Firewall.editAll
    (fw : Firewall)
    (edits : List RuleEdit) : Firewall :=
  edits.foldl Firewall.edit fw

/- The edit that a string given to `--ip` stands for. -/
def addrEdit
    (action : BitVec 32)
    (ipString : CStr) : List RuleEdit :=
  if action = ACTION_ADD ∨ action = ACTION_DEL then
    ((Ipv4Addr.ofString? ipString).map
      (RuleEdit.addr action)).toList
  else []

/- The edit that a number given as a port stands for. -/
def portEdit
    (action : BitVec 32)
    (fproto : DdosFilter)
    (dport : BitVec 32) : List RuleEdit :=
  if (action = ACTION_ADD ∨ action = ACTION_DEL) ∧
      dport.toNat < NR_PORTS then
    [.rule action fproto (dport.setWidth 16)]
  else []

/- The edit of the address that options ask for. -/
def addrEditsOf (request : Tool.Request) : List RuleEdit :=
  match request.ip with
  | none => []
  | some ipString => addrEdit request.action ipString

/- The edit of the port; 0 stands for no port. -/
def portEditsOf (request : Tool.Request) : List RuleEdit :=
  if request.dport = 0 then []
  else portEdit request.action request.filter request.dport

/-
  The edits that options ask for: of the address first, then
  of the port.
-/
def editsOf (request : Tool.Request) : List RuleEdit :=
  addrEditsOf request ++ portEditsOf request

/-
  What an edit amounts to when map calls fail: if the masks
  of a port cannot be read, they are written anew, and the
  rule of the other protocol is lost.
-/
def RuleEdit.carriedOut
    (fails : CallFaults) : RuleEdit → List RuleEdit
  | .addr action src => [.addr action src]
  | .rule action fproto port =>
      if fails .portBlacklist .lookup (port.setWidth 32) =
          none then
        [.rule action fproto port]
      else
        [.rule ACTION_DEL fproto.other port,
          .rule action fproto port]

/- No call that fails says that there is an entry already. -/
def CallFaults.Honest (fails : CallFaults) : Prop :=
  ∀ fd verb key, fails fd verb key ≠ some EEXIST

/- The file of the map that an edit is made in. -/
def RuleEdit.file : RuleEdit → CStr
  | .addr _ _ => fileBlacklist
  | .rule _ _ _ => filePortBlacklist

/- The edits that the arguments of the tool ask for. -/
def requestedEdits (args : List CStr) : List RuleEdit :=
  editsOf (Tool.request (Tool.options args))

/- The edits that a start of the loader makes as a test. -/
def testEdits : List RuleEdit :=
  [.addr ACTION_ADD ⟨198, 18, 50, 3⟩,
    .rule ACTION_ADD .udp 80]

------------------------------------------------------------
-- Tables and Interfaces
------------------------------------------------------------

/- One value for addresses, and one for port rules. -/
structure Tables (α : Type) where
  addrs : α
  rules : α

/- The value that an edit is about. -/
def Tables.target
    {α : Type}
    (t : Tables α) : RuleEdit → α
  | .addr _ _ => t.addrs
  | .rule _ _ _ => t.rules

def Tables.map
    {α β : Type}
    (f : α → β)
    (t : Tables α) : Tables β :=
  ⟨f t.addrs, f t.rules⟩

/-
  The tables that exist, those that the files refer to, and
  those that protect an interface.
-/
structure Policy where
  tables : ℕ → Firewall
  next : ℕ
  files : Tables (Option ℕ)
  on : ℤ → Option (Tables ℕ)

namespace Policy

/- After boot there is nothing. -/
def boot : Policy where
  tables := fun _ => .empty
  next := 0
  files := ⟨none, none⟩
  on := fun _ => none

/- The firewall of two tables. -/
def firewall
    (pol : Policy)
    (t : Tables ℕ) : Firewall where
  addrs := (pol.tables t.addrs).addrs
  rules := (pol.tables t.rules).rules

/- Carry out an edit in one of two tables. -/
def edit
    (pol : Policy)
    (t : Tables (Option ℕ))
    (e : RuleEdit) : Policy :=
  { pol with
    tables := fun o =>
      if t.target e = some o then (pol.tables o).edit e
      else pol.tables o }

def editAll
    (pol : Policy)
    (t : Tables (Option ℕ))
    (edits : List RuleEdit) : Policy :=
  edits.foldl (fun pol e => pol.edit t e) pol

/- New tables, up to number `n`, which are empty. -/
def create
    (pol : Policy)
    (n : ℕ) : Policy :=
  { pol with
    tables := fun o =>
      if pol.next ≤ o ∧ o < n then .empty else pol.tables o
    next := n }

/- Protect an interface, or no longer do so. -/
def attach
    (pol : Policy)
    (ifindex : ℤ)
    (t : Option (Tables ℕ)) : Policy :=
  { pol with on := Function.update pol.on ifindex t }

end Policy

------------------------------------------------------------
-- Steps
------------------------------------------------------------

/-
  The table that a start gets, given what its file refers to,
  and what the file refers to afterwards: an existing table
  is taken over if it can be opened, and a new one is given
  the name if there was none and it can be.  New tables are
  numbered from `n` to below `n'`.
-/
inductive TableOf
    (opens pins : Bool)
    (n n' : ℕ) : Option ℕ → ℕ → Option ℕ → Prop where
  | taken {o : ℕ}
      (hOpens : opens = true) :
      TableOf opens pins n n' (some o) o (some o)
  | shadowed {o m : ℕ}
      (hFails : opens = false)
      (hLe : n ≤ m)
      (hLt : m < n') :
      TableOf opens pins n n' (some o) m (some o)
  | named {m : ℕ}
      (hPins : pins = true)
      (hLe : n ≤ m)
      (hLt : m < n') :
      TableOf opens pins n n' none m (some m)
  | unnamed {m : ℕ}
      (hFails : pins = false)
      (hLe : n ≤ m)
      (hLt : m < n') :
      TableOf opens pins n n' none m none

/- What becomes of a file in a start that fails. -/
def FileKept
    (n n' : ℕ)
    (file file' : Option ℕ) : Prop :=
  file' = file ∨
    file = none ∧ ∃ m, n ≤ m ∧ m < n' ∧ file' = some m

section

variable {n n' o m : ℕ}
variable {file file' : Option ℕ}

/- Without failures a table is behind its file. -/
theorem TableOf.file_eq
    (hTable : TableOf true true n n' file m file') :
    file' = some m ∧ (∀ o, file = some o → o = m) ∧
      (file = none → n ≤ m ∧ m < n') := by
  cases hTable with
  | taken hOpens =>
      refine ⟨rfl, ?_, ?_⟩
      · rintro o ⟨⟩
        rfl
      · rintro ⟨⟩
  | shadowed hFails _ _ => cases hFails
  | named hPins hLe hLt =>
      refine ⟨rfl, ?_, fun _ => ⟨hLe, hLt⟩⟩
      rintro o ⟨⟩
  | unnamed hFails _ _ => cases hFails

/- A file that exists is kept by a start that fails. -/
theorem FileKept.file_eq
    (hKept : FileKept n n' file file')
    (hFile : file = some o) :
    file' = some o := by
  rcases hKept with hSame | ⟨hNone, _⟩
  · rw [hSame, hFile]
  · rw [hFile] at hNone
    cases hNone

/- A file refers to a table that exists. -/
theorem FileKept.lt
    (hKept : FileKept n n' file file')
    (hLe : n ≤ n')
    (hOld : ∀ o, file = some o → o < n)
    (hFile : file' = some o) :
    o < n' := by
  rcases hKept with hSame | ⟨_, m, _, hLt, hNew⟩
  · rw [hSame] at hFile
    exact Nat.lt_of_lt_of_le (hOld o hFile) hLe
  · rw [hNew] at hFile
    cases hFile
    exact hLt

end

/-
  Everything that an event can do, with the response it gets.
  Only verdicts on plain frames are predicted.
-/
inductive PolicyStep
    (db : NameDb)
    {nrCpus : ℕ}
    (pol : Policy) :
    DeviceEvent nrCpus → DeviceResponse → Policy → Prop where
  | filtered {ifindex cpu ctx action t}
      (hOn : pol.on ifindex = some t)
      (hVerdict :
        ∀ e : EthFrame, PlainIpv4Frame e → ctx = e.bytes →
          (action = .drop ↔
            (pol.firewall t).Blocks e.payload)) :
      PolicyStep db pol (.frame ifindex cpu ctx)
        (.verdict (.ok action)) pol
  | unfiltered {ifindex cpu ctx}
      (hOff : pol.on ifindex = none) :
      PolicyStep db pol (.frame ifindex cpu ctx) .unfiltered
        pol
  | edited {fails fuel frame args outcome}
      {edits : List RuleEdit}
      (hSome : edits.Sublist (requestedEdits args))
      (hFiles : ∀ e ∈ edits, (pol.files.target e).isSome)
      (hLast :
        fails.calls.Honest → outcome = .returned (.exited 0) →
          edits.getLast? = (requestedEdits args).getLast?) :
      PolicyStep db pol (.tool fails fuel frame args)
        (.toolEnded outcome)
        (pol.editAll pol.files
          (edits.flatMap (RuleEdit.carriedOut fails.calls)))
  | started {faults args opt n t files}
      {tests : List RuleEdit}
      (hArgs :
        Loader.optionLoop db Loader.initialOptions
          (Loader.options args) = some opt)
      (hStart : opt.rmXdpProg = false)
      (hNext : pol.next ≤ n)
      (hAddrs :
        TableOf (!faults.objGet (exportFile 0))
          (!faults.objPin (exportFile 0)) pol.next n
          pol.files.addrs t.addrs files.addrs)
      (hRules :
        TableOf (!faults.objGet (exportFile 2))
          (!faults.objPin (exportFile 2)) pol.next n
          pol.files.rules t.rules files.rules)
      (hTests : tests.Sublist testEdits)
      (hLast :
        faults.tests .portBlacklist .update 80 = none →
          tests.getLast? = testEdits.getLast?) :
      PolicyStep db pol (.loader faults args)
        (.loaderEnded (.returned EXIT_OK))
        (({ pol.create n with files := files }.attach
            opt.ifindex (some t)).editAll (t.map some)
              (tests.flatMap
                (RuleEdit.carriedOut faults.tests)))
  | failed {faults args outcome code n files}
      (hStatus : outcome.exitStatus = some code)
      (hCode : code ≠ EXIT_OK)
      (hNext : pol.next ≤ n)
      (hAddrs :
        FileKept pol.next n pol.files.addrs files.addrs)
      (hRules :
        FileKept pol.next n pol.files.rules files.rules) :
      PolicyStep db pol (.loader faults args)
        (.loaderEnded outcome)
        { pol.create n with files := files }
  | removed {faults args opt on}
      (hArgs :
        Loader.optionLoop db Loader.initialOptions
          (Loader.options args) = some opt)
      (hRemove : opt.rmXdpProg = true)
      (hOn :
        on = pol.on ∨
          on = Function.update pol.on opt.ifindex none) :
      PolicyStep db pol (.loader faults args)
        (.loaderEnded (.returned EXIT_OK))
        { pol with
          on := on
          files :=
            { addrs :=
                if faults.unlink (exportFile 0) then
                  pol.files.addrs
                else none
              rules :=
                if faults.unlink (exportFile 2) then
                  pol.files.rules
                else none } }

end XdpDdos
