import XdpDdos.Device.Blocking
import XdpDdos.Tool.ConcurrentListing
import XdpDdos.Tool.ListPorts
import XdpDdos.Tool.PortArgument

/-
  What the tool lists is what it takes: the names in a
  listing, given back to the tool one after the other, block
  on an empty device what was blocked on the listed one.

  Main declarations:
    * `RuleEdit.Builds`, `Firewall.editAll_empty`
    * `inetPton_inetNtop`
    * `addCommand`, `runTool_addCommand`
    * `runAll`, `runAll_commands`
    * `readCommands`, `readCommands_listingToks`
    * `listing_restores`
-/

------------------------------------------------------------
-- Adding All Rules
------------------------------------------------------------

namespace XdpDdos

/- An edit adds something that a firewall has. -/
def RuleEdit.Builds
    (e : RuleEdit)
    (fw : Firewall) : Prop :=
  e.action = ACTION_ADD ∧ fw.Has e

/- Adding what a firewall has stays inside its addresses. -/
theorem Firewall.addrs_edit_subset
    {fw fw' : Firewall}
    {e : RuleEdit}
    (hBuilds : e.Builds fw)
    (hSubset : fw'.addrs ⊆ fw.addrs) :
    (fw'.edit e).addrs ⊆ fw.addrs := by
  cases e with
  | addr action addr =>
      obtain ⟨rfl, hMem⟩ := hBuilds
      rw [edit, editSet, if_pos rfl]
      exact Set.insert_subset hMem hSubset
  | rule action fproto port => exact hSubset

/- Additions leave what they add and what was there. -/
theorem Firewall.editAll_of_additions
    (fw : Firewall)
    {edits : List RuleEdit}
    (hAdd : ∀ e ∈ edits, e.action = ACTION_ADD) :
    fw.editAll edits =
      { addrs :=
          fw.addrs ∪ {addr | .addr ACTION_ADD addr ∈ edits}
        rules :=
          fw.rules ∪
            {rule |
              .rule ACTION_ADD rule.1 rule.2 ∈ edits} } := by
  induction edits generalizing fw with
  | nil => simp
  | cons e edits ih =>
      have hFirst := hAdd e List.mem_cons_self
      rw [editAll_cons,
        ih _ fun e hMem => hAdd e (List.mem_cons_of_mem _ hMem)]
      cases e with
      | addr action addr =>
          obtain rfl : action = ACTION_ADD := hFirst
          simp only [edit, editSet, if_true, mk.injEq]
          constructor
          · ext addr'
            simp [or_assoc, or_left_comm]
          · simp
      | rule action fproto port =>
          obtain rfl : action = ACTION_ADD := hFirst
          simp only [edit, editSet, if_true, mk.injEq]
          constructor
          · simp
          · ext rule
            simp [Prod.ext_iff, or_assoc, or_left_comm]

/- Adding all that a firewall has makes an empty one equal. -/
theorem Firewall.editAll_empty
    {fw : Firewall}
    {edits : List RuleEdit}
    (hAll : ∀ e, e ∈ edits ↔ e.Builds fw) :
    Firewall.empty.editAll edits = fw := by
  have hEdited := editAll_of_additions Firewall.empty
    fun e hMem => ((hAll e).mp hMem).1
  rw [hEdited]
  cases fw with
  | mk addrs rules =>
      congr 1
      · ext addr
        simp [empty, hAll, RuleEdit.Builds, RuleEdit.action,
          Has]
      · ext rule
        simp [empty, hAll, RuleEdit.Builds, RuleEdit.action,
          Has]

------------------------------------------------------------
-- Names of Addresses and Ports
------------------------------------------------------------

theorem decimal_toDigits
    (n : ℕ) :
    decimal (Nat.toDigits 10 n) = n :=
  Nat.ofDigitChars_ten_toDigits

theorem all_isDigit_toDigits
    (n : ℕ) :
    (Nat.toDigits 10 n).all Char.isDigit = true := by
  apply List.all_eq_true.mpr
  intro c hMem
  exact Nat.isDigit_of_mem_toDigits (by decide) (by decide)
    hMem

theorem length_toDigits_byte
    (b : Byte) :
    (Nat.toDigits 10 b.toNat).length ≤ 3 := by
  have hLt := b.isLt
  apply (Nat.length_toDigits_le_iff (by decide)
    (by decide)).mpr
  omega

/- An octet is read as it is printed. -/
theorem octet?_toDigits
    (b : Byte) :
    octet? (Nat.toDigits 10 b.toNat) = some b := by
  have hLt := b.isLt
  have hSome : Nat.toDigits 10 b.toNat ≠ [] :=
    Nat.toDigits_ne_nil
  have hZero :
      (Nat.toDigits 10 b.toNat).head? = some '0' →
        Nat.toDigits 10 b.toNat = ['0'] := by
    intro hHead
    rcases Nat.eq_zero_or_pos b.toNat with hNone | hPos
    · rw [hNone]
      rfl
    · exact absurd hHead (Json.head?_toDigits_ne hPos)
  have hSmall : decimal (Nat.toDigits 10 b.toNat) ≤ 255 := by
    rw [decimal_toDigits]
    omega
  rw [octet?, if_pos ⟨hSome, all_isDigit_toDigits _, hZero,
    hSmall⟩, decimal_toDigits, BitVec.ofNat_toNat,
    BitVec.setWidth_eq]

/- The address that has a key. -/
def Ipv4Addr.ofKey (key : BitVec 32) : Ipv4Addr where
  a := key.extractLsb' 0 8
  b := key.extractLsb' 8 8
  c := key.extractLsb' 16 8
  d := key.extractLsb' 24 8

theorem Ipv4Addr.key_ofKey
    (key : BitVec 32) :
    (ofKey key).key = key := by
  apply BitVec.eq_of_getLsbD_eq
  intro i hLt
  simp only [ofKey, Ipv4Addr.key, BitVec.getLsbD_append,
    BitVec.getLsbD_extractLsb']
  grind

theorem Ipv4Addr.ofKey_key
    (addr : Ipv4Addr) :
    ofKey addr.key = addr :=
  key_injective (key_ofKey addr.key)

namespace Tool

variable {nrCpus : ℕ}
variable {m : Maps nrCpus}

theorem splitOn_inetNtop
    (key : BitVec 32) :
    (inetNtop key).splitOn '.' =
      [Nat.toDigits 10 (Ipv4Addr.ofKey key).a.toNat,
        Nat.toDigits 10 (Ipv4Addr.ofKey key).b.toNat,
        Nat.toDigits 10 (Ipv4Addr.ofKey key).c.toNat,
        Nat.toDigits 10 (Ipv4Addr.ofKey key).d.toNat] := by
  simp only [inetNtop, List.append_assoc, List.cons_append]
  rw [List.splitOn_append_cons_self_of_not_mem
      (dot_notMem_toDigits _),
    List.splitOn_append_cons_self_of_not_mem
      (dot_notMem_toDigits _),
    List.splitOn_append_cons_self_of_not_mem
      (dot_notMem_toDigits _),
    List.splitOn_eq_singleton (dot_notMem_toDigits _)]
  rfl

/- The C library reads the names of addresses it writes. -/
theorem ofString?_inetNtop
    (key : BitVec 32) :
    Ipv4Addr.ofString? (inetNtop key) =
      some (Ipv4Addr.ofKey key) := by
  unfold Ipv4Addr.ofString? dottedQuad?
  rw [splitOn_inetNtop]
  simp only [List.map_cons, List.map_nil, octet?_toDigits]
  rfl

theorem inetPton_inetNtop
    (key : BitVec 32) :
    inetPton (inetNtop key) = some key := by
  rw [Ipv4Addr.inetPton_eq, ofString?_inetNtop,
    Option.map_some, Ipv4Addr.key_ofKey]

theorem length_inetNtop
    (key : BitVec 32) :
    (inetNtop key).length < STR_MAX := by
  have hOctet (i : ℕ) :=
    length_toDigits_byte (key.extractLsb' (8 * i) 8)
  have h0 := hOctet 0
  have h1 := hOctet 1
  have h2 := hOctet 2
  have h3 := hOctet 3
  simp only [inetNtop, STR_MAX, List.length_append,
    List.length_cons]
  omega

------------------------------------------------------------
-- Commands That Add
------------------------------------------------------------

/- `--add --ip name`. -/
def addrCommand (name : CStr) : List CStr :=
  ["-a".toList, "-i".toList, name]

/- `--add --tcp-dport port`, or the same for UDP. -/
def ruleCommand (proto port : CStr) : List CStr :=
  ["-a".toList,
    if proto = "UDP".toList then "-u".toList else "-t".toList,
    port]

/- The command that adds what an edit is about. -/
def addCommand : RuleEdit → List CStr
  | .addr _ addr => addrCommand (inetNtop addr.key)
  | .rule _ fproto port =>
      ruleCommand (protoFilterName fproto)
        (Nat.toDigits 10 port.toNat)

theorem optionLoop_addrCommand
    {name : CStr}
    (hShort : name.length < STR_MAX) :
    optionLoop {} (options (addrCommand name)) =
      some { action := ACTION_ADD, ipString := some name } := by
  have hOptions :
      options (addrCommand name) =
        [⟨'a', none⟩, ⟨'i', some name⟩] := rfl
  rw [hOptions]
  simp only [optionLoop, scanOption,
    if_neg (Nat.not_le.mpr hShort)]
  rfl

theorem optionLoop_ruleCommand
    (fproto : DdosFilter)
    (port : CStr) :
    optionLoop {}
        (options (ruleCommand (protoFilterName fproto) port)) =
      some
        { action := ACTION_ADD
          dport := CLib.atoi port
          proto := fproto.proto
          filter := fproto } := by
  cases fproto with
  | tcp => rfl
  | udp => rfl

theorem port_setWidth_ne_zero
    {port : BitVec 16}
    (hNonzero : port ≠ 0) :
    port.setWidth 32 ≠ 0 := by
  intro hZero
  apply hNonzero
  apply BitVec.eq_of_toNat_eq
  have hNat := congrArg BitVec.toNat hZero
  rw [BitVec.toNat_setWidth, Nat.mod_eq_of_lt (by omega)]
    at hNat
  exact hNat

/- A port is read as it is printed. -/
theorem atoi_toDigits
    {port : BitVec 16}
    (hNonzero : port ≠ 0) :
    CLib.atoi (Nat.toDigits 10 port.toNat) =
      port.setWidth 32 :=
  atoi_of_spellsPort
    { nonempty :=
        List.ne_nil_of_length_pos Nat.length_toDigits_pos
      digits := all_isDigit_toDigits _
      value := decimal_toDigits _
      nonzero := hNonzero }

/- A run that was asked for one edit and exits with 0. -/
theorem represents_of_exit_zero
    {fuel : ℕ}
    {frame : StackFrame}
    {m m' : Maps nrCpus}
    {fw : Firewall}
    {args : List CStr}
    {e : RuleEdit}
    (hRep : Represents m fw)
    (hRequested : requestedEdits args = [e])
    (hRun :
      runTool fuel frame .none m args =
        (.returned (.exited 0), { maps := m' })) :
    Represents m' (fw.edit e) := by
  have hEdits := @runTool_edits _ .none _ _ fuel frame args hRep
  rw [hRun, hRequested] at hEdits
  rcases hEdits with ⟨edits, hSome, _, hRep', hLast⟩
  have hHonest : CallFaults.none.Honest := by
    rintro _ _ _ ⟨⟩
  have hAll : edits = [e] := by
    rcases List.sublist_singleton.mp hSome with rfl | rfl
    · cases hLast hHonest rfl
    · rfl
  rw [hAll, flatMap_carriedOut (fun _ => rfl)] at hRep'
  exact hRep'

/- An addition that the tool can make. -/
def Fits (m : Maps nrCpus) : RuleEdit → Prop
  | .addr action addr =>
      action = ACTION_ADD ∧
        (m.blacklist.Contains addr.key ∨ HasRoom m)
  | .rule action _ port => action = ACTION_ADD ∧ port ≠ 0

theorem requestedEdits_addCommand
    {e : RuleEdit}
    (hFits : Fits m e) :
    requestedEdits (addCommand e) = [e] := by
  cases e with
  | addr action addr =>
      obtain ⟨rfl, _⟩ := hFits
      have hLoop :=
        optionLoop_addrCommand (length_inetNtop addr.key)
      rw [requestedEdits, addCommand,
        ← (request_of_optionLoop hLoop).1]
      simp only [editsOf, OptionState.request, addrEditsOf,
        portEditsOf, addrEdit, ofString?_inetNtop,
        Ipv4Addr.ofKey_key]
      rfl
  | rule action fproto port =>
      obtain ⟨rfl, hNonzero⟩ := hFits
      have hLoop :=
        optionLoop_ruleCommand fproto
          (Nat.toDigits 10 port.toNat)
      rw [requestedEdits, addCommand,
        ← (request_of_optionLoop hLoop).1]
      simp only [editsOf, OptionState.request, addrEditsOf,
        portEditsOf, atoi_toDigits hNonzero,
        port_setWidth_ne_zero hNonzero, if_false,
        List.nil_append]
      exact portEdit_of_port (Or.inl rfl) fproto port

/- The command of an addition makes it, and exits with 0. -/
theorem runTool_addCommand
    (fuel : ℕ)
    (frame : StackFrame)
    {m : Maps nrCpus}
    {fw : Firewall}
    {e : RuleEdit}
    (hRep : Represents m fw)
    (hFits : Fits m e) :
    ∃ m',
      runTool fuel frame .none m (addCommand e) =
          (.returned (.exited 0), { maps := m' }) ∧
        Represents m' (fw.edit e) := by
  have hAdd : ACTION_ADD ≠ 0 := by decide
  suffices hRun :
      ∃ m',
        runTool fuel frame .none m (addCommand e) =
          (.returned (.exited 0), { maps := m' }) by
    rcases hRun with ⟨m', hRun⟩
    exact ⟨m', hRun, represents_of_exit_zero hRep
      (requestedEdits_addCommand hFits) hRun⟩
  cases e with
  | addr action addr =>
      obtain ⟨rfl, hRoom⟩ := hFits
      have hReported :
          IpReported .none m ACTION_ADD (inetNtop addr.key) :=
        ⟨addr.key, inetPton_inetNtop addr.key,
          Or.inl ⟨rfl, hRoom⟩⟩
      have hLoop :=
        optionLoop_addrCommand (length_inetNtop addr.key)
      exact (runTool_of_reported hLoop hAdd
        (@Reported.ip _ .none m _ _ rfl rfl rfl rfl
          hReported)).imp fun _ hRun => hRun.1
  | rule action fproto port =>
      obtain ⟨rfl, hNonzero⟩ := hFits
      have hPort := atoi_toDigits hNonzero
      have hReported :
          PortReported .none ACTION_ADD fproto
            (CLib.atoi (Nat.toDigits 10 port.toNat)) := by
        rw [hPort]
        refine ⟨Or.inl rfl, ?_, port_toNat_lt port,
          fun _ => rfl⟩
        rw [toInt_port]
        omega
      have hSome :
          CLib.atoi (Nat.toDigits 10 port.toNat) ≠ 0 := by
        rw [hPort]
        exact port_setWidth_ne_zero hNonzero
      have hLoop :=
        optionLoop_ruleCommand fproto
          (Nat.toDigits 10 port.toNat)
      exact (runTool_of_reported hLoop hAdd
        (@Reported.port _ .none m _ rfl (fun _ => rfl) hSome
          rfl rfl hReported)).imp fun _ hRun => hRun.1

------------------------------------------------------------
-- Running Commands
------------------------------------------------------------

/- Run commands until one does not exit with 0. -/
def runAll
    (fuel : ℕ)
    (frame : StackFrame)
    (m : Maps nrCpus) :
    List (List CStr) → Option (Maps nrCpus)
  | [] => some m
  | args :: rest =>
      match runTool fuel frame .none m args with
      | (.returned (.exited 0), s) =>
          runAll fuel frame s.maps rest
      | _ => none

theorem contains_iff_mem_keys
    {key : BitVec 32} :
    m.blacklist.Contains key ↔
      key ∈ m.blacklist.entries.keys :=
  (PercpuHash.contains_iff_mem _ key).trans AList.mem_keys

/-
  Maps that hold some of the addresses of others, but not
  all, have room for one more.
-/
theorem hasRoom_of_subset
    {nrCpus' : ℕ}
    {m₁ : Maps nrCpus'}
    {fw fw₁ : Firewall}
    {addr : Ipv4Addr}
    (hRep : Represents m fw)
    (hRep₁ : Represents m₁ fw₁)
    (hSubset : fw₁.addrs ⊆ fw.addrs)
    (hMem : addr ∈ fw.addrs) :
    m₁.blacklist.Contains addr.key ∨ HasRoom m₁ := by
  by_cases hIn : m₁.blacklist.Contains addr.key
  · exact Or.inl hIn
  · right
    have hKeys :
        addr.key :: m₁.blacklist.entries.keys ⊆
          m.blacklist.entries.keys := by
      intro key hKey
      rw [← contains_iff_mem_keys, ← Ipv4Addr.key_ofKey key,
        hRep.addrs]
      rcases List.mem_cons.mp hKey with rfl | hOld
      · rw [Ipv4Addr.ofKey_key]
        exact hMem
      · apply hSubset
        rw [← hRep₁.addrs, Ipv4Addr.key_ofKey,
          contains_iff_mem_keys]
        exact hOld
    have hNodup :
        (addr.key :: m₁.blacklist.entries.keys).Nodup :=
      List.nodup_cons.mpr
        ⟨fun hOld => hIn (contains_iff_mem_keys.mpr hOld),
          m₁.blacklist.entries.keys_nodup⟩
    have hLength := (hNodup.subperm hKeys).length_le
    have hSize := m.blacklist.size_le
    rw [List.length_cons] at hLength
    unfold HasRoom
    omega

/-
  By induction on the commands: as long as what is added is
  had by a firewall that fits into maps, every command exits
  with 0.
-/
theorem runAll_commands
    {nrCpus' : ℕ}
    (fuel : ℕ)
    (frame : StackFrame)
    {fw : Firewall}
    (hRep : Represents m fw)
    (hPorts : ∀ fproto, (fproto, 0) ∉ fw.rules)
    {edits : List RuleEdit}
    (hBuilds : ∀ e ∈ edits, e.Builds fw)
    {m₁ : Maps nrCpus'}
    {fw₁ : Firewall}
    (hRep₁ : Represents m₁ fw₁)
    (hSubset : fw₁.addrs ⊆ fw.addrs) :
    ∃ m',
      runAll fuel frame m₁ (edits.map addCommand) = some m' ∧
        Represents m' (fw₁.editAll edits) := by
  induction edits generalizing m₁ fw₁ with
  | nil => exact ⟨m₁, rfl, hRep₁⟩
  | cons e edits ih =>
      have hFirst := hBuilds e List.mem_cons_self
      have hFits : Fits m₁ e := by
        cases e with
        | addr action addr =>
            exact ⟨hFirst.1, hasRoom_of_subset hRep hRep₁
              hSubset hFirst.2⟩
        | rule action fproto port =>
            refine ⟨hFirst.1, ?_⟩
            rintro rfl
            exact hPorts fproto hFirst.2
      rcases runTool_addCommand fuel frame hRep₁ hFits with
        ⟨m₂, hRun, hRep₂⟩
      rcases ih (fun e hMem => hBuilds e
          (List.mem_cons_of_mem _ hMem)) hRep₂
          (Firewall.addrs_edit_subset hFirst hSubset) with
        ⟨m', hRest, hRep'⟩
      refine ⟨m', ?_, hRep'⟩
      rw [List.map_cons, runAll, hRun]
      exact hRest

------------------------------------------------------------
-- Reading a Listing
------------------------------------------------------------

open Json

/-
  Where the reader of a listing is: in which port, if any,
  and behind which name.
-/
structure Reader where
  port : Option CStr := none
  name : Option CStr := none

/- The command for a number behind a name. -/
def Reader.command (r : Reader) : List (List CStr) :=
  match r.port, r.name with
  | none, some addr => [addrCommand addr]
  | some port, some proto => [ruleCommand proto port]
  | _, none => []

/-
  Read one token.  Commas and colons do not matter; a brace
  behind a name opens that port.
-/
def Reader.step (r : Reader) :
    Token → List (List CStr) × Reader
  | .string name => ([], { r with name := some name })
  | .lbrace => ([], { port := r.name })
  | .rbrace => ([], {})
  | .number _ => (r.command, { r with name := none })
  | _ => ([], r)

/- The commands that add what the tokens name. -/
def readCommands (r : Reader) :
    List Token → List (List CStr)
  | [] => []
  | tok :: toks =>
      (r.step tok).1 ++ readCommands (r.step tok).2 toks

/- Tokens that are read from one state back to it. -/
def ReadAs
    (r : Reader)
    (toks : List Token)
    (commands : List (List CStr)) : Prop :=
  ∀ rest, readCommands r (toks ++ rest) =
    commands ++ readCommands r rest

namespace ReadAs

variable {r : Reader}
variable {toks toks' : List Token}
variable {commands commands' : List (List CStr)}

theorem append
    (hLeft : ReadAs r toks commands)
    (hRight : ReadAs r toks' commands') :
    ReadAs r (toks ++ toks') (commands ++ commands') := by
  intro rest
  rw [List.append_assoc, hLeft, hRight, List.append_assoc]

theorem flatMap
    {α : Type}
    {xs : List α}
    {toks : α → List Token}
    {commands : α → List (List CStr)}
    (hEach : ∀ x ∈ xs, ReadAs r (toks x) (commands x)) :
    ReadAs r (xs.flatMap toks) (xs.flatMap commands) := by
  induction xs with
  | nil => exact fun rest => rfl
  | cons x xs ih =>
      exact (hEach x List.mem_cons_self).append
        (ih fun x hMem => hEach x (List.mem_cons_of_mem _ hMem))

/- Commas in between are skipped. -/
theorem separated_comma
    {α : Type}
    {xs : List α}
    {toks : α → List Token}
    {commands : α → List (List CStr)}
    (hEach : ∀ x ∈ xs, ReadAs r (toks x) (commands x)) :
    ReadAs r (separated .comma (xs.map toks))
      (xs.flatMap commands) := by
  have hComma (x : α) (hMem : x ∈ xs) :
      ReadAs r (.comma :: toks x) (commands x) :=
    hEach x hMem
  cases xs with
  | nil => exact fun rest => rfl
  | cons x xs =>
      rw [List.map_cons, separated, List.flatMap_map]
      exact (hEach x List.mem_cons_self).append
        (flatMap fun x hMem =>
          hComma x (List.mem_cons_of_mem _ hMem))

end ReadAs

/- The edits that add the blacklists. -/
def listedEdits (m : Maps nrCpus) : List RuleEdit :=
  m.blacklist.entries.keys.map
      (fun key => .addr ACTION_ADD (Ipv4Addr.ofKey key)) ++
    (blockedPorts m).flatMap fun port =>
      (blockedProtos m port).map fun fproto =>
        .rule ACTION_ADD fproto port

theorem readAs_keyCommaToks
    (r : Reader)
    (key : BitVec 32) :
    ReadAs r (keyCommaToks key) [] := by
  intro rest
  unfold keyCommaToks
  split
  · rfl
  · rfl

theorem readAs_addrMember
    (m : Maps nrCpus)
    (key : BitVec 32) :
    ReadAs {}
      (keyCommaToks key ++ memberToks (addrMember m key))
      [addCommand (.addr ACTION_ADD (Ipv4Addr.ofKey key))] := by
  have hMember :
      ReadAs {} (memberToks (addrMember m key))
        [addCommand
          (.addr ACTION_ADD (Ipv4Addr.ofKey key))] := by
    intro rest
    rw [addCommand, Ipv4Addr.key_ofKey]
    rfl
  exact (readAs_keyCommaToks {} key).append hMember

theorem readAs_protoMember
    (m : Maps nrCpus)
    (port : BitVec 16)
    (fproto : DdosFilter) :
    ReadAs { port := some (Nat.toDigits 10 port.toNat) }
      (memberToks (protoMember m port fproto))
      [addCommand (.rule ACTION_ADD fproto port)] :=
  fun _ => rfl

/- A port is opened, its protocols are read, and it is closed. -/
theorem readAs_portMember
    (m : Maps nrCpus)
    (port : BitVec 16) :
    ReadAs {} (memberToks (portMember m port))
      ((blockedProtos m port).flatMap fun fproto =>
        [addCommand (.rule ACTION_ADD fproto port)]) := by
  intro rest
  have hProtos :=
    ReadAs.separated_comma
      fun fproto (_ : fproto ∈ blockedProtos m port) =>
        readAs_protoMember m port fproto
  have hTokens :
      (portMember m port).2.tokens =
        .lbrace ::
          (separated .comma ((blockedProtos m port).map
            fun i => memberToks (protoMember m port i)) ++
            [.rbrace]) := by
    simp [portMember, tokens, memberTokens_eq_map, memberToks,
      Function.comp_def]
  rw [memberToks, hTokens]
  have hRest := hProtos (.rbrace :: rest)
  simpa [readCommands, Reader.step, portMember] using hRest

theorem readCommands_listingToks
    (m : Maps nrCpus)
    (frame : StackFrame) :
    readCommands {} (listingToks m frame) =
      (listedEdits m).map addCommand := by
  have hAddrs :=
    (ReadAs.flatMap
      fun key (_ : key ∈ m.blacklist.entries.keys) =>
        readAs_addrMember m key).append
      (readAs_keyCommaToks {}
        (m.blacklist.entries.keys.getLast?.getD frame.key))
  have hPorts :=
    ReadAs.separated_comma
      fun port (_ : port ∈ blockedPorts m) =>
        readAs_portMember m port
  have hBoth := (hAddrs.append hPorts) [.rbrace]
  have hRest : readCommands {} [.rbrace] = [] := rfl
  rw [hRest, List.append_nil, List.append_nil] at hBoth
  have hOpen (toks : List Token) :
      readCommands {} (.lbrace :: toks) =
        readCommands {} toks := rfl
  rw [listingToks, hOpen]
  unfold addrListingToks portListingToks
  rw [hBoth]
  simp only [listedEdits, List.map_append, List.map_flatMap,
    List.map_map, ← List.map_eq_flatMap, Function.comp_def]

------------------------------------------------------------
-- Listing and Adding
------------------------------------------------------------

theorem ofKey_mem_iff
    {m : Maps nrCpus}
    {fw : Firewall}
    (hRep : Represents m fw)
    (addr : Ipv4Addr) :
    (∃ key ∈ m.blacklist.entries.keys,
        Ipv4Addr.ofKey key = addr) ↔
      addr ∈ fw.addrs := by
  rw [← hRep.addrs, contains_iff_mem_keys]
  constructor
  · rintro ⟨key, hMem, rfl⟩
    rw [Ipv4Addr.key_ofKey]
    exact hMem
  · intro hMem
    exact ⟨addr.key, hMem, Ipv4Addr.ofKey_key addr⟩

theorem mem_blockedProtos_iff
    {m : Maps nrCpus}
    {fw : Firewall}
    (hCpus : 0 < nrCpus)
    (hRep : Represents m fw)
    (fproto : DdosFilter)
    (port : BitVec 16) :
    port ∈ blockedPorts m ∧ fproto ∈ blockedProtos m port ↔
      (fproto, port) ∈ fw.rules := by
  constructor
  · rintro ⟨_, hMem⟩
    have hBits : ∀ cpu, m.PortBit cpu fproto port :=
      of_decide_eq_true (List.mem_filter.mp hMem).2
    exact (hRep.rules ⟨0, hCpus⟩ fproto port).mp (hBits _)
  · intro hRule
    have hBits (cpu : Fin nrCpus) : m.PortBit cpu fproto port :=
      (hRep.rules cpu fproto port).mpr hRule
    constructor
    · refine List.mem_filter.mpr
        ⟨mem_allPorts port, decide_eq_true ⟨⟨0, hCpus⟩, ?_⟩⟩
      intro hZero
      have hBit := hBits ⟨0, hCpus⟩
      rw [Maps.PortBit, hZero] at hBit
      simp at hBit
    · refine List.mem_filter.mpr ⟨?_, decide_eq_true hBits⟩
      cases fproto <;> decide

/- What is listed is what the maps represent. -/
theorem mem_listedEdits_iff
    {m : Maps nrCpus}
    {fw : Firewall}
    (hCpus : 0 < nrCpus)
    (hRep : Represents m fw)
    (e : RuleEdit) :
    e ∈ listedEdits m ↔ e.Builds fw := by
  rw [listedEdits, List.mem_append, List.mem_map,
    List.mem_flatMap]
  cases e with
  | addr action addr =>
      rw [RuleEdit.Builds, Firewall.Has,
        ← ofKey_mem_iff hRep]
      simp only [List.mem_map, RuleEdit.action,
        RuleEdit.addr.injEq,
        reduceCtorEq, and_false, exists_false, or_false]
      tauto
  | rule action fproto port =>
      rw [RuleEdit.Builds, Firewall.Has,
        ← mem_blockedProtos_iff hCpus hRep]
      simp only [List.mem_map, RuleEdit.action,
        RuleEdit.rule.injEq,
        reduceCtorEq, and_false, exists_false, false_or]
      grind

/-
  Whatever the stack holds, the tokens of a listing name all
  that is blocked: read as commands, they block it on maps
  of any number of CPUs that block nothing.
-/
theorem listing_restores
    {nrCpus' : ℕ}
    (fuel fuel' : ℕ)
    (frame frame' : StackFrame)
    {args : List CStr}
    {st : OptionState}
    {m : Maps nrCpus}
    {fw : Firewall}
    (hRep : Represents m fw)
    (hContents : ToolContents m)
    (hPorts : ∀ fproto, (fproto, 0) ∉ fw.rules)
    (hCpus : 0 < nrCpus)
    (hList : AsksForList args st)
    (hFuel : NR_ADDRS < fuel)
    (hRoom : nrCpus ≤ 1 + frame.spare)
    {m₀ : Maps nrCpus'}
    (hEmpty : Represents m₀ .empty) :
    ∃ toks m',
      lex (runTool fuel frame .none m args).2.stdout =
          some toks ∧
        runAll fuel' frame' m₀ (readCommands {} toks) =
          some m' ∧
        Represents m' fw := by
  rcases runAll_commands fuel' frame' hRep hPorts
      (fun e => (mem_listedEdits_iff hCpus hRep e).mp) hEmpty
      (Set.empty_subset fw.addrs) with
    ⟨m', hRun, hRep'⟩
  rw [Firewall.editAll_empty (mem_listedEdits_iff hCpus hRep)]
    at hRep'
  refine ⟨listingToks m frame, m', ?_, ?_, hRep'⟩
  · rw [runTool_listing hList hCpus hFuel hRoom]
    exact lex_listing hContents hCpus frame
  · rw [readCommands_listingToks]
    exact hRun

/- Observing an edit of an address changes no rule. -/
theorem rules_observe_addr
    (fw : Firewall)
    (ipString : CStr)
    (action : BitVec 32)
    (r : FilterResponse) :
    (fw.observe
        (.modifyAddr ipString action : FilterEvent nrCpus)
        r).rules = fw.rules := by
  cases r with
  | verdict _ => rfl
  | status outcome =>
      cases outcome with
      | halted _ => rfl
      | returned status =>
          by_cases hOk : status = EXIT_OK
          · rw [hOk, Firewall.observe_ok_addr,
              Firewall.editAddr]
            split <;> rfl
          · rw [Firewall.observe_of_ne _ _ hOk]

/- No rule for port 0 comes from the two calls. -/
theorem twoRules_ne_zero
    (fproto : DdosFilter) :
    (fproto, 0) ∉
      (filterSystem.ghost (fun _ => Firewall.observe)
        Maps.fresh Firewall.empty twoRules).rules := by
  have hPort (m : Maps 2) :
      filterSystem.step m (.modifyPort 80 ACTION_ADD 6) =
        (.status (.returned EXIT_OK),
          m.editRule ACTION_ADD .tcp 80) :=
    filterSystem_addPort m 80 rfl
  have hProto : protoFilter 6 = some .tcp := rfl
  rw [twoRules, Reactive.ghost, Reactive.ghost, hPort,
    Firewall.observe_ok_port, Firewall.editRule, hProto]
  simp [Reactive.ghost, rules_observe_addr, Firewall.empty,
    editSet]

/- They are moved from two CPUs to four. -/
theorem listing_restores_twoRules :
    ∃ toks m',
      lex (runTool (NR_ADDRS + 1) ⟨0, 0, 1⟩ .none
          (filterSystem.final Maps.fresh twoRules)
          listOnly).2.stdout = some toks ∧
        runAll 0 emptyFrame (Maps.fresh : Maps 4)
            (readCommands {} toks) = some m' ∧
        Represents m'
          (filterSystem.ghost (fun _ => Firewall.observe)
            Maps.fresh Firewall.empty twoRules) :=
  listing_restores (NR_ADDRS + 1) 0 ⟨0, 0, 1⟩ emptyFrame
    (represents_final twoRules) (toolContents_of_run twoRules)
    twoRules_ne_zero Nat.two_pos asksForList_listOnly
    (Nat.lt_succ_self NR_ADDRS) (by decide) represents_fresh

end Tool

end XdpDdos
