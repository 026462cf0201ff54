import XdpDdos.Tool.Listing
import XdpDdos.Firewall.System

/-
  When the listing is a JSON text of the blacklists.

  A comma before an address goes by the value of its key,
  and the one before the ports by that of the last key, so
  what is printed depends on where the key zero is listed.

  Main declarations:
    * `ToolContents`, `toolContents_of_run`
    * `listedMembers`, `ListedWell`
    * `spells_listing`
    * `CommasFit`, `listedWell_iff`
-/

------------------------------------------------------------
-- Contents
------------------------------------------------------------

namespace XdpDdos

namespace Tool

open Json

variable {nrCpus : ℕ}

/-
  The masks that the tool makes: of the two rule bits only,
  and the same one on all CPUs.
-/
structure ToolContents (m : Maps nrCpus) : Prop where
  sameMask :
    ∀ port cpu cpu',
      m.portBlacklist.slots (Maps.portIndex port) cpu =
        m.portBlacklist.slots (Maps.portIndex port) cpu'
  knownBits :
    ∀ port cpu i,
      (m.portBlacklist.slots
          (Maps.portIndex port) cpu).getLsbD i = true →
        i = DdosFilter.tcp.index ∨ i = DdosFilter.udp.index

/- Every state that the deployed filter reaches has such. -/
theorem toolContents_of_run
    (es : List (FilterEvent nrCpus)) :
    ToolContents (filterSystem.final Maps.fresh es) := by
  have hInv : RuleInvariant (filterSystem.final Maps.fresh es) :=
    (ruleInvariant_of_fresh .fresh .fresh).final es
  exact ⟨hInv.sameMask, hInv.knownBits⟩

/- The ports with a mask that is not zero. -/
def blockedPorts (m : Maps nrCpus) : List (BitVec 16) :=
  allPorts.filter fun port =>
    ∃ cpu,
      m.portBlacklist.slots (Maps.portIndex port) cpu ≠ 0

/- The protocols that are blocked for a port. -/
def blockedProtos
    (m : Maps nrCpus)
    (port : BitVec 16) : List DdosFilter :=
  [.tcp, .udp].filter fun i => ∀ cpu, m.PortBit cpu i port

/- An address with its count. -/
def addrMember
    (m : Maps nrCpus)
    (key : BitVec 32) : CStr × Json :=
  (inetNtop key, .number (showU64 (m.keySum .blacklist key)))

/- A protocol of a port with its count. -/
def protoMember
    (m : Maps nrCpus)
    (port : BitVec 16)
    (i : DdosFilter) : CStr × Json :=
  (protoFilterName i,
    .number (showU64
      (m.keySum (.portBlacklistDropCount i)
        (port.setWidth 32))))

/- A port with its blocked protocols. -/
def portMember
    (m : Maps nrCpus)
    (port : BitVec 16) : CStr × Json :=
  (Nat.toDigits 10 port.toNat,
    .object ((blockedProtos m port).map (protoMember m port)))

/- One member for each address and each blocked port. -/
def listedMembers (m : Maps nrCpus) : List (CStr × Json) :=
  m.blacklist.entries.keys.map (addrMember m) ++
    (blockedPorts m).map (portMember m)

/-
  The tool comes to the end of the listing, and what it
  printed is an object with exactly these members.
-/
structure ListedWell
    (m : Maps nrCpus)
    (result : Outcome Ending × ToolState nrCpus) : Prop where
  ends :
    ∃ ending, ending ≠ .unfinished ∧
      result.1 = .returned ending
  denotes :
    ∃ members : List (CStr × Json),
      members.Perm (listedMembers m) ∧
        Denotes result.2.stdout (.object members)

/- Under such contents the first CPU's mask is every CPU's. -/
theorem maskedPorts_eq_blockedPorts
    {m : Maps nrCpus}
    (hContents : ToolContents m)
    (hCpus : 0 < nrCpus) :
    maskedPorts m hCpus allPorts = blockedPorts m := by
  unfold maskedPorts blockedPorts
  apply List.filter_congr
  intro port _
  apply decide_eq_decide.mpr
  unfold firstMask
  constructor
  · intro hMask
    exact ⟨_, hMask⟩
  · rintro ⟨cpu, hMask⟩
    rw [hContents.sameMask port _ cpu]
    exact hMask

/- All CPUs have the same mask for a port. -/
def MasksAgree (m : Maps nrCpus) : Prop :=
  ∀ port cpu cpu',
    m.portBlacklist.slots (Maps.portIndex port) cpu =
      m.portBlacklist.slots (Maps.portIndex port) cpu'

/- The bits of a mask are the blocked protocols. -/
theorem setProtos_eq_blockedProtos
    {m : Maps nrCpus}
    (hAgree : MasksAgree m)
    (hCpus : 0 < nrCpus)
    (port : BitVec 16) :
    setProtos ((firstMask m hCpus port).setWidth 32) =
      blockedProtos m port := by
  have hAll (i : DdosFilter) :
      (firstMask m hCpus port).getLsbD i.index = true ↔
        ∀ cpu, m.PortBit cpu i port := by
    unfold firstMask
    constructor
    · intro hBit cpu
      unfold Maps.PortBit
      rw [hAgree port cpu ⟨0, hCpus⟩]
      exact hBit
    · intro hBits
      exact hBits ⟨0, hCpus⟩
  have hMask (i : DdosFilter) :
      (firstMask m hCpus port).setWidth 32 &&&
          (1#32 <<< i.index) ≠ 0 ↔
        (firstMask m hCpus port).getLsbD i.index = true := by
    have hIndex : i.index < 32 := by
      cases i <;> decide
    have hPow : BitVec.twoPow 32 i.index ≠ 0 := by
      cases i <;> decide
    rw [← BitVec.twoPow_eq, BitVec.and_twoPow,
      BitVec.getLsbD_setWidth]
    simp only [hIndex, decide_true, Bool.true_and]
    cases (firstMask m hCpus port).getLsbD i.index with
    | false => simp
    | true => exact iff_of_true hPow rfl
  unfold setProtos blockedProtos
  apply List.filter_congr
  intro i _
  apply decide_eq_decide.mpr
  rw [hMask, hAll]

/- A mask that is not zero blocks some protocol. -/
theorem blockedProtos_ne_nil
    {m : Maps nrCpus}
    (hContents : ToolContents m)
    {port : BitVec 16}
    (hBlocked : port ∈ blockedPorts m) :
    blockedProtos m port ≠ [] := by
  obtain ⟨cpu, hMask⟩ :=
    of_decide_eq_true (List.mem_filter.mp hBlocked).2
  obtain ⟨i, hBit⟩ :
      ∃ i, (m.portBlacklist.slots (Maps.portIndex port)
        cpu).getLsbD i = true := by
    by_contra hNone
    apply hMask
    apply BitVec.eq_of_getLsbD_eq
    intro i _
    simpa using not_exists.mp hNone i
  have hAll (i : DdosFilter) (hBit : m.PortBit cpu i port) :
      i ∈ blockedProtos m port := by
    refine List.mem_filter.mpr ⟨?_, ?_⟩
    · cases i <;> decide
    · apply decide_eq_true
      intro cpu'
      unfold Maps.PortBit
      rw [hContents.sameMask port cpu' cpu]
      exact hBit
  rcases hContents.knownBits port cpu i hBit with rfl | rfl
  · exact List.ne_nil_of_mem (hAll .tcp hBit)
  · exact List.ne_nil_of_mem (hAll .udp hBit)

------------------------------------------------------------
-- Spelling the Listing
------------------------------------------------------------

/- The tokens of a member. -/
def memberToks (member : CStr × Json) : List Token :=
  .string member.1 :: .colon :: member.2.tokens

/- The name that a token is, if it is one. -/
def tokenName : Token → Option CStr
  | .string body => some body
  | _ => none

/- A name without quotes, backslashes and control characters. -/
def PlainName (name : CStr) : Prop :=
  ∀ c ∈ name, c ≠ '"' ∧ c ≠ '\\' ∧ ¬ c.toNat < 32

theorem toDigits_inj
    {n n' : ℕ}
    (hSame : Nat.toDigits 10 n = Nat.toDigits 10 n') :
    n = n' := by
  have hValue :=
    congrArg (fun digits => Nat.ofDigitChars 10 digits 0) hSame
  simpa only [Nat.ofDigitChars_ten_toDigits] using hValue

theorem plainName_toDigits
    (n : ℕ) :
    PlainName (Nat.toDigits 10 n) := by
  intro c hMem
  have hDigit : c.isDigit = true :=
    Nat.isDigit_of_mem_toDigits (by decide) (by decide) hMem
  refine ⟨?_, ?_, ?_⟩
  · rintro rfl
    exact absurd hDigit (by decide)
  · rintro rfl
    exact absurd hDigit (by decide)
  · simp only [Char.isDigit, Bool.and_eq_true,
      decide_eq_true_eq] at hDigit
    have hLow : 48 ≤ c.toNat := hDigit.1
    omega

theorem PlainName.append
    {name name' : CStr}
    (hLeft : PlainName name)
    (hRight : PlainName name') :
    PlainName (name ++ name') := by
  intro c hMem
  rcases List.mem_append.mp hMem with hIn | hIn
  · exact hLeft c hIn
  · exact hRight c hIn

theorem plainName_inetNtop
    (ip : BitVec 32) :
    PlainName (inetNtop ip) := by
  have hDot {name : CStr} (hName : PlainName name) :
      PlainName ('.' :: name) := by
    intro c hMem
    rcases List.mem_cons.mp hMem with rfl | hIn
    · decide
    · exact hName c hIn
  unfold inetNtop
  exact (((plainName_toDigits _).append
    (hDot (plainName_toDigits _))).append
      (hDot (plainName_toDigits _))).append
        (hDot (plainName_toDigits _))

/- A member behind white space, as the tool prints it. -/
theorem spells_member
    (member : CStr × Json)
    (spaces : CStr)
    (hSpaces : spaces.all isSpace = true)
    (hName : PlainName member.1)
    {text : CStr}
    (hValue : Spells text member.2.tokens) :
    Spells
      (spaces ++ '"' :: (member.1 ++ "\" : ".toList ++ text))
      (memberToks member) := by
  have hMember := Spells.member hName hValue
  have hText :
      '"' :: (member.1 ++ "\" : ".toList ++ text) =
        '"' :: (member.1 ++ ['"']) ++ (" : ".toList ++ text) := by
    simp
  rw [hText]
  exact Spells.spaces hSpaces hMember

theorem spells_countedAddr
    (key : BitVec 32)
    (count : BitVec 64) :
    Spells
      ("\n \"".toList ++ inetNtop key ++ "\" : ".toList ++
        showU64 count)
      (memberToks (inetNtop key, .number (showU64 count))) := by
  have hMember :
      Spells
        ("\n ".toList ++ '"' :: (inetNtop key ++
          "\" : ".toList ++ showU64 count))
        (memberToks
          (inetNtop key, .number (showU64 count))) :=
    spells_member (inetNtop key, _) "\n ".toList (by decide)
      (plainName_inetNtop key) (Spells.toDigits count.toNat)
  simpa using hMember

theorem spells_addrText
    (m : Maps nrCpus)
    (key : BitVec 32) :
    Spells (addrText m key) (memberToks (addrMember m key)) :=
  spells_countedAddr key (m.keySum .blacklist key)

theorem spells_countedProto
    (counts : DdosFilter → BitVec 64)
    (i : DdosFilter) :
    Spells (countedProto counts i)
      (memberToks
        (protoFilterName i, .number (showU64 (counts i)))) := by
  have hName : PlainName (protoFilterName i) := by
    cases i <;> simp [PlainName, protoFilterName]
  have hMember :
      Spells
        ("\n\t".toList ++ '"' :: (protoFilterName i ++
          "\" : ".toList ++ showU64 (counts i)))
        (memberToks
          (protoFilterName i,
            .number (showU64 (counts i)))) :=
    spells_member (protoFilterName i, _) "\n\t".toList
      (by decide) hName (Spells.toDigits (counts i).toNat)
  unfold countedProto
  simpa using hMember

theorem showInt_port
    (port : BitVec 16) :
    showInt (port.setWidth 32) =
      Nat.toDigits 10 port.toNat := by
  have hNotNeg : ¬ (port.setWidth 32).toInt < 0 := by
    rw [toInt_port]
    omega
  rw [showInt, if_neg hNotNeg, toInt_port]
  rfl

/- The tokens of a port; without protocols it has no value. -/
def countedPortToks
    (counts : DdosFilter → BitVec 64)
    (port : BitVec 16)
    (protos : List DdosFilter) : List Token :=
  .string (Nat.toDigits 10 port.toNat) :: .colon ::
    if protos = [] then []
    else
      .lbrace ::
        (separated .comma (protos.map fun i =>
          memberToks
            (protoFilterName i,
              .number (showU64 (counts i)))) ++ [.rbrace])

theorem spells_countedPort
    (counts : DdosFilter → BitVec 64)
    (port : BitVec 16)
    (val : BitVec 32) :
    Spells (countedPort counts (port.setWidth 32) val)
      (countedPortToks counts port (setProtos val)) := by
  have hSpace : lexBetween ' ' = some ([], .between) := rfl
  have hColon :
      lexBetween ':' = some ([.colon], .between) := rfl
  have hOpen :
      lexBetween '{' = some ([.lbrace], .between) := rfl
  have hBrace :
      lexBetween '}' = some ([.rbrace], .between) := rfl
  have hClose : Spells "\n \x7d".toList [.rbrace] :=
    Spells.spaces (by decide : "\n ".toList.all isSpace)
      (Spells.cons hBrace Spells.nil)
  -- behind the name and the colon there may be an object
  have hPort
      {text : CStr}
      {toks : List Token}
      (hValue : Spells text toks) :
      Spells
        ("\n ".toList ++
          ('"' :: (Nat.toDigits 10 port.toNat ++ ['"']) ++
            (" : ".toList ++ text)))
        ([.string (Nat.toDigits 10 port.toNat)] ++
          .colon :: toks) :=
    Spells.spaces (by decide)
      ((Spells.string (plainName_toDigits _)).append
        (Spells.cons hSpace (Spells.cons hColon
          (Spells.cons hSpace hValue)))
        (fresh_cons (by decide) _))
  rw [countedPort, countedPortToks, showInt_port]
  by_cases hNone : setProtos val = []
  · rw [if_pos hNone, if_pos hNone, hNone]
    simpa [braced, joined, separated] using hPort Spells.nil
  · have hTexts :
        (setProtos val).map (countedProto counts) ≠ [] := by
      simpa using hNone
    have hProtos :
        Spells
          (separated ','
            ((setProtos val).map (countedProto counts)))
          (separated .comma ((setProtos val).map fun i =>
            memberToks
              (protoFilterName i,
                .number (showU64 (counts i))))) :=
      spells_separated fun i _ => spells_countedProto counts i
    have hObject :=
      Spells.cons hOpen (hProtos.append hClose
        (fresh_cons (by decide) _))
    rw [if_neg hNone, if_neg hNone, braced,
      if_neg (by simpa using hTexts)]
    simpa [joined] using hPort hObject

/- A port with a mask is printed as its object. -/
theorem spells_portEntry
    {m : Maps nrCpus}
    (hContents : ToolContents m)
    (hCpus : 0 < nrCpus)
    {port : BitVec 16}
    (hBlocked : port ∈ blockedPorts m) :
    Spells (portEntry m hCpus port)
      (memberToks (portMember m port)) := by
  have hSome := blockedProtos_ne_nil hContents hBlocked
  have hSpells :=
    spells_countedPort
      (fun i => m.keySum (countfds i) (port.setWidth 32)) port
      ((firstMask m hCpus port).setWidth 32)
  rw [setProtos_eq_blockedProtos hContents.sameMask hCpus,
    countedPortToks, if_neg hSome] at hSpells
  have hTokens :
      (portMember m port).2.tokens =
        .lbrace ::
          (separated .comma ((blockedProtos m port).map
            fun i => memberToks (protoMember m port i)) ++
            [.rbrace]) := by
    simp [portMember, tokens, memberTokens_eq_map, memberToks,
      Function.comp_def]
  rw [memberToks, hTokens]
  exact hSpells

/- The tokens of the separator that goes by a key. -/
def keyCommaToks (key : BitVec 32) : List Token :=
  if key ≠ 0 then [.comma] else []

theorem keyCommaToks_zero : keyCommaToks 0#32 = [] := rfl

theorem keyCommaToks_of_ne
    {key : BitVec 32}
    (hKey : key ≠ 0) :
    keyCommaToks key = [.comma] :=
  if_pos hKey

/- The tokens of the part about addresses. -/
def addrListingToks
    (m : Maps nrCpus)
    (frame : StackFrame) : List Token :=
  (m.blacklist.entries.keys.flatMap fun key =>
      keyCommaToks key ++ memberToks (addrMember m key)) ++
    keyCommaToks
      (m.blacklist.entries.keys.getLast?.getD frame.key)

/- The tokens of the part about ports. -/
def portListingToks (m : Maps nrCpus) : List Token :=
  separated .comma ((blockedPorts m).map fun port =>
    memberToks (portMember m port))

/- The tokens of the listing. -/
def listingToks
    (m : Maps nrCpus)
    (frame : StackFrame) : List Token :=
  .lbrace ::
    (addrListingToks m frame ++ portListingToks m ++
      [.rbrace])

theorem spells_keyComma
    (key : BitVec 32) :
    Spells (keyComma key) (keyCommaToks key) := by
  unfold keyComma keyCommaToks
  by_cases hKey : key ≠ 0
  · rw [if_pos hKey, if_pos hKey]
    exact spells_comma Spells.nil
  · rw [if_neg hKey, if_neg hKey]
    exact Spells.nil

theorem fresh_keyComma
    (key : BitVec 32) :
    Fresh (keyComma key) := by
  unfold keyComma
  by_cases hKey : key ≠ 0
  · rw [if_pos hKey]
    exact fresh_cons (by decide) _
  · rw [if_neg hKey]
    exact fresh_nil

theorem fresh_addrText
    (m : Maps nrCpus)
    (key : BitVec 32) :
    Fresh (addrText m key) :=
  fresh_cons (by decide) _

theorem spells_addrListing
    (m : Maps nrCpus)
    (frame : StackFrame) :
    Spells (addrListing m frame)
      (addrListingToks m frame) := by
  have hEntry (key : BitVec 32) :
      Spells (keyComma key ++ addrText m key)
        (keyCommaToks key ++
          memberToks (addrMember m key)) :=
    (spells_keyComma key).append (spells_addrText m key)
      (fresh_addrText m key)
  have hEntries (keys : List (BitVec 32)) :
      Spells
          (keys.flatMap fun key =>
            keyComma key ++ addrText m key)
          (keys.flatMap fun key =>
            keyCommaToks key ++
              memberToks (addrMember m key)) ∧
        Fresh
          (keys.flatMap fun key =>
            keyComma key ++ addrText m key) := by
    induction keys with
    | nil => exact ⟨Spells.nil, fresh_nil⟩
    | cons key keys ih =>
        rw [List.flatMap_cons, List.flatMap_cons]
        exact ⟨(hEntry key).append ih.1 ih.2,
          ((fresh_keyComma key).append
            (fresh_addrText m key)).append ih.2⟩
  exact (hEntries _).1.append (spells_keyComma _)
    (fresh_keyComma _)

theorem fresh_portEntry
    (m : Maps nrCpus)
    (hCpus : 0 < nrCpus)
    (port : BitVec 16) :
    Fresh (portEntry m hCpus port) :=
  fresh_cons (by decide) _

/- The listing is read as these tokens. -/
theorem lex_listing
    {m : Maps nrCpus}
    (hContents : ToolContents m)
    (hCpus : 0 < nrCpus)
    (frame : StackFrame) :
    lex (listing m hCpus frame) = some (listingToks m frame) := by
  have hPorts :
      Spells (portListing m hCpus) (portListingToks m) := by
    unfold portListing portListingToks
    rw [maskedPorts_eq_blockedPorts hContents hCpus]
    exact spells_separated fun port hMem =>
      spells_portEntry hContents hCpus hMem
  have hPortsFresh : Fresh (portListing m hCpus) :=
    fresh_separated fun port _ => fresh_portEntry m hCpus port
  have hOpen :
      lexBetween '{' = some ([.lbrace], .between) := rfl
  have hClose : Spells "\n\x7d\n".toList [.rbrace] := by
    have hBrace :
        lexBetween '}' = some ([.rbrace], .between) := rfl
    have hLine :
        lexBetween '\n' = some ([], .between) := rfl
    exact Spells.cons hLine
      (Spells.cons hBrace (Spells.cons hLine Spells.nil))
  apply lex_of_spells
  exact Spells.cons hOpen
    (((spells_addrListing m frame).append hPorts
      hPortsFresh).append hClose (fresh_cons (by decide) _))

------------------------------------------------------------
-- Commas
------------------------------------------------------------

/-
  The addresses come first with the key zero, or not at all,
  and the separator behind the last one is one that the
  ports need.
-/
def CommasFit
    (m : Maps nrCpus)
    (frame : StackFrame) : Prop :=
  match m.blacklist.entries.keys with
  | [] => frame.key = 0
  | [key] => key = 0 ∧ blockedPorts m = []
  | key :: _ :: _ => key = 0 ∧ blockedPorts m ≠ []

theorem tokens_object_listedMembers
    (m : Maps nrCpus) :
    (Json.object (listedMembers m)).tokens =
      .lbrace ::
        (separated .comma
          (m.blacklist.entries.keys.map
              (fun key => memberToks (addrMember m key)) ++
            (blockedPorts m).map
              (fun port => memberToks (portMember m port))) ++
          [.rbrace]) := by
  simp [tokens, memberTokens_eq_map, listedMembers,
    memberToks, Function.comp_def]

/- Behind the key zero every key has its comma. -/
theorem flatMap_keyCommaToks
    {m : Maps nrCpus}
    {keys : List (BitVec 32)}
    (hKeys : m.blacklist.entries.keys = 0 :: keys) :
    (0 :: keys).flatMap
        (fun key =>
          keyCommaToks key ++
            memberToks (addrMember m key)) =
      separated .comma
        ((0 :: keys).map fun key =>
          memberToks (addrMember m key)) := by
  have hNodup := m.blacklist.entries.keys_nodup
  rw [hKeys, List.nodup_cons] at hNodup
  have hOthers :
      keys.flatMap
          (fun key =>
            keyCommaToks key ++
              memberToks (addrMember m key)) =
        keys.flatMap
          (fun key =>
            .comma :: memberToks (addrMember m key)) := by
    apply List.flatMap_congr
    intro key hMem
    have hKey : key ≠ 0 := by
      rintro rfl
      exact hNodup.1 hMem
    rw [keyCommaToks_of_ne hKey]
    rfl
  rw [List.flatMap_cons, hOthers]
  simp [keyCommaToks_zero, separated, List.flatMap_map]

/- Only the first key can be zero. -/
theorem last_key_ne_zero
    {m : Maps nrCpus}
    {next : BitVec 32}
    {keys : List (BitVec 32)}
    (hKeys : m.blacklist.entries.keys = 0 :: next :: keys)
    (frame : StackFrame) :
    (0 :: next :: keys).getLast?.getD frame.key ≠ 0 := by
  have hNodup := m.blacklist.entries.keys_nodup
  rw [hKeys, List.nodup_cons] at hNodup
  rw [List.getLast?_cons_cons]
  have hSome : next :: keys ≠ [] := List.cons_ne_nil _ _
  rw [List.getLast?_eq_some_getLast hSome, Option.getD_some]
  intro hZero
  apply hNodup.1
  rw [← hZero]
  exact List.getLast_mem hSome

/- If the commas fit, the tokens are those of the members. -/
theorem listingToks_of_commasFit
    {m : Maps nrCpus}
    {frame : StackFrame}
    (hFit : CommasFit m frame) :
    listingToks m frame =
      (Json.object (listedMembers m)).tokens := by
  rw [tokens_object_listedMembers]
  unfold CommasFit at hFit
  unfold listingToks addrListingToks portListingToks
  split at hFit
  case h_1 hKeys =>
    rw [hKeys, hFit]
    simp [keyCommaToks_zero]
  case h_2 key hKeys =>
    rw [hKeys, hFit.1, hFit.2]
    simp [keyCommaToks_zero, separated]
  case h_3 key next keys hKeys =>
    rcases hFit with ⟨rfl, hPorts⟩
    have hSome :
        (blockedPorts m).map
            (fun port => memberToks (portMember m port)) ≠
          [] := by
      simpa using hPorts
    rw [hKeys, flatMap_keyCommaToks hKeys,
      keyCommaToks_of_ne (last_key_ne_zero hKeys frame),
      Separated.append .comma _ (by simp) hSome]
    simp

/- If they do not, they are those of no such object. -/
theorem listingToks_ne_of_not_commasFit
    {m : Maps nrCpus}
    {frame : StackFrame}
    (hFit : ¬ CommasFit m frame)
    {members : List (CStr × Json)}
    (hPerm : members.Perm (listedMembers m)) :
    listingToks m frame ≠ (Json.object members).tokens := by
  intro hSame
  -- all such objects have equally many tokens
  have hLength := congrArg List.length hSame
  rw [length_tokens_object_of_perm hPerm,
    tokens_object_listedMembers] at hLength
  unfold CommasFit at hFit
  unfold listingToks addrListingToks portListingToks
    at hSame hLength
  cases hKeys : m.blacklist.entries.keys with
  | nil =>
      rw [hKeys] at hFit hSame
      have hComma := keyCommaToks_of_ne hFit
      simp only [List.flatMap_nil, List.getLast?_nil,
        Option.getD_none, hComma, List.nil_append,
        List.cons_append] at hSame
      exact tokens_object_ne_comma members _ hSame.symm
  | cons key keys =>
      rw [hKeys] at hFit hSame hLength
      by_cases hZero : key = 0
      · subst hZero
        cases keys with
        | nil =>
            have hPorts : blockedPorts m ≠ [] :=
              fun hNone => hFit ⟨rfl, hNone⟩
            have hSome :
                (blockedPorts m).map (fun port =>
                    memberToks (portMember m port)) ≠ [] := by
              simpa using hPorts
            rw [Separated.append .comma _ (by simp) hSome]
              at hLength
            simp [keyCommaToks_zero, separated] at hLength
        | cons next keys =>
            have hPorts : blockedPorts m = [] := by
              by_contra hSome
              exact hFit ⟨rfl, hSome⟩
            rw [flatMap_keyCommaToks hKeys,
              keyCommaToks_of_ne
                (last_key_ne_zero hKeys frame), hPorts]
              at hLength
            simp [separated] at hLength
      · rw [List.flatMap_cons, keyCommaToks_of_ne hZero]
          at hSame
        simp only [List.cons_append, List.nil_append,
          List.append_assoc] at hSame
        exact tokens_object_ne_comma members _ hSame.symm

------------------------------------------------------------
-- The Listing as a JSON Text
------------------------------------------------------------

variable {m : Maps nrCpus}
variable {fuel : ℕ}
variable {frame : StackFrame}
variable {args : List CStr}
variable {st : OptionState}

theorem endingAfterList_ne
    (st : OptionState) :
    endingAfterList st ≠ .unfinished := by
  unfold endingAfterList
  cases st.stats <;> simp

/- A run of the tool that comes to the end of the listing. -/
theorem runTool_listing
    (hList : AsksForList args st)
    (hCpus : 0 < nrCpus)
    (hFuel : NR_ADDRS < fuel)
    (hFit : nrCpus ≤ 1 + frame.spare) :
    runTool fuel frame .none m args =
      (.returned (endingAfterList st),
        ⟨m, listing m hCpus frame⟩) := by
  rw [runTool_of_list hList,
    run_listBlacklists m hCpus hFuel hFit]

theorem not_listedWell_of_not_commasFit
    (hContents : ToolContents m)
    (hList : AsksForList args st)
    (hCpus : 0 < nrCpus)
    (hFuel : NR_ADDRS < fuel)
    (hRoom : nrCpus ≤ 1 + frame.spare)
    (hFit : ¬ CommasFit m frame) :
    ¬ ListedWell m (runTool fuel frame .none m args) := by
  rw [runTool_listing hList hCpus hFuel hRoom]
  rintro ⟨_, members, hPerm, hDenotes⟩
  unfold Denotes at hDenotes
  dsimp only at hDenotes
  rw [lex_listing hContents hCpus, Option.some.injEq]
    at hDenotes
  exact listingToks_ne_of_not_commasFit hFit hPerm hDenotes

/-
  The listing is a JSON text of the blacklists exactly when
  the masks fit where they are looked up and the commas fit
  what is listed.
-/
theorem listedWell_iff
    (m : Maps nrCpus)
    (hContents : ToolContents m)
    (hCpus : 0 < nrCpus)
    (hList : AsksForList args st)
    (hFuel : NR_ADDRS < fuel)
    (frame : StackFrame) :
    ListedWell m (runTool fuel frame .none m args) ↔
      nrCpus ≤ 1 + frame.spare ∧ CommasFit m frame := by
  by_cases hRoom : nrCpus ≤ 1 + frame.spare
  · by_cases hFit : CommasFit m frame
    · refine iff_of_true ?_ ⟨hRoom, hFit⟩
      rw [runTool_listing hList hCpus hFuel hRoom]
      refine ⟨⟨_, endingAfterList_ne st, rfl⟩,
        listedMembers m, List.Perm.refl _, ?_⟩
      unfold Denotes
      rw [lex_listing hContents hCpus,
        listingToks_of_commasFit hFit]
    · exact iff_of_false
        (not_listedWell_of_not_commasFit hContents hList hCpus
          hFuel hRoom hFit)
        (fun hBoth => hFit hBoth.2)
  · refine iff_of_false ?_ (fun hBoth => hRoom hBoth.1)
    rw [runTool_of_list hList,
      run_listBlacklists_of_lt m hFuel (Nat.not_le.mp hRoom)]
    rintro ⟨⟨ending, _, hEnds⟩, _⟩
    cases hEnds

/- `--list`. -/
def listOnly : List CStr :=
  ["--list".toList]

theorem asksForList_listOnly :
    AsksForList listOnly { doList := true } where
  accepted := rfl
  no_action := rfl
  no_others := rfl
  list := rfl

/- Port 53 has both rules, and no other port has one. -/
theorem toolContents_bothBlocked :
    ToolContents bothBlocked := by
  constructor
  · intro port cpu cpu'
    rw [Subsingleton.elim cpu cpu']
  · intro port cpu i hBit
    unfold bothBlocked at hBit
    rw [PercpuArray.slots_setSlots, Function.update_apply]
      at hBit
    split at hBit
    · match i with
      | 0 => exact Or.inl rfl
      | 1 => exact Or.inr rfl
      | i + 2 => simp [BitVec.getLsbD, Nat.testBit_succ] at hBit
    · simp at hBit

/- Without addresses the ports are listed well. -/
theorem bothBlocked_listedWell :
    ListedWell bothBlocked
      (runTool (NR_ADDRS + 1) emptyFrame .none bothBlocked
        listOnly) :=
  (listedWell_iff bothBlocked toolContents_bothBlocked
    (by decide) asksForList_listOnly
    (Nat.lt_succ_self NR_ADDRS) emptyFrame).mpr
    ⟨by decide, rfl⟩

/- The address 10.0.0.1 is blocked on the only CPU. -/
def oneBlocked : Maps 1 :=
  { Maps.fresh with
    blacklist :=
      ⟨(∅ : AList _).insert 0x0100000a (fun _ => 0),
        by simp [NR_ADDRS]⟩ }

/- The listing of one address begins with a comma. -/
theorem oneBlocked_not_listedWell :
    ToolContents oneBlocked ∧
      ¬ ListedWell oneBlocked
        (runTool (NR_ADDRS + 1) emptyFrame .none oneBlocked
          listOnly) := by
  have hContents : ToolContents oneBlocked := by
    constructor
    · intro port cpu cpu'
      rfl
    · intro port cpu i hBit
      simp [oneBlocked, Maps.fresh] at hBit
  refine ⟨hContents, not_listedWell_of_not_commasFit hContents
    asksForList_listOnly (by decide)
    (Nat.lt_succ_self NR_ADDRS) (by decide) ?_⟩
  intro hFit
  have hKeys :
      oneBlocked.blacklist.entries.keys = [0x0100000a] := by
    rfl
  unfold CommasFit at hFit
  rw [hKeys] at hFit
  exact absurd hFit.1 (by decide)

end Tool

end XdpDdos
