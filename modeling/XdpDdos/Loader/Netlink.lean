import XdpDdos.Loader.Object
import XdpDdos.Lib.FirstStop

/-
  `set_link_xdp_fd`: asking the kernel by a netlink message
  to attach a program, and reading its reply.

  Main declarations:
    * `NetCall`, `linkRequest`, `setLinkXdpFd`
    * `nlmsgOk`, `checkMsg`, `checkReply`
    * `messages`, `checkReply_eq`
    * `Acknowledged`, `JudgedRight`
    * `setLinkXdpFd_judges_reply`
-/

------------------------------------------------------------
-- Netlink Messages
------------------------------------------------------------

namespace XdpDdos

/- `sizeof(struct nlmsghdr)`. -/
def NLMSG_HDRLEN : ℕ := 16

def NLMSG_ERROR : BitVec 16 := 2

def RTM_SETLINK : ℕ := 19

/- `NLM_F_REQUEST | NLM_F_ACK`. -/
def REQUEST_FLAGS : ℕ := 5

/- `NLMSG_ALIGN`. -/
def nlmsgAlign (len : ℕ) : ℕ :=
  (len + 3) / 4 * 4

/- Read a word of a buffer, of which `buf` was received. -/
def read32
    (buf : ByteSeq)
    (off : ℕ) : Except Crash (BitVec 32) :=
  match buf.load32 off with
  | none => .error .outOfRange
  | some w => .ok w

def read16
    (buf : ByteSeq)
    (off : ℕ) : Except Crash (BitVec 16) :=
  match buf.load16 off with
  | none => .error .outOfRange
  | some w => .ok w

/- `nlmsg_len` of the message at `nh`. -/
def nlmsgLen
    (buf : ByteSeq)
    (nh : ℕ) : ℕ :=
  (buf.le32At nh).toNat

/- `NLMSG_OK`. -/
def nlmsgOk
    (buf : ByteSeq)
    (nh : ℕ)
    (len : ℤ) : Except Crash Bool :=
  if len < NLMSG_HDRLEN then .ok false
  else do
    let nlmsgLen ← read32 buf nh
    .ok (NLMSG_HDRLEN ≤ nlmsgLen.toNat ∧ nlmsgLen.toNat ≤ len)

/-
  The body of the loop over the messages; false stands for
  `goto cleanup`.  After `NLMSG_DONE` the loop goes on, as
  `break` only leaves the `switch`.
-/
def checkMsg
    (pid seq : BitVec 32)
    (buf : ByteSeq)
    (nh : ℕ) : Except Crash Bool := do
  if (← read32 buf (nh + 12)) ≠ pid then .ok false
  else if (← read32 buf (nh + 8)) ≠ seq then .ok false
  else if (← read16 buf (nh + 4)) = NLMSG_ERROR then do
    let error ← read32 buf (nh + NLMSG_HDRLEN)
    .ok (error = 0)
  else .ok true

theorem read32_of_le
    {buf : ByteSeq}
    {off : ℕ}
    (hOff : off + 4 ≤ buf.length) :
    read32 buf off = .ok (buf.le32At off) := by
  rw [read32, ByteSeq.load32_of_le hOff]

/- What is behind the received bytes is not read. -/
theorem read32_of_lt
    {buf : ByteSeq}
    {off : ℕ}
    (hOff : buf.length < off + 4) :
    read32 buf off = .error .outOfRange := by
  have hHigh : buf.load16 (off + 2) = none := by
    have hLast : buf[off + 2 + 1]? = none :=
      List.getElem?_eq_none (by omega)
    rw [ByteSeq.load16, hLast]
    split
    · next hSome => cases hSome
    · rfl
  have hNone : buf.load32 off = none := by
    rw [ByteSeq.load32, hHigh]
    split
    · next hSome => cases hSome
    · rfl
  rw [read32, hNone]

theorem read32_eq
    {buf : ByteSeq}
    {off : ℕ}
    {w : BitVec 32}
    (hRead : read32 buf off = .ok w) :
    w = buf.le32At off := by
  by_cases hOff : off + 4 ≤ buf.length
  · rw [read32_of_le hOff] at hRead
    exact (Except.ok.inj hRead).symm
  · rw [read32_of_lt (Nat.not_le.mp hOff)] at hRead
    cases hRead

/- A message that `NLMSG_OK` accepts makes the rest shorter. -/
theorem nlmsgOk_true
    {buf : ByteSeq}
    {nh : ℕ}
    {len : ℤ}
    (hOk : nlmsgOk buf nh len = .ok true) :
    NLMSG_HDRLEN ≤ nlmsgLen buf nh ∧ nlmsgLen buf nh ≤ len := by
  unfold nlmsgOk at hOk
  split at hOk
  · cases hOk
  · cases hRead : read32 buf nh with
    | error crash =>
        rw [hRead] at hOk
        cases hOk
    | ok w =>
        rw [hRead, except_ok_bind] at hOk
        rw [nlmsgLen, ← read32_eq hRead]
        exact of_decide_eq_true (Except.ok.inj hOk)

/- The loop over the messages; the value of `ret` after it. -/
def checkReply
    (pid seq : BitVec 32)
    (buf : ByteSeq)
    (nh : ℕ)
    (len : ℤ) : Except Crash ℤ :=
  match _hOk : nlmsgOk buf nh len with
  | .error crash => .error crash
  | .ok false => .ok 0
  | .ok true =>
      match checkMsg pid seq buf nh with
      | .error crash => .error crash
      | .ok false => .ok (-1)
      | .ok true =>
          -- `NLMSG_NEXT`
          checkReply pid seq buf
            (nh + nlmsgAlign (nlmsgLen buf nh))
            (len - nlmsgAlign (nlmsgLen buf nh))
termination_by len.toNat
decreasing_by
  have hLen := nlmsgOk_true _hOk
  unfold NLMSG_HDRLEN at hLen
  unfold nlmsgAlign
  omega

------------------------------------------------------------
-- The Request
------------------------------------------------------------

/- A netlink attribute. -/
def nlattr
    (nlaType : ℕ)
    (payload : ByteSeq) : ByteSeq :=
  leBytes 2 (4 + payload.length) ++ leBytes 2 nlaType ++
    payload

/- The attributes nested in `IFLA_XDP`. -/
def xdpAttrs
    (fd flags : BitVec 32) : ByteSeq :=
  nlattr 1 (leBytes 4 fd.toNat) ++
    if flags ≠ 0 then nlattr 3 (leBytes 4 flags.toNat)
    else []

/-
  What is sent: a message header, a `struct ifinfomsg`, and
  one attribute, of type `NLA_F_NESTED | IFLA_XDP`.
-/
def linkRequest
    (seq ifindex fd flags : BitVec 32) : ByteSeq :=
  let nla := nlattr (0x8000 + 43) (xdpAttrs fd flags)
  leBytes 4 (32 + nlmsgAlign nla.length) ++
    leBytes 2 RTM_SETLINK ++ leBytes 2 REQUEST_FLAGS ++
    leBytes 4 seq.toNat ++ leBytes 4 0 ++
    (leBytes 4 0 ++ leBytes 4 ifindex.toNat ++ leBytes 4 0 ++
      leBytes 4 0) ++
    nla

------------------------------------------------------------
-- The Function
------------------------------------------------------------

/- The calls of `set_link_xdp_fd`, on an `AF_NETLINK` socket. -/
inductive NetCall where
  | socket
  | bind (sock : ℤ)
  | send (sock : ℤ) (req : ByteSeq)
  | recv (sock : ℤ)
  | close (sock : ℤ)

/- Length of `buf`. -/
def REPLY_SIZE : ℕ := 4096

/- What was received, at most as much as `buf` holds. -/
abbrev Reply :=
  { reply : ByteSeq // reply.length ≤ REPLY_SIZE }

@[reducible] def NetCall.Resp : NetCall → Type
  | .recv _ => Option Reply
  | _ => ℤ

abbrev NetProg (α : Type) :=
  CallProg NetCall NetCall.Resp α

/- The label `cleanup`. -/
def cleanup
    (sock ret : ℤ) : NetProg ℤ := do
  let _ ← .call' (NetCall.close sock)
  return ret

/- `set_link_xdp_fd`, in the process `pid`. -/
def setLinkXdpFd
    (pid ifindex fd flags : BitVec 32) : NetProg ℤ := do
  let sock ← .call' NetCall.socket
  if sock < 0 then return -1
  else do
    let err ← .call' (NetCall.bind sock)
    if err < 0 then cleanup sock (-1)
    else do
      let seq := 1
      let err ← .call' (NetCall.send sock
        (linkRequest seq ifindex fd flags))
      if err < 0 then cleanup sock (-1)
      else do
        match ← .call' (NetCall.recv sock) with
        | none => cleanup sock (-1)
        | some reply => do
            let ret ← .ofExcept (checkReply pid seq reply.1 0
              reply.1.length)
            cleanup sock ret

------------------------------------------------------------
-- The Messages of a Reply
------------------------------------------------------------

section

variable {pid seq : BitVec 32}
variable {reply : ByteSeq}
variable {m : ℕ}

/- A whole message starts at `m`. -/
structure MsgFits
    (reply : ByteSeq)
    (m : ℕ) : Prop where
  header : m + NLMSG_HDRLEN ≤ reply.length
  header_len : NLMSG_HDRLEN ≤ nlmsgLen reply m
  whole : m + nlmsgLen reply m ≤ reply.length

instance
    (reply : ByteSeq)
    (m : ℕ) : Decidable (MsgFits reply m) :=
  decidable_of_iff
    (m + NLMSG_HDRLEN ≤ reply.length ∧
      NLMSG_HDRLEN ≤ nlmsgLen reply m ∧
        m + nlmsgLen reply m ≤ reply.length)
    ⟨fun ⟨h₁, h₂, h₃⟩ => ⟨h₁, h₂, h₃⟩,
      fun h => ⟨h.1, h.2, h.3⟩⟩

/- Where the messages start, from `m` to the end. -/
def messages
    (reply : ByteSeq)
    (m : ℕ) : List ℕ :=
  if _hFits : MsgFits reply m then
    m :: messages reply (m + nlmsgAlign (nlmsgLen reply m))
  else []
termination_by reply.length - m
decreasing_by
  have hHeader := _hFits.header
  have hLen := _hFits.header_len
  unfold NLMSG_HDRLEN at hHeader hLen
  unfold nlmsgAlign
  omega

/- `NLMSG_OK` accepts the messages that are whole. -/
theorem nlmsgOk_eq
    {len : ℤ}
    (hRest : m + len = reply.length) :
    nlmsgOk reply m len = .ok (decide (MsgFits reply m)) := by
  unfold nlmsgOk
  by_cases hHeader : len < NLMSG_HDRLEN
  · have hNot : ¬ MsgFits reply m := by
      intro hFits
      have hRoom := hFits.header
      omega
    rw [if_pos hHeader, decide_eq_false hNot]
  · have hRoom : m + NLMSG_HDRLEN ≤ reply.length := by
      omega
    have hRead : m + 4 ≤ reply.length :=
      Nat.le_trans (Nat.add_le_add_left (by decide) m) hRoom
    rw [if_neg hHeader, read32_of_le hRead, except_ok_bind]
    congr 1
    apply decide_eq_decide.mpr
    constructor
    · rintro ⟨hLen, hWhole⟩
      exact ⟨hRoom, hLen, by unfold nlmsgLen; omega⟩
    · intro hFits
      have hWhole := hFits.whole
      unfold nlmsgLen at hWhole
      exact ⟨hFits.header_len, by omega⟩

/- The loop goes through the messages one by one. -/
def checkMsgs
    (pid seq : BitVec 32)
    (reply : ByteSeq) : List ℕ → Except Crash ℤ
  | [] => .ok 0
  | m :: ms =>
      match checkMsg pid seq reply m with
      | .error crash => .error crash
      | .ok false => .ok (-1)
      | .ok true => checkMsgs pid seq reply ms

theorem checkReply_eq
    {len : ℤ}
    (hRest : m + len = reply.length) :
    checkReply pid seq reply m len =
      checkMsgs pid seq reply (messages reply m) := by
  fun_induction messages reply m generalizing len with
  | case1 m hFits ih =>
      have hNext :
          ((m + nlmsgAlign (nlmsgLen reply m) : ℕ) : ℤ) +
              (len - nlmsgAlign (nlmsgLen reply m)) =
            reply.length := by
        omega
      rw [checkReply, nlmsgOk_eq hRest, decide_eq_true hFits]
      simp only
      rw [checkMsgs, ih hNext]
  | case2 m hNot =>
      rw [checkReply, nlmsgOk_eq hRest, decide_eq_false hNot]
      rfl

theorem msgFits_of_mem
    {m₀ : ℕ}
    (hMem : m ∈ messages reply m₀) :
    MsgFits reply m := by
  fun_induction messages reply m₀ with
  | case1 m₀ hFits ih =>
      rcases List.mem_cons.mp hMem with rfl | hTail
      · exact hFits
      · exact ih hTail
  | case2 m₀ hNot => cases hMem

------------------------------------------------------------
-- What a Message Tells
------------------------------------------------------------

/- It is for this process and answers its request. -/
def IsOurs
    (pid seq : BitVec 32)
    (reply : ByteSeq)
    (m : ℕ) : Prop :=
  reply.le32At (m + 12) = pid ∧ reply.le32At (m + 8) = seq

def IsErrorMsg
    (reply : ByteSeq)
    (m : ℕ) : Prop :=
  reply.le16At (m + 4) = NLMSG_ERROR

instance
    (reply : ByteSeq)
    (m : ℕ) : Decidable (IsErrorMsg reply m) :=
  inferInstanceAs (Decidable (_ = _))

/- The error of a message that is long enough to have one. -/
def errorOf
    (reply : ByteSeq)
    (m : ℕ) : Option (BitVec 32) :=
  if NLMSG_HDRLEN + 4 ≤ nlmsgLen reply m then
    some (reply.le32At (m + NLMSG_HDRLEN))
  else none

/- The kernel said that the request was carried out. -/
def Acknowledged
    (pid seq : BitVec 32)
    (reply : ByteSeq) : Prop :=
  (∃ m ∈ messages reply 0,
      IsOurs pid seq reply m ∧ IsErrorMsg reply m ∧
        errorOf reply m = some 0) ∧
    ∀ m ∈ messages reply 0,
      IsOurs pid seq reply m ∧
        (IsErrorMsg reply m → ∀ e ∈ errorOf reply m, e = 0)

/- The loop goes on behind this message. -/
def Passes
    (pid seq : BitVec 32)
    (reply : ByteSeq)
    (m : ℕ) : Prop :=
  IsOurs pid seq reply m ∧
    (IsErrorMsg reply m →
      m + NLMSG_HDRLEN + 4 ≤ reply.length ∧
        reply.le32At (m + NLMSG_HDRLEN) = 0)

/- The error is not among the bytes that were received. -/
def Truncated
    (pid seq : BitVec 32)
    (reply : ByteSeq)
    (m : ℕ) : Prop :=
  IsOurs pid seq reply m ∧ IsErrorMsg reply m ∧
    reply.length < m + NLMSG_HDRLEN + 4

/- It is not for us, or reports an error. -/
def Fails
    (pid seq : BitVec 32)
    (reply : ByteSeq)
    (m : ℕ) : Prop :=
  ¬ Passes pid seq reply m ∧ ¬ Truncated pid seq reply m

theorem read16_of_le
    {off : ℕ}
    (hOff : off + 2 ≤ reply.length) :
    read16 reply off = .ok (reply.le16At off) := by
  rw [read16, ByteSeq.load16_of_le hOff, ByteSeq.be16At,
    swap16_append]
  rfl

/- The header is received, and so read. -/
theorem checkMsg_eq
    (hFits : MsgFits reply m) :
    checkMsg pid seq reply m =
      if reply.le32At (m + 12) ≠ pid then .ok false
      else if reply.le32At (m + 8) ≠ seq then .ok false
      else if reply.le16At (m + 4) = NLMSG_ERROR then
        read32 reply (m + NLMSG_HDRLEN) >>= fun error =>
          .ok (error = 0)
      else .ok true := by
  have hHeader := hFits.header
  unfold NLMSG_HDRLEN at hHeader
  rw [checkMsg, read32_of_le (by omega), read32_of_le (by omega),
    read16_of_le (by omega)]
  rfl

/- A message passes, is cut off, or fails. -/
theorem checkMsg_cases
    (pid seq : BitVec 32)
    (hFits : MsgFits reply m) :
    Passes pid seq reply m ∧
        checkMsg pid seq reply m = .ok true ∨
      Truncated pid seq reply m ∧
        checkMsg pid seq reply m = .error .outOfRange ∨
      Fails pid seq reply m ∧
        checkMsg pid seq reply m = .ok false := by
  rw [checkMsg_eq hFits]
  by_cases hPid : reply.le32At (m + 12) = pid
  case neg =>
    refine .inr (.inr ⟨⟨?_, ?_⟩, if_pos hPid⟩)
    · exact fun hPasses => hPid hPasses.1.1
    · exact fun hTruncated => hPid hTruncated.1.1
  rw [if_neg (not_not_intro hPid)]
  by_cases hSeq : reply.le32At (m + 8) = seq
  case neg =>
    refine .inr (.inr ⟨⟨?_, ?_⟩, if_pos hSeq⟩)
    · exact fun hPasses => hSeq hPasses.1.2
    · exact fun hTruncated => hSeq hTruncated.1.2
  rw [if_neg (not_not_intro hSeq)]
  by_cases hType : reply.le16At (m + 4) = NLMSG_ERROR
  case neg =>
    refine .inl ⟨⟨⟨hPid, hSeq⟩, ?_⟩, if_neg hType⟩
    exact fun hError => absurd hError hType
  rw [if_pos hType]
  by_cases hRoom : m + NLMSG_HDRLEN + 4 ≤ reply.length
  case neg =>
    rw [read32_of_lt (Nat.not_le.mp hRoom)]
    exact .inr (.inl
      ⟨⟨⟨hPid, hSeq⟩, hType, Nat.not_le.mp hRoom⟩, rfl⟩)
  rw [read32_of_le hRoom, except_ok_bind]
  by_cases hZero : reply.le32At (m + NLMSG_HDRLEN) = 0
  · refine .inl ⟨⟨⟨hPid, hSeq⟩, fun _ => ⟨hRoom, hZero⟩⟩, ?_⟩
    rw [decide_eq_true hZero]
  · refine .inr (.inr ⟨⟨?_, ?_⟩, ?_⟩)
    · exact fun hPasses => hZero (hPasses.2 hType).2
    · exact fun hTruncated =>
        Nat.not_lt.mpr hRoom hTruncated.2.2
    · rw [decide_eq_false hZero]

/- The first message that does not pass decides. -/
theorem checkMsgs_cases
    (pid seq : BitVec 32)
    {ms : List ℕ}
    (hFits : ∀ m ∈ ms, MsgFits reply m) :
    (∀ m ∈ ms, Passes pid seq reply m) ∧
        checkMsgs pid seq reply ms = .ok 0 ∨
      Reaches (Passes pid seq reply)
          (Truncated pid seq reply) ms ∧
        checkMsgs pid seq reply ms = .error .outOfRange ∨
      Reaches (Passes pid seq reply) (Fails pid seq reply)
          ms ∧
        checkMsgs pid seq reply ms = .ok (-1) := by
  induction ms with
  | nil => exact .inl ⟨List.forall_mem_nil _, rfl⟩
  | cons m ms ih =>
      rw [List.forall_mem_cons] at hFits
      rw [checkMsgs]
      rcases checkMsg_cases pid seq hFits.1 with
        ⟨hPasses, hCheck⟩ | ⟨hTruncated, hCheck⟩ |
          ⟨hFails, hCheck⟩
      · rw [hCheck]
        rcases ih hFits.2 with
          ⟨hAll, hRest⟩ | ⟨hReaches, hRest⟩ |
            ⟨hReaches, hRest⟩
        · exact .inl
            ⟨List.forall_mem_cons.mpr ⟨hPasses, hAll⟩, hRest⟩
        · exact .inr (.inl ⟨.inr ⟨hPasses, hReaches⟩, hRest⟩)
        · exact .inr (.inr ⟨.inr ⟨hPasses, hReaches⟩, hRest⟩)
      · rw [hCheck]
        exact .inr (.inl ⟨.inl hTruncated, rfl⟩)
      · rw [hCheck]
        exact .inr (.inr ⟨.inl hFails, rfl⟩)

theorem Truncated.not_passes
    (hTruncated : Truncated pid seq reply m) :
    ¬ Passes pid seq reply m := by
  intro hPasses
  have hRoom := (hPasses.2 hTruncated.2.1).1
  exact Nat.not_lt.mpr hRoom hTruncated.2.2

/- What passes is ours, and reports no error. -/
theorem Passes.no_error
    (hPasses : Passes pid seq reply m) :
    IsOurs pid seq reply m ∧
      (IsErrorMsg reply m →
        ∀ e ∈ errorOf reply m, e = 0) := by
  refine ⟨hPasses.1, ?_⟩
  intro hError e hMem
  unfold errorOf at hMem
  split at hMem
  · cases hMem
    exact (hPasses.2 hError).2
  · cases hMem

------------------------------------------------------------
-- Replies That Are Judged Right
------------------------------------------------------------

/-
  No error message that the loop gets to is cut off; if all
  messages pass, one acknowledges the request; and behind an
  error message too short for an error, in a reply that
  acknowledges the request, there is no other word than 0.
-/
structure JudgedRight
    (pid seq : BitVec 32)
    (reply : ByteSeq) : Prop where
  whole :
    ¬ Reaches (Passes pid seq reply)
      (Truncated pid seq reply) (messages reply 0)
  acked :
    (∀ m ∈ messages reply 0, Passes pid seq reply m) →
      ∃ m ∈ messages reply 0,
        IsErrorMsg reply m ∧ errorOf reply m = some 0
  short :
    Acknowledged pid seq reply →
      ∀ m ∈ messages reply 0,
        IsErrorMsg reply m → errorOf reply m = none →
          reply.le32At (m + NLMSG_HDRLEN) = 0

theorem mem_errorOf
    (hLong : errorOf reply m ≠ none) :
    reply.le32At (m + NLMSG_HDRLEN) ∈ errorOf reply m := by
  unfold errorOf at hLong ⊢
  split at hLong
  · next hLen => rw [if_pos hLen, Option.mem_some_iff]
  · exact absurd rfl hLong

/- If such a reply acknowledges, none of its messages fails. -/
theorem JudgedRight.not_fails
    (hRight : JudgedRight pid seq reply)
    (hAck : Acknowledged pid seq reply)
    (hMem : m ∈ messages reply 0) :
    ¬ Fails pid seq reply m := by
  rintro ⟨hNot, hWhole⟩
  rcases hAck.2 m hMem with ⟨hOurs, hNoError⟩
  refine hNot ⟨hOurs, fun hError => ⟨?_, ?_⟩⟩
  · by_contra hRoom
    exact hWhole ⟨hOurs, hError, Nat.not_le.mp hRoom⟩
  · by_cases hShort : errorOf reply m = none
    · exact hRight.short hAck m hMem hError hShort
    · exact hNoError hError _ (mem_errorOf hShort)

/- So are replies of whole errors, and at least one. -/
theorem judgedRight_of_errors
    (hLong :
      ∀ m ∈ messages reply 0, IsErrorMsg reply m →
        errorOf reply m ≠ none)
    (hError : ∃ m ∈ messages reply 0, IsErrorMsg reply m) :
    JudgedRight pid seq reply where
  whole := by
    intro hReaches
    rcases reaches_iff.mp hReaches with
      ⟨front, m, back, hSplit, _, _, hType, hCut⟩
    have hMem : m ∈ messages reply 0 := by
      rw [hSplit]
      exact List.mem_append_right _ List.mem_cons_self
    have hWhole := (msgFits_of_mem hMem).whole
    have hLen := hLong m hMem hType
    unfold errorOf at hLen
    split at hLen
    · omega
    · exact hLen rfl
  acked := by
    intro hAll
    rcases hError with ⟨m, hMem, hType⟩
    refine ⟨m, hMem, hType, ?_⟩
    rw [← ((hAll m hMem).2 hType).2]
    exact mem_errorOf (hLong m hMem hType)
  short := by
    intro _ m hMem hType hShort
    exact absurd hShort (hLong m hMem hType)

/-
  The loop stays inside the reply and returns 0 just if the
  reply acknowledges the request, exactly for these replies.
-/
theorem checkReply_right_iff
    (pid seq : BitVec 32)
    (reply : ByteSeq) :
    (∃ ret, checkReply pid seq reply 0 reply.length = .ok ret ∧
      (ret = 0 ↔ Acknowledged pid seq reply)) ↔
      JudgedRight pid seq reply := by
  have hFits : ∀ m ∈ messages reply 0, MsgFits reply m :=
    fun m hMem => msgFits_of_mem hMem
  rw [checkReply_eq (Int.zero_add _)]
  rcases checkMsgs_cases pid seq hFits with
    ⟨hAll, hCheck⟩ | ⟨hReaches, hCheck⟩ | ⟨hReaches, hCheck⟩
  · -- every message passes: 0
    rw [hCheck]
    have hWhole :
        ¬ Reaches (Passes pid seq reply)
          (Truncated pid seq reply) (messages reply 0) :=
      fun hReaches =>
        hReaches.not_forall (fun _ => Truncated.not_passes) hAll
    constructor
    · rintro ⟨ret, hRet, hRight⟩
      cases hRet
      rcases hRight.mp rfl with ⟨⟨m, hMem, _, hError⟩, _⟩
      refine ⟨hWhole, fun _ => ⟨m, hMem, hError⟩, ?_⟩
      intro _ m' hMem' hError' _
      exact ((hAll m' hMem').2 hError').2
    · intro hRight
      rcases hRight.acked hAll with ⟨m, hMem, hError⟩
      refine ⟨0, rfl, iff_of_true rfl ⟨⟨m, hMem,
        (hAll m hMem).1, hError⟩, ?_⟩⟩
      intro m' hMem'
      exact (hAll m' hMem').no_error
  · -- an error is cut off: a read behind the reply
    rw [hCheck]
    constructor
    · rintro ⟨ret, hRet, _⟩
      cases hRet
    · intro hRight
      exact absurd hReaches hRight.whole
  · -- a message fails: -1
    rw [hCheck]
    rcases reaches_iff.mp hReaches with
      ⟨front, m, back, hSplit, _, hFails⟩
    have hMem : m ∈ messages reply 0 := by
      rw [hSplit]
      exact List.mem_append_right _ List.mem_cons_self
    constructor
    · rintro ⟨ret, hRet, hRight⟩
      cases hRet
      have hUnacked : ¬ Acknowledged pid seq reply :=
        fun hAck => absurd (hRight.mpr hAck) (by decide)
      refine ⟨?_, ?_, fun hAck => absurd hAck hUnacked⟩
      · intro hCut
        have hBoth :=
          hReaches.and hCut (fun _ => And.left)
            (fun _ => Truncated.not_passes)
        rcases reaches_iff.mp hBoth with
          ⟨_, m', _, _, _, hFails', hTruncated⟩
        exact hFails'.2 hTruncated
      · intro hAll
        exact absurd (hAll m hMem) hFails.1
    · intro hRight
      refine ⟨-1, rfl, iff_of_false (by decide) ?_⟩
      intro hAck
      exact hRight.not_fails hAck hMem hFails

------------------------------------------------------------
-- Runs of the Function
------------------------------------------------------------

variable {σ : Type}
variable
  {handler : CallProg.Handler NetCall NetCall.Resp σ}
variable {s : σ}
variable {sock : ℤ}

/- Behind `recv`. -/
def afterRecv
    (pid : BitVec 32)
    (sock : ℤ) : Option Reply → NetProg ℤ
  | none => cleanup sock (-1)
  | some reply => do
      let ret ← .ofExcept (checkReply pid 1 reply.1 0
        reply.1.length)
      cleanup sock ret

theorem not_recv_mem_cleanup
    {sock' ret : ℤ}
    {answer : Option Reply} :
    ⟨.recv sock, answer⟩ ∉
      (cleanup sock' ret).trace handler s := by
  intro hMem
  rcases List.mem_singleton.mp hMem with hEq
  cases hEq

theorem not_recv_mem_afterRecv
    {pid : BitVec 32}
    {sock' : ℤ}
    {answer answer' : Option Reply} :
    ⟨.recv sock, answer⟩ ∉
      (afterRecv pid sock' answer').trace handler s := by
  cases answer' with
  | none => exact not_recv_mem_cleanup
  | some reply =>
      rw [afterRecv]
      cases checkReply pid 1 reply.1 0 reply.1.length with
      | error crash =>
          intro hMem
          cases hMem
      | ok ret => exact not_recv_mem_cleanup

theorem setLinkXdpFd_eq
    (pid ifindex fd flags : BitVec 32) :
    setLinkXdpFd pid ifindex fd flags =
      .call .socket fun sock : ℤ =>
        if sock < 0 then .ret (-1)
        else .call (.bind sock) fun err : ℤ =>
          if err < 0 then cleanup sock (-1)
          else
            .call (.send sock (linkRequest 1 ifindex fd flags))
              fun err : ℤ =>
                if err < 0 then cleanup sock (-1)
                else .call (.recv sock) (afterRecv pid sock) := by
  refine congrArg (CallProg.call _) (funext fun sock => ?_)
  refine ite_congr rfl (fun _ => rfl) fun _ => ?_
  refine congrArg (CallProg.call _) (funext fun err => ?_)
  refine ite_congr rfl (fun _ => rfl) fun _ => ?_
  refine congrArg (CallProg.call _) (funext fun err => ?_)
  refine ite_congr rfl (fun _ => rfl) fun _ => ?_
  refine congrArg (CallProg.call _) (funext fun answer => ?_)
  cases answer with
  | none => rfl
  | some reply => rfl

/- A call behind another one. -/
theorem mem_trace_of_ne
    {α : Type}
    {op : NetCall}
    {next : op.Resp → NetProg α}
    {answer : Option Reply}
    (hMem :
      ⟨.recv sock, answer⟩ ∈
        (CallProg.call op next : NetProg α).trace handler s)
    (hNe : op ≠ .recv sock) :
    ⟨.recv sock, answer⟩ ∈
      (next (handler op s).1).trace handler
        (handler op s).2 := by
  rcases List.mem_cons.mp hMem with hEq | hTail
  · cases hEq
    exact absurd rfl hNe
  · exact hTail

/- A run that gets to `recv` goes on with its answer. -/
theorem run_of_recv
    {pid ifindex fd flags : BitVec 32}
    {answer : Option Reply}
    (hRecv :
      ⟨.recv sock, answer⟩ ∈
        (setLinkXdpFd pid ifindex fd flags).trace handler s) :
    ∃ s',
      (setLinkXdpFd pid ifindex fd flags).run handler s =
        (afterRecv pid sock answer).run handler s' := by
  rw [setLinkXdpFd_eq] at hRecv ⊢
  have hBound := mem_trace_of_ne hRecv NetCall.noConfusion
  rw [CallProg.run_call]
  generalize handler .socket s = opened at hBound ⊢
  rcases opened with ⟨sock₀, s₁⟩
  by_cases hSock : sock₀ < 0
  · rw [if_pos hSock] at hBound
    cases hBound
  rw [if_neg hSock] at hBound ⊢
  have hSent := mem_trace_of_ne hBound NetCall.noConfusion
  rw [CallProg.run_call]
  generalize handler (.bind sock₀) s₁ = bound at hSent ⊢
  rcases bound with ⟨err, s₂⟩
  by_cases hBind : err < 0
  · rw [if_pos hBind] at hSent
    exact absurd hSent not_recv_mem_cleanup
  rw [if_neg hBind] at hSent ⊢
  have hRecv' := mem_trace_of_ne hSent NetCall.noConfusion
  rw [CallProg.run_call]
  generalize
    handler (.send sock₀ (linkRequest 1 ifindex fd flags)) s₂ =
      sent at hRecv' ⊢
  rcases sent with ⟨err', s₃⟩
  by_cases hSend : err' < 0
  · rw [if_pos hSend] at hRecv'
    exact absurd hRecv' not_recv_mem_cleanup
  rw [if_neg hSend] at hRecv' ⊢
  rcases List.mem_cons.mp hRecv' with hEq | hTail
  · cases hEq
    exact ⟨_, rfl⟩
  · exact absurd hTail not_recv_mem_afterRecv

/-
  For every reply that is received, the function reads only
  received bytes and returns 0 just if the reply acknowledges
  the request, exactly if it is one of these replies.
-/
theorem setLinkXdpFd_judges_reply
    {pid ifindex fd flags : BitVec 32}
    {reply : Reply}
    (hRecv :
      ⟨.recv sock, some reply⟩ ∈
        (setLinkXdpFd pid ifindex fd flags).trace handler s) :
    (∃ ret,
      ((setLinkXdpFd pid ifindex fd flags).run handler s).1 =
          .returned ret ∧
        (ret = 0 ↔ Acknowledged pid 1 reply.1)) ↔
      JudgedRight pid 1 reply.1 := by
  rw [← checkReply_right_iff]
  rcases run_of_recv hRecv with ⟨s', hRun⟩
  rw [hRun, afterRecv]
  cases checkReply pid 1 reply.1 0 reply.1.length with
  | error crash =>
      constructor
      · rintro ⟨ret, hRet, _⟩
        cases hRet
      · rintro ⟨ret, hRet, _⟩
        cases hRet
  | ok ret =>
      constructor
      · rintro ⟨ret', hRet, hRight⟩
        cases hRet
        exact ⟨ret, rfl, hRight⟩
      · rintro ⟨ret', hRet, hRight⟩
        cases hRet
        exact ⟨ret, rfl, hRight⟩

end

------------------------------------------------------------
-- Two Replies
------------------------------------------------------------

/- An environment in which `reply` is received. -/
def answersWith
    (reply : Reply) :
    CallProg.Handler NetCall NetCall.Resp Unit
  | .socket, s => ((3 : ℤ), s)
  | .bind _, s => ((0 : ℤ), s)
  | .send _ req, s => ((req.length : ℤ), s)
  | .recv _, s => (some reply, s)
  | .close _, s => ((0 : ℤ), s)

/- The kernel's answer to a request of process 77. -/
def ackReply : ByteSeq :=
  leBytes 4 36 ++ leBytes 2 2 ++ leBytes 2 0 ++ leBytes 4 1 ++
    leBytes 4 77 ++ leBytes 4 0 ++ List.replicate 16 0

theorem messages_ackReply :
    messages ackReply 0 = [0] := by
  rw [messages, dif_pos (by decide), messages,
    dif_neg (by decide)]

theorem ackReply_judged_right :
    ∃ ret,
      ((setLinkXdpFd 77 2 5 0).run
          (answersWith ⟨ackReply, by decide⟩) ()).1 =
          .returned ret ∧
        (ret = 0 ↔ Acknowledged 77 1 ackReply) := by
  have hRecv :
      ⟨.recv 3, some ⟨ackReply, by decide⟩⟩ ∈
        (setLinkXdpFd 77 2 5 0).trace
          (answersWith ⟨ackReply, by decide⟩) () := by
    rw [setLinkXdpFd_eq]
    exact .tail _ (.tail _ (.tail _ (.head _)))
  apply (setLinkXdpFd_judges_reply hRecv).mpr
  apply judgedRight_of_errors
  · rw [messages_ackReply]
    intro m hMem _
    cases List.mem_singleton.mp hMem
    decide
  · rw [messages_ackReply]
    exact ⟨0, List.mem_cons_self, by decide⟩

/- Without any message in the reply, 0 is returned. -/
theorem empty_reply_accepted :
    ⟨.recv 3, some ⟨[], by decide⟩⟩ ∈
        (setLinkXdpFd 77 2 5 0).trace
          (answersWith ⟨[], by decide⟩) () ∧
      ((setLinkXdpFd 77 2 5 0).run
          (answersWith ⟨[], by decide⟩) ()).1 =
        .returned 0 ∧
        ¬ Acknowledged 77 1 [] := by
  have hNone : messages [] 0 = [] := by
    rw [messages, dif_neg (by decide)]
  have hCheck : checkReply 77 1 [] 0 0 = .ok 0 := by
    rw [checkReply]
    rfl
  refine ⟨?_, ?_, ?_⟩
  · rw [setLinkXdpFd_eq]
    exact .tail _ (.tail _ (.tail _ (.head _)))
  · rw [setLinkXdpFd_eq]
    change ((CallProg.ofExcept (checkReply 77 1 [] 0 0) >>=
      cleanup 3).run _ ()).1 = _
    rw [hCheck]
    rfl
  · rintro ⟨⟨m, hMem, _⟩, _⟩
    rw [hNone] at hMem
    cases hMem

end XdpDdos
