import XdpDdos.Tcpdump.Loop

/-
  What `xdp_tcpdump` dumps, in every run.

  Main declarations:
    * `TcpdumpStep.meets`
    * `frames_dumped_in_order`
    * `frames_dumped_when_tail_stored`
    * `poller_crashes_only_without_memory`
-/

------------------------------------------------------------
-- The Kernel's Steps
------------------------------------------------------------

namespace XdpDdos.Tcpdump

open CallProg

variable {nrCpus size pageSize : ℕ}

/- One ring changes, the other ones stay as they are. -/
theorem kernelMoves_setRing
    (s : Shared nrCpus size)
    (g : Ledger nrCpus)
    {cpu : Fin nrCpus}
    {ring : PerfRing size}
    {more : List ByteSeq}
    (hHolds :
      ∀ tail, (s.rings cpu).Holds (g.written cpu) tail →
        ring.Holds (g.written cpu ++ more) tail) :
    KernelMoves (s, g)
      (s.setRing cpu ring,
        { g with
          written :=
            Function.update g.written cpu
              (g.written cpu ++ more) }) := by
  refine ⟨rfl, rfl, rfl, rfl, rfl, ?_, ?_⟩
  · intro cpu'
    by_cases hHere : cpu' = cpu
    · subst hHere
      simp only [Function.update_self]
      exact List.prefix_append _ _
    · simp only [Function.update_of_ne hHere]
      exact List.prefix_rfl
  · intro cpu' tail hOld
    by_cases hHere : cpu' = cpu
    · subst hHere
      simp only [Shared.setRing, Function.update_self]
      exact hHolds tail hOld
    · simp only [Shared.setRing, Function.update_of_ne hHere]
      exact hOld

theorem kernelMoves_output
    (s : Shared nrCpus size)
    (g : Ledger nrCpus)
    {cpu : Fin nrCpus}
    {record : ByteSeq}
    (hWrap : size ∣ 2 ^ 64)
    (hLegal : Legal record)
    (hRoom : (s.rings cpu).HasRoom record) :
    KernelMoves (s, g)
      (s.setRing cpu ((s.rings cpu).output record),
        g.write cpu record) :=
  kernelMoves_setRing s g fun _ hHolds =>
    hHolds.output hWrap hLegal hRoom

theorem kernelMoves_poke
    (s : Shared nrCpus size)
    (g : Ledger nrCpus)
    {cpu : Fin nrCpus}
    {off : ℕ}
    (hWrap : size ∣ 2 ^ 64)
    (hFree : (s.rings cpu).IsFree off)
    (b : Byte) :
    KernelMoves (s, g)
      (s.setRing cpu ((s.rings cpu).poke off b), g) := by
  refine ⟨rfl, rfl, rfl, rfl, rfl, fun _ => List.prefix_rfl, ?_⟩
  intro cpu' tail hOld
  by_cases hHere : cpu' = cpu
  · subst hHere
    simp only [Shared.setRing, Function.update_self]
    exact hOld.poke hWrap hFree b
  · simp only [Shared.setRing, Function.update_of_ne hHere]
    exact hOld

theorem page_wraps
    (hPage : pageSize ∣ 2 ^ 61) :
    PAGE_CNT * pageSize ∣ 2 ^ 64 := by
  rw [show 2 ^ 64 = PAGE_CNT * 2 ^ 61 from rfl]
  exact Nat.mul_dvd_mul_left PAGE_CNT hPage

------------------------------------------------------------
-- Every Step
------------------------------------------------------------

section

variable {t t' : TcpdumpState nrCpus pageSize}
variable {g g' : Ledger nrCpus}
variable {e : TcpdumpEvent nrCpus}
variable {r : TcpdumpResponse nrCpus}

/- What is left of the poller's block meets its end. -/
def OnTrack
    (t : TcpdumpState nrCpus pageSize)
    (g : Ledger nrCpus) : Prop :=
  t.control.Meets
    (tcpdumpWorld nrCpus (PAGE_CNT * pageSize)) LabelInv
    (t.shared, g)

theorem TcpdumpStep.onTrack
    (hStep : TcpdumpStep t g e r t' g')
    (hPage : pageSize ∣ 2 ^ 61)
    (hTrack : OnTrack t g) :
    OnTrack t' g' := by
  have hWrap := page_wraps hPage
  cases hStep with
  | stayed _ => exact hTrack
  | sampled hSample hRoom =>
      exact Meets.others hTrack
        (kernelMoves_output t.shared g hWrap (.sample hSample)
          hRoom)
  | wrote hOther hRoom =>
      exact Meets.others hTrack
        (kernelMoves_output t.shared g hWrap (.other hOther)
          hRoom)
  | poked hFree =>
      exact Meets.others hTrack
        (kernelMoves_poke t.shared g hWrap hFree _)
  | jumped hControl =>
      unfold OnTrack at hTrack
      rw [hControl] at hTrack
      exact hTrack.jump (pcapPerfEventPoller_triple hPage)
  | accessed hControl =>
      unfold OnTrack at hTrack
      rw [hControl] at hTrack
      exact hTrack.access ⟨_, rfl, rfl⟩

theorem onTrack_boot
    (hPage : pageSize ∣ 2 ^ 61) :
    OnTrack (.boot : TcpdumpState nrCpus pageSize) .fresh := by
  have hSize : 0 < PAGE_CNT * pageSize :=
    Nat.pos_of_dvd_of_pos (page_wraps hPage) (by decide)
  have hIdle :
      Idle ⟨false, 0⟩
        ((.fresh, .fresh) :
          Scene nrCpus (PAGE_CNT * pageSize)) := by
    refine ⟨fun cpu => ⟨[], ?_⟩, rfl, .inr (.inr rfl)⟩
    exact ⟨PerfRing.holds_fresh hSize, List.nil_prefix,
      Nat.le_refl 0, rfl⟩
  exact fun x hMoves => stable_idle _ _ hMoves hIdle

theorem OnTrack.consistent
    (hTrack : OnTrack t g) :
    Consistent (t.shared, g) := by
  unfold OnTrack at hTrack
  cases hControl : t.control with
  | ret l =>
      rw [hControl] at hTrack
      have hInv := hTrack (t.shared, g) (.refl _)
      cases l with
      | start => exact Idle.consistent hInv
      | poll buf => exact Idle.consistent hInv
      | fds revents i buf => exact Idle.consistent hInv
      | reading revents i c buf =>
          rcases hInv with ⟨_, _, _, _, _, _, _, hMid⟩
          exact hMid.consistent
      | returned ret =>
          rcases hInv with ⟨buf, hIdle⟩
          exact hIdle.consistent
  | halt how =>
      rw [hControl] at hTrack
      exact hTrack.mayHalt.1
  | call op next =>
      rw [hControl] at hTrack
      exact hTrack.allows.1

theorem packets_write
    (g : Ledger nrCpus)
    (cpu cpu' : Fin nrCpus)
    (record : ByteSeq) :
    packets ((g.write cpu' record).written cpu) =
      packets (g.written cpu) ++
        if cpu' = cpu then (packetOf record).toList else [] := by
  by_cases hHere : cpu' = cpu
  · subst hHere
    rw [if_pos rfl, ← packets_concat]
    simp only [Ledger.write, Function.update_self]
  · rw [if_neg hHere, List.append_nil]
    simp only [Ledger.write,
      Function.update_of_ne (Ne.symm hHere)]

/- The packets of what was written are the frames. -/
theorem TcpdumpStep.packets_written
    (hStep : TcpdumpStep t g e r t' g')
    (cpu : Fin nrCpus) :
    packets (g'.written cpu) =
      packets (g.written cpu) ++ captured cpu [(e, r)] := by
  cases hStep with
  | stayed hQuiet =>
      rw [hQuiet cpu, List.append_nil]
  | @sampled cpu' ctx record action hSample hRoom =>
      rw [packets_write, packetOf_sample hSample, captured]
      by_cases hHere : cpu' = cpu
      · simp [hHere]
      · simp [hHere]
  | wrote hOther hRoom =>
      rw [packets_write, packetOf_other hOther, captured]
      simp
  | poked hFree => exact (List.append_nil _).symm
  | jumped hControl => exact (List.append_nil _).symm
  | @accessed a op next hControl =>
      have hSame :
          (g.access a op).written = g.written := by
        cases op <;> rfl
      rw [hSame]
      exact (List.append_nil _).symm

/- What was seen of a ring was written to it. -/
def SeenOk
    (g : Ledger nrCpus) : Prop :=
  ∀ cpu, g.seen cpu <+: g.written cpu

theorem TcpdumpStep.seen
    (hStep : TcpdumpStep t g e r t' g')
    (hSeen : SeenOk g) :
    SeenOk g' ∧ ∀ cpu, g.seen cpu <+: g'.seen cpu := by
  have hWrite
      (cpu : Fin nrCpus)
      (record : ByteSeq) :
      SeenOk (g.write cpu record) := by
    intro cpu'
    by_cases hHere : cpu' = cpu
    · subst hHere
      simp only [Ledger.write, Function.update_self]
      exact (hSeen cpu').trans (List.prefix_append _ _)
    · simp only [Ledger.write, Function.update_of_ne hHere]
      exact hSeen cpu'
  cases hStep with
  | stayed _ => exact ⟨hSeen, fun _ => List.prefix_rfl⟩
  | sampled hSample hRoom =>
      exact ⟨hWrite _ _, fun _ => List.prefix_rfl⟩
  | wrote hOther hRoom =>
      exact ⟨hWrite _ _, fun _ => List.prefix_rfl⟩
  | poked hFree => exact ⟨hSeen, fun _ => List.prefix_rfl⟩
  | jumped hControl => exact ⟨hSeen, fun _ => List.prefix_rfl⟩
  | @accessed a op next hControl =>
      cases op with
      | loadHead cpu =>
          refine ⟨fun cpu' => ?_, fun cpu' => ?_⟩
          · by_cases hHere : cpu' = cpu
            · subst hHere
              simp only [Ledger.access, Function.update_self]
              exact List.prefix_rfl
            · simp only [Ledger.access,
                Function.update_of_ne hHere]
              exact hSeen cpu'
          · by_cases hHere : cpu' = cpu
            · subst hHere
              simp only [Ledger.access, Function.update_self]
              exact hSeen cpu'
            · simp only [Ledger.access,
                Function.update_of_ne hHere]
              exact List.prefix_rfl
      | _ => exact ⟨hSeen, fun _ => List.prefix_rfl⟩

end

------------------------------------------------------------
-- Every Run
------------------------------------------------------------

/- The ledger of a run. -/
def ledger
    (t : TcpdumpState nrCpus pageSize)
    (g : Ledger nrCpus)
    (es : List (TcpdumpEvent nrCpus)) : Ledger nrCpus :=
  tcpdumpSystem.ghost Ledger.update t g es

theorem onTrack_run
    (hPage : pageSize ∣ 2 ^ 61)
    {t : TcpdumpState nrCpus pageSize}
    {g : Ledger nrCpus}
    (hTrack : OnTrack t g)
    (es : List (TcpdumpEvent nrCpus)) :
    OnTrack (tcpdumpSystem.final t es) (ledger t g es) :=
  tcpdumpSystem.ghost_simulation Ledger.update OnTrack
    (fun t g e hHere =>
      (tcpdumpSystem_step t g e).onTrack hPage hHere)
    hTrack es

theorem packets_run
    (t : TcpdumpState nrCpus pageSize)
    (g : Ledger nrCpus)
    (es : List (TcpdumpEvent nrCpus))
    (cpu : Fin nrCpus) :
    packets ((ledger t g es).written cpu) =
      packets (g.written cpu) ++
        captured cpu (tcpdumpSystem.trace t es) := by
  induction es generalizing t g with
  | nil => exact (List.append_nil _).symm
  | cons e es ih =>
      have hHere :=
        (tcpdumpSystem_step t g e).packets_written cpu
      have hSplit :
          captured cpu (tcpdumpSystem.trace t (e :: es)) =
            captured cpu [(e, (tcpdumpSystem.step t e).1)] ++
              captured cpu
                (tcpdumpSystem.trace
                  (tcpdumpSystem.step t e).2 es) := by
        rw [captured, captured, captured, ← List.filterMap_append]
        rfl
      rw [hSplit, ← List.append_assoc, ← hHere]
      exact ih _ _

theorem seen_run
    (t : TcpdumpState nrCpus pageSize)
    {g : Ledger nrCpus}
    (hSeen : SeenOk g)
    (es : List (TcpdumpEvent nrCpus)) :
    SeenOk (ledger t g es) ∧
      ∀ cpu, g.seen cpu <+: (ledger t g es).seen cpu := by
  induction es generalizing t g with
  | nil => exact ⟨hSeen, fun _ => List.prefix_rfl⟩
  | cons e es ih =>
      have hHere := (tcpdumpSystem_step t g e).seen hSeen
      have hRest := ih (tcpdumpSystem.step t e).2 hHere.1
      exact ⟨hRest.1, fun cpu =>
        (hHere.2 cpu).trans (hRest.2 cpu)⟩

/- What was written when a head is loaded is seen later. -/
theorem written_prefix_seen
    {t : TcpdumpState nrCpus pageSize}
    {g : Ledger nrCpus}
    (hSeen : SeenOk g)
    {cpu : Fin nrCpus}
    (hLoads : t.control.nextCall? = some (.loadHead cpu))
    (a : Answers nrCpus)
    (es : List (TcpdumpEvent nrCpus)) :
    g.written cpu <+:
      (ledger t g (.access a :: es)).seen cpu := by
  rcases exists_of_nextCall? hLoads with ⟨next, hLoad⟩
  have hStep := (tcpdumpSystem_step t g (.access a)).seen hSeen
  have hLater :=
    (seen_run (tcpdumpSystem.step t (.access a)).2 hStep.1
      es).2 cpu
  have hLoaded :
      (Ledger.update t (.access a)
        (tcpdumpSystem.step t (.access a)).1 g).seen cpu =
          g.written cpu := by
    simp only [Ledger.update, hLoad, Ledger.access,
      Function.update_self]
  rw [hLoaded] at hLater
  exact hLater

theorem packets_prefix
    {records records' : List ByteSeq}
    (hPrefix : records <+: records') :
    packets records <+: packets records' :=
  hPrefix.filterMap packetOf

theorem packets_boot
    (es : List (TcpdumpEvent nrCpus))
    (cpu : Fin nrCpus) :
    packets
        ((ledger (.boot : TcpdumpState nrCpus pageSize) .fresh
          es).written cpu) =
      captured cpu
        (tcpdumpSystem.trace
          (.boot : TcpdumpState nrCpus pageSize) es) :=
  packets_run .boot .fresh es cpu

/- All records before an unread byte that there is not. -/
theorem UpTo.done_eq
    {cpu : Fin nrCpus}
    {tail : ℕ}
    {done : List ByteSeq}
    {x : Scene nrCpus size}
    (hUpTo : UpTo cpu tail done x)
    (hEmpty : (x.2.written cpu).flatten.length = tail) :
    done = x.2.written cpu := by
  have hTail := hUpTo.tail_le
  have hLegal := hUpTo.holds.legal
  rcases hUpTo.done_prefix with ⟨rest, hRest⟩
  rw [← hRest] at hEmpty hLegal ⊢
  rw [List.flatten_append, List.length_append] at hEmpty
  cases rest with
  | nil => exact (List.append_nil done).symm
  | cons record rest =>
      have hHeader :=
        (hLegal record (List.mem_append_right _
          List.mem_cons_self)).ok.header
      rw [List.flatten_cons, List.length_append] at hEmpty
      omega

/-
  The file is made of the frames of each CPU in the order in
  which the kernel took them: none twice, none left out, and
  of a ring without unread records, all.
-/
theorem frames_dumped_in_order
    (hPage : pageSize ∣ 2 ^ 61)
    (es : List (TcpdumpEvent nrCpus))
    {t : TcpdumpState nrCpus pageSize}
    (hRun : t = tcpdumpSystem.final .boot es) :
    ∃ dumped : List (Fin nrCpus × PcapPacket),
      dumped.map Prod.snd = t.shared.pcap ∧
      ∀ cpu,
        dumpedOn cpu dumped <+:
          captured cpu
            (tcpdumpSystem.trace
              (.boot : TcpdumpState nrCpus pageSize) es) ∧
        ((t.shared.rings cpu).dataHead =
            (t.shared.rings cpu).dataTail →
          dumpedOn cpu dumped =
            captured cpu
              (tcpdumpSystem.trace
                (.boot : TcpdumpState nrCpus pageSize) es)) := by
  subst hRun
  have hTrack := onTrack_run hPage (onTrack_boot hPage) es
  rcases hTrack.consistent with ⟨hBooked, hOrder⟩
  refine ⟨_, hBooked.symm, fun cpu => ?_⟩
  rcases hOrder cpu with ⟨tail, done, hUpTo⟩
  have hDumped := hUpTo.dumped
  rw [← packets_boot]
  constructor
  · rw [hDumped]
    exact packets_prefix hUpTo.done_prefix
  · intro hEmpty
    have hAll :=
      (hUpTo.holds.head_eq_tail_iff (page_wraps hPage)).mp
        hEmpty
    rw [hDumped, hUpTo.done_eq hAll]

def RING0 : Fin 2 := (Fin.last 0).castSucc

def RING1 : Fin 2 := Fin.last 1

/- A frame of three bytes, and a record of `n` bytes of it. -/
def shortFrame
    (cpu : Fin 2)
    (n : ℕ) : TcpdumpEvent 2 :=
  let ctx : ByteSeq := [BitVec.ofNat 8 n, 2, 3]
  .receive cpu ctx
    ([9, 0, 0, 0, 0, 0, BitVec.ofNat 8 n, 0,
        BitVec.ofNat 8 (n - 12), 0, 0, 0, 0xa9, 0x9c, 3, 0] ++
      ctx ++ List.replicate (n - 19) 0)

/- All rings have `revents`. -/
def polled
    (mallocOk : Bool) : Answers 2 where
  mallocOk := mallocOk
  revents := fun _ => true

def accesses
    (n : ℕ)
    (mallocOk : Bool) : List (TcpdumpEvent 2) :=
  List.replicate n (.access (polled mallocOk))

/-
  Two frames on each CPU.  The rings have 64 bytes, so that
  the second record of each goes around the end.
-/
def wrappedRun : List (TcpdumpEvent 2) :=
  [shortFrame RING0 48, shortFrame RING1 56] ++
    accesses 40 true ++
    [shortFrame RING0 40, shortFrame RING1 48] ++
    accesses 31 true

def afterWrap : TcpdumpState 2 8 :=
  tcpdumpSystem.final .boot wrappedRun

theorem frames_dumped_in_order_wrappedRun :
    afterWrap.shared.pcap.map PcapPacket.data =
        [[48, 2, 3], [56, 2, 3], [40, 2, 3], [48, 2, 3]] ∧
      ∃ dumped : List (Fin 2 × PcapPacket),
        dumped.map Prod.snd = afterWrap.shared.pcap ∧
        ∀ cpu,
          dumpedOn cpu dumped <+:
            captured cpu
              (tcpdumpSystem.trace (.boot : TcpdumpState 2 8)
                wrappedRun) ∧
          ((afterWrap.shared.rings cpu).dataHead =
              (afterWrap.shared.rings cpu).dataTail →
            dumpedOn cpu dumped =
              captured cpu
                (tcpdumpSystem.trace
                  (.boot : TcpdumpState 2 8) wrappedRun)) := by
  refine ⟨by decide +kernel, ?_⟩
  exact frames_dumped_in_order (by decide) wrappedRun rfl

/-
  When the poller stores the tail of a ring, it has dumped
  all frames that the kernel had taken when the poller loaded
  the head of the ring.
-/
theorem frames_dumped_when_tail_stored
    (hPage : pageSize ∣ 2 ^ 61)
    {es es' : List (TcpdumpEvent nrCpus)}
    {a : Answers nrCpus}
    {t t' : TcpdumpState nrCpus pageSize}
    (hRun : t = tcpdumpSystem.final .boot es)
    (hRun' : t' = tcpdumpSystem.final t (.access a :: es'))
    (hOk :
      (ledger (.boot : TcpdumpState nrCpus pageSize) .fresh
        (es ++ .access a :: es')).failed = false)
    {cpu : Fin nrCpus}
    {dataTail : BitVec 64}
    (hLoads : t.control.nextCall? = some (.loadHead cpu))
    (hStores :
      t'.control.nextCall? =
        some (.storeTail cpu dataTail)) :
    ∃ dumped : List (Fin nrCpus × PcapPacket),
      dumped.map Prod.snd = t'.shared.pcap ∧
      captured cpu
          (tcpdumpSystem.trace
            (.boot : TcpdumpState nrCpus pageSize) es) <+:
        dumpedOn cpu dumped := by
  have hFinal :
      t' = tcpdumpSystem.final .boot (es ++ .access a :: es') := by
    rw [Reactive.final_append, ← hRun, hRun']
  have hTrack :=
    onTrack_run hPage (onTrack_boot hPage)
      (es ++ .access a :: es')
  rw [← hFinal] at hTrack
  refine ⟨_, hTrack.consistent.1.symm, ?_⟩
  rcases exists_of_nextCall? hStores with ⟨next', hStore⟩
  unfold OnTrack at hTrack
  rw [hStore] at hTrack
  have hCaught := hTrack.allows.2 hOk
  apply List.IsPrefix.trans _ hCaught
  rw [← packets_boot]
  apply packets_prefix
  -- the head is loaded by the first of the later steps
  have hWritten := seen_run (.boot : TcpdumpState nrCpus pageSize)
    (g := .fresh) (fun _ => List.prefix_rfl) es
  rw [hRun] at hLoads
  unfold ledger
  rw [Reactive.ghost_append]
  exact written_prefix_seen hWritten.1 hLoads a es'

/- A frame, up to where the head of its ring is loaded. -/
def untilHead : List (TcpdumpEvent 2) :=
  shortFrame RING0 24 :: accesses 6 true

def atHead : TcpdumpState 2 16 :=
  tcpdumpSystem.final .boot untilHead

def atTail : TcpdumpState 2 16 :=
  tcpdumpSystem.final atHead
    (.access (polled true) :: accesses 13 true)

theorem frames_dumped_when_tail_stored_oneFrame :
    ∃ dumped : List (Fin 2 × PcapPacket),
      dumped.map Prod.snd = atTail.shared.pcap ∧
      captured RING0
          (tcpdumpSystem.trace (.boot : TcpdumpState 2 16)
            untilHead) <+:
        dumpedOn RING0 dumped := by
  have hOk :
      (ledger (.boot : TcpdumpState 2 16) .fresh
        (untilHead ++
          .access (polled true) ::
            accesses 13 true)).failed = false := by
    decide +kernel
  have hLoads :
      atHead.control.nextCall? = some (.loadHead RING0) := by
    decide +kernel
  have hStores :
      atTail.control.nextCall? =
        some (.storeTail RING0 24) := by
    decide +kernel
  exact @frames_dumped_when_tail_stored 2 16 (by decide)
    untilHead (accesses 13 true) (polled true) atHead atTail rfl
    rfl hOk RING0 24 hLoads hStores

/-
  The poller reads nothing outside a ring or a buffer.  It
  crashes only where `*buf` is `NULL` although `*buf_len` is
  not zero, after an allocation has failed.
-/
theorem poller_crashes_only_without_memory
    (hPage : pageSize ∣ 2 ^ 61)
    {es : List (TcpdumpEvent nrCpus)}
    {how : Halt}
    (hHalted :
      (tcpdumpSystem.final (.boot : TcpdumpState nrCpus pageSize)
        es).control.halted? = some how) :
    how = .crash .nullPointer ∧
      (ledger (.boot : TcpdumpState nrCpus pageSize) .fresh
        es).failed = true := by
  have hTrack := onTrack_run hPage (onTrack_boot hPage) es
  unfold OnTrack at hTrack
  rw [eq_of_halted? hHalted] at hTrack
  exact ⟨hTrack.mayHalt.2.1, hTrack.mayHalt.2.2⟩

/-
  A buffer of 40 bytes is given up for one of 48 bytes that
  is refused; the next event of 24 bytes is copied to `NULL`.
-/
def refusedRun : List (TcpdumpEvent 2) :=
  [shortFrame RING0 48, shortFrame RING1 48] ++
    accesses 40 true ++
    [shortFrame RING0 40, shortFrame RING1 48] ++
    accesses 23 true ++ accesses 1 false ++
    [shortFrame RING0 24, shortFrame RING0 24] ++
    accesses 21 true

theorem poller_crashes_only_without_memory_refusedRun :
    Halt.crash .nullPointer = .crash .nullPointer ∧
      (ledger (.boot : TcpdumpState 2 8) .fresh
        refusedRun).failed = true := by
  have hHalted :
      (tcpdumpSystem.final (.boot : TcpdumpState 2 8)
        refusedRun).control.halted? =
          some (.crash .nullPointer) := by
    decide +kernel
  exact poller_crashes_only_without_memory (by decide) hHalted

end XdpDdos.Tcpdump
