import XdpDdos.Loader.MapsStage
import XdpDdos.Loader.SectionCalls

/-
  What the last pass makes of an arbitrary object.

  Whether a program can be attached is decided by the name of
  its section; whether it is loaded and attached, by the
  kernel too.

  Main declarations:
    * `AttachEnd`, `attachEnd`
    * `attach`, `loadAndAttach_of_type`
    * `AttachSpec`, `attachSpec_attach`
    * `Elf.LoadsAs`, `Elf.StopsUnloaded`
    * `StopsUnloaded.obeys`, `runsThrough`
-/

------------------------------------------------------------
-- Attaching a Program
------------------------------------------------------------

namespace XdpDdos

/-
  How attaching may end: with 0 if the calls succeed, always
  with an error, or past the end of the section's name.
-/
inductive AttachEnd where
  | attached
  | refused
  | outside
  deriving Repr, DecidableEq

/- A program whose index is read at `i`. -/
def numeralEnd
    (event : TableStr)
    (i : ℕ) : AttachEnd :=
  match numeralAt event i with
  | .error _ => .outside
  | .ok _ => .attached

/- A program of a program array: its index follows a `/`. -/
def progArrayEnd
    (event : TableStr)
    (skip : ℕ) : AttachEnd :=
  match charAt event skip with
  | .error _ => .outside
  | .ok c =>
      if c ≠ some '/' then .attached
      else
        match charAt event (skip + 1) with
        | .error _ => .outside
        | .ok c =>
            if c.any Char.isDigit then
              numeralEnd event (skip + 1)
            else .refused

/- A program for an event: its name must not be empty. -/
def tracingEnd
    (event : TableStr)
    (skip : ℕ)
    (isTracepoint : Bool) : AttachEnd :=
  match charAt event skip with
  | .error _ => .outside
  | .ok none => .refused
  | .ok (some digit) =>
      if !isTracepoint && digit.isDigit then
        numeralEnd event skip
      else .attached

def attachEnd
    (progType : BpfProgType)
    (event : TableStr) : AttachEnd :=
  match progType with
  | .xdp | .perfEvent | .cgroupSkb | .cgroupSock => .attached
  | .socketFilter => progArrayEnd event 6
  | .sockOps | .skSkb => progArrayEnd event 7
  | .kprobe =>
      tracingEnd event
        (if "kprobe/".toList.isPrefixOf event.str then 7
        else 10)
        false
  | .tracepoint => tracingEnd event 11 true

/- What `load_and_attach` does with a loaded program. -/
def attach
    (progType : BpfProgType)
    (event : TableStr)
    (fd : ℤ)
    (g : LoaderGlobals) : LoadProg ℤ :=
  match progType with
  | .xdp | .perfEvent | .cgroupSkb | .cgroupSock => return 0
  | .socketFilter => attachProgArray event 6 fd g
  | .sockOps | .skSkb => attachProgArray event 7 fd g
  | .kprobe =>
      attachTracing event
        (if "kprobe/".toList.isPrefixOf event.str then 7
        else 10)
        false fd g
  | .tracepoint => attachTracing event 11 true fd g

/- What it does with the answer of `bpf_load_program`. -/
def afterLoad
    (progType : BpfProgType)
    (event : TableStr)
    (fd : ℤ)
    (g : LoaderGlobals) : LoadProg (ℤ × LoaderGlobals) :=
  if fd < 0 then return (-1, g)
  else if g.progCnt ≥ MAX_PROGS then
    .halt (.crash .outOfRange)
  else do
    let ret ← attach progType event fd (g.addProg fd)
    return (ret, g.addProg fd)

theorem loadAndAttach_of_type
    {event : TableStr}
    {progType : BpfProgType}
    (hType : progTypeOf event.str = some progType)
    (data : ElfData)
    (g : LoaderGlobals) :
    loadAndAttach event data g =
      .call (.loadProgram progType data.dBuf
          (insnsCount data.dSize) g.license g.kernVersion)
        fun fd : ℤ => afterLoad progType event fd g := by
  rw [loadAndAttach, hType]
  simp only [CallProg.call'_bind, CallProg.call.injEq,
    heq_eq_eq, true_and]
  funext fd
  refine ite_congr rfl (fun _ => rfl) fun _ => ?_
  refine ite_congr rfl (fun _ => rfl) fun _ => ?_
  cases progType with
  | _ => rfl

/- What the end of a name tells about attaching. -/
structure AttachSpec
    (e : AttachEnd)
    (p : LoadProg ℤ) : Prop where
  halts : e ≠ .outside → ∀ Q, p.HaltsAs Q
  refused : e = .refused → p.Leaves (· ≠ 0)
  attached :
    e = .attached → ∀ elf,
      p.run (allSucceed elf) () = (.returned 0, ())
  outside : e = .outside → p = .halt (.crash .outOfRange)

theorem attachSpec_ret :
    AttachSpec .attached (.ret 0) where
  halts := fun _ _ => trivial
  refused := by
    intro hEq
    cases hEq
  attached := fun _ _ => rfl
  outside := by
    intro hEq
    cases hEq

theorem attachSpec_fail :
    AttachSpec .refused (.ret (-1)) where
  halts := fun _ _ => trivial
  refused := by
    intro _
    exact Int.negSucc_ne_zero 0
  attached := by
    intro hEq
    cases hEq
  outside := by
    intro hEq
    cases hEq

theorem attachSpec_outside :
    AttachSpec .outside (.halt (.crash .outOfRange)) where
  halts := fun hNe => absurd rfl hNe
  refused := by
    intro hEq
    cases hEq
  attached := by
    intro hEq
    cases hEq
  outside := fun _ => rfl

theorem attachSpec_populateProgArray
    (event : CStr)
    (fd : ℤ)
    (g : LoaderGlobals) :
    AttachSpec .attached (populateProgArray event fd g) where
  halts := by
    intro _ Q
    refine CallProg.Obeys.bind ⟨trivial, fun _ => trivial⟩ ?_
    intro err
    split <;> trivial
  refused := by
    intro hEq
    cases hEq
  attached := fun _ _ => rfl
  outside := by
    intro hEq
    cases hEq

theorem attachSpec_numeralAt
    (event : TableStr)
    (i : ℕ)
    (fd : ℤ)
    (g : LoaderGlobals) :
    AttachSpec (numeralEnd event i)
      ((.ofExcept (numeralAt event i) : LoadProg CStr) >>=
        fun index => populateProgArray index fd g) := by
  rw [numeralEnd]
  cases hNumeral : numeralAt event i with
  | error crash =>
      rw [eq_outOfRange_of_numeralAt hNumeral]
      exact attachSpec_outside
  | ok index => exact attachSpec_populateProgArray _ _ _

theorem attachSpec_attachProgArray
    (event : TableStr)
    (skip : ℕ)
    (fd : ℤ)
    (g : LoaderGlobals) :
    AttachSpec (progArrayEnd event skip)
      (attachProgArray event skip fd g) := by
  rw [progArrayEnd, attachProgArray]
  cases hChar : charAt event skip with
  | error crash =>
      rw [eq_outOfRange_of_charAt hChar]
      exact attachSpec_outside
  | ok c =>
      simp only [CallProg.ofExcept_ok, CallProg.ret_bind]
      by_cases hSlash : c = some '/'
      · rw [if_neg (not_not_intro hSlash),
          if_neg (not_not_intro hSlash)]
        cases hDigit : charAt event (skip + 1) with
        | error crash =>
            rw [eq_outOfRange_of_charAt hDigit]
            exact attachSpec_outside
        | ok c' =>
            simp only [CallProg.ofExcept_ok,
              CallProg.ret_bind]
            split
            · exact attachSpec_numeralAt _ _ _ _
            · exact attachSpec_fail
      · rw [if_pos hSlash, if_pos hSlash]
        exact attachSpec_ret

theorem attachSpec_attachTracing
    (event : TableStr)
    (skip : ℕ)
    (isTracepoint : Bool)
    (fd : ℤ)
    (g : LoaderGlobals) :
    AttachSpec (tracingEnd event skip isTracepoint)
      (attachTracing event skip isTracepoint fd g) := by
  rw [tracingEnd, attachTracing]
  cases hChar : charAt event skip with
  | error crash =>
      rw [eq_outOfRange_of_charAt hChar]
      exact attachSpec_outside
  | ok c =>
      simp only [CallProg.ofExcept_ok, CallProg.ret_bind]
      cases c with
      | none => exact attachSpec_fail
      | some digit =>
          simp only
          split
          · exact attachSpec_numeralAt _ _ _ _
          · refine ⟨fun _ _ => ⟨trivial, fun _ => trivial⟩,
              ?_, fun _ _ => rfl, ?_⟩
            · intro hEq
              cases hEq
            · intro hEq
              cases hEq

theorem attachSpec_attach
    (progType : BpfProgType)
    (event : TableStr)
    (fd : ℤ)
    (g : LoaderGlobals) :
    AttachSpec (attachEnd progType event)
      (attach progType event fd g) := by
  cases progType with
  | xdp | perfEvent | cgroupSkb | cgroupSock =>
      exact attachSpec_ret
  | socketFilter | sockOps | skSkb =>
      exact attachSpec_attachProgArray _ _ _ _
  | kprobe | tracepoint =>
      exact attachSpec_attachTracing _ _ _ _ _

------------------------------------------------------------
-- Loading a Program
------------------------------------------------------------

section

variable {event : TableStr}
variable {progType : BpfProgType}
variable {data : ElfData}
variable {g : LoaderGlobals}

/- Loading halts only past the end of a table or a name. -/
theorem haltsAs_loadAndAttach_of_end
    (hType : progTypeOf event.str = some progType)
    (hEnd : attachEnd progType event ≠ .outside)
    (hRoom : g.progCnt < MAX_PROGS)
    (Q : Halt → Prop) :
    (loadAndAttach event data g).HaltsAs Q := by
  rw [loadAndAttach_of_type hType]
  refine ⟨trivial, fun fd : ℤ => ?_⟩
  change (afterLoad progType event fd g).HaltsAs Q
  rw [afterLoad]
  by_cases hFail : fd < 0
  · rw [if_pos hFail]
    trivial
  · rw [if_neg hFail, if_neg (Nat.not_le.mpr hRoom)]
    have hSpec :=
      attachSpec_attach progType event fd (g.addProg fd)
    exact (hSpec.halts hEnd Q).bind fun _ => trivial

/- Programs with some names are loaded for nothing. -/
theorem leaves_loadAndAttach_of_refused
    (hType : progTypeOf event.str = some progType)
    (hEnd : attachEnd progType event = .refused) :
    (loadAndAttach event data g).Leaves (·.1 ≠ 0) := by
  rw [loadAndAttach_of_type hType]
  intro (fd : ℤ)
  change (afterLoad progType event fd g).Leaves _
  rw [afterLoad]
  by_cases hFail : fd < 0
  · rw [if_pos hFail]
    exact Int.negSucc_ne_zero 0
  · rw [if_neg hFail]
    split
    · trivial
    · have hSpec :=
        attachSpec_attach progType event fd (g.addProg fd)
      exact (hSpec.refused hEnd).bind fun _ hRet => hRet

/- A program that is loaded and attached takes an entry. -/
theorem leaves_loadAndAttach
    (event : TableStr)
    (data : ElfData)
    (g : LoaderGlobals) :
    (loadAndAttach event data g).Leaves fun r =>
      r.1 = 0 →
        r.2.processedSec = g.processedSec ∧
          r.2.progCnt = g.progCnt + 1 := by
  cases hType : progTypeOf event.str with
  | none =>
      rw [loadAndAttach, hType]
      intro hRet
      exact absurd hRet (Int.negSucc_ne_zero 0)
  | some progType =>
      rw [loadAndAttach_of_type hType]
      intro (fd : ℤ)
      change (afterLoad progType event fd g).Leaves _
      rw [afterLoad]
      by_cases hFail : fd < 0
      · rw [if_pos hFail]
        intro hRet
        exact absurd hRet (Int.negSucc_ne_zero 0)
      · rw [if_neg hFail]
        split
        · trivial
        · exact (CallProg.leaves_true (fun _ => trivial)
            _).bind fun _ _ _ => ⟨rfl, rfl⟩

/- If all calls succeed, the name decides. -/
theorem run_loadAndAttach_of_attached
    (hType : progTypeOf event.str = some progType)
    (hEnd : attachEnd progType event = .attached)
    (hRoom : g.progCnt < MAX_PROGS)
    (elf : Elf) :
    (loadAndAttach event data g).run (allSucceed elf) () =
      (.returned (0, g.addProg 0), ()) := by
  have hSpec :=
    attachSpec_attach progType event 0 (g.addProg 0)
  rw [loadAndAttach_of_type hType, CallProg.run_call]
  change (afterLoad progType event 0 g).run _ () = _
  rw [afterLoad, if_neg (by decide),
    if_neg (Nat.not_le.mpr hRoom),
    CallProg.run_bind_of_returned (hSpec.attached hEnd elf)]
  rfl

theorem run_loadAndAttach_of_crash
    (hType : progTypeOf event.str = some progType)
    (hCrash :
      attachEnd progType event = .outside ∨
        MAX_PROGS ≤ g.progCnt)
    (elf : Elf) :
    (loadAndAttach event data g).run (allSucceed elf) () =
      (.halted (.crash .outOfRange), ()) := by
  have hSpec :=
    attachSpec_attach progType event 0 (g.addProg 0)
  rw [loadAndAttach_of_type hType, CallProg.run_call]
  change (afterLoad progType event 0 g).run _ () = _
  rw [afterLoad, if_neg (by decide)]
  by_cases hFull : MAX_PROGS ≤ g.progCnt
  · rw [if_pos hFull]
    rfl
  · rw [if_neg hFull,
      hSpec.outside (hCrash.resolve_right hFull)]
    rfl

end

------------------------------------------------------------
-- The Sections with Programs
------------------------------------------------------------

/- Section `i` is loaded as a program with this name. -/
structure Elf.LoadsAs
    (elf : Elf)
    (i : ℕ)
    (event : TableStr) : Prop where
  not_handled : ¬ elf.IsHandled i
  not_targets : ¬ elf.TargetsCode i
  named :
    ∃ sec, elf.getSec i = some sec ∧ sec.event = event
  is_prog : isProgName event.str = true

/-
  The pass over the sections `is`, with `n` programs loaded
  before, ends with an error before any section in `U` is
  loaded: at a name that is for no type of programs, or at a
  program that can never be attached.
-/
inductive Elf.StopsUnloaded
    (elf : Elf)
    (U : ℕ → Prop) :
    List ℕ → ℕ → Prop where
  | skip
      {i n : ℕ}
      {is : List ℕ}
      (hSkip : ∀ event, ¬ elf.LoadsAs i event)
      (hRest : elf.StopsUnloaded U is n) :
      elf.StopsUnloaded U (i :: is) n
  | unknown
      {i n : ℕ}
      {is : List ℕ}
      {event : TableStr}
      (hLoads : elf.LoadsAs i event)
      (hType : progTypeOf event.str = none) :
      elf.StopsUnloaded U (i :: is) n
  | refused
      {i n : ℕ}
      {is : List ℕ}
      {event : TableStr}
      {progType : BpfProgType}
      (hLoads : elf.LoadsAs i event)
      (hType : progTypeOf event.str = some progType)
      (hEnd : attachEnd progType event = .refused)
      (hOther : ¬ U i)
      (hRoom : n < MAX_PROGS) :
      elf.StopsUnloaded U (i :: is) n
  | attached
      {i n : ℕ}
      {is : List ℕ}
      {event : TableStr}
      {progType : BpfProgType}
      (hLoads : elf.LoadsAs i event)
      (hType : progTypeOf event.str = some progType)
      (hEnd : attachEnd progType event = .attached)
      (hOther : ¬ U i)
      (hRoom : n < MAX_PROGS)
      (hRest : elf.StopsUnloaded U is (n + 1)) :
      elf.StopsUnloaded U (i :: is) n

/- With fewer sections in `U` it ends so as well. -/
theorem Elf.StopsUnloaded.mono
    {elf : Elf}
    {U U' : ℕ → Prop}
    {is : List ℕ}
    {n : ℕ}
    (hStops : elf.StopsUnloaded U is n)
    (hFewer : ∀ i ∈ is, U' i → U i) :
    elf.StopsUnloaded U' is n := by
  induction hStops with
  | skip hSkip hRest ih =>
      exact .skip hSkip
        (ih (List.forall_mem_cons.mp hFewer).2)
  | unknown hLoads hType => exact .unknown hLoads hType
  | refused hLoads hType hEnd hOther hRoom =>
      exact .refused hLoads hType hEnd
        (mt (List.forall_mem_cons.mp hFewer).1 hOther) hRoom
  | attached hLoads hType hEnd hOther hRoom hRest ih =>
      rw [List.forall_mem_cons] at hFewer
      exact .attached hLoads hType hEnd (mt hFewer.1 hOther)
        hRoom (ih hFewer.2)

/- The marks on the sections when programs are loaded. -/
def Elf.MarksFit
    (elf : Elf)
    (g : LoaderGlobals)
    (is : List ℕ) : Prop :=
  ∀ i ∈ is, i < NR_PROCESSED_SEC ∧
    (g.processedSec i = true ↔
      elf.IsHandled i ∨ elf.TargetsCode i)

section

variable {elf elf' : Elf}
variable {g : LoaderGlobals}
variable {i : ℕ}
variable {is : List ℕ}

/- The pass comes past a section that is no program. -/
theorem loadSecs_of_skip
    (hSame : elf.SameButOperands elf')
    (hMarks : elf.MarksFit g (i :: is))
    (hSkip : ∀ event, ¬ elf.LoadsAs i event) :
    BySection.loadSecs elf' (i :: is) g =
      BySection.loadSecs elf' is g := by
  rcases hMarks i List.mem_cons_self with ⟨hLt, hMark⟩
  rw [BySection.loadSecs,
    LoaderGlobals.isProcessed_of_lt hLt]
  simp only [CallProg.ofExcept_ok, CallProg.ret_bind]
  by_cases hDone : g.processedSec i = true
  · rw [if_pos hDone]
  · rw [if_neg hDone]
    rw [hMark, not_or] at hDone
    cases hSec' : elf'.getSec i with
    | none => rfl
    | some sec' =>
        rcases hSame.of_sec hSec' with ⟨sec, hSec, hHere⟩
        have hName : sec'.shname = sec.shname := by
          rw [hHere.eq_withBuf]
          rfl
        simp only
        rw [if_neg]
        intro hProg
        rw [hName] at hProg
        exact hSkip sec.event
          ⟨hDone.1, hDone.2, ⟨sec, hSec, rfl⟩, hProg⟩

/- It loads the others, with what relocation left of them. -/
theorem loadSecs_of_loadsAs
    {event : TableStr}
    (hSame : elf.SameButOperands elf')
    (hMarks : elf.MarksFit g (i :: is))
    (hLoads : elf.LoadsAs i event) :
    ∃ data,
      BySection.loadSecs elf' (i :: is) g =
        (BySection.forSec (some i)
            (loadAndAttach event data g) >>= fun r =>
          if r.1 ≠ 0 then .ret (r.1, r.2)
          else BySection.loadSecs elf' is r.2) := by
  rcases hMarks i List.mem_cons_self with ⟨hLt, hMark⟩
  rcases hLoads.named with ⟨sec, hSec, rfl⟩
  rcases hSame.sec_some i sec hSec with ⟨sec', hSec', hHere⟩
  have hName : sec'.shname = sec.event.str := by
    rw [hHere.eq_withBuf]
    rfl
  have hEvent : sec'.event = sec.event := by
    rw [hHere.eq_withBuf]
    rfl
  have hDone : ¬ g.processedSec i = true := by
    rw [hMark, not_or]
    exact ⟨hLoads.not_handled, hLoads.not_targets⟩
  refine ⟨sec'.data, ?_⟩
  rw [BySection.loadSecs,
    LoaderGlobals.isProcessed_of_lt hLt]
  simp only [CallProg.ofExcept_ok, CallProg.ret_bind]
  rw [if_neg hDone, hSec']
  simp only
  rw [hName, if_pos hLoads.is_prog, hEvent]
  rfl

theorem Elf.MarksFit.tail
    {g' : LoaderGlobals}
    (hMarks : elf.MarksFit g (i :: is))
    (hSame : g'.processedSec = g.processedSec) :
    elf.MarksFit g' is := by
  intro j hMem
  rw [hSame]
  exact hMarks j (List.mem_cons_of_mem i hMem)

------------------------------------------------------------
-- Runs of the Pass
------------------------------------------------------------

/- A call for another section does not load this one. -/
theorem obeys_forSec
    {α : Type}
    {Q : Halt → Prop}
    {p : ℕ}
    {sec : Option ℕ}
    (hOther : sec ≠ some p)
    {prog : LoadProg α}
    (hHalts : prog.HaltsAs Q) :
    (BySection.forSec sec prog).Obeys
      (fun call => ¬ call.LoadsSec p) Q := by
  apply CallProg.Obeys.embed _ hHalts
  rintro op - ⟨hSec, _⟩
  exact hOther hSec

/- Loading another section, as long as it can be attached. -/
theorem obeys_loadAndAttach
    {Q : Halt → Prop}
    {p : ℕ}
    {event : TableStr}
    {data : ElfData}
    {progType : BpfProgType}
    (hOther : i ≠ p)
    (hType : progTypeOf event.str = some progType)
    (hEnd : attachEnd progType event ≠ .outside)
    (hRoom : g.progCnt < MAX_PROGS) :
    (BySection.forSec (some i)
      (loadAndAttach event data g)).Obeys
        (fun call => ¬ call.LoadsSec p) Q :=
  obeys_forSec (mt Option.some.inj hOther)
    (haltsAs_loadAndAttach_of_end hType hEnd hRoom Q)

/- The pass ends with an error, with the section unloaded. -/
theorem Elf.StopsUnloaded.obeys
    {U : ℕ → Prop}
    {n p : ℕ}
    (hStops : elf.StopsUnloaded U is n)
    (hIn : U p)
    (hSame : elf.SameButOperands elf')
    (hMarks : elf.MarksFit g is)
    (hCnt : g.progCnt = n)
    (Q : Halt → Prop) :
    (BySection.loadSecs elf' is g).Obeys
        (fun call => ¬ call.LoadsSec p) Q ∧
      (BySection.loadSecs elf' is g).Leaves (·.1 ≠ 0) := by
  have hOutside
      {i : ℕ}
      (hOther : ¬ U i) :
      i ≠ p := by
    rintro rfl
    exact hOther hIn
  induction hStops generalizing g with
  | skip hSkip hRest ih =>
      rw [loadSecs_of_skip hSame hMarks hSkip]
      exact ih (hMarks.tail rfl) hCnt
  | unknown hLoads hType =>
      rcases loadSecs_of_loadsAs hSame hMarks hLoads with
        ⟨data, hRun⟩
      have hFail : (-1 : ℤ) ≠ 0 := by
        decide
      rw [hRun, loadAndAttach, hType]
      refine ⟨?_, hFail⟩
      trivial
  | refused hLoads hType hEnd hOther hRoom =>
      rcases loadSecs_of_loadsAs hSame hMarks hLoads with
        ⟨data, hRun⟩
      subst hCnt
      rw [hRun]
      refine CallProg.Obeys.bind_both
        (obeys_loadAndAttach (hOutside hOther) hType
          (by simp [hEnd]) hRoom)
        (leaves_loadAndAttach_of_refused hType hEnd).embed ?_
      intro r hRet
      rw [if_pos hRet]
      exact ⟨trivial, hRet⟩
  | attached hLoads hType hEnd hOther hRoom hRest ih =>
      rcases loadSecs_of_loadsAs hSame hMarks hLoads with
        ⟨data, hRun⟩
      subst hCnt
      rw [hRun]
      refine CallProg.Obeys.bind_both
        (obeys_loadAndAttach (hOutside hOther) hType
          (by simp [hEnd]) hRoom)
        (leaves_loadAndAttach _ data g).embed ?_
      intro r hLoaded
      by_cases hRet : r.1 = 0
      · -- the rest of the pass, with one program more
        rcases hLoaded hRet with ⟨hSameMarks, hCnt⟩
        rw [if_neg (not_not_intro hRet)]
        exact ih (hMarks.tail hSameMarks) hCnt
      · rw [if_pos hRet]
        exact ⟨trivial, hRet⟩

/-
  When all calls succeed: the program returns 0, or breaks
  the rules of C, or loads a section in `U`.
-/
inductive RunsThrough
    {α : Type}
    (elf : Elf)
    (U : ℕ → Prop)
    (prog : SecProg (ℤ × α)) : Prop where
  | returns
      (a : α)
      (hRun :
        prog.run (unseen (allSucceed elf)) () =
          (.returned (0, a), ()))
  | crashes
      (kind : Crash)
      (hRun :
        prog.run (unseen (allSucceed elf)) () =
          (.halted (.crash kind), ()))
  | loads
      (p : ℕ)
      (hIn : U p)
      (call : CallProg.Answered SecCall SecCall.Resp)
      (hMem :
        call ∈ prog.trace (unseen (allSucceed elf)) ())
      (hLoads : call.1.LoadsSec p)

theorem run_forSec
    {α σ : Type}
    (sec : Option ℕ)
    (prog : LoadProg α)
    (handler : CallProg.Handler LoadCall LoadCall.Resp σ)
    (s : σ) :
    (BySection.forSec sec prog).run (unseen handler) s =
      prog.run handler s := by
  rw [← run_untagged, untagged_forSec]

/- A first part that returns. -/
theorem RunsThrough.bind
    {α β : Type}
    {U : ℕ → Prop}
    {prog : SecProg α}
    {value : α}
    (hRun :
      prog.run (unseen (allSucceed elf)) () =
        (.returned value, ()))
    {f : α → SecProg (ℤ × β)}
    (hRest : RunsThrough elf U (f value)) :
    RunsThrough elf U (prog >>= f) := by
  have hBind := CallProg.run_bind_of_returned hRun f
  cases hRest with
  | returns a hRest => exact .returns a (hBind.trans hRest)
  | crashes kind hRest =>
      exact .crashes kind (hBind.trans hRest)
  | loads p hIn call hMem hLoads =>
      exact .loads p hIn call
        (CallProg.mem_trace_bind_right hRun hMem) hLoads

/- A first part that does not. -/
theorem RunsThrough.bind_of_crash
    {α β : Type}
    {U : ℕ → Prop}
    {prog : SecProg α}
    {kind : Crash}
    (hRun :
      prog.run (unseen (allSucceed elf)) () =
        (.halted (.crash kind), ()))
    (f : α → SecProg (ℤ × β)) :
    RunsThrough elf U (prog >>= f) := by
  refine .crashes kind ?_
  rw [CallProg.run_bind, hRun]

/- Another value beside the result. -/
theorem RunsThrough.map
    {α β : Type}
    {U : ℕ → Prop}
    {prog : SecProg (ℤ × α)}
    (hThrough : RunsThrough elf U prog)
    (b : β) :
    RunsThrough elf U
      (prog >>= fun r => .ret (r.1, r.2, b)) := by
  cases hThrough with
  | returns a hRun =>
      exact .bind hRun (.returns (a, b) rfl)
  | crashes kind hRun => exact .bind_of_crash hRun _
  | loads p hIn call hMem hLoads =>
      exact .loads p hIn call
        (CallProg.mem_trace_bind_left hMem _) hLoads

/- The section is loaded by the first call for it. -/
theorem loads_loadAndAttach
    {event : TableStr}
    {progType : BpfProgType}
    (hType : progTypeOf event.str = some progType)
    (data : ElfData) :
    ∃ call ∈ (BySection.forSec (some i)
        (loadAndAttach event data g)).trace
          (unseen (allSucceed elf)) (),
      call.1.LoadsSec i := by
  rw [loadAndAttach_of_type hType]
  exact ⟨_, List.mem_cons_self, rfl, _, _, _, _, _, rfl⟩

/- Otherwise some run loads it or does not end so. -/
theorem runsThrough_loadSecs
    {U : ℕ → Prop}
    (hNot : ¬ elf.StopsUnloaded U is g.progCnt)
    (hSame : elf.SameButOperands elf')
    (hMarks : elf.MarksFit g is) :
    RunsThrough elf U (BySection.loadSecs elf' is g) := by
  induction is generalizing g with
  | nil => exact .returns g rfl
  | cons i is ih =>
      by_cases hProg : ∃ event, elf.LoadsAs i event
      · rcases hProg with ⟨event, hLoads⟩
        rcases loadSecs_of_loadsAs hSame hMarks hLoads with
          ⟨data, hCons⟩
        rw [hCons]
        cases hType : progTypeOf event.str with
        | none => exact absurd (.unknown hLoads hType) hNot
        | some progType =>
            by_cases hIn : U i
            · rcases loads_loadAndAttach hType data with
                ⟨call, hMem, hHere⟩
              exact .loads i hIn call
                (CallProg.mem_trace_bind_left hMem _) hHere
            by_cases hCrash :
                attachEnd progType event = .outside ∨
                  MAX_PROGS ≤ g.progCnt
            · exact .bind_of_crash
                ((run_forSec (some i)
                  (loadAndAttach event data g) _ ()).trans
                  (run_loadAndAttach_of_crash hType
                    hCrash elf)) _
            rw [not_or, Nat.not_le] at hCrash
            cases hEnd : attachEnd progType event with
            | outside => exact absurd hEnd hCrash.1
            | refused =>
                exact absurd
                  (.refused hLoads hType hEnd hIn hCrash.2)
                  hNot
            | attached =>
                refine .bind
                  ((run_forSec (some i)
                    (loadAndAttach event data g) _ ()).trans
                    (run_loadAndAttach_of_attached hType hEnd
                      hCrash.2 elf)) ?_
                apply ih
                · intro hRest
                  exact hNot (.attached hLoads hType hEnd hIn
                    hCrash.2 hRest)
                · exact hMarks.tail rfl
      · rw [not_exists] at hProg
        rw [loadSecs_of_skip hSame hMarks hProg]
        apply ih
        · intro hRest
          exact hNot (.skip hProg hRest)
        · exact hMarks.tail rfl

end

end XdpDdos
