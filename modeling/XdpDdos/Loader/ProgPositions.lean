import XdpDdos.Loader.MapPositions
import XdpDdos.Loader.Unresolved

/-
  Which entries of `prog_fd` the last pass uses.

  Main declarations:
    * `Elf.ProgsExceed`
    * `keepsIn_loadSecs`, `overruns_loadSecs`
-/

------------------------------------------------------------
-- One Program
------------------------------------------------------------

namespace XdpDdos

open CallProg (Continues KeepsIn Overruns)

section

variable {event : TableStr}
variable {progType : BpfProgType}
variable {data : ElfData}
variable {g : LoaderGlobals}

/- An entry of `prog_fd` that is free is in range. -/
theorem keepsIn_loadAndAttach
    (event : TableStr)
    (data : ElfData)
    (hRoom : g.progCnt < MAX_PROGS) :
    KeepsIn Position.InRange
      (Noted.loadAndAttach event data g) := by
  rw [Noted.loadAndAttach]
  cases progTypeOf event.str with
  | none => trivial
  | some progType =>
      apply (CallProg.keepsIn_watch _).bind
      intro fd
      split
      · trivial
      · exact CallProg.keepsIn_note_bind hRoom
          (CallProg.keepsIn_watch _)

/- A program that is loaded when there is none left. -/
theorem overruns_loadAndAttach
    (hType : progTypeOf event.str = some progType)
    (hFull : MAX_PROGS ≤ g.progCnt)
    (elf : Elf) :
    Overruns Position.InRange
      (CallProg.watched (allSucceed elf))
      (Noted.loadAndAttach event data g) () where
  bad := by
    rw [Noted.loadAndAttach, hType]
    exact ⟨⟨.use (.progFd g.progCnt), ()⟩,
      List.mem_cons_of_mem _ List.mem_cons_self,
      Nat.not_lt.mpr hFull⟩
  crash := by
    refine ⟨.outOfRange, ?_⟩
    rw [← CallProg.run_forget, forget_loadAndAttach,
      run_loadAndAttach_of_crash hType (Or.inr hFull)]

/- What succeeds was attached as its name says. -/
theorem leaves_loadAndAttach_of_attached
    (hType : progTypeOf event.str = some progType) :
    (loadAndAttach event data g).Leaves fun r =>
      r.1 = 0 → attachEnd progType event = .attached := by
  cases hEnd : attachEnd progType event with
  | attached => exact CallProg.leaves_true (fun _ _ => rfl) _
  | refused =>
      exact (leaves_loadAndAttach_of_refused hType hEnd).mono
        fun r hRet hZero => absurd hZero hRet
  | outside =>
      rw [loadAndAttach_of_type hType]
      intro (fd : ℤ)
      change (afterLoad progType event fd g).Leaves _
      have hSpec :=
        attachSpec_attach progType event fd (g.addProg fd)
      rw [afterLoad, hSpec.outside hEnd]
      by_cases hFail : fd < 0
      · rw [if_pos hFail]
        intro hRet
        exact absurd hRet (Int.negSucc_ne_zero 0)
      · rw [if_neg hFail]
        split <;> trivial

end

------------------------------------------------------------
-- The Sections with Programs
------------------------------------------------------------

/-
  The pass over the sections `is`, with `n` programs loaded
  before, comes to a program when all entries are used, and
  the programs before that one can be attached.
-/
inductive Elf.ProgsExceed (elf : Elf) : List ℕ → ℕ → Prop where
  | skip
      {i n : ℕ}
      {is : List ℕ}
      (hSkip : ∀ event, ¬ elf.LoadsAs i event)
      (hRest : elf.ProgsExceed is n) :
      elf.ProgsExceed (i :: is) n
  | full
      {i n : ℕ}
      {is : List ℕ}
      {event : TableStr}
      {progType : BpfProgType}
      (hLoads : elf.LoadsAs i event)
      (hType : progTypeOf event.str = some progType)
      (hFull : MAX_PROGS ≤ n) :
      elf.ProgsExceed (i :: is) n
  | attached
      {i n : ℕ}
      {is : List ℕ}
      {event : TableStr}
      {progType : BpfProgType}
      (hLoads : elf.LoadsAs i event)
      (hType : progTypeOf event.str = some progType)
      (hEnd : attachEnd progType event = .attached)
      (hRoom : n < MAX_PROGS)
      (hRest : elf.ProgsExceed is (n + 1)) :
      elf.ProgsExceed (i :: is) n

section

variable {elf elf' : Elf}
variable {g : LoaderGlobals}
variable {i : ℕ}
variable {is : List ℕ}

/- The pass comes past a section that is no program. -/
theorem continues_loadSecs_of_skip
    (hSame : elf.SameButOperands elf')
    (hMarks : elf.MarksFit g (i :: is))
    (hSkip : ∀ event, ¬ elf.LoadsAs i event) :
    Continues Position.InRange
      (Noted.loadSecs elf' (i :: is) g)
      (Noted.loadSecs elf' is g) := by
  rcases hMarks i List.mem_cons_self with ⟨hLt, hMark⟩
  rw [Noted.loadSecs]
  refine (continues_isProcessed rfl hLt).trans ?_
  by_cases hDone : g.processedSec i = true
  · rw [if_pos hDone]
    exact .refl _
  · rw [if_neg hDone]
    rw [hMark, not_or] at hDone
    cases hSec' : elf'.getSec i with
    | none => exact .refl _
    | some sec' =>
        rcases hSame.of_sec hSec' with ⟨sec, hSec, hHere⟩
        have hName : sec'.shname = sec.shname := by
          rw [hHere.eq_withBuf]
          rfl
        simp only
        rw [if_neg]
        · exact .refl _
        · intro hProg
          rw [hName] at hProg
          exact hSkip sec.event
            ⟨hDone.1, hDone.2, ⟨sec, hSec, rfl⟩, hProg⟩

/- It loads the others, with what relocation left of them. -/
theorem continues_loadSecs_of_loadsAs
    {event : TableStr}
    (hSame : elf.SameButOperands elf')
    (hMarks : elf.MarksFit g (i :: is))
    (hLoads : elf.LoadsAs i event) :
    ∃ data,
      Continues Position.InRange
        (Noted.loadSecs elf' (i :: is) g)
        (Noted.loadAndAttach event data g >>= fun r =>
          if r.1 ≠ 0 then .ret (r.1, r.2)
          else Noted.loadSecs elf' is r.2) := by
  rcases hMarks i List.mem_cons_self with ⟨hLt, hMark⟩
  rcases hLoads.named with ⟨sec, hSec, rfl⟩
  rcases hSame.sec_some i sec hSec with ⟨sec', hSec', hHere⟩
  have hEvent : sec'.event = sec.event := by
    rw [hHere.eq_withBuf]
    rfl
  have hName : sec'.shname = sec.shname := by
    rw [hHere.eq_withBuf]
    rfl
  have hProg : isProgName sec'.shname := by
    rw [hName]
    exact hLoads.is_prog
  have hDone : ¬ g.processedSec i = true := by
    rw [hMark, not_or]
    exact ⟨hLoads.not_handled, hLoads.not_targets⟩
  refine ⟨sec'.data, ?_⟩
  rw [Noted.loadSecs]
  refine (continues_isProcessed rfl hLt).trans ?_
  rw [if_neg hDone, hSec']
  simp only
  rw [if_pos hProg, hEvent]
  exact .refl _

/- Without such a program all uses are in range. -/
theorem keepsIn_loadSecs
    (hNot : ¬ elf.ProgsExceed is g.progCnt)
    (hSame : elf.SameButOperands elf')
    (hMarks : elf.MarksFit g is) :
    KeepsIn Position.InRange (Noted.loadSecs elf' is g) := by
  induction is generalizing g with
  | nil => trivial
  | cons i is ih =>
      by_cases hProg : ∃ event, elf.LoadsAs i event
      · rcases hProg with ⟨event, hLoads⟩
        rcases continues_loadSecs_of_loadsAs hSame hMarks
          hLoads with ⟨data, hRun⟩
        apply hRun.keepsIn
        cases hType : progTypeOf event.str with
        | none =>
            rw [Noted.loadAndAttach, hType]
            trivial
        | some progType =>
            by_cases hFull : MAX_PROGS ≤ g.progCnt
            · exact absurd (.full hLoads hType hFull) hNot
            have hRoom := Nat.not_le.mp hFull
            -- what is returned if the program is loaded
            have hLeaves :
                (Noted.loadAndAttach event data g).Leaves
                  (fun r =>
                    (r.1 = 0 →
                      r.2.processedSec = g.processedSec ∧
                        r.2.progCnt = g.progCnt + 1) ∧
                    (r.1 = 0 →
                      attachEnd progType event =
                        .attached)) := by
              apply CallProg.leaves_of_forget
              rw [forget_loadAndAttach]
              exact (leaves_loadAndAttach event data g).and
                (leaves_loadAndAttach_of_attached hType)
            apply CallProg.Obeys.bind_leaves
              (keepsIn_loadAndAttach event data hRoom) hLeaves
            rintro ⟨ret, g'⟩ ⟨hLoaded, hEnd⟩
            simp only at hLoaded hEnd ⊢
            by_cases hRet : ret = 0
            · rw [if_neg (not_not_intro hRet)]
              rcases hLoaded hRet with ⟨hSameMarks, hCnt⟩
              apply ih
              · intro hRest
                rw [hCnt] at hRest
                exact hNot (.attached hLoads hType
                  (hEnd hRet) hRoom hRest)
              · exact hMarks.tail hSameMarks
            · rw [if_pos hRet]
              trivial
      · rw [not_exists] at hProg
        apply (continues_loadSecs_of_skip hSame hMarks
          hProg).keepsIn
        apply ih
        · intro hRest
          exact hNot (.skip hProg hRest)
        · exact hMarks.tail rfl

/- With one a run leaves the table. -/
theorem overruns_loadSecs
    {n : ℕ}
    (hExceed : elf.ProgsExceed is n)
    (hSame : elf.SameButOperands elf')
    (hMarks : elf.MarksFit g is)
    (hCnt : g.progCnt = n) :
    Overruns Position.InRange
      (CallProg.watched (allSucceed elf))
      (Noted.loadSecs elf' is g) () := by
  induction hExceed generalizing g with
  | skip hSkip hRest ih =>
      exact (continues_loadSecs_of_skip hSame hMarks
        hSkip).overruns (ih (hMarks.tail rfl) hCnt)
  | full hLoads hType hFull =>
      rcases continues_loadSecs_of_loadsAs hSame hMarks hLoads
        with ⟨data, hRun⟩
      exact hRun.overruns
        ((overruns_loadAndAttach hType (hCnt ▸ hFull)
          elf).bind _)
  | @attached i n is event progType hLoads hType hEnd hRoom
      hRest ih =>
      rcases continues_loadSecs_of_loadsAs hSame hMarks hLoads
        with ⟨data, hRun⟩
      have hFirst :
          (Noted.loadAndAttach event data g).run
              (CallProg.watched (allSucceed elf)) () =
            (.returned (0, g.addProg 0), ()) := by
        rw [← CallProg.run_forget, forget_loadAndAttach]
        exact run_loadAndAttach_of_attached hType hEnd
          (hCnt ▸ hRoom) elf
      apply hRun.overruns
      apply CallProg.Overruns.of_returned hFirst
      rw [if_neg (not_not_intro rfl)]
      have hNext : (g.addProg 0).progCnt = n + 1 := by
        rw [← hCnt]
        rfl
      have hHere := ih (g := g.addProg 0) (hMarks.tail rfl)
        hNext
      exact hHere

end

end XdpDdos
