import XdpDdos.Loader.Relocation
import XdpDdos.Loader.ScanOutcome

/-
  What the relocation pass makes of an arbitrary object: it
  passes all sections, or divides by zero at one of them, or
  breaks another rule of C there.

  Whatever was applied before, an entry ends as it would in
  the file, as only operands of instructions are changed.

  Main declarations:
    * `Elf.RelocFor`, `Elf.SameButOperands`
    * `Elf.RelocPasses`, `Elf.RelocDivides`
    * `RelocOutcome`, `relocOutcome`
-/

------------------------------------------------------------
-- Objects with Other Operands
------------------------------------------------------------

namespace XdpDdos

/- A relocation section, and the code that it is for. -/
structure Elf.RelocFor
    (elf : Elf)
    (i : ℕ)
    (sec prog : Sec) : Prop where
  sec_eq : elf.getSec i = some sec
  type_eq : sec.shdr.shType = SHT_REL
  prog_eq : elf.getSec sec.shdr.shInfo = some prog
  isCode : prog.IsCode

theorem Elf.RelocFor.unique
    {elf : Elf}
    {i : ℕ}
    {sec sec' prog prog' : Sec}
    (hFor : elf.RelocFor i sec prog)
    (hFor' : elf.RelocFor i sec' prog') :
    sec' = sec ∧ prog' = prog := by
  have hSec :=
    Option.some.inj (hFor'.sec_eq.symm.trans hFor.sec_eq)
  subst hSec
  exact ⟨rfl,
    Option.some.inj (hFor'.prog_eq.symm.trans hFor.prog_eq)⟩

/- The number of its entries, as an `int`. -/
def Sec.nrels (sec : Sec) : ℕ :=
  (cInt (sec.shdr.shSize / sec.shdr.shEntsize)).toNat

/- At most operands of instructions differ. -/
structure Sec.SameButOperands (sec sec' : Sec) : Prop where
  eq_withBuf : sec' = sec.withBuf sec'.data.dBuf
  opcodes : SameOpcodes sec.data.dBuf sec'.data.dBuf
  data_eq :
    ¬ sec.IsCode → sec'.data.dBuf = sec.data.dBuf

theorem Sec.SameButOperands.refl
    (sec : Sec) :
    sec.SameButOperands sec where
  eq_withBuf := rfl
  opcodes := .refl _
  data_eq := fun _ => rfl

/- In all sections of an object. -/
structure Elf.SameButOperands (elf elf' : Elf) : Prop where
  shnum_eq : elf'.shnum = elf.shnum
  sec_none :
    ∀ i, elf.getSec i = none → elf'.getSec i = none
  sec_some :
    ∀ i sec, elf.getSec i = some sec →
      ∃ sec', elf'.getSec i = some sec' ∧
        sec.SameButOperands sec'

namespace Elf.SameButOperands

variable {elf elf' : Elf}

theorem refl (elf : Elf) : elf.SameButOperands elf where
  shnum_eq := rfl
  sec_none := fun _ => id
  sec_some := fun _ sec hSec => ⟨sec, hSec, .refl sec⟩

theorem secIndices_eq
    (hSame : elf.SameButOperands elf') :
    elf'.secIndices = elf.secIndices := by
  rw [Elf.secIndices, Elf.secIndices, hSame.shnum_eq]

/- A section of the changed object is one of the file's. -/
theorem of_sec
    (hSame : elf.SameButOperands elf')
    {i : ℕ}
    {sec' : Sec}
    (hSec' : elf'.getSec i = some sec') :
    ∃ sec, elf.getSec i = some sec ∧
      sec.SameButOperands sec' := by
  cases hSec : elf.getSec i with
  | none =>
      rw [hSame.sec_none i hSec] at hSec'
      cases hSec'
  | some sec =>
      rcases hSame.sec_some i sec hSec with
        ⟨sec'', hSec'', hHere⟩
      rw [hSec'] at hSec''
      cases hSec''
      exact ⟨sec, rfl, hHere⟩

/- The relocation section is unchanged, the code is not. -/
theorem relocFor
    (hSame : elf.SameButOperands elf')
    {i : ℕ}
    {sec prog : Sec}
    (hFor : elf.RelocFor i sec prog) :
    ∃ prog', elf'.RelocFor i sec prog' ∧
      prog.SameButOperands prog' := by
  rcases hSame.sec_some i sec hFor.sec_eq with
    ⟨sec', hSec', hSecSame⟩
  have hNotCode : ¬ sec.IsCode := by
    rintro ⟨hType, _⟩
    rw [hFor.type_eq] at hType
    cases hType
  have hUnchanged : sec' = sec := by
    rw [hSecSame.eq_withBuf, hSecSame.data_eq hNotCode]
    rfl
  subst hUnchanged
  rcases hSame.sec_some _ prog hFor.prog_eq with
    ⟨prog', hProg', hProgSame⟩
  refine ⟨prog', ⟨hSec', hFor.type_eq, hProg', ?_⟩,
    hProgSame⟩
  rw [hProgSame.eq_withBuf]
  exact hFor.isCode

theorem targetsCode_iff
    (hSame : elf.SameButOperands elf')
    (i : ℕ) :
    elf'.TargetsCode i ↔ elf.TargetsCode i := by
  constructor
  · rintro ⟨sec', prog', hSec', hType, hProg', hCode⟩
    rcases hSame.of_sec hSec' with ⟨sec, hSec, hSecSame⟩
    rcases hSame.of_sec hProg' with ⟨prog, hProg, hProgSame⟩
    rw [hSecSame.eq_withBuf] at hType hProg
    rw [hProgSame.eq_withBuf] at hCode
    exact ⟨sec, prog, hSec, hType, hProg, hCode⟩
  · rintro ⟨sec, prog, hSec, hType, hProg, hCode⟩
    rcases hSame.relocFor ⟨hSec, hType, hProg, hCode⟩ with
      ⟨prog', hFor, _⟩
    exact ⟨sec, prog', hFor.sec_eq, hFor.type_eq,
      hFor.prog_eq, hFor.isCode⟩

/- The code that entries were applied to. -/
theorem setBuf
    (hSame : elf.SameButOperands elf')
    {p : ℕ}
    {prog prog' : Sec}
    (hProg : elf.getSec p = some prog)
    (hCode : prog.IsCode)
    (hProg' : elf'.getSec p = some prog')
    {insn : ByteSeq}
    (hOpcodes : SameOpcodes prog'.data.dBuf insn) :
    elf.SameButOperands (elf'.setBuf p insn) where
  shnum_eq := by
    rw [shnum_setBuf, hSame.shnum_eq]
  sec_none := by
    intro i hSec
    rw [getSec_setBuf, hSame.sec_none i hSec, Option.map_none,
      ite_self]
  sec_some := by
    intro i sec hSec
    rcases hSame.sec_some i sec hSec with
      ⟨sec', hSec', hHere⟩
    rw [getSec_setBuf, hSec', Option.map_some]
    by_cases hEq : i = p
    · subst hEq
      rw [hSec] at hProg
      cases hProg
      rw [hSec'] at hProg'
      cases hProg'
      rw [if_pos rfl]
      refine ⟨_, rfl, ?_, hHere.opcodes.trans hOpcodes,
        fun hNot => absurd hCode hNot⟩
      rw [hHere.eq_withBuf]
      rfl
    · rw [if_neg hEq]
      exact ⟨sec', rfl, hHere⟩

end Elf.SameButOperands

------------------------------------------------------------
-- One Section
------------------------------------------------------------

section

variable {symbols : ElfData}
variable {nrMaps : ℕ}
variable {elf : Elf}
variable {g : LoaderGlobals}
variable {i : ℕ}

/- A section that the pass has nothing to do for. -/
theorem relocateSecs_of_not
    (hLt : i < NR_PROCESSED_SEC)
    (hNot :
      g.processedSec i = true ∨ ¬ elf.TargetsCode i)
    (is : List ℕ) :
    relocateSecs symbols nrMaps (i :: is) elf g =
      relocateSecs symbols nrMaps is elf g := by
  rw [relocateSecs, LoaderGlobals.isProcessed_of_lt hLt,
    except_ok_bind]
  rcases hNot with hMark | hNot
  · rw [if_pos hMark]
  · split
    · rfl
    · cases hSec : elf.getSec i with
      | none => rfl
      | some sec =>
          simp only
          by_cases hRel : sec.shdr.shType = SHT_REL
          · rw [if_neg (not_not_intro hRel)]
            cases hProg : elf.getSec sec.shdr.shInfo with
            | none => rfl
            | some prog =>
                have hCode : ¬ prog.IsCode :=
                  fun hCode =>
                    hNot ⟨sec, prog, hSec, hRel, hProg,
                      hCode⟩
                simp only
                rw [if_pos]
                rw [Sec.IsCode, not_and_or] at hCode
                simpa using hCode
          · rw [if_pos hRel]

/- A relocation section for code. -/
theorem relocateSecs_of_relocFor
    {sec prog : Sec}
    (hLt : i < NR_PROCESSED_SEC)
    (hUnmarked : g.processedSec i = false)
    (hFor : elf.RelocFor i sec prog)
    (is : List ℕ) :
    relocateSecs symbols nrMaps (i :: is) elf g = (do
      let (_, insn) ←
        parseReloAndApply sec.data symbols sec.shdr
          prog.data.dBuf g.mapData nrMaps
      relocateSecs symbols nrMaps is
        (elf.setBuf sec.shdr.shInfo insn)
        { g with
          processedSec :=
            Function.update g.processedSec i true }) := by
  rw [relocateSecs, LoaderGlobals.isProcessed_of_lt hLt,
    except_ok_bind, hUnmarked]
  simp only [hFor.sec_eq, hFor.type_eq, hFor.prog_eq,
    hFor.isCode.1, hFor.isCode.2, Bool.false_eq_true,
    if_false, ne_eq, not_true_eq_false, reduceCtorEq, or_self,
    (LoaderGlobals.setProcessed_of_lt g hLt).1,
    except_ok_bind]

end

namespace Elf

variable (elf : Elf)
variable (Done : ℕ → Prop)
variable (symbols : ElfData)
variable (offsets : List ℕ)

/-
  The pass comes past section `i`: it is done already, or the
  loop over its entries ends.
-/
structure RelocPasses (i : ℕ) : Prop where
  index_lt : i < NR_PROCESSED_SEC
  entries :
    ¬ Done i → ∀ sec prog, elf.RelocFor i sec prog →
      sec.shdr.shEntsize ≠ 0 ∧
        EntriesEnd sec.data symbols offsets prog.data.dBuf
          (List.range sec.nrels)

/- Its entries have no size. -/
structure RelocDivides (i : ℕ) : Prop where
  index_lt : i < NR_PROCESSED_SEC
  not_done : ¬ Done i
  entsize :
    ∃ sec prog, elf.RelocFor i sec prog ∧
      sec.shdr.shEntsize = 0

end Elf

section

variable {elf elf' : Elf}
variable {Done : ℕ → Prop}
variable {symbols : ElfData}
variable {offsets : List ℕ}
variable {i : ℕ}

/- What is said of a section that is not done, in terms of it. -/
theorem Elf.RelocFor.passes_iff
    {sec prog : Sec}
    (hFor : elf.RelocFor i sec prog)
    (hLt : i < NR_PROCESSED_SEC)
    (hNotDone : ¬ Done i) :
    elf.RelocPasses Done symbols offsets i ↔
      sec.shdr.shEntsize ≠ 0 ∧
        EntriesEnd sec.data symbols offsets prog.data.dBuf
          (List.range sec.nrels) := by
  constructor
  · intro hPasses
    exact hPasses.entries hNotDone sec prog hFor
  · intro hEnds
    refine ⟨hLt, ?_⟩
    intro _ sec' prog' hFor'
    rcases hFor.unique hFor' with ⟨rfl, rfl⟩
    exact hEnds

theorem Elf.RelocFor.divides_iff
    {sec prog : Sec}
    (hFor : elf.RelocFor i sec prog)
    (hLt : i < NR_PROCESSED_SEC)
    (hNotDone : ¬ Done i) :
    elf.RelocDivides Done i ↔ sec.shdr.shEntsize = 0 := by
  constructor
  · rintro ⟨_, _, sec', prog', hFor', hZero⟩
    rcases hFor.unique hFor' with ⟨rfl, _⟩
    exact hZero
  · intro hZero
    exact ⟨hLt, hNotDone, sec, prog, hFor, hZero⟩

/- Sizes are checked before entries are applied. -/
theorem Elf.RelocPasses.not_divides
    (hPasses : elf.RelocPasses Done symbols offsets i) :
    ¬ elf.RelocDivides Done i := by
  rintro ⟨_, hNotDone, sec, prog, hFor, hZero⟩
  exact (hPasses.entries hNotDone sec prog hFor).1 hZero

/- The three things that the pass does with a section. -/
inductive RelocStep
    (elf : Elf)
    (Done : ℕ → Prop)
    (symbols : ElfData)
    (nrMaps : ℕ)
    (elf' : Elf)
    (g : LoaderGlobals)
    (i : ℕ)
    (is : List ℕ) : Prop where
  | passes
      (elf'' : Elf)
      (g' : LoaderGlobals)
      (hPasses :
        elf.RelocPasses Done symbols
          (recordedOffsets g.mapData nrMaps) i)
      (hSame : elf.SameButOperands elf'')
      (hMarked :
        LoaderGlobals.MarkedAmong elf.TargetsCode [i] g g')
      (hMaps : g'.mapData = g.mapData)
      (hRun :
        relocateSecs symbols nrMaps (i :: is) elf' g =
          relocateSecs symbols nrMaps is elf'' g')
  | divides
      (hDivides : elf.RelocDivides Done i)
      (hRun :
        relocateSecs symbols nrMaps (i :: is) elf' g =
          .error .divByZero)
  | crashes
      (crash : Crash)
      (hPasses :
        ¬ elf.RelocPasses Done symbols
          (recordedOffsets g.mapData nrMaps) i)
      (hDivides : ¬ elf.RelocDivides Done i)
      (hCrash : crash ≠ .divByZero)
      (hRun :
        relocateSecs symbols nrMaps (i :: is) elf' g =
          .error crash)

/- A relocation section that is not done yet. -/
theorem relocStep_of_relocFor
    {g : LoaderGlobals}
    {nrMaps : ℕ}
    {sec prog : Sec}
    (hSame : elf.SameButOperands elf')
    (hLt : i < NR_PROCESSED_SEC)
    (hNotDone : ¬ Done i)
    (hUnmarked : g.processedSec i = false)
    (hFor : elf.RelocFor i sec prog)
    (is : List ℕ) :
    RelocStep elf Done symbols nrMaps elf' g i is := by
  rcases hSame.relocFor hFor with ⟨prog', hFor', hProgSame⟩
  have hCons :
      relocateSecs symbols nrMaps (i :: is) elf' g = _ :=
    relocateSecs_of_relocFor hLt hUnmarked hFor' is
  have hPassesIff :
      elf.RelocPasses Done symbols
        (recordedOffsets g.mapData nrMaps) i ↔ _ :=
    hFor.passes_iff hLt hNotDone
  have hDividesIff := hFor.divides_iff hLt hNotDone
  by_cases hZero : sec.shdr.shEntsize = 0
  · rw [parseReloAndApply, if_pos hZero] at hCons
    exact .divides (hDividesIff.mpr hZero) hCons
  · rw [parseReloAndApply, if_neg hZero] at hCons
    have hNotDivides : ¬ elf.RelocDivides Done i :=
      fun hIs => hZero (hDividesIff.mp hIs)
    -- the pass works on the code with operands changed
    rw [← applyRels_ok_iff_of_same hProgSame.opcodes]
      at hPassesIff
    cases hApply :
        applyRels sec.data symbols g.mapData nrMaps
          (List.range sec.nrels) prog'.data.dBuf with
    | error crash =>
        have hCrash : crash ≠ .divByZero := by
          rintro rfl
          exact applyRels_ne_divByZero _ _ _ _ _ _ hApply
        refine .crashes crash ?_ hNotDivides hCrash ?_
        · intro hPasses
          rcases (hPassesIff.mp hPasses).2 with
            ⟨ret, insn, hRun⟩
          rw [hApply] at hRun
          cases hRun
        · rw [hCons]
          exact congrArg (· >>= _) hApply
    | ok result =>
        rcases result with ⟨ret, insn⟩
        refine .passes (elf'.setBuf sec.shdr.shInfo insn)
          { g with
            processedSec :=
              Function.update g.processedSec i true }
          (hPassesIff.mpr ⟨hZero, ret, insn, hApply⟩)
          (hSame.setBuf hFor.prog_eq hFor.isCode
            hFor'.prog_eq (sameOpcodes_of_applyRels hApply))
          (LoaderGlobals.markedAmong_of
            ⟨sec, prog, hFor.sec_eq, hFor.type_eq,
              hFor.prog_eq, hFor.isCode⟩ rfl rfl) rfl ?_
        rw [hCons]
        exact congrArg (· >>= _) hApply

theorem relocStep
    {g : LoaderGlobals}
    {nrMaps : ℕ}
    (hSame : elf.SameButOperands elf')
    (hDone : g.processedSec i = true ↔ Done i)
    (is : List ℕ) :
    RelocStep elf Done symbols nrMaps elf' g i is := by
  by_cases hLt : i < NR_PROCESSED_SEC
  · by_cases hNotDone : Done i
    · have hMark := hDone.mpr hNotDone
      exact .passes elf' g
        ⟨hLt, fun hNot => absurd hNotDone hNot⟩ hSame
        (LoaderGlobals.markedAmong_of_unmarked
          (fun _ => hMark) rfl rfl) rfl
        (relocateSecs_of_not hLt (Or.inl hMark) is)
    · by_cases hTarget : elf.TargetsCode i
      · rcases hTarget with
          ⟨sec, prog, hSec, hType, hProg, hCode⟩
        refine relocStep_of_relocFor hSame hLt hNotDone ?_
          ⟨hSec, hType, hProg, hCode⟩ is
        rw [← Bool.not_eq_true, hDone]
        exact hNotDone
      · refine .passes elf' g ⟨hLt, ?_⟩ hSame
          (LoaderGlobals.markedAmong_of_unmarked
            (fun hIs => absurd hIs hTarget) rfl rfl) rfl
          (relocateSecs_of_not hLt
            (Or.inr (mt (hSame.targetsCode_iff i).mp hTarget))
            is)
        intro _ sec prog hFor
        exact absurd
          ⟨sec, prog, hFor.sec_eq, hFor.type_eq,
            hFor.prog_eq, hFor.isCode⟩ hTarget
  · refine .crashes .outOfRange (fun hIs => hLt hIs.index_lt)
      (fun hIs => hLt hIs.index_lt) (by decide) ?_
    rw [relocateSecs, LoaderGlobals.isProcessed, if_neg hLt]
    rfl

------------------------------------------------------------
-- The Whole Pass
------------------------------------------------------------

/- The three ways in which the pass ends. -/
inductive RelocOutcome
    (elf : Elf)
    (Done : ℕ → Prop)
    (symbols : ElfData)
    (nrMaps : ℕ)
    (elf' : Elf)
    (g : LoaderGlobals)
    (is : List ℕ) : Prop where
  | passes
      (elf'' : Elf)
      (g' : LoaderGlobals)
      (hPasses :
        ∀ i ∈ is, elf.RelocPasses Done symbols
          (recordedOffsets g.mapData nrMaps) i)
      (hSame : elf.SameButOperands elf'')
      (hMarked :
        LoaderGlobals.MarkedAmong elf.TargetsCode is g g')
      (hRun :
        relocateSecs symbols nrMaps is elf' g =
          .ok (elf'', g'))
  | divides
      (hDivides :
        Reaches
          (elf.RelocPasses Done symbols
            (recordedOffsets g.mapData nrMaps))
          (elf.RelocDivides Done) is)
      (hRun :
        relocateSecs symbols nrMaps is elf' g =
          .error .divByZero)
  | crashes
      (crash : Crash)
      (hPasses :
        ¬ ∀ i ∈ is, elf.RelocPasses Done symbols
          (recordedOffsets g.mapData nrMaps) i)
      (hDivides :
        ¬ Reaches
          (elf.RelocPasses Done symbols
            (recordedOffsets g.mapData nrMaps))
          (elf.RelocDivides Done) is)
      (hCrash : crash ≠ .divByZero)
      (hRun :
        relocateSecs symbols nrMaps is elf' g = .error crash)

theorem relocOutcome
    {g : LoaderGlobals}
    {nrMaps : ℕ}
    {is : List ℕ}
    (hSame : elf.SameButOperands elf')
    (hNodup : is.Nodup)
    (hDone : ∀ i ∈ is, g.processedSec i = true ↔ Done i) :
    RelocOutcome elf Done symbols nrMaps elf' g is := by
  induction is generalizing elf' g with
  | nil =>
      exact .passes elf' g (List.forall_mem_nil _) hSame
        (.nil _ _) rfl
  | cons i is ih =>
      rcases List.nodup_cons.mp hNodup with ⟨hFresh, hNodup'⟩
      rw [List.forall_mem_cons] at hDone
      cases relocStep hSame hDone.1 is with
      | passes elf'' g' hPasses hSame' hMarked hMaps hRun =>
          -- marking section `i` does not matter for the rest
          have hDone' :
              ∀ j ∈ is, g'.processedSec j = true ↔ Done j := by
            intro j hMem
            rw [hMarked.processed_iff, ← hDone.2 j hMem,
              List.mem_singleton]
            constructor
            · rintro (hOld | ⟨rfl, _⟩)
              · exact hOld
              · exact absurd hMem hFresh
            · exact Or.inl
          cases ih hSame' hNodup' hDone' with
          | passes elf₂ g₂ hAll hSame₂ hMarked₂ hRun₂ =>
              rw [hMaps] at hAll
              exact .passes elf₂ g₂
                (List.forall_mem_cons.mpr ⟨hPasses, hAll⟩)
                hSame₂ (hMarked.cons hMarked₂)
                (hRun.trans hRun₂)
          | divides hDivides hRun₂ =>
              rw [hMaps] at hDivides
              exact .divides (Or.inr ⟨hPasses, hDivides⟩)
                (hRun.trans hRun₂)
          | crashes crash hNot hDivides hCrash hRun₂ =>
              rw [hMaps] at hNot hDivides
              refine .crashes crash
                (fun hAll =>
                  hNot (List.forall_mem_cons.mp hAll).2) ?_
                hCrash (hRun.trans hRun₂)
              rintro (hHere | ⟨_, hTail⟩)
              · exact hPasses.not_divides hHere
              · exact hDivides hTail
      | divides hDivides hRun =>
          exact .divides (Or.inl hDivides) hRun
      | crashes crash hPasses hDivides hCrash hRun =>
          refine .crashes crash
            (fun hAll =>
              hPasses (List.forall_mem_cons.mp hAll).1) ?_
            hCrash hRun
          rintro (hHere | ⟨hHere, _⟩)
          · exact hDivides hHere
          · exact hPasses hHere

end

end XdpDdos
