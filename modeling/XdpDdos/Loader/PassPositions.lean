import XdpDdos.Loader.Positions

/-
  Which positions the first pass and the relocation pass use.

  Each pass comes to the first section that it does not pass;
  this one alone decides whether it leaves its tables.

  Main declarations:
    * `Elf.ScanExceeds`, `verdict_scanSecs`
    * `EntryOutside`, `verdict_applyRels`
    * `Elf.RelocExceeds`, `verdict_relocateSecs`
-/

------------------------------------------------------------
-- Marks
------------------------------------------------------------

namespace XdpDdos

open CallProg (Continues AlwaysOverruns KeepsIn)

section

variable {α : Type}
variable {g : LoaderGlobals}
variable {i : ℕ}
variable {p : NotedProg α}

theorem continues_setProcessed
    {f : LoaderGlobals → NotedProg α}
    (hEq : p = (Noted.setProcessed g i >>= f))
    (hLt : i < NR_PROCESSED_SEC) :
    Continues Position.InRange p
      (f { g with
        processedSec :=
          Function.update g.processedSec i true }) := by
  rw [hEq]
  refine .use hLt ?_
  rw [(LoaderGlobals.setProcessed_of_lt g hLt).1]
  exact .refl _

theorem overruns_setProcessed
    {f : LoaderGlobals → NotedProg α}
    (hEq : p = (Noted.setProcessed g i >>= f))
    (hOut : ¬ i < NR_PROCESSED_SEC) :
    AlwaysOverruns Position.InRange p := by
  have hUse : ¬ (Position.processedSec i).InRange := hOut
  have hCrash :
      ∃ kind,
        (.ofExcept (g.setProcessed i) : NotedProg _) =
          .halt (.crash kind) := by
    rw [LoaderGlobals.setProcessed, if_neg hOut]
    exact ⟨_, rfl⟩
  rw [hEq]
  exact (CallProg.alwaysOverruns_note hUse hCrash).bind f

theorem continues_isProcessed
    {f : Bool → NotedProg α}
    (hEq : p = (Noted.isProcessed g i >>= f))
    (hLt : i < NR_PROCESSED_SEC) :
    Continues Position.InRange p (f (g.processedSec i)) := by
  rw [hEq]
  refine .use hLt ?_
  rw [LoaderGlobals.isProcessed_of_lt hLt]
  exact .refl _

theorem overruns_isProcessed
    {f : Bool → NotedProg α}
    (hEq : p = (Noted.isProcessed g i >>= f))
    (hOut : ¬ i < NR_PROCESSED_SEC) :
    AlwaysOverruns Position.InRange p := by
  have hUse : ¬ (Position.processedSec i).InRange := hOut
  have hCrash :
      ∃ kind,
        (.ofExcept (g.isProcessed i) : NotedProg _) =
          .halt (.crash kind) := by
    rw [LoaderGlobals.isProcessed, if_neg hOut]
    exact ⟨_, rfl⟩
  rw [hEq]
  exact (CallProg.alwaysOverruns_note hUse hCrash).bind f

end

------------------------------------------------------------
-- The First Pass
------------------------------------------------------------

/- Its index has no mark, or it is a license too long. -/
def Sec.ScanExceeds
    (sec : Sec)
    (i : ℕ) : Prop :=
  (sec.role = .license ∨ sec.role = .version) ∧
      NR_PROCESSED_SEC ≤ i ∨
    sec.role = .license ∧ LICENSE_SIZE < sec.data.dSize

def Elf.ScanExceeds
    (elf : Elf)
    (i : ℕ) : Prop :=
  ∃ sec ∈ elf.getSec i, sec.ScanExceeds i

section

variable {elf : Elf}
variable {i : ℕ}
variable {sec : Sec}

theorem scanExceeds_iff
    (hSec : elf.getSec i = some sec) :
    elf.ScanExceeds i ↔ sec.ScanExceeds i := by
  simp [Elf.ScanExceeds, hSec]

/- The pass does not come past such a section. -/
theorem Elf.ScanExceeds.not_passes
    (hExceeds : elf.ScanExceeds i) :
    ¬ elf.ScanPasses i := by
  rcases hExceeds with ⟨sec, hSec, hHere⟩
  rw [scanPasses_iff hSec]
  rcases hHere with ⟨hRole | hRole, hOut⟩ | ⟨hRole, hLong⟩ <;>
    simp only [Sec.ScanPasses, hRole] <;>
    omega

/- The loop body, in terms of the role of the section. -/
theorem noted_scanSecs_role
    (hSec : elf.getSec i = some sec)
    (is : List ℕ)
    (sc : Scan) :
    Noted.scanSecs elf (i :: is) sc =
      match sec.role with
      | .license => do
          let g ← Noted.setProcessed sc.globals i
          let g ← Noted.copyLicense g sec.data
          Noted.scanSecs elf is { sc with globals := g }
      | .version => do
          let g ← Noted.setProcessed sc.globals i
          if sec.data.dSize ≠ 4 then
            return (1, { sc with globals := g })
          else
            match sec.data.dBuf.load32 0 with
            | none => .halt (.crash .outOfRange)
            | some version =>
                Noted.scanSecs elf is { sc with
                  globals := { g with
                    kernVersion := version } }
      | .maps =>
          Noted.scanSecs elf is { sc with
            mapsShndx := some i
            globals := { sc.globals with
              mapData := clearMapFds sc.globals.mapData } }
      | .symtab =>
          Noted.scanSecs elf is { sc with
            symtab := some (sec.data, sec.shdr.shLink) }
      | .other => Noted.scanSecs elf is sc := by
  simp only [Noted.scanSecs, hSec, Sec.role]
  by_cases hLicense : sec.shname = "license".toList
  · rw [if_pos hLicense, if_pos hLicense]
  rw [if_neg hLicense, if_neg hLicense]
  by_cases hVersion : sec.shname = "version".toList
  · rewrite [if_pos hVersion, if_pos hVersion]
    rfl
  rw [if_neg hVersion, if_neg hVersion]
  by_cases hMaps : sec.shname = "maps".toList
  · rw [if_pos hMaps, if_pos hMaps]
  rw [if_neg hMaps, if_neg hMaps]
  by_cases hSymtab : sec.shdr.shType = SHT_SYMTAB
  · rw [if_pos hSymtab, if_pos hSymtab]
  · rw [if_neg hSymtab, if_neg hSymtab]

/- What the notes of the first pass say about a section. -/
abbrev ScanPosStep
    (elf : Elf)
    (i : ℕ)
    (is : List ℕ)
    (sc : Scan) : Prop :=
  LoopStep Position.InRange elf.ScanPasses elf.ScanExceeds
    (fun _ _ => True) (Noted.scanSecs elf) i is sc

theorem scanPosStep_license
    (hSec : elf.getSec i = some sec)
    (hRole : sec.role = .license)
    (is : List ℕ)
    (sc : Scan) :
    ScanPosStep elf i is sc := by
  have hCons := noted_scanSecs_role hSec is sc
  have hPasses := scanPasses_iff hSec
  have hExceeds := scanExceeds_iff hSec
  simp only [hRole] at hCons
  simp only [Sec.ScanPasses, hRole] at hPasses
  simp only [Sec.ScanExceeds, hRole, true_or, true_and]
    at hExceeds
  by_cases hLt : i < NR_PROCESSED_SEC
  · let g' : LoaderGlobals :=
      { sc.globals with
        processedSec :=
          Function.update sc.globals.processedSec i true }
    let rest (g : LoaderGlobals) : NotedProg (ℕ × Scan) :=
      Noted.scanSecs elf is { sc with globals := g }
    have hMark :
        Continues Position.InRange
          (Noted.scanSecs elf (i :: is) sc)
          (Noted.copyLicense g' sec.data >>= rest) :=
      continues_setProcessed hCons hLt
    by_cases hShort : sec.data.dSize ≤ LICENSE_SIZE
    · have hNot : ¬ elf.ScanExceeds i := by
        rw [hExceeds]
        omega
      by_cases hInside :
          sec.data.dSize ≤ sec.data.dBuf.length
      · refine .passes
          { sc with
            globals :=
              { g' with
                license :=
                  sec.data.dBuf.take sec.data.dSize ++
                    g'.license.drop sec.data.dSize } }
          (hPasses.mpr ⟨hLt, hShort, hInside⟩) hNot trivial
          (hMark.trans (.use hShort ?_))
        rw [LoaderGlobals.copyLicense,
          if_pos ⟨hShort, hInside⟩]
        exact .refl _
      · refine .stops
          (fun hIs => hInside (hPasses.mp hIs).2.2) hNot
          (hMark.keepsIn
            (CallProg.keepsIn_note_bind hShort ?_))
        rw [LoaderGlobals.copyLicense,
          if_neg fun hIs => hInside hIs.2]
        trivial
    · have hUse :
          ¬ (Position.license sec.data.dSize).InRange :=
        hShort
      have hCrash :
          ∃ kind,
            (.ofExcept (g'.copyLicense sec.data) :
                NotedProg _) =
              .halt (.crash kind) := by
        rw [LoaderGlobals.copyLicense,
          if_neg fun hIs => hShort hIs.1]
        exact ⟨_, rfl⟩
      exact .exceeds
        (hExceeds.mpr (Or.inr (Nat.lt_of_not_le hShort)))
        (hMark.alwaysOverruns
          ((CallProg.alwaysOverruns_note hUse hCrash).bind
            rest))
  · exact .exceeds
      (hExceeds.mpr (Or.inl (Nat.le_of_not_lt hLt)))
      (overruns_setProcessed hCons hLt)

theorem scanPosStep_version
    (hSec : elf.getSec i = some sec)
    (hRole : sec.role = .version)
    (is : List ℕ)
    (sc : Scan) :
    ScanPosStep elf i is sc := by
  have hCons := noted_scanSecs_role hSec is sc
  have hPasses := scanPasses_iff hSec
  have hExceeds := scanExceeds_iff hSec
  simp only [hRole] at hCons
  simp only [Sec.ScanPasses, hRole] at hPasses
  simp only [Sec.ScanExceeds, hRole, or_true, true_and,
    reduceCtorEq, false_and, or_false] at hExceeds
  by_cases hLt : i < NR_PROCESSED_SEC
  · have hNot : ¬ elf.ScanExceeds i := by
      rw [hExceeds]
      omega
    have hMark := continues_setProcessed hCons hLt
    by_cases hSize : sec.data.dSize = 4
    · simp only [hSize, ne_eq, not_true_eq_false, if_false]
        at hMark
      cases hLoad : sec.data.dBuf.load32 0 with
      | none =>
          rw [hLoad] at hMark hPasses
          refine .stops ?_ hNot (hMark.keepsIn trivial)
          intro hIs
          cases (hPasses.mp hIs).2.2
      | some version =>
          rw [hLoad] at hMark hPasses
          exact .passes _ (hPasses.mpr ⟨hLt, hSize, rfl⟩)
            hNot trivial hMark
    · simp only [hSize, ne_eq, not_false_eq_true, if_true]
        at hMark
      exact .stops (fun hIs => hSize (hPasses.mp hIs).2.1)
        hNot (hMark.keepsIn trivial)
  · exact .exceeds (hExceeds.mpr (Nat.le_of_not_lt hLt))
      (overruns_setProcessed hCons hLt)

theorem scanPosStep
    (elf : Elf)
    (i : ℕ)
    (is : List ℕ)
    (sc : Scan) :
    ScanPosStep elf i is sc := by
  cases hSec : elf.getSec i with
  | none =>
      refine .passes sc ?_ ?_ trivial ?_
      · intro sec hMem
        rw [hSec] at hMem
        cases hMem
      · rintro ⟨sec, hMem, _⟩
        rw [hSec] at hMem
        cases hMem
      · simp only [Noted.scanSecs, hSec]
        exact .refl _
  | some sec =>
      have hCons := noted_scanSecs_role hSec is sc
      have hPasses := scanPasses_iff hSec
      have hExceeds := scanExceeds_iff hSec
      cases hRole : sec.role with
      | license => exact scanPosStep_license hSec hRole is sc
      | version => exact scanPosStep_version hSec hRole is sc
      | maps | symtab | other =>
          simp only [hRole] at hCons
          simp only [Sec.ScanPasses, hRole, iff_true]
            at hPasses
          simp only [Sec.ScanExceeds, hRole, reduceCtorEq,
            or_self, false_and, iff_false] at hExceeds
          exact .of_eq hPasses hExceeds trivial hCons

end

/- The pass overruns if it comes to such a section. -/
theorem verdict_scanSecs
    (elf : Elf)
    (is : List ℕ)
    (sc : Scan) :
    Verdict Position.InRange
      (Reaches elf.ScanPasses elf.ScanExceeds is)
      (Noted.scanSecs elf is sc) := by
  have hNil :
      ∀ sc,
        KeepsIn Position.InRange (Noted.scanSecs elf [] sc) :=
    fun _ => trivial
  exact loop_verdict hNil
    (fun i is sc _ => scanPosStep elf i is sc) trivial

------------------------------------------------------------
-- Entries of a Relocation Section
------------------------------------------------------------

/-
  Entry `i` cannot be read, or its instruction is behind the
  end of the program.
-/
def EntryOutside
    (data : ElfData)
    (insn : ByteSeq)
    (i : ℕ) : Prop :=
  ∀ rel ∈ gelfGetrel data i,
    ¬ HasInsn insn (rel.rOffset / INSN_SIZE % 2 ^ 32)

section

variable {data symbols : ElfData}
variable {maps : ℕ → BpfMapData}
variable {nrMaps : ℕ}
variable {insn insn' : ByteSeq}
variable {i : ℕ}

theorem entryOutside_congr
    (hSame : SameOpcodes insn insn')
    (i : ℕ) :
    EntryOutside data insn' i ↔ EntryOutside data insn i := by
  simp only [EntryOutside, hSame.hasInsn_iff]

theorem entryOutside_iff
    {rel : GElfRel}
    (hRel : gelfGetrel data i = some rel) :
    EntryOutside data insn i ↔
      ¬ HasInsn insn (rel.rOffset / INSN_SIZE % 2 ^ 32) := by
  simp [EntryOutside, hRel]

/- An entry with an instruction, which is noted. -/
theorem continues_applyRels
    {rel : GElfRel}
    (hRel : gelfGetrel data i = some rel)
    (hInsn :
      HasInsn insn (rel.rOffset / INSN_SIZE % 2 ^ 32))
    (symbols : ElfData)
    (maps : ℕ → BpfMapData)
    (nrMaps : ℕ)
    (is : List ℕ) :
    Continues Position.InRange
      (Noted.applyRels data symbols maps nrMaps (i :: is)
        insn)
      (if (insnAt insn
            (rel.rOffset / INSN_SIZE % 2 ^ 32)).code ≠
          LD_IMM64 then .ret (1, insn)
      else
        match matchMap maps nrMaps
          (gelfGetsym symbols rel.sym) with
        | .error crash => .halt (.crash crash)
        | .ok none =>
            .ret (1, setSrcReg insn
              (rel.rOffset / INSN_SIZE % 2 ^ 32)
              BPF_PSEUDO_MAP_FD)
        | .ok (some mapIdx) =>
            Noted.applyRels data symbols maps nrMaps is
              (setImm
                (setSrcReg insn
                  (rel.rOffset / INSN_SIZE % 2 ^ 32)
                  BPF_PSEUDO_MAP_FD)
                (rel.rOffset / INSN_SIZE % 2 ^ 32)
                (BitVec.ofInt 32 (maps mapIdx).fd))) := by
  simp only [Noted.applyRels, hRel]
  refine .use ⟨_, rfl, hasInsn_iff.mp hInsn⟩ ?_
  rw [if_neg (not_not_intro hInsn)]
  exact .refl _

/- An entry without one. -/
theorem overruns_applyRels
    (hOutside : EntryOutside data insn i)
    (symbols : ElfData)
    (maps : ℕ → BpfMapData)
    (nrMaps : ℕ)
    (is : List ℕ) :
    AlwaysOverruns Position.InRange
      (Noted.applyRels data symbols maps nrMaps (i :: is)
        insn) := by
  cases hRel : gelfGetrel data i with
  | none =>
      have hUse :
          ¬ (Position.insn none (insnCount insn)).InRange := by
        rintro ⟨k, hNone, _⟩
        cases hNone
      simp only [Noted.applyRels, hRel]
      exact CallProg.alwaysOverruns_note hUse ⟨_, rfl⟩
  | some rel =>
      have hInsn := (entryOutside_iff hRel).mp hOutside
      have hUse :
          ¬ (Position.insn
            (some (rel.rOffset / INSN_SIZE % 2 ^ 32))
            (insnCount insn)).InRange := by
        rintro ⟨k, hSome, hLt⟩
        cases hSome
        exact hInsn (hasInsn_iff.mpr hLt)
      simp only [Noted.applyRels, hRel]
      refine CallProg.alwaysOverruns_note hUse ?_
      rw [if_pos hInsn]
      exact ⟨_, rfl⟩

/- An entry for a 64-bit load is compared with the maps. -/
theorem entryPosStep_of_load
    {rel : GElfRel}
    (hRel : gelfGetrel data i = some rel)
    (is : List ℕ)
    (hSame : SameOpcodes insn insn')
    (hNot : ¬ EntryOutside data insn i)
    (hInsn :
      HasInsn insn' (rel.rOffset / INSN_SIZE % 2 ^ 32))
    (hCode :
      (insnAt insn'
        (rel.rOffset / INSN_SIZE % 2 ^ 32)).code =
          LD_IMM64) :
    LoopStep Position.InRange
      (EntryApplies data symbols
        (recordedOffsets maps nrMaps) insn)
      (EntryOutside data insn)
      (fun _ => SameOpcodes insn)
      (Noted.applyRels data symbols maps nrMaps) i is
      insn' := by
  have hPass :
      EntryApplies data symbols (recordedOffsets maps nrMaps)
          insn' i ↔
        EntryApplies data symbols
          (recordedOffsets maps nrMaps) insn i :=
    entryApplies_congr hSame (fun _ => Iff.rfl) i
  have hRun :=
    continues_applyRels hRel hInsn symbols maps nrMaps is
  rw [if_neg (not_not_intro hCode)] at hRun
  cases hSym : gelfGetsym symbols rel.sym with
  | none =>
      rw [hSym] at hRun
      refine .stops ?_ hNot (hRun.keepsIn ?_)
      · apply not_entryApplies_of_none
        rw [relRead?, hRel, Option.bind_some, hSym,
          Option.map_none]
      · by_cases hNone : nrMaps = 0
        · rw [matchMap, if_pos hNone]
          trivial
        · rw [matchMap, if_neg hNone]
          trivial
  | some sym =>
      have hEntry :
          relRead? data symbols i =
            some ⟨rel.rOffset / INSN_SIZE % 2 ^ 32, sym⟩ := by
        rw [relRead?, hRel, Option.bind_some, hSym,
          Option.map_some]
      rw [entryApplies_iff hEntry] at hPass
      simp only [hSym, matchMap] at hRun
      cases hMap : findMap maps nrMaps sym.stValue with
      | none =>
          rw [hMap] at hRun
          refine .stops ?_ hNot (hRun.keepsIn trivial)
          intro hIs
          have hRecorded :=
            findMap_isSome_iff.mpr (hPass.mpr hIs).recorded
          rw [hMap] at hRecorded
          cases hRecorded
      | some mapIdx =>
          simp only [hMap] at hRun
          have hPatched :
              SameOpcodes insn'
                (patchInsn maps nrMaps insn'
                  ⟨rel.rOffset / INSN_SIZE % 2 ^ 32, sym⟩) :=
            .patchInsn hInsn
          have hRecorded :
              sym.stValue ∈ recordedOffsets maps nrMaps := by
            rw [← findMap_isSome_iff, hMap]
            rfl
          refine .passes _ (hPass.mp ⟨hInsn, hCode, hRecorded⟩)
            hNot (hSame.trans hPatched) ?_
          simp only [patchInsn, symFd, hMap]
          exact hRun

/- One entry, if the code has the opcodes of `insn`. -/
theorem entryPosStep
    (is : List ℕ)
    (hSame : SameOpcodes insn insn') :
    LoopStep Position.InRange
      (EntryApplies data symbols
        (recordedOffsets maps nrMaps) insn)
      (EntryOutside data insn)
      (fun _ => SameOpcodes insn)
      (Noted.applyRels data symbols maps nrMaps) i is
      insn' := by
  have hOutside :
      EntryOutside data insn' i ↔ EntryOutside data insn i :=
    entryOutside_congr hSame i
  by_cases hOut : EntryOutside data insn' i
  · exact .exceeds (hOutside.mp hOut)
      (overruns_applyRels hOut symbols maps nrMaps is)
  have hNot : ¬ EntryOutside data insn i := by
    rw [← hOutside]
    exact hOut
  -- the instruction is there, and it is noted
  cases hRel : gelfGetrel data i with
  | none =>
      refine absurd ?_ hOut
      intro rel hMem
      rw [hRel] at hMem
      cases hMem
  | some rel =>
      have hInsn := hOut
      rw [entryOutside_iff hRel, not_not] at hInsn
      by_cases hCode :
          (insnAt insn'
            (rel.rOffset / INSN_SIZE % 2 ^ 32)).code =
              LD_IMM64
      · exact entryPosStep_of_load hRel is hSame hNot hInsn
          hCode
      · have hRun :=
          continues_applyRels hRel hInsn symbols maps nrMaps is
        rw [if_pos hCode] at hRun
        refine .stops ?_ hNot (hRun.keepsIn trivial)
        rw [← entryApplies_congr hSame (fun _ => Iff.rfl) i]
        rintro ⟨e, hEntry, hApplies⟩
        have hIdx := relInsn?_of_relRead? hEntry
        rw [relInsn?, hRel, Option.map_some] at hIdx
        rw [Option.some.inj hIdx] at hCode
        exact hCode hApplies.code_eq

/- The loop overruns if it comes to such an entry. -/
theorem verdict_applyRels
    (is : List ℕ)
    (hSame : SameOpcodes insn insn') :
    Verdict Position.InRange
      (Reaches
        (EntryApplies data symbols
          (recordedOffsets maps nrMaps) insn)
        (EntryOutside data insn) is)
      (Noted.applyRels data symbols maps nrMaps is insn') := by
  have hNil :
      ∀ insn,
        KeepsIn Position.InRange
          (Noted.applyRels data symbols maps nrMaps []
            insn) :=
    fun _ => trivial
  exact loop_verdict hNil
    (fun i is _ hHere => entryPosStep is hHere) hSame

end

------------------------------------------------------------
-- The Relocation Pass
------------------------------------------------------------

/-
  Its index has no mark, or it is a relocation section whose
  first entry that is not applied is outside the program.
-/
def Elf.RelocExceeds
    (elf : Elf)
    (Done : ℕ → Prop)
    (symbols : ElfData)
    (offsets : List ℕ)
    (i : ℕ) : Prop :=
  NR_PROCESSED_SEC ≤ i ∨
    ¬ Done i ∧ ∃ sec prog, elf.RelocFor i sec prog ∧
      sec.shdr.shEntsize ≠ 0 ∧
        Reaches
          (EntryApplies sec.data symbols offsets
            prog.data.dBuf)
          (EntryOutside sec.data prog.data.dBuf)
          (List.range sec.nrels)

section

variable {symbols : ElfData}
variable {nrMaps : ℕ}
variable {elf elf' : Elf}
variable {Done : ℕ → Prop}
variable {g : LoaderGlobals}
variable {i : ℕ}

theorem Elf.RelocFor.exceeds_iff
    {offsets : List ℕ}
    {sec prog : Sec}
    (hFor : elf.RelocFor i sec prog)
    (hLt : i < NR_PROCESSED_SEC)
    (hNotDone : ¬ Done i) :
    elf.RelocExceeds Done symbols offsets i ↔
      sec.shdr.shEntsize ≠ 0 ∧
        Reaches
          (EntryApplies sec.data symbols offsets
            prog.data.dBuf)
          (EntryOutside sec.data prog.data.dBuf)
          (List.range sec.nrels) := by
  constructor
  · rintro (hOut | ⟨_, sec', prog', hFor', hHere⟩)
    · exact absurd hLt (Nat.not_lt.mpr hOut)
    · rcases hFor.unique hFor' with ⟨rfl, rfl⟩
      exact hHere
  · intro hHere
    exact Or.inr ⟨hNotDone, sec, prog, hFor, hHere⟩

/- A section that the pass has nothing to do for. -/
theorem continues_relocateSecs_of_not
    (hLt : i < NR_PROCESSED_SEC)
    (hNot :
      g.processedSec i = true ∨ ¬ elf.TargetsCode i)
    (is : List ℕ) :
    Continues Position.InRange
      (Noted.relocateSecs symbols nrMaps (i :: is) elf g)
      (Noted.relocateSecs symbols nrMaps is elf g) := by
  rw [Noted.relocateSecs]
  refine (continues_isProcessed rfl hLt).trans ?_
  rcases hNot with hMark | hNot
  · rw [if_pos hMark]
    exact .refl _
  · split
    · exact .refl _
    · cases hSec : elf.getSec i with
      | none => exact .refl _
      | some sec =>
          simp only
          by_cases hRel : sec.shdr.shType = SHT_REL
          · rw [if_neg (not_not_intro hRel)]
            cases hProg : elf.getSec sec.shdr.shInfo with
            | none => exact .refl _
            | some prog =>
                have hCode : ¬ prog.IsCode :=
                  fun hCode =>
                    hNot ⟨sec, prog, hSec, hRel, hProg,
                      hCode⟩
                simp only
                rw [if_pos]
                · exact .refl _
                · rw [Sec.IsCode, not_and_or] at hCode
                  simpa using hCode
          · rw [if_pos hRel]
            exact .refl _

/- A relocation section for code. -/
theorem continues_relocateSecs_of_relocFor
    {sec prog : Sec}
    (hLt : i < NR_PROCESSED_SEC)
    (hUnmarked : g.processedSec i = false)
    (hFor : elf.RelocFor i sec prog)
    (is : List ℕ) :
    Continues Position.InRange
      (Noted.relocateSecs symbols nrMaps (i :: is) elf g) (do
        let (_, insn) ←
          Noted.parseReloAndApply sec.data symbols sec.shdr
            prog.data.dBuf g.mapData nrMaps
        Noted.relocateSecs symbols nrMaps is
          (elf.setBuf sec.shdr.shInfo insn)
          { g with
            processedSec :=
              Function.update g.processedSec i true }) := by
  rw [Noted.relocateSecs]
  refine (continues_isProcessed rfl hLt).trans ?_
  rw [hUnmarked]
  simp only [hFor.sec_eq, hFor.type_eq, hFor.prog_eq,
    hFor.isCode.1, hFor.isCode.2, Bool.false_eq_true,
    if_false, ne_eq, not_true_eq_false, reduceCtorEq, or_self]
  exact continues_setProcessed rfl hLt

/- The object as the pass changes it, with sections to come. -/
structure RelocInv
    (elf : Elf)
    (Done : ℕ → Prop)
    (offsets : List ℕ)
    (nrMaps : ℕ)
    (is : List ℕ)
    (t : Elf × LoaderGlobals) : Prop where
  same : elf.SameButOperands t.1
  nodup : is.Nodup
  done : ∀ i ∈ is, t.2.processedSec i = true ↔ Done i
  offsets_eq : recordedOffsets t.2.mapData nrMaps = offsets

/- It is kept, whatever was written over the operands of `i`. -/
theorem RelocInv.marked
    {offsets : List ℕ}
    {is : List ℕ}
    (hInv : RelocInv elf Done offsets nrMaps (i :: is)
      (elf', g))
    {elf'' : Elf}
    (hSame : elf.SameButOperands elf'') :
    RelocInv elf Done offsets nrMaps is
      (elf'',
        { g with
          processedSec :=
            Function.update g.processedSec i true }) := by
  rcases List.nodup_cons.mp hInv.nodup with
    ⟨hFresh, hNodup⟩
  refine ⟨hSame, hNodup, ?_, hInv.offsets_eq⟩
  intro j hMem
  have hNe : j ≠ i := by
    rintro rfl
    exact hFresh hMem
  simp only [Function.update_of_ne hNe]
  exact hInv.done j (List.mem_cons_of_mem i hMem)

/- What the notes of the pass say about a section. -/
abbrev RelocPosStep
    (elf : Elf)
    (Done : ℕ → Prop)
    (symbols : ElfData)
    (offsets : List ℕ)
    (nrMaps i : ℕ)
    (is : List ℕ)
    (t : Elf × LoaderGlobals) : Prop :=
  LoopStep Position.InRange
    (elf.RelocPasses Done symbols offsets)
    (elf.RelocExceeds Done symbols offsets)
    (RelocInv elf Done offsets nrMaps)
    (fun is t =>
      Noted.relocateSecs symbols nrMaps is t.1 t.2)
    i is t

/- A relocation section that is not done yet. -/
theorem relocPosStep_of_relocFor
    {offsets : List ℕ}
    {is : List ℕ}
    {sec prog : Sec}
    (hInv : RelocInv elf Done offsets nrMaps (i :: is)
      (elf', g))
    (hLt : i < NR_PROCESSED_SEC)
    (hNotDone : ¬ Done i)
    (hFor : elf.RelocFor i sec prog) :
    RelocPosStep elf Done symbols offsets nrMaps i is
      (elf', g) := by
  have hOffsets : recordedOffsets g.mapData nrMaps = offsets :=
    hInv.offsets_eq
  have hUnmarked : g.processedSec i = false := by
    rw [← Bool.not_eq_true, hInv.done i List.mem_cons_self]
    exact hNotDone
  rcases hInv.same.relocFor hFor with ⟨prog', hFor', hProgSame⟩
  have hCons :
      Continues Position.InRange
        (Noted.relocateSecs symbols nrMaps (i :: is) elf' g)
        _ :=
    continues_relocateSecs_of_relocFor hLt hUnmarked hFor' is
  have hPassesIff :
      elf.RelocPasses Done symbols offsets i ↔ _ :=
    hFor.passes_iff hLt hNotDone
  have hExceedsIff :
      elf.RelocExceeds Done symbols offsets i ↔ _ :=
    hFor.exceeds_iff hLt hNotDone
  by_cases hZero : sec.shdr.shEntsize = 0
  · rw [Noted.parseReloAndApply, if_pos hZero] at hCons
    exact .stops (fun hIs => (hPassesIff.mp hIs).1 hZero)
      (fun hIs => (hExceedsIff.mp hIs).1 hZero)
      (hCons.keepsIn trivial)
  · rw [Noted.parseReloAndApply, if_neg hZero] at hCons
    have hVerdict :
        Verdict Position.InRange _
          (Noted.applyRels sec.data symbols g.mapData nrMaps
            (List.range sec.nrels) prog'.data.dBuf) :=
      verdict_applyRels _ hProgSame.opcodes
    rw [hOffsets] at hVerdict
    cases hVerdict with
    | overruns hBad hOver =>
        exact .exceeds (hExceedsIff.mpr ⟨hZero, hBad⟩)
          (hCons.alwaysOverruns (hOver.bind _))
    | keeps hBad hKeeps =>
        have hExceed :
            ¬ elf.RelocExceeds Done symbols offsets i :=
          fun hIs => hBad (hExceedsIff.mp hIs).2
        have hApplied :=
          CallProg.continues_of_forget hKeeps
            (forget_applyRels _ _ _ _ _ _)
        have hRun := hCons.trans (hApplied.bind _)
        -- the pass works on the code with operands changed
        rw [← hOffsets,
          ← applyRels_ok_iff_of_same hProgSame.opcodes,
          hOffsets] at hPassesIff
        cases hApply :
            applyRels sec.data symbols g.mapData nrMaps
              (List.range sec.nrels) prog'.data.dBuf with
        | error crash =>
            rw [hApply] at hRun
            refine .stops ?_ hExceed (hRun.keepsIn trivial)
            intro hPasses
            rcases (hPassesIff.mp hPasses).2 with
              ⟨ret, insn, hOk⟩
            rw [hApply] at hOk
            cases hOk
        | ok result =>
            rcases result with ⟨ret, insn⟩
            rw [hApply] at hRun
            have hSame' :
                elf.SameButOperands
                  (elf'.setBuf sec.shdr.shInfo insn) :=
              hInv.same.setBuf hFor.prog_eq hFor.isCode
                hFor'.prog_eq
                (sameOpcodes_of_applyRels hApply)
            exact .passes _
              (hPassesIff.mpr ⟨hZero, ret, insn, hApply⟩)
              hExceed (hInv.marked hSame') hRun

theorem relocPosStep
    {offsets : List ℕ}
    {is : List ℕ}
    {t : Elf × LoaderGlobals}
    (hInv : RelocInv elf Done offsets nrMaps (i :: is) t) :
    RelocPosStep elf Done symbols offsets nrMaps i is t := by
  rcases t with ⟨elf', g⟩
  by_cases hLt : i < NR_PROCESSED_SEC
  · by_cases hTarget : ¬ Done i ∧ elf.TargetsCode i
    · rcases hTarget with
        ⟨hNotDone, sec, prog, hSec, hType, hProg, hCode⟩
      exact relocPosStep_of_relocFor hInv hLt hNotDone
        ⟨hSec, hType, hProg, hCode⟩
    · have hDone :=
        List.forall_mem_cons.mp hInv.done
      have hNot :
          ∀ sec prog, elf.RelocFor i sec prog → Done i := by
        intro sec prog hFor
        by_contra hNotDone
        exact hTarget ⟨hNotDone, sec, prog, hFor.sec_eq,
          hFor.type_eq, hFor.prog_eq, hFor.isCode⟩
      refine .passes (elf', g) ⟨hLt, ?_⟩ ?_
        ⟨hInv.same, (List.nodup_cons.mp hInv.nodup).2,
          hDone.2, hInv.offsets_eq⟩
        (continues_relocateSecs_of_not hLt ?_ is)
      · intro hNotDone sec prog hFor
        exact absurd (hNot sec prog hFor) hNotDone
      · rintro (hOut | ⟨hNotDone, sec, prog, hFor, _⟩)
        · exact Nat.not_le.mpr hLt hOut
        · exact hNotDone (hNot sec prog hFor)
      · rw [hDone.1, hInv.same.targetsCode_iff]
        by_cases hHere : Done i
        · exact Or.inl hHere
        · exact Or.inr fun hIs => hTarget ⟨hHere, hIs⟩
  · refine .exceeds (Or.inl (Nat.le_of_not_lt hLt)) ?_
    simp only [Noted.relocateSecs]
    exact overruns_isProcessed rfl hLt

/- The pass overruns if it comes to such a section. -/
theorem verdict_relocateSecs
    {is : List ℕ}
    (hSame : elf.SameButOperands elf')
    (hNodup : is.Nodup)
    (hDone : ∀ i ∈ is, g.processedSec i = true ↔ Done i) :
    Verdict Position.InRange
      (Reaches
        (elf.RelocPasses Done symbols
          (recordedOffsets g.mapData nrMaps))
        (elf.RelocExceeds Done symbols
          (recordedOffsets g.mapData nrMaps)) is)
      (Noted.relocateSecs symbols nrMaps is elf' g) := by
  have hNil :
      ∀ t : Elf × LoaderGlobals,
        KeepsIn Position.InRange
          (Noted.relocateSecs symbols nrMaps [] t.1 t.2) :=
    fun _ => trivial
  have hInv :
      RelocInv elf Done (recordedOffsets g.mapData nrMaps)
        nrMaps is (elf', g) :=
    ⟨hSame, hNodup, hDone, rfl⟩
  exact loop_verdict hNil
    (fun i is t hHere => relocPosStep hHere) hInv

end

end XdpDdos
