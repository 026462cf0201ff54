import XdpDdos.Lib.FirstStop
import XdpDdos.Loader.Passes

/-
  What the first pass makes of an arbitrary object: it passes
  all sections, or refuses the object at one of them, or
  breaks the rules of C there.

  Main declarations:
    * `SecRole`, `Sec.role`
    * `Elf.mapsShndx?`, `Elf.symtab?`
    * `Elf.ScanPasses`, `Elf.ScanRefuses`
    * `LoaderGlobals.MarkedAmong`
    * `ScanOutcome`, `scanOutcome`
-/

------------------------------------------------------------
-- Roles of Sections
------------------------------------------------------------

namespace XdpDdos

/- What the first pass takes a section for. -/
inductive SecRole where
  | license
  | version
  | maps
  | symtab
  | other
  deriving Repr, DecidableEq

/- Its name decides, and its type only after that. -/
def Sec.role (sec : Sec) : SecRole :=
  if sec.shname = "license".toList then .license
  else if sec.shname = "version".toList then .version
  else if sec.shname = "maps".toList then .maps
  else if sec.shdr.shType = SHT_SYMTAB then .symtab
  else .other

/- The first pass comes past the section at index `i`. -/
def Sec.ScanPasses
    (sec : Sec)
    (i : ℕ) : Prop :=
  match sec.role with
  | .license =>
      i < NR_PROCESSED_SEC ∧
        sec.data.dSize ≤ LICENSE_SIZE ∧
          sec.data.dSize ≤ sec.data.dBuf.length
  | .version =>
      i < NR_PROCESSED_SEC ∧ sec.data.dSize = 4 ∧
        (sec.data.dBuf.load32 0).isSome
  | _ => True

/- The version has another size than that of an `int`. -/
def Sec.ScanRefuses
    (sec : Sec)
    (i : ℕ) : Prop :=
  sec.role = .version ∧ i < NR_PROCESSED_SEC ∧
    sec.data.dSize ≠ 4

instance
    (sec : Sec)
    (i : ℕ) :
    Decidable (sec.ScanPasses i) := by
  unfold Sec.ScanPasses
  split <;> infer_instance

instance
    (sec : Sec)
    (i : ℕ) :
    Decidable (sec.ScanRefuses i) := by
  unfold Sec.ScanRefuses
  infer_instance

namespace Elf

variable (elf : Elf)

/- A section that `get_sec` fails for is passed. -/
def ScanPasses (i : ℕ) : Prop :=
  ∀ sec ∈ elf.getSec i, sec.ScanPasses i

def ScanRefuses (i : ℕ) : Prop :=
  ∃ sec ∈ elf.getSec i, sec.ScanRefuses i

/- The license or the version, marked as processed. -/
def IsMeta (i : ℕ) : Prop :=
  ∃ sec ∈ elf.getSec i,
    sec.role = .license ∨ sec.role = .version

/- The index `i` if it is that of a maps section. -/
def mapsAt? (i : ℕ) : Option ℕ :=
  (elf.getSec i).bind fun sec =>
    if sec.role = .maps then some i else none

/- The symbol table and its strings, if `i` is one. -/
def symtabAt? (i : ℕ) : Option (ElfData × ℕ) :=
  (elf.getSec i).bind fun sec =>
    if sec.role = .symtab then
      some (sec.data, sec.shdr.shLink)
    else none

/- The maps section, which is the last one of that name. -/
def mapsShndx? : Option ℕ :=
  elf.secIndices.findSomeRev? elf.mapsAt?

/- The symbol table, which is the last one. -/
def symtab? : Option (ElfData × ℕ) :=
  elf.secIndices.findSomeRev? elf.symtabAt?

instance (i : ℕ) : Decidable (elf.ScanPasses i) := by
  unfold Elf.ScanPasses
  infer_instance

instance (i : ℕ) : Decidable (elf.ScanRefuses i) := by
  unfold Elf.ScanRefuses
  infer_instance

instance (i : ℕ) : Decidable (elf.IsMeta i) := by
  unfold Elf.IsMeta
  infer_instance

end Elf

/- The last element with a value gives it. -/
theorem findSomeRev?_cons
    {α β : Type}
    (f : α → Option β)
    (a : α)
    (l : List α) :
    (a :: l).findSomeRev? f =
      (l.findSomeRev? f).or (f a) := by
  rw [List.findSomeRev?]
  cases l.findSomeRev? f with
  | none => rfl
  | some b => rfl

------------------------------------------------------------
-- Marks
------------------------------------------------------------

/-
  Those sections in `is` that satisfy `P`, and no others, have
  become processed, and no programs were loaded.
-/
structure LoaderGlobals.MarkedAmong
    (P : ℕ → Prop)
    (is : List ℕ)
    (g g' : LoaderGlobals) : Prop where
  processed_iff :
    ∀ i, g'.processedSec i = true ↔
      g.processedSec i = true ∨ i ∈ is ∧ P i
  progCnt_eq : g'.progCnt = g.progCnt

namespace LoaderGlobals

variable {P : ℕ → Prop}
variable {i : ℕ}
variable {is : List ℕ}
variable {g g' g'' : LoaderGlobals}

theorem MarkedAmong.nil
    (P : ℕ → Prop)
    (g : LoaderGlobals) :
    MarkedAmong P [] g g where
  processed_iff := by
    intro i
    simp only [List.not_mem_nil, false_and, or_false]
  progCnt_eq := rfl

theorem MarkedAmong.cons
    (hFirst : MarkedAmong P [i] g g')
    (hRest : MarkedAmong P is g' g'') :
    MarkedAmong P (i :: is) g g'' where
  processed_iff := by
    intro j
    rw [hRest.processed_iff, hFirst.processed_iff,
      List.mem_singleton, List.mem_cons, or_and_right,
      or_assoc]
  progCnt_eq := hRest.progCnt_eq.trans hFirst.progCnt_eq

/- No marks, if the section has one or does not get one. -/
theorem markedAmong_of_unmarked
    (hMarked : P i → g.processedSec i = true)
    (hProcessed : g'.processedSec = g.processedSec)
    (hCnt : g'.progCnt = g.progCnt) :
    MarkedAmong P [i] g g' where
  processed_iff := by
    intro j
    rw [hProcessed, List.mem_singleton]
    constructor
    · exact Or.inl
    · rintro (hOld | ⟨rfl, hIs⟩)
      · exact hOld
      · exact hMarked hIs
  progCnt_eq := hCnt

/- The section gets a mark. -/
theorem markedAmong_of
    (hHere : P i)
    (hProcessed :
      g'.processedSec =
        Function.update g.processedSec i true)
    (hCnt : g'.progCnt = g.progCnt) :
    MarkedAmong P [i] g g' where
  processed_iff := by
    intro j
    rw [hProcessed, List.mem_singleton]
    by_cases hEq : j = i
    · subst hEq
      simp only [Function.update_self, hHere, and_self,
        or_true]
    · simp only [Function.update_of_ne hEq, hEq, false_and,
        or_false]
  progCnt_eq := hCnt

end LoaderGlobals

------------------------------------------------------------
-- One Section
------------------------------------------------------------

/- The three things that the pass does with a section. -/
inductive ScanStep
    (elf : Elf)
    (i : ℕ)
    (is : List ℕ)
    (sc : Scan) : Prop where
  | passes
      (g' : LoaderGlobals)
      (hPasses : elf.ScanPasses i)
      (hMarked :
        LoaderGlobals.MarkedAmong elf.IsMeta [i] sc.globals g')
      (hRun :
        scanSecs elf (i :: is) sc =
          scanSecs elf is
            { globals := g'
              mapsShndx := (elf.mapsAt? i).or sc.mapsShndx
              symtab := (elf.symtabAt? i).or sc.symtab })
  | refuses
      (sc' : Scan)
      (hRefuses : elf.ScanRefuses i)
      (hPasses : ¬ elf.ScanPasses i)
      (hRun : scanSecs elf (i :: is) sc = .ok (1, sc'))
  | crashes
      (crash : Crash)
      (hPasses : ¬ elf.ScanPasses i)
      (hRefuses : ¬ elf.ScanRefuses i)
      (hCrash : crash ≠ .divByZero)
      (hRun : scanSecs elf (i :: is) sc = .error crash)

section

variable {elf : Elf}
variable {i : ℕ}
variable {sec : Sec}

theorem scanPasses_iff
    (hSec : elf.getSec i = some sec) :
    elf.ScanPasses i ↔ sec.ScanPasses i := by
  simp [Elf.ScanPasses, hSec]

theorem scanRefuses_iff
    (hSec : elf.getSec i = some sec) :
    elf.ScanRefuses i ↔ sec.ScanRefuses i := by
  simp [Elf.ScanRefuses, hSec]

theorem isMeta_iff
    (hSec : elf.getSec i = some sec) :
    elf.IsMeta i ↔
      sec.role = .license ∨ sec.role = .version := by
  simp [Elf.IsMeta, hSec]

theorem mapsAt?_eq
    (hSec : elf.getSec i = some sec) :
    elf.mapsAt? i =
      if sec.role = .maps then some i else none := by
  rw [Elf.mapsAt?, hSec, Option.bind_some]

theorem symtabAt?_eq
    (hSec : elf.getSec i = some sec) :
    elf.symtabAt? i =
      if sec.role = .symtab then
        some (sec.data, sec.shdr.shLink)
      else none := by
  rw [Elf.symtabAt?, hSec, Option.bind_some]

/- The loop body, in terms of the role of the section. -/
theorem scanSecs_role
    (hSec : elf.getSec i = some sec)
    (is : List ℕ)
    (sc : Scan) :
    scanSecs elf (i :: is) sc =
      match sec.role with
      | .license => do
          let g ← sc.globals.setProcessed i
          let g ← g.copyLicense sec.data
          scanSecs elf is { sc with globals := g }
      | .version => do
          let g ← sc.globals.setProcessed i
          if sec.data.dSize ≠ 4 then
            .ok (1, { sc with globals := g })
          else
            match sec.data.dBuf.load32 0 with
            | none => .error .outOfRange
            | some version =>
                scanSecs elf is { sc with
                  globals := { g with
                    kernVersion := version } }
      | .maps =>
          scanSecs elf is { sc with
            mapsShndx := some i
            globals := { sc.globals with
              mapData := clearMapFds sc.globals.mapData } }
      | .symtab =>
          scanSecs elf is { sc with
            symtab := some (sec.data, sec.shdr.shLink) }
      | .other => scanSecs elf is sc := by
  simp only [scanSecs, hSec, Sec.role]
  by_cases hLicense : sec.shname = "license".toList
  · rw [if_pos hLicense, if_pos hLicense]
  rw [if_neg hLicense, if_neg hLicense]
  by_cases hVersion : sec.shname = "version".toList
  · rewrite [if_pos hVersion, if_pos hVersion]
    rfl
  rw [if_neg hVersion, if_neg hVersion]
  by_cases hMaps : sec.shname = "maps".toList
  · rw [if_pos hMaps, if_pos hMaps]
  rw [if_neg hMaps, if_neg hMaps]
  by_cases hSymtab : sec.shdr.shType = SHT_SYMTAB
  · rw [if_pos hSymtab, if_pos hSymtab]
  · rw [if_neg hSymtab, if_neg hSymtab]

/- A license that fits is copied. -/
theorem scanStep_license
    (hSec : elf.getSec i = some sec)
    (hRole : sec.role = .license)
    (is : List ℕ)
    (sc : Scan) :
    ScanStep elf i is sc := by
  have hCons := scanSecs_role hSec is sc
  have hPasses := scanPasses_iff hSec
  have hRefuses : ¬ elf.ScanRefuses i := by
    rw [scanRefuses_iff hSec, Sec.ScanRefuses, hRole]
    rintro ⟨hVersion, _⟩
    cases hVersion
  have hMeta : elf.IsMeta i :=
    (isMeta_iff hSec).mpr (Or.inl hRole)
  simp only [hRole] at hCons
  simp only [Sec.ScanPasses, hRole] at hPasses
  by_cases hLt : i < NR_PROCESSED_SEC
  · rw [(LoaderGlobals.setProcessed_of_lt _ hLt).1,
      except_ok_bind] at hCons
    by_cases hFits :
        sec.data.dSize ≤ LICENSE_SIZE ∧
          sec.data.dSize ≤ sec.data.dBuf.length
    · rw [LoaderGlobals.copyLicense, if_pos hFits,
        except_ok_bind] at hCons
      refine .passes ?globals (hPasses.mpr ⟨hLt, hFits⟩)
        ?marked ?run
      case run =>
        rw [hCons, mapsAt?_eq hSec, symtabAt?_eq hSec, hRole]
        rfl
      case marked =>
        exact LoaderGlobals.markedAmong_of hMeta rfl rfl
    · rw [LoaderGlobals.copyLicense, if_neg hFits] at hCons
      exact .crashes .outOfRange
        (fun hIs => hFits (hPasses.mp hIs).2) hRefuses
        (by decide) hCons
  · rw [LoaderGlobals.setProcessed, if_neg hLt] at hCons
    exact .crashes .outOfRange
      (fun hIs => hLt (hPasses.mp hIs).1) hRefuses
      (by decide) hCons

/- A version must have the size of an `int`. -/
theorem scanStep_version
    (hSec : elf.getSec i = some sec)
    (hRole : sec.role = .version)
    (is : List ℕ)
    (sc : Scan) :
    ScanStep elf i is sc := by
  have hCons := scanSecs_role hSec is sc
  have hPasses := scanPasses_iff hSec
  have hRefuses := scanRefuses_iff hSec
  have hMeta : elf.IsMeta i :=
    (isMeta_iff hSec).mpr (Or.inr hRole)
  simp only [hRole] at hCons
  simp only [Sec.ScanPasses, hRole] at hPasses
  simp only [Sec.ScanRefuses, hRole, true_and] at hRefuses
  by_cases hLt : i < NR_PROCESSED_SEC
  · rw [(LoaderGlobals.setProcessed_of_lt _ hLt).1,
      except_ok_bind] at hCons
    by_cases hSize : sec.data.dSize = 4
    · rw [if_neg (not_not_intro hSize)] at hCons
      have hNotRefused : ¬ elf.ScanRefuses i :=
        fun hIs => (hRefuses.mp hIs).2 hSize
      cases hLoad : sec.data.dBuf.load32 0 with
      | none =>
          rw [hLoad] at hCons hPasses
          refine .crashes .outOfRange ?_ hNotRefused
            (by decide) hCons
          intro hIs
          cases (hPasses.mp hIs).2.2
      | some version =>
          rw [hLoad] at hCons hPasses
          refine .passes ?globals
            (hPasses.mpr ⟨hLt, hSize, rfl⟩) ?marked ?run
          case run =>
            rw [hCons, mapsAt?_eq hSec, symtabAt?_eq hSec,
              hRole]
            rfl
          case marked =>
            exact LoaderGlobals.markedAmong_of hMeta rfl rfl
    · rw [if_pos hSize] at hCons
      exact .refuses _ (hRefuses.mpr ⟨hLt, hSize⟩)
        (fun hIs => hSize (hPasses.mp hIs).2.1) hCons
  · rw [LoaderGlobals.setProcessed, if_neg hLt] at hCons
    exact .crashes .outOfRange
      (fun hIs => hLt (hPasses.mp hIs).1)
      (fun hIs => hLt (hRefuses.mp hIs).1) (by decide) hCons

theorem scanStep
    (elf : Elf)
    (i : ℕ)
    (is : List ℕ)
    (sc : Scan) :
    ScanStep elf i is sc := by
  cases hSec : elf.getSec i with
  | none =>
      refine .passes sc.globals ?_
        (LoaderGlobals.markedAmong_of_unmarked ?_ rfl rfl) ?_
      · intro sec hMem
        rw [hSec] at hMem
        cases hMem
      · rintro ⟨sec, hMem, _⟩
        rw [hSec] at hMem
        cases hMem
      · simp only [scanSecs, hSec, Elf.mapsAt?,
          Elf.symtabAt?, Option.bind_none, Option.none_or]
  | some sec =>
      have hCons := scanSecs_role hSec is sc
      have hPasses := scanPasses_iff hSec
      have hMeta := isMeta_iff hSec
      have hMaps := mapsAt?_eq hSec
      have hSymtab := symtabAt?_eq hSec
      cases hRole : sec.role with
      | license => exact scanStep_license hSec hRole is sc
      | version => exact scanStep_version hSec hRole is sc
      | maps =>
          simp only [hRole] at hCons hMaps hSymtab
          simp only [Sec.ScanPasses, hRole, iff_true]
            at hPasses
          simp only [hRole, reduceCtorEq, or_self,
            iff_false] at hMeta
          refine .passes
            { sc.globals with
              mapData := clearMapFds sc.globals.mapData }
            hPasses
            (LoaderGlobals.markedAmong_of_unmarked
              (fun hIs => absurd hIs hMeta) rfl rfl)
            ?_
          rw [hCons, hMaps, hSymtab]
          rfl
      | symtab | other =>
          simp only [hRole] at hCons hMaps hSymtab
          simp only [Sec.ScanPasses, hRole, iff_true]
            at hPasses
          simp only [hRole, reduceCtorEq, or_self,
            iff_false] at hMeta
          refine .passes sc.globals hPasses
            (LoaderGlobals.markedAmong_of_unmarked
              (fun hIs => absurd hIs hMeta) rfl rfl) ?_
          rw [hCons, hMaps, hSymtab]
          rfl

end

/- A version is not both passed and refused. -/
theorem Elf.ScanRefuses.not_passes
    {elf : Elf}
    {i : ℕ}
    (hRefuses : elf.ScanRefuses i) :
    ¬ elf.ScanPasses i := by
  rcases hRefuses with ⟨sec, hSec, hRole, _, hSize⟩
  intro hPasses
  have hFits := (scanPasses_iff hSec).mp hPasses
  simp only [Sec.ScanPasses, hRole] at hFits
  exact hSize hFits.2.1

------------------------------------------------------------
-- The Whole Pass
------------------------------------------------------------

/- The three ways in which the pass ends. -/
inductive ScanOutcome
    (elf : Elf)
    (is : List ℕ)
    (sc : Scan) : Prop where
  | passes
      (g' : LoaderGlobals)
      (hPasses : ∀ i ∈ is, elf.ScanPasses i)
      (hMarked :
        LoaderGlobals.MarkedAmong elf.IsMeta is sc.globals g')
      (hRun :
        scanSecs elf is sc =
          .ok (0,
            { globals := g'
              mapsShndx :=
                (is.findSomeRev? elf.mapsAt?).or sc.mapsShndx
              symtab :=
                (is.findSomeRev? elf.symtabAt?).or
                  sc.symtab }))
  | refuses
      (sc' : Scan)
      (hRefuses :
        Reaches elf.ScanPasses elf.ScanRefuses is)
      (hPasses : ¬ ∀ i ∈ is, elf.ScanPasses i)
      (hRun : scanSecs elf is sc = .ok (1, sc'))
  | crashes
      (crash : Crash)
      (hPasses : ¬ ∀ i ∈ is, elf.ScanPasses i)
      (hRefuses :
        ¬ Reaches elf.ScanPasses elf.ScanRefuses is)
      (hCrash : crash ≠ .divByZero)
      (hRun : scanSecs elf is sc = .error crash)

theorem scanOutcome
    (elf : Elf)
    (is : List ℕ)
    (sc : Scan) :
    ScanOutcome elf is sc := by
  induction is generalizing sc with
  | nil =>
      exact .passes sc.globals (List.forall_mem_nil _)
        (.nil _ _) rfl
  | cons i is ih =>
      cases scanStep elf i is sc with
      | passes g' hPasses hMarked hRun =>
          cases ih
            { globals := g'
              mapsShndx := (elf.mapsAt? i).or sc.mapsShndx
              symtab := (elf.symtabAt? i).or sc.symtab } with
          | passes g'' hRest hMarked' hRun' =>
              refine .passes g''
                (List.forall_mem_cons.mpr ⟨hPasses, hRest⟩)
                (hMarked.cons hMarked') ?_
              rw [hRun, hRun', findSomeRev?_cons,
                findSomeRev?_cons, Option.or_assoc,
                Option.or_assoc]
          | refuses sc' hRest hNot hRun' =>
              exact .refuses sc' (Or.inr ⟨hPasses, hRest⟩)
                (fun hAll =>
                  hNot (List.forall_mem_cons.mp hAll).2)
                (hRun.trans hRun')
          | crashes crash hNot hRest hCrash hRun' =>
              refine .crashes crash
                (fun hAll =>
                  hNot (List.forall_mem_cons.mp hAll).2) ?_
                hCrash (hRun.trans hRun')
              rintro (hHere | ⟨_, hTail⟩)
              · exact hHere.not_passes hPasses
              · exact hRest hTail
      | refuses sc' hRefuses hPasses hRun =>
          exact .refuses sc' (Or.inl hRefuses)
            (fun hAll =>
              hPasses (List.forall_mem_cons.mp hAll).1) hRun
      | crashes crash hPasses hRefuses hCrash hRun =>
          refine .crashes crash
            (fun hAll =>
              hPasses (List.forall_mem_cons.mp hAll).1) ?_
            hCrash hRun
          rintro (hHere | ⟨hHere, _⟩)
          · exact hRefuses hHere
          · exact hPasses hHere

section

variable {elf : Elf}
variable {is : List ℕ}

/- A pass that comes past all sections. -/
theorem scanSecs_of_passes
    (hPasses : ∀ i ∈ is, elf.ScanPasses i)
    (sc : Scan) :
    ∃ g',
      LoaderGlobals.MarkedAmong elf.IsMeta is sc.globals g' ∧
      scanSecs elf is sc =
        .ok (0,
          { globals := g'
            mapsShndx :=
              (is.findSomeRev? elf.mapsAt?).or sc.mapsShndx
            symtab :=
              (is.findSomeRev? elf.symtabAt?).or
                sc.symtab }) := by
  cases scanOutcome elf is sc with
  | passes g' _ hMarked hRun => exact ⟨g', hMarked, hRun⟩
  | refuses sc' hRefuses hNot hRun =>
      exact absurd hPasses hNot
  | crashes crash hNot hRefuses hCrash hRun =>
      exact absurd hPasses hNot

/- A pass that comes to a version of the wrong size. -/
theorem scanSecs_of_refuses
    (hRefuses : Reaches elf.ScanPasses elf.ScanRefuses is)
    (sc : Scan) :
    ∃ sc', scanSecs elf is sc = .ok (1, sc') := by
  cases scanOutcome elf is sc with
  | passes g' hPasses hMarked hRun =>
      exact absurd hPasses
        (hRefuses.not_forall fun _ hStop => hStop.not_passes)
  | refuses sc' _ hNot hRun => exact ⟨sc', hRun⟩
  | crashes crash hPasses hNot hCrash hRun =>
      exact absurd hRefuses hNot

end

end XdpDdos
