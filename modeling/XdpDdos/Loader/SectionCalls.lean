import XdpDdos.Loader.BpfLoad

/-
  The loader with its calls tagged by the section that they
  are made for.

  Only `load_and_attach` makes calls for a section.  Without
  the tags it is the loader as it is.

  Main declarations:
    * `SecCall`, `SecCall.LoadsSec`
    * `BySection.doLoadBpfFile`
    * `untagged`, `untagged_doLoadBpfFile`
-/

------------------------------------------------------------
-- Calls for a Section
------------------------------------------------------------

namespace XdpDdos

/- A call, and the section of the program it is made for. -/
structure SecCall where
  sec : Option ℕ
  op : LoadCall

@[reducible] def SecCall.Resp (call : SecCall) : Type :=
  call.op.Resp

abbrev SecProg (α : Type) :=
  CallProg SecCall SecCall.Resp α

/- `bpf_load_program`, with the instructions of section `p`. -/
def SecCall.LoadsSec
    (p : ℕ)
    (call : SecCall) : Prop :=
  call.sec = some p ∧
    ∃ progType insns insnsCnt license kernVersion,
      call.op =
        .loadProgram progType insns insnsCnt license
          kernVersion

/- The environment does not see the tags. -/
def unseen
    {σ : Type}
    (handler : CallProg.Handler LoadCall LoadCall.Resp σ) :
    CallProg.Handler SecCall SecCall.Resp σ :=
  fun call => handler call.op

/- A program without its tags. -/
def untagged
    {α : Type}
    (p : SecProg α) : LoadProg α :=
  CallProg.embed SecCall.op (fun _ answer => answer) p

------------------------------------------------------------
-- The Loader, With Tags
------------------------------------------------------------

namespace BySection

variable {α υ : Type}

/- A part of the loader, and the section that it is for. -/
def forSec
    (sec : Option ℕ)
    (p : LoadProg α) : SecProg α :=
  CallProg.embed (SecCall.mk sec) (fun _ answer => answer) p

/- Load the programs, in the order of the sections. -/
def loadSecs
    (elf : Elf) :
    List ℕ → LoaderGlobals → SecProg (ℤ × LoaderGlobals)
  | [], g => return (0, g)
  | i :: is, g => do
      if ← .ofExcept (g.isProcessed i) then
        loadSecs elf is g
      else
        match elf.getSec i with
        | none => loadSecs elf is g
        | some sec =>
            if isProgName sec.shname then do
              let (ret, g) ← forSec (some i)
                (loadAndAttach sec.event sec.data g)
              if ret ≠ 0 then return (ret, g)
              else loadSecs elf is g
            else loadSecs elf is g

/- The passes over an opened object. -/
def loadElf
    (fixupMap : Option (FixupMapCb υ))
    (elf : Elf)
    (g : LoaderGlobals)
    (u : υ) : SecProg (ℤ × LoaderGlobals × υ) := do
  let (ret, sc) ←
    .ofExcept (scanSecs elf elf.secIndices ⟨g, none, none⟩)
  if ret ≠ 0 then
    return (1, sc.globals, u)
  else
    match sc.symtab with
    | none => return (1, sc.globals, u)
    | some symtab => do
        let (ret, nrMaps, g, u) ← forSec none
          (loadMapsOf fixupMap elf symtab sc.mapsShndx
            sc.globals u)
        if ret ≠ 0 then
          return (1, g, u)
        else do
          let (elf, g) ←
            .ofExcept (relocateSecs symtab.1 nrMaps
              elf.secIndices elf g)
          let (ret, g) ← loadSecs elf elf.secIndices g
          return (ret, g, u)

/- `do_load_bpf_file`. -/
def doLoadBpfFile
    (path : CStr)
    (fixupMap : Option (FixupMapCb υ))
    (g : LoaderGlobals)
    (u : υ) : SecProg (ℤ × LoaderGlobals × υ) := do
  let g := g.reset
  match ← forSec none (.call' (LoadCall.elfOpen path)) with
  | none => return (1, g, u)
  | some elf => loadElf fixupMap elf g u

end BySection

------------------------------------------------------------
-- Without the Tags
------------------------------------------------------------

section

variable {α β υ σ : Type}

@[simp] theorem untagged_ret
    (value : α) :
    untagged (.ret value : SecProg α) = .ret value := rfl

theorem untagged_bind
    (p : SecProg α)
    (f : α → SecProg β) :
    untagged (p >>= f) =
      untagged p >>= fun value => untagged (f value) :=
  CallProg.embed_bind _ _ p f

@[simp] theorem untagged_ofExcept
    (e : Except Crash α) :
    untagged (.ofExcept e : SecProg α) = .ofExcept e := by
  cases e with
  | ok value => rfl
  | error crash => rfl

@[simp] theorem untagged_forSec
    (sec : Option ℕ)
    (p : LoadProg α) :
    untagged (BySection.forSec sec p) = p := by
  induction p with
  | ret value => rfl
  | halt how => rfl
  | call op next ih =>
      simp only [BySection.forSec, untagged, CallProg.embed,
        CallProg.call.injEq, heq_eq_eq, true_and]
      funext answer
      exact ih answer

theorem untagged_loadSecs
    (elf : Elf)
    (is : List ℕ)
    (g : LoaderGlobals) :
    untagged (BySection.loadSecs elf is g) =
      loadSecs elf is g := by
  induction is generalizing g with
  | nil => rfl
  | cons i is ih =>
      rw [BySection.loadSecs, loadSecs, untagged_bind,
        untagged_ofExcept]
      congr 1
      funext processed
      cases processed with
      | true => exact ih g
      | false =>
          simp only [Bool.false_eq_true, if_false]
          cases elf.getSec i with
          | none => exact ih g
          | some sec =>
              simp only
              split
              · rw [untagged_bind, untagged_forSec]
                congr 1
                funext r
                rcases r with ⟨ret, g'⟩
                simp only
                split
                · rfl
                · exact ih g'
              · exact ih g

theorem untagged_loadElf
    (fixupMap : Option (FixupMapCb υ))
    (elf : Elf)
    (g : LoaderGlobals)
    (u : υ) :
    untagged (BySection.loadElf fixupMap elf g u) =
      loadElf fixupMap elf g u := by
  rw [BySection.loadElf, loadElf, untagged_bind,
    untagged_ofExcept]
  congr 1
  funext r
  rcases r with ⟨ret, sc⟩
  simp only
  split
  · rfl
  · cases sc.symtab with
    | none => rfl
    | some symtab =>
        simp only
        rw [untagged_bind, untagged_forSec]
        congr 1
        funext r
        rcases r with ⟨ret, nrMaps, g, u⟩
        simp only
        split
        · rfl
        · rw [untagged_bind, untagged_ofExcept]
          congr 1
          funext r
          rcases r with ⟨elf, g⟩
          simp only
          rw [untagged_bind, untagged_loadSecs]
          rfl

/- Without its tags it is the loader as it is. -/
theorem untagged_doLoadBpfFile
    (path : CStr)
    (fixupMap : Option (FixupMapCb υ))
    (g : LoaderGlobals)
    (u : υ) :
    untagged (BySection.doLoadBpfFile path fixupMap g u) =
      doLoadBpfFile path fixupMap g u := by
  rw [BySection.doLoadBpfFile, doLoadBpfFile, untagged_bind,
    untagged_forSec]
  congr 1
  funext opened
  cases opened with
  | none => rfl
  | some elf => exact untagged_loadElf fixupMap elf g.reset u

/- The tags do not matter for how a run ends. -/
theorem run_untagged
    (p : SecProg α)
    (handler : CallProg.Handler LoadCall LoadCall.Resp σ)
    (s : σ) :
    (untagged p).run handler s = p.run (unseen handler) s := by
  have hEmbed :=
    CallProg.run_embed SecCall.op (fun _ answer => answer)
      (unseen handler) handler id
      (fun _ _ => ⟨rfl, rfl⟩) p s
  exact hEmbed

/- The object is opened first, by a call for no section. -/
theorem trace_bySection_doLoadBpfFile
    {path : CStr}
    {handler :
      CallProg.Handler LoadCall LoadCall.Resp σ}
    {s : σ}
    {elf : Elf}
    (hOpen : (handler (.elfOpen path) s).1 = some elf)
    (fixupMap : Option (FixupMapCb υ))
    (g : LoaderGlobals)
    (u : υ) :
    (BySection.doLoadBpfFile path fixupMap g u).trace
        (unseen handler) s =
      ⟨⟨none, .elfOpen path⟩,
          (handler (.elfOpen path) s).1⟩ ::
        (BySection.loadElf fixupMap elf g.reset u).trace
          (unseen handler)
          (handler (.elfOpen path) s).2 := by
  let next : Option Elf → SecProg (ℤ × LoaderGlobals × υ)
    | none => .ret (1, g.reset, u)
    | some elf => BySection.loadElf fixupMap elf g.reset u
  have hNext :
      next (handler (.elfOpen path) s).1 =
        BySection.loadElf fixupMap elf g.reset u :=
    congrArg next hOpen
  have hCall :
      BySection.doLoadBpfFile path fixupMap g u =
        .call ⟨none, .elfOpen path⟩ next := by
    refine congrArg (CallProg.call _) (funext fun opened => ?_)
    cases opened with
    | none => rfl
    | some elf => rfl
  rw [hCall, CallProg.trace, ← hNext]
  rfl

end

end XdpDdos
