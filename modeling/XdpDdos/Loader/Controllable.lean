import XdpDdos.Loader.Lifecycle

/-
  When the command line tool, which knows the map files only,
  reaches the programs that are attached.

  One run of the loader is judged by its exit code, whatever
  fails in it; then sequences of runs without failures are.

  Main declarations:
    * `SuccessControllable`, `success_controllable_iff`
    * `DeployedObject.lifecycle`
    * `AllControlled`, `RemovesLast`
    * `attached_programs_controlled`
-/

------------------------------------------------------------
-- What Success Says
------------------------------------------------------------

namespace XdpDdos

/-
  If a start reports success, the attached program is the one
  that the files control.  If a remove does, no program is
  attached to the interface without its files.
-/
def SuccessControllable
    (obj : DeployedObject)
    (faults : Faults)
    (k : Kernel)
    (opt : Options) : Prop :=
  ∀ s',
    CallProg.run (Kernel.handle obj.elf faults) (main opt)
        (.start k) =
      (.returned EXIT_OK, s') →
    if opt.rmXdpProg then
      ∀ mode p, s'.kernel.attached opt.ifindex mode = some p →
        ∀ i < NR_MAPS, (s'.kernel.pins (exportFile i)).isSome
    else
      ∃ p,
        s'.kernel.attached opt.ifindex
            (k.modeOf opt.ifindex opt.xdpFlags) = some p ∧
          obj.Controls s'.kernel p

/- The remove leaves no program on the interface. -/
structure Detaches
    (faults : Faults)
    (k : Kernel)
    (opt : Options) : Prop where
  own :
    k.attached opt.ifindex
        (k.modeOf opt.ifindex opt.xdpFlags) = none ∨
      faults.setLink = false
  other :
    k.attached opt.ifindex
      (k.modeOf opt.ifindex opt.xdpFlags).other = none

/- All files exist, and none can be unlinked. -/
def FilesStay
    (faults : Faults)
    (k : Kernel) : Prop :=
  ∀ i < NR_MAPS,
    (k.pins (exportFile i)).isSome ∧
      faults.unlink (exportFile i) = true

section

variable {obj : DeployedObject}
variable {faults : Faults}
variable {k : Kernel}
variable {opt : Options}

/- A start controls its program when all files are synced. -/
theorem start_controllable_iff
    (hStart : opt.rmXdpProg = false) :
    SuccessControllable obj faults k opt ↔
      (StartsUp obj faults k opt →
        ∀ i < NR_MAPS, Synced faults k i) := by
  unfold SuccessControllable
  rw [hStart]
  cases run_start obj faults k hStart with
  | failed hRun hCode hFails hAttached hKept =>
      constructor
      · intro _ hStarts
        exact absurd hStarts hFails
      · intro _ s' hOk
        rw [hRun] at hOk
        cases hOk
        exact absurd rfl hCode
  | @started p maps s₁ hRun hStarts hAttached hKept hUses
      hPins =>
      have hHere :
          s₁.kernel.attached opt.ifindex
            (k.modeOf opt.ifindex opt.xdpFlags) = some p := by
        rw [hAttached]
        exact k.setAttached_self _ _ _
      constructor
      · intro hControls _ i hLt
        rcases hControls s₁ hRun with ⟨p', hSome, hFiles⟩
        rw [hHere] at hSome
        cases hSome
        rcases hFiles i hLt with ⟨m, hPin, hUse⟩
        rw [DeployedObject.Uses.unique hLt hUse
          (hUses i hLt)] at hPin
        exact (hPins i hLt).mp hPin
      · intro hSynced s' hOk
        rw [hRun] at hOk
        cases hOk
        refine ⟨p, hHere, ?_⟩
        intro i hLt
        exact ⟨maps i,
          (hPins i hLt).mpr (hSynced hStarts i hLt),
          hUses i hLt⟩

/- What is attached to the interface after a remove. -/
theorem detaches_iff :
    Detaches faults k opt ↔
      ∀ mode, attachedAfterRemove faults k opt opt.ifindex
        mode = none := by
  have hOther :=
    (k.modeOf opt.ifindex opt.xdpFlags).other_ne
  unfold attachedAfterRemove
  constructor
  · rintro ⟨hOwn, hNone⟩ mode
    rcases (k.modeOf opt.ifindex
      opt.xdpFlags).eq_or_eq_other mode with rfl | rfl
    · split
      · rename_i hFault
        rw [hFault] at hOwn
        exact hOwn.resolve_right (by decide)
      · exact k.setAttached_self _ _ _
    · split
      · exact hNone
      · rw [k.setAttached_of_ne _ (fun hBoth =>
          hOther hBoth.2)]
        exact hNone
  · intro hAll
    cases hFault : faults.setLink with
    | true =>
        rw [hFault] at hAll
        exact ⟨Or.inl (hAll _), hAll _⟩
    | false =>
        rw [hFault] at hAll
        refine ⟨Or.inr hFault, ?_⟩
        have hNone :=
          hAll (k.modeOf opt.ifindex opt.xdpFlags).other
        rw [if_neg Bool.false_ne_true,
          k.setAttached_of_ne _ (fun hBoth =>
            hOther hBoth.2)] at hNone
        exact hNone

/- A remove is sound if it detaches, or removes nothing. -/
theorem remove_controllable_iff
    (hRemove : opt.rmXdpProg = true) :
    SuccessControllable obj faults k opt ↔
      (opt.ifindex ≠ -1 →
        Detaches faults k opt ∨ FilesStay faults k) := by
  unfold SuccessControllable
  rw [hRemove]
  by_cases hDevice : opt.ifindex = -1
  · have hRun := run_main_noDevice obj.elf faults k hDevice
    constructor
    · intro _ hNot
      exact absurd hDevice hNot
    · intro _ s' hOk
      rw [hRun] at hOk
      cases hOk
  · rcases run_remove obj.elf faults k hRemove hDevice with
      ⟨s₁, hRun, hAttached, hPins⟩
    have hFiles :
        (∀ i < NR_MAPS,
            (s₁.kernel.pins (exportFile i)).isSome) ↔
          FilesStay faults k := by
      apply forall_congr'
      intro i
      apply forall_congr'
      intro hLt
      rw [hPins i hLt]
      cases faults.unlink (exportFile i) with
      | true => simp
      | false => simp
    constructor
    · intro hSound _
      by_cases hStay : FilesStay faults k
      · exact Or.inr hStay
      · refine Or.inl (detaches_iff.mpr ?_)
        intro mode
        rw [← hAttached]
        -- an attached program would keep its files
        cases hSome : s₁.kernel.attached opt.ifindex mode with
        | none => rfl
        | some p =>
            exact absurd
              (hFiles.mp (hSound s₁ hRun mode p hSome)) hStay
    · intro hCond s' hOk mode p hSome
      rw [hRun] at hOk
      cases hOk
      rcases hCond hDevice with hDetaches | hStay
      · have hNone := detaches_iff.mp hDetaches mode
        rw [← hAttached, hSome] at hNone
        cases hNone
      · exact hFiles.mpr hStay

end

/- Exactly when success means that the files are in control. -/
theorem success_controllable_iff
    (obj : DeployedObject)
    (faults : Faults)
    (k : Kernel)
    (opt : Options) :
    SuccessControllable obj faults k opt ↔
      if opt.rmXdpProg then
        opt.ifindex ≠ -1 →
          Detaches faults k opt ∨ FilesStay faults k
      else
        StartsUp obj faults k opt →
          ∀ i < NR_MAPS, Synced faults k i := by
  cases hMode : opt.rmXdpProg with
  | true => exact remove_controllable_iff hMode
  | false => exact start_controllable_iff hMode

/- Run the loader for an interface, without other options. -/
def optionsFor
    (rmXdpProg : Bool)
    (n : ℕ) : Options where
  ifindex := n + 1
  ifindex_ok := by omega
  rmXdpProg := rmXdpProg
  xdpFlags := 0
  owner := -1
  group := -1

/- One file cannot be made, and the start reports success. -/
theorem unpinned_start_succeeds :
    ¬ SuccessControllable blacklistDeployed
        { objPin := fun path => path = exportFile 2 }
        (Kernel.boot fun _ => false) (optionsFor false 0) := by
  intro hSound
  have hStarts :
      StartsUp blacklistDeployed
        { objPin := fun path => path = exportFile 2 }
        (Kernel.boot fun _ => false) (optionsFor false 0) :=
    startsUp_of_accepted _ (by decide) rfl rfl
      (fun _ => rfl) rfl rfl
  rcases (start_controllable_iff rfl).mp hSound hStarts 2
    (by decide) with hHeld | hExportable
  · cases hHeld
  · have hFault := hExportable.2
    rw [decide_eq_false_iff_not] at hFault
    exact hFault rfl

------------------------------------------------------------
-- Sequences of Starts and Removes
------------------------------------------------------------

namespace DeployedObject

/- One process after the other, with no call failing. -/
def lifecycle (obj : DeployedObject) :
    Reactive Kernel Options (Outcome ℕ) where
  step k opt :=
    let r := CallProg.run (Kernel.handle obj.elf {})
      (main opt) (.start k)
    (r.1, r.2.kernel)

end DeployedObject

/- The files control every program that is attached. -/
def AllControlled
    (obj : DeployedObject)
    (k : Kernel) : Prop :=
  ∀ ifindex mode p,
    k.attached ifindex mode = some p → obj.Controls k p

/- A remove finds no program attached anywhere else. -/
def RemovesLast
    (k : Kernel)
    (opt : Options) : Prop :=
  opt.rmXdpProg = true → opt.ifindex ≠ -1 →
    ∀ ifindex mode,
      ¬ (ifindex = opt.ifindex ∧
          mode = k.modeOf opt.ifindex opt.xdpFlags) →
        k.attached ifindex mode = none

section

variable {obj : DeployedObject}
variable {k k' : Kernel}
variable {opt : Options}

theorem DeployedObject.Controls.of_pinsKept
    {p : XdpProg}
    (hControls : obj.Controls k p)
    (hKept : k.PinsKept k') :
    obj.Controls k' p := by
  intro i hLt
  rcases hControls i hLt with ⟨m, hPin, hUses⟩
  exact ⟨m, hKept _ _ hPin, hUses⟩

theorem AllControlled.of_pinsKept
    (hAll : AllControlled obj k)
    (hAttached : k'.attached = k.attached)
    (hKept : k.PinsKept k') :
    AllControlled obj k' := by
  intro ifindex mode p hSome
  rw [hAttached] at hSome
  exact (hAll ifindex mode p hSome).of_pinsKept hKept

theorem not_controls_of_missing
    {p : XdpProg}
    (hMissing : k.pins (exportFile 0) = none) :
    ¬ obj.Controls k p := by
  intro hControls
  rcases hControls 0 (by decide) with ⟨m, hPin, _⟩
  rw [hMissing] at hPin
  cases hPin

/- Without failures a file is taken over or made. -/
theorem synced_of_noFaults
    (k : Kernel)
    (i : ℕ) :
    Synced {} k i := by
  cases hPin : k.pins (exportFile i) with
  | some m =>
      refine Or.inl ?_
      simp [Kernel.held, hPin]
  | none => exact Or.inr ⟨hPin, rfl⟩

/- What the lifecycle's step returns. -/
theorem lifecycle_step_eq
    {r : Outcome ℕ}
    {s' : Process}
    (hRun :
      CallProg.run (Kernel.handle obj.elf {}) (main opt)
          (.start k) =
        (r, s')) :
    (obj.lifecycle.step k opt).2 = s'.kernel :=
  congrArg (fun q => q.2.kernel) hRun

/- A start keeps all programs in control. -/
theorem start_allControlled
    (hStart : opt.rmXdpProg = false)
    (hAll : AllControlled obj k) :
    AllControlled obj (obj.lifecycle.step k opt).2 := by
  cases run_start obj {} k hStart with
  | failed hRun hCode hFails hAttached hKept =>
      rw [lifecycle_step_eq hRun]
      exact hAll.of_pinsKept hAttached hKept
  | @started p maps s₁ hRun hStarts hAttached hKept hUses
      hPins =>
      rw [lifecycle_step_eq hRun]
      intro ifindex mode q hSome
      rw [hAttached] at hSome
      by_cases hHere :
          ifindex = opt.ifindex ∧
            mode = k.modeOf opt.ifindex opt.xdpFlags
      · rcases hHere with ⟨rfl, rfl⟩
        rw [k.setAttached_self] at hSome
        cases hSome
        intro i hLt
        exact ⟨maps i,
          (hPins i hLt).mpr (synced_of_noFaults k i),
          hUses i hLt⟩
      · rw [k.setAttached_of_ne _ hHere] at hSome
        exact (hAll ifindex mode q hSome).of_pinsKept hKept

/- Where nothing is in the way, a start attaches. -/
theorem start_attaches
    (obj : DeployedObject)
    (k : Kernel)
    (opt : Options)
    (hStart : opt.rmXdpProg = false)
    (hDevice : opt.ifindex ≠ -1)
    (hFree :
      k.attached opt.ifindex
        (k.modeOf opt.ifindex opt.xdpFlags).other = none) :
    ∃ p,
      (obj.lifecycle.step k opt).2.attached =
        (k.setAttached opt.ifindex
          (k.modeOf opt.ifindex opt.xdpFlags)
          (some p)).attached := by
  cases run_start obj {} k hStart with
  | failed hRun hCode hFails hAttached hKept =>
      exact absurd
        (startsUp_of_accepted obj hDevice hFree rfl
          (fun _ => rfl) rfl rfl) hFails
  | @started p maps s₁ hRun hStarts hAttached hKept hUses
      hPins =>
      rw [lifecycle_step_eq hRun]
      exact ⟨p, hAttached⟩

/- A remove does exactly when it finds no other program. -/
theorem remove_allControlled_iff
    (hRemove : opt.rmXdpProg = true)
    (hDevice : opt.ifindex ≠ -1) :
    AllControlled obj (obj.lifecycle.step k opt).2 ↔
      RemovesLast k opt := by
  rcases run_remove obj.elf {} k hRemove hDevice with
    ⟨s₁, hRun, hAttached, hPins⟩
  rw [lifecycle_step_eq hRun]
  have hMissing :
      s₁.kernel.pins (exportFile 0) = none :=
    hPins 0 (by decide)
  rw [attachedAfterRemove, if_neg Bool.false_ne_true]
    at hAttached
  constructor
  · intro hAll _ _ ifindex mode hElsewhere
    cases hSome : k.attached ifindex mode with
    | none => rfl
    | some p =>
        have hStill :
            s₁.kernel.attached ifindex mode = some p := by
          rw [hAttached, k.setAttached_of_ne _ hElsewhere]
          exact hSome
        exact absurd (hAll ifindex mode p hStill)
          (not_controls_of_missing hMissing)
  · intro hLast ifindex mode p hSome
    rw [hAttached] at hSome
    by_cases hHere :
        ifindex = opt.ifindex ∧
          mode = k.modeOf opt.ifindex opt.xdpFlags
    · rcases hHere with ⟨rfl, rfl⟩
      rw [k.setAttached_self] at hSome
      cases hSome
    · rw [k.setAttached_of_ne _ hHere,
        hLast hRemove hDevice ifindex mode hHere] at hSome
      cases hSome

/- The step of the invariant. -/
theorem step_allControlled_iff
    (hAll : AllControlled obj k) :
    AllControlled obj (obj.lifecycle.step k opt).2 ↔
      RemovesLast k opt := by
  cases hMode : opt.rmXdpProg with
  | false =>
      refine iff_of_true (start_allControlled hMode hAll) ?_
      intro hRemove
      rw [hMode] at hRemove
      cases hRemove
  | true =>
      by_cases hDevice : opt.ifindex = -1
      · rw [lifecycle_step_eq
          (run_main_noDevice obj.elf {} k hDevice)]
        refine iff_of_true hAll ?_
        intro _ hNot
        exact absurd hDevice hNot
      · exact remove_allControlled_iff hMode hDevice

end

theorem allControlled_boot
    (obj : DeployedObject)
    (nativeXdp : ℤ → Bool) :
    AllControlled obj (Kernel.boot nativeXdp) := by
  intro ifindex mode p hSome
  cases hSome

/-
  After any number of starts and removes all programs are in
  control, as long as removes find no other program.
-/
theorem attached_programs_controlled
    (obj : DeployedObject)
    (nativeXdp : ℤ → Bool)
    (opts : List Options) :
    obj.lifecycle.Always (AllControlled obj)
        (Kernel.boot nativeXdp) opts ↔
      obj.lifecycle.AllSteps RemovesLast
        (Kernel.boot nativeXdp) opts :=
  obj.lifecycle.always_iff_allSteps RemovesLast
    (AllControlled obj)
    (fun _ _ hAll => step_allControlled_iff hAll)
    (allControlled_boot obj nativeXdp) opts

/- A remove on one interface takes the files of the other. -/
theorem remove_orphans_other_interface :
    ¬ blacklistDeployed.lifecycle.Always
        (AllControlled blacklistDeployed)
        (Kernel.boot fun _ => false)
        [optionsFor false 0, optionsFor false 1,
          optionsFor true 1] := by
  intro hAlways
  rw [blacklistDeployed.lifecycle.always_iff_allSteps
    RemovesLast (AllControlled blacklistDeployed)
    (fun _ _ hAll => step_allControlled_iff hAll)
    (allControlled_boot blacklistDeployed _)] at hAlways
  rcases hAlways with ⟨_, _, hLast, _⟩
  rcases start_attaches blacklistDeployed
    (Kernel.boot fun _ => false) (optionsFor false 0) rfl
    (by decide) rfl with ⟨p, hFirst⟩
  rcases start_attaches blacklistDeployed
    (blacklistDeployed.lifecycle.step
      (Kernel.boot fun _ => false) (optionsFor false 0)).2
    (optionsFor false 1) rfl (by decide)
    (by rw [hFirst]; rfl) with ⟨q, hSecond⟩
  have hNone := hLast rfl (by decide) 1 .generic
    (fun hBoth => absurd hBoth.1 (by decide))
  rw [hSecond, Kernel.setAttached_of_ne, hFirst] at hNone
  · cases hNone
  · exact fun hBoth => absurd hBoth.1 (by decide)

end XdpDdos
