import XdpDdos.Device.LoaderRuns

/-
  The device refines its policy: whatever is run on it and
  whatever fails, the responses are those of a run of the
  policy.

  Main declarations:
    * `Wired.created`, `Wired.attached`, `Wired.removed`
    * `Follows.loader`, `Follows.step`
    * `device_follows`, `device_refines_policy`
-/

------------------------------------------------------------
-- New Tables
------------------------------------------------------------

namespace XdpDdos

variable {nrCpus : ℕ}
variable {obj : DeployedObject}
variable {pol : Policy}

/- New objects hold empty tables. -/
theorem HoldsTables.create
    {st : MapStore nrCpus}
    (hHolds : HoldsTables st pol)
    (n : ℕ) :
    HoldsTables (st.create pol.next n) (pol.create n) := by
  have hFresh :
      Represents (Maps.fresh : Maps nrCpus) .empty :=
    represents_fresh
  rcases represents_iff.mp hFresh with ⟨hNoAddrs, hNoRules⟩
  have hNew
      (o : ℕ)
      (hLe : pol.next ≤ o)
      (hLt : o < n) :
      (pol.create n).tables o = .empty := by
    simp only [Policy.create, hLe, hLt, and_self, if_true]
  have hOld
      (o : ℕ)
      (hLt : o < pol.next) :
      (pol.create n).tables o = pol.tables o := by
    simp only [Policy.create, Nat.not_le.mpr hLt, false_and,
      if_false]
  constructor
  · intro o (hLt : o < n)
    rcases Nat.lt_or_ge o pol.next with hBefore | hAfter
    · rw [hOld o hBefore, MapStore.create,
        Store.renew_of_lt n hBefore]
      exact hHolds.addrs o hBefore
    · rw [hNew o hAfter hLt, MapStore.create,
        Store.renew_of_new hAfter hLt]
      exact hNoAddrs
  · intro o (hLt : o < n)
    rcases Nat.lt_or_ge o pol.next with hBefore | hAfter
    · rw [hOld o hBefore, MapStore.create,
        Store.renew_of_lt n hBefore]
      exact hHolds.rules o hBefore
    · rw [hNew o hAfter hLt, MapStore.create,
        Store.renew_of_new hAfter hLt]
      exact hNoRules

/- It looks at the tables only. -/
theorem HoldsTables.congr
    {st : MapStore nrCpus}
    {pol' : Policy}
    (hHolds : HoldsTables st pol)
    (hNext : pol'.next = pol.next)
    (hTables : pol'.tables = pol.tables) :
    HoldsTables st pol' := by
  constructor
  · rw [hNext, hTables]
    exact hHolds.addrs
  · rw [hNext, hTables]
    exact hHolds.rules

------------------------------------------------------------
-- Files and Interfaces After a Run of the Loader
------------------------------------------------------------

section

variable {k k' : Kernel}

/- The files that a kernel has. -/
def Kernel.files (k : Kernel) : Tables (Option ℕ) :=
  ⟨k.pins (exportFile 0), k.pins (exportFile 2)⟩

/- New tables and files; the programs stay. -/
theorem Wired.created
    (hWired : Wired obj k pol)
    (hAttached : k'.attached = k.attached)
    (hNext : k.nextMap ≤ k'.nextMap) :
    Wired obj k'
      { pol.create k'.nextMap with files := k'.files } where
  next_eq := rfl
  files_eq := rfl
  on_some := by
    rw [hAttached]
    intro ifindex mode p hProg
    rcases hWired.on_some ifindex mode p hProg with
      ⟨t, hOn, hUses, hAddrs, hRules⟩
    rw [hWired.next_eq] at hAddrs hRules
    exact ⟨t, hOn, hUses, Nat.lt_of_lt_of_le hAddrs hNext,
      Nat.lt_of_lt_of_le hRules hNext⟩
  on_none := by
    rw [hAttached]
    exact hWired.on_none
  single := by
    rw [hAttached]
    exact hWired.single

/- A program is attached to an interface that was free. -/
theorem Wired.attached
    {ifindex : ℤ}
    {mode : XdpMode}
    {p : XdpProg}
    {t : Tables ℕ}
    (hWired : Wired obj k pol)
    (hFree : k.attached ifindex mode.other = none)
    (hUses : obj.UsesTables p t)
    (hAddrs : t.addrs < k.nextMap)
    (hRules : t.rules < k.nextMap) :
    Wired obj (k.setAttached ifindex mode (some p))
      (pol.attach ifindex (some t)) where
  next_eq := hWired.next_eq
  files_eq := hWired.files_eq
  on_some := by
    intro ifindex' mode' p' hProg
    by_cases hHere : ifindex' = ifindex
    · subst hHere
      have hOn :
          (pol.attach ifindex' (some t)).on ifindex' = some t :=
        Function.update_self _ _ _
      rcases mode.eq_or_eq_other mode' with rfl | rfl
      · rw [Kernel.setAttached_self] at hProg
        cases hProg
        refine ⟨t, hOn, hUses, ?_, ?_⟩
        · exact Nat.lt_of_lt_of_eq hAddrs hWired.next_eq.symm
        · exact Nat.lt_of_lt_of_eq hRules hWired.next_eq.symm
      · rw [Kernel.setAttached_of_ne k _ (fun hBoth =>
          mode.other_ne hBoth.2), hFree] at hProg
        cases hProg
    · rw [Kernel.setAttached_of_ne k _ (fun hBoth =>
        hHere hBoth.1)] at hProg
      rcases hWired.on_some ifindex' mode' p' hProg with
        ⟨t', hOn, hRest⟩
      refine ⟨t', ?_, hRest⟩
      exact (Function.update_of_ne hHere _ _).trans hOn
  on_none := by
    intro ifindex' hNone
    by_cases hHere : ifindex' = ifindex
    · subst hHere
      have hProg := hNone mode
      rw [Kernel.setAttached_self] at hProg
      cases hProg
    · refine (Function.update_of_ne hHere _ _).trans ?_
      apply hWired.on_none
      intro mode'
      rw [← hNone mode', Kernel.setAttached_of_ne k _
        (fun hBoth => hHere hBoth.1)]
  single := by
    intro ifindex' mode' hSome
    by_cases hHere : ifindex' = ifindex
    · subst hHere
      rcases mode.eq_or_eq_other mode' with rfl | rfl
      · rw [Kernel.setAttached_of_ne k _ (fun hBoth =>
          mode'.other_ne hBoth.2)]
        exact hFree
      · rw [Kernel.setAttached_of_ne k _ (fun hBoth =>
          mode.other_ne hBoth.2), hFree] at hSome
        cases hSome
    · rw [Kernel.setAttached_of_ne k _ (fun hBoth =>
        hHere hBoth.1)] at hSome ⊢
      exact hWired.single ifindex' mode' hSome

/- It looks at these parts of the kernel. -/
theorem Wired.congr
    (hWired : Wired obj k pol)
    (hNext : k'.nextMap = k.nextMap)
    (hFiles : k'.files = k.files)
    (hAttached : k'.attached = k.attached) :
    Wired obj k' pol where
  next_eq := hWired.next_eq.trans hNext.symm
  files_eq := hWired.files_eq.trans hFiles.symm
  on_some := by
    rw [hAttached]
    exact hWired.on_some
  on_none := by
    rw [hAttached]
    exact hWired.on_none
  single := by
    rw [hAttached]
    exact hWired.single

/- A program is detached, if there is one in that mode. -/
theorem Wired.detached
    (hWired : Wired obj k pol)
    (ifindex : ℤ)
    (mode : XdpMode) :
    ∃ on,
      (on = pol.on ∨ on = Function.update pol.on ifindex none) ∧
      Wired obj (k.setAttached ifindex mode none)
        { pol with on := on } := by
  cases hProg : k.attached ifindex mode with
  | none =>
      refine ⟨pol.on, Or.inl rfl, hWired.congr rfl rfl ?_⟩
      simp only [Kernel.setAttached]
      rw [← hProg, Function.update_eq_self,
        Function.update_eq_self]
  | some p =>
      have hOther : k.attached ifindex mode.other = none := by
        apply hWired.single
        rw [hProg]
        rfl
      have hGone
          (mode' : XdpMode) :
          (k.setAttached ifindex mode none).attached ifindex
            mode' = none := by
        rcases mode.eq_or_eq_other mode' with rfl | rfl
        · exact k.setAttached_self _ _ _
        · rw [Kernel.setAttached_of_ne k _ (fun hBoth =>
            mode.other_ne hBoth.2)]
          exact hOther
      have hSame
          {ifindex' : ℤ}
          (hHere : ifindex' ≠ ifindex)
          (mode' : XdpMode) :
          (k.setAttached ifindex mode none).attached ifindex'
            mode' = k.attached ifindex' mode' :=
        k.setAttached_of_ne _ (fun hBoth => hHere hBoth.1)
      refine ⟨_, Or.inr rfl, hWired.next_eq, hWired.files_eq,
        ?_, ?_, ?_⟩
      · intro ifindex' mode' p' hProg'
        by_cases hHere : ifindex' = ifindex
        · rw [hHere, hGone] at hProg'
          cases hProg'
        · rw [hSame hHere] at hProg'
          rcases hWired.on_some ifindex' mode' p' hProg' with
            ⟨t, hOn, hRest⟩
          refine ⟨t, ?_, hRest⟩
          exact (Function.update_of_ne hHere _ _).trans hOn
      · intro ifindex' hNone
        by_cases hHere : ifindex' = ifindex
        · rw [hHere]
          exact Function.update_self _ _ _
        · refine (Function.update_of_ne hHere _ _).trans ?_
          apply hWired.on_none
          intro mode'
          rw [← hSame hHere, hNone]
      · intro ifindex' mode' hSome
        by_cases hHere : ifindex' = ifindex
        · rw [hHere, hGone]
        · rw [hSame hHere] at hSome ⊢
          exact hWired.single ifindex' mode' hSome

end

------------------------------------------------------------
-- Runs of the Loader
------------------------------------------------------------

section

variable {d : Device nrCpus}
variable {db : NameDb}
variable {faults : LoaderFaults}
variable {args : List CStr}
variable {opt : Options}

/- A start, when the options are parsed. -/
theorem Follows.start
    (hFollows : Follows obj d pol)
    (hArgs :
      Loader.optionLoop db Loader.initialOptions
        (Loader.options args) = some opt)
    (hStart : opt.rmXdpProg = false)
    {result : Outcome ℕ × Process × MapStore nrCpus}
    (hResult :
      DeviceStart obj faults d.kernel d.store opt result) :
    ∃ pol',
      PolicyStep db pol
          (.loader faults args : DeviceEvent nrCpus)
          (.loaderEnded result.1) pol' ∧
        Follows obj ⟨result.2.1.kernel, result.2.2⟩ pol' := by
  have hNextEq := hFollows.wired.next_eq
  have hFilesEq := hFollows.wired.files_eq
  have hAddrFile :
      pol.files.addrs = d.kernel.pins (exportFile 0) := by
    rw [hFilesEq]
  have hRuleFile :
      pol.files.rules = d.kernel.pins (exportFile 2) := by
    rw [hFilesEq]
  cases hResult with
  | @failed outcome code s' hEq hStatus hCode _ hAttached
      hNext hFiles =>
      subst hEq
      have hAddrs := hFiles 0 (by decide)
      have hRules := hFiles 2 (by decide)
      rw [← hNextEq, ← hAddrFile] at hAddrs
      rw [← hNextEq, ← hRuleFile] at hRules
      have hHolds := hFollows.holds.create s'.kernel.nextMap
      rw [hNextEq] at hHolds
      exact ⟨_, .failed hStatus hCode (hNextEq ▸ hNext) hAddrs
          hRules,
        hFollows.wired.created hAttached hNext,
        hHolds.congr rfl rfl⟩
  | @started p maps w s' hEq hWiring hFree hAttached hUses
      hNext hMaps hTables =>
      subst hEq
      let t : Tables ℕ := ⟨maps 0, maps 2⟩
      have hAddrs := hTables 0 (by decide)
      have hRules := hTables 2 (by decide)
      rw [← hNextEq, ← hAddrFile] at hAddrs
      rw [← hNextEq, ← hRuleFile] at hRules
      let pol' : Policy :=
        { pol.create s'.kernel.nextMap with
          files := s'.kernel.files }.attach opt.ifindex
            (some t)
      have hTabled : w.tables = t.map some := hWiring
      -- the kernel, just before the program was attached
      let k' : Kernel :=
        { s'.kernel with attached := d.kernel.attached }
      have hWired : Wired obj s'.kernel pol' := by
        have hCreated : Wired obj k' _ :=
          hFollows.wired.created rfl hNext
        exact (hCreated.attached hFree
          ⟨hUses 0 (by decide), hUses 2 (by decide)⟩
          (hMaps 0 (by decide)) (hMaps 2 (by decide))).congr
            rfl rfl hAttached
      have hHolds :
          HoldsTables (d.store.create d.kernel.nextMap
            s'.kernel.nextMap) pol' := by
        have hCreated :=
          hFollows.holds.create s'.kernel.nextMap
        rw [hNextEq] at hCreated
        exact hCreated.congr rfl rfl
      have hBelow : w.tables.Below pol'.next := by
        rw [hTabled]
        constructor
        · rintro o ⟨⟩
          exact hMaps 0 (by decide)
        · rintro o ⟨⟩
          exact hMaps 2 (by decide)
      rcases represents_addTestRules faults.tests
          (hHolds.represents hBelow) with
        ⟨tests, hSome, hLast, hRep⟩
      have hWrote :=
        (Wrote.refl w.tables pol').editAll
          (tests.flatMap (RuleEdit.carriedOut faults.tests))
      rw [hTabled] at hWrote
      refine ⟨_,
        .started hArgs hStart (hNextEq ▸ hNext) hAddrs hRules
          hSome hLast,
        hWired.editAll _ _, hHolds.write hRep ?_⟩
      rw [hTabled]
      exact hWrote

/- A remove, when the options are parsed. -/
theorem Follows.remove
    (hFollows : Follows obj d pol)
    (hArgs :
      Loader.optionLoop db Loader.initialOptions
        (Loader.options args) = some opt)
    (hRemove : opt.rmXdpProg = true)
    {k' : Kernel}
    (hAttached :
      k'.attached = attachedAfterRemove faults.toFaults d.kernel opt)
    (hNext : k'.nextMap = d.kernel.nextMap)
    (hPins :
      ∀ i < NR_MAPS,
        k'.pins (exportFile i) =
          if faults.unlink (exportFile i) then
            d.kernel.pins (exportFile i)
          else none) :
    ∃ pol',
      PolicyStep db pol
          (.loader faults args : DeviceEvent nrCpus)
          (.loaderEnded (.returned EXIT_OK)) pol' ∧
        Follows obj (⟨k', d.store⟩ : Device nrCpus) pol' := by
  have hDetached :
      ∃ on,
        (on = pol.on ∨
          on = Function.update pol.on opt.ifindex none) ∧
        Wired obj
          { d.kernel with
            attached :=
              attachedAfterRemove faults.toFaults d.kernel opt }
          { pol with on := on } := by
    unfold attachedAfterRemove
    split
    · exact ⟨pol.on, Or.inl rfl, hFollows.wired⟩
    · exact hFollows.wired.detached _ _
  rcases hDetached with ⟨on, hOn, hWired⟩
  refine ⟨_, .removed hArgs hRemove hOn, ?_,
    hFollows.holds.congr rfl rfl⟩
  refine ⟨hWired.next_eq.trans hNext.symm, ?_, ?_, ?_, ?_⟩
  · have hFilesEq := hFollows.wired.files_eq
    rw [hPins 0 (by decide), hPins 2 (by decide), hFilesEq]
  · rw [hAttached]
    exact hWired.on_some
  · rw [hAttached]
    exact hWired.on_none
  · rw [hAttached]
    exact hWired.single

/- A run of the loader, whatever its arguments are. -/
theorem Follows.loader
    (hFollows : Follows obj d pol)
    (db : NameDb)
    (faults : LoaderFaults)
    (args : List CStr) :
    ∃ pol',
      PolicyStep db pol
          (.loader faults args : DeviceEvent nrCpus)
          ((deviceSystem obj db).step d
            (.loader faults args)).1 pol' ∧
        Follows obj
          ((deviceSystem obj db).step d
            (.loader faults args)).2 pol' := by
  simp only [deviceSystem, Device.runLoader, Loader.main]
  have hRefused
      {code : ℕ}
      (hCode : code ≠ EXIT_OK) :
      ∃ pol',
        PolicyStep db pol
            (.loader faults args : DeviceEvent nrCpus)
            (.loaderEnded (.returned code)) pol' ∧
          Follows obj d pol' := by
    have hHolds := hFollows.holds.create d.kernel.nextMap
    have hSelf :
        d.store.create d.kernel.nextMap d.kernel.nextMap =
          d.store :=
      Store.renew_self _ _ _
    have hFiles : d.kernel.files = pol.files :=
      hFollows.wired.files_eq.symm
    rw [hFollows.wired.next_eq, hSelf] at hHolds
    exact ⟨_, .failed rfl hCode
      (Nat.le_of_eq hFollows.wired.next_eq)
      (Or.inl (congrArg Tables.addrs hFiles))
      (Or.inl (congrArg Tables.rules hFiles)),
      hFollows.wired.created rfl (Nat.le_refl _),
      hHolds.congr rfl rfl⟩
  cases hArgs : Loader.optionLoop db Loader.initialOptions
      (Loader.options args) with
  | none => exact hRefused (by decide)
  | some opt =>
      by_cases hDevice : opt.ifindex = -1
      · simp only [run_device_noDevice _ _ _ _ hDevice]
        exact hRefused (by decide)
      · cases hRemove : opt.rmXdpProg with
        | false =>
            exact hFollows.start hArgs hRemove
              (run_device_start obj faults d.kernel d.store
                hRemove)
        | true =>
            rcases run_device_remove obj.elf faults d.kernel
                d.store hRemove hDevice with
              ⟨s', hRun, hAttached, hNext, hPins⟩
            simp only [hRun]
            exact hFollows.remove hArgs hRemove hAttached
              hNext hPins

------------------------------------------------------------
-- Whole Runs
------------------------------------------------------------

/- Every event is matched by a step of the policy. -/
theorem Follows.step
    (hFollows : Follows obj d pol)
    (db : NameDb)
    (e : DeviceEvent nrCpus) :
    ∃ pol',
      PolicyStep db pol e
          ((deviceSystem obj db).step d e).1 pol' ∧
        Follows obj ((deviceSystem obj db).step d e).2 pol' := by
  cases e with
  | loader faults args => exact hFollows.loader db faults args
  | tool fails fuel frame args =>
      exact hFollows.tool db fails fuel frame args
  | frame ifindex cpu ctx =>
      exact ⟨pol, hFollows.frame db ifindex cpu ctx⟩

end

/- The device follows its policy along every run. -/
theorem device_follows
    (obj : DeployedObject)
    (db : NameDb)
    (nativeXdp : ℤ → Bool)
    (es : List (DeviceEvent nrCpus)) :
    ∃ pol,
      Lts.Run (PolicyStep db) Policy.boot
          ((deviceSystem obj db).trace (.boot nativeXdp) es)
          pol ∧
        Follows obj
          ((deviceSystem obj db).final (.boot nativeXdp) es)
          pol :=
  (deviceSystem obj db).refines
    (fun _ _ e hFollows => hFollows.step db e)
    (follows_boot obj nativeXdp) es

/-
  Whatever loaders and tools are run on a device, with
  whatever arguments and failures, and whatever frames it
  receives meanwhile, all of its responses are those of a run
  of the policy: in particular the verdict on each plain
  frame is that of the tables that protect the interface.
-/
theorem device_refines_policy
    (obj : DeployedObject)
    (db : NameDb)
    (nativeXdp : ℤ → Bool)
    (es : List (DeviceEvent nrCpus)) :
    ∃ pol,
      Lts.Run (PolicyStep db) Policy.boot
        ((deviceSystem obj db).trace (.boot nativeXdp) es)
        pol := by
  rcases device_follows obj db nativeXdp es with
    ⟨pol, hRun, _⟩
  exact ⟨pol, hRun⟩

end XdpDdos
