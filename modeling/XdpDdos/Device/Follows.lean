import XdpDdos.Device.ToolRuns

/-
  When a device follows a policy: its map objects hold the
  tables, its files and its programs refer to them.

  Main declarations:
    * `HoldsTables`, `HoldsTables.represents`, `HoldsTables.write`
    * `Wrote`, `Wrote.editAll`
    * `Wired`, `Follows`
    * `Follows.frame`, `Follows.tool`
-/

------------------------------------------------------------
-- Map Objects That Hold Tables
------------------------------------------------------------

namespace XdpDdos

variable {nrCpus : ℕ}

/- A hash has the keys of a set of addresses. -/
def HoldsAddrs
    (hash : PercpuHash (BitVec 32) nrCpus NR_ADDRS)
    (addrs : Set Ipv4Addr) : Prop :=
  ∀ addr : Ipv4Addr, hash.Contains addr.key ↔ addr ∈ addrs

/- An array has the bits of a set of rules, on every CPU. -/
def HoldsRules
    (arr : PercpuArray nrCpus NR_PORTS)
    (rules : Set (DdosFilter × BitVec 16)) : Prop :=
  ∀ cpu (fproto : DdosFilter) port,
    (arr.slots (Maps.portIndex port) cpu).getLsbD
        fproto.index = true ↔
      (fproto, port) ∈ rules

/- Addresses and rules are in different maps. -/
theorem represents_iff
    {m : Maps nrCpus}
    {fw : Firewall} :
    Represents m fw ↔
      HoldsAddrs m.blacklist fw.addrs ∧
        HoldsRules m.portBlacklist fw.rules := by
  constructor
  · rintro ⟨hAddrs, hRules⟩
    exact ⟨hAddrs, hRules⟩
  · rintro ⟨hAddrs, hRules⟩
    exact ⟨hAddrs, hRules⟩

/- Every object that exists holds its tables. -/
structure HoldsTables
    (st : MapStore nrCpus)
    (pol : Policy) : Prop where
  addrs :
    ∀ o < pol.next,
      HoldsAddrs (st o .blacklist) (pol.tables o).addrs
  rules :
    ∀ o < pol.next,
      HoldsRules (st o .portBlacklist) (pol.tables o).rules

/- The tables behind a wiring. -/
def Wiring.tables (w : Wiring MapId) : Tables (Option ℕ) :=
  ⟨w .blacklist, w .portBlacklist⟩

/- The firewall of tables that may be missing. -/
def Policy.firewallAt
    (pol : Policy)
    (t : Tables (Option ℕ)) : Firewall where
  addrs :=
    match t.addrs with
    | some o => (pol.tables o).addrs
    | none => ∅
  rules :=
    match t.rules with
    | some o => (pol.tables o).rules
    | none => ∅

theorem Policy.firewallAt_some
    (pol : Policy)
    (t : Tables ℕ) :
    pol.firewallAt (t.map some) = pol.firewall t := rfl

/- The tables exist. -/
def Tables.Below
    (t : Tables (Option ℕ))
    (n : ℕ) : Prop :=
  (∀ o, t.addrs = some o → o < n) ∧
    ∀ o, t.rules = some o → o < n

section

variable {st : MapStore nrCpus}
variable {pol : Policy}
variable {w : Wiring MapId}

/- Maps that are read through a wiring. -/
theorem HoldsTables.represents
    (hHolds : HoldsTables st pol)
    (hBelow : w.tables.Below pol.next) :
    Represents (st.maps w) (pol.firewallAt w.tables) := by
  have hFresh :
      Represents (Maps.fresh : Maps nrCpus) .empty :=
    represents_fresh
  rcases represents_iff.mp hFresh with ⟨hNoAddrs, hNoRules⟩
  refine represents_iff.mpr ⟨?_, ?_⟩
  · change HoldsAddrs
      (st.view Maps.fresh.contents w .blacklist) _
    cases hPart : w .blacklist with
    | none =>
        rw [Store.view_of_none hPart]
        simp only [Policy.firewallAt, Wiring.tables, hPart]
        exact hNoAddrs
    | some o =>
        rw [Store.view_of_some hPart]
        simp only [Policy.firewallAt, Wiring.tables, hPart]
        exact hHolds.addrs o (hBelow.1 o hPart)
  · change HoldsRules
      (st.view Maps.fresh.contents w .portBlacklist) _
    cases hPart : w .portBlacklist with
    | none =>
        rw [Store.view_of_none hPart]
        simp only [Policy.firewallAt, Wiring.tables, hPart]
        exact hNoRules
    | some o =>
        rw [Store.view_of_some hPart]
        simp only [Policy.firewallAt, Wiring.tables, hPart]
        exact hHolds.rules o (hBelow.2 o hPart)

/- Only tables `t` differ, and they now are those of `fw`. -/
structure Wrote
    (t : Tables (Option ℕ))
    (pol : Policy)
    (fw : Firewall)
    (pol' : Policy) : Prop where
  next_eq : pol'.next = pol.next
  addrs_eq :
    ∀ o, t.addrs = some o → (pol'.tables o).addrs = fw.addrs
  addrs_other :
    ∀ o, t.addrs ≠ some o →
      (pol'.tables o).addrs = (pol.tables o).addrs
  rules_eq :
    ∀ o, t.rules = some o → (pol'.tables o).rules = fw.rules
  rules_other :
    ∀ o, t.rules ≠ some o →
      (pol'.tables o).rules = (pol.tables o).rules

/- Maps that are written back through a wiring. -/
theorem HoldsTables.write
    {m' : Maps nrCpus}
    {fw : Firewall}
    {pol' : Policy}
    (hHolds : HoldsTables st pol)
    (hRep : Represents m' fw)
    (hWrote : Wrote w.tables pol fw pol') :
    HoldsTables (st.write w m') pol' := by
  rcases represents_iff.mp hRep with ⟨hAddrs, hRules⟩
  constructor
  · intro o hLt
    rw [hWrote.next_eq] at hLt
    rw [MapStore.write]
    by_cases hHere : w .blacklist = some o
    · rw [Store.put_of_eq _ hHere, hWrote.addrs_eq o hHere]
      exact hAddrs
    · rw [Store.put_of_ne _ hHere, hWrote.addrs_other o hHere]
      exact hHolds.addrs o hLt
  · intro o hLt
    rw [hWrote.next_eq] at hLt
    rw [MapStore.write]
    by_cases hHere : w .portBlacklist = some o
    · rw [Store.put_of_eq _ hHere, hWrote.rules_eq o hHere]
      exact hRules
    · rw [Store.put_of_ne _ hHere, hWrote.rules_other o hHere]
      exact hHolds.rules o hLt

end

------------------------------------------------------------
-- Edits of Tables
------------------------------------------------------------

/- An edit reads and writes one of the two sets. -/
theorem Firewall.addrs_edit_congr
    {fw fw' : Firewall}
    (hSame : fw.addrs = fw'.addrs)
    (e : RuleEdit) :
    (fw.edit e).addrs = (fw'.edit e).addrs := by
  cases e with
  | addr action addr => simp only [edit, hSame]
  | rule action fproto port => exact hSame

theorem Firewall.rules_edit_congr
    {fw fw' : Firewall}
    (hSame : fw.rules = fw'.rules)
    (e : RuleEdit) :
    (fw.edit e).rules = (fw'.edit e).rules := by
  cases e with
  | addr action addr => exact hSame
  | rule action fproto port => simp only [edit, hSame]

/- The addresses of a table after an edit of some table. -/
theorem Policy.addrs_edit
    (pol : Policy)
    (t : Tables (Option ℕ))
    (e : RuleEdit)
    (o : ℕ) :
    ((pol.edit t e).tables o).addrs =
      if t.addrs = some o then ((pol.tables o).edit e).addrs
      else (pol.tables o).addrs := by
  cases e with
  | addr action addr => exact apply_ite Firewall.addrs _ _ _
  | rule action fproto port =>
      simp only [edit, apply_ite Firewall.addrs, Firewall.edit,
        ite_self]

theorem Policy.rules_edit
    (pol : Policy)
    (t : Tables (Option ℕ))
    (e : RuleEdit)
    (o : ℕ) :
    ((pol.edit t e).tables o).rules =
      if t.rules = some o then ((pol.tables o).edit e).rules
      else (pol.tables o).rules := by
  cases e with
  | addr action addr =>
      simp only [edit, apply_ite Firewall.rules, Firewall.edit,
        ite_self]
  | rule action fproto port =>
      exact apply_ite Firewall.rules _ _ _

section

variable {t : Tables (Option ℕ)}
variable {pol pol' : Policy}
variable {fw : Firewall}

theorem Wrote.refl
    (t : Tables (Option ℕ))
    (pol : Policy) :
    Wrote t pol (pol.firewallAt t) pol where
  next_eq := rfl
  addrs_eq := by
    intro o hHere
    simp only [Policy.firewallAt, hHere]
  addrs_other := fun _ _ => rfl
  rules_eq := by
    intro o hHere
    simp only [Policy.firewallAt, hHere]
  rules_other := fun _ _ => rfl

/- One more edit. -/
theorem Wrote.edit
    (hWrote : Wrote t pol fw pol')
    (e : RuleEdit) :
    Wrote t pol (fw.edit e) (pol'.edit t e) where
  next_eq := hWrote.next_eq
  addrs_eq := by
    intro o hHere
    rw [Policy.addrs_edit, if_pos hHere]
    exact Firewall.addrs_edit_congr (hWrote.addrs_eq o hHere) e
  addrs_other := by
    intro o hOther
    rw [Policy.addrs_edit, if_neg hOther]
    exact hWrote.addrs_other o hOther
  rules_eq := by
    intro o hHere
    rw [Policy.rules_edit, if_pos hHere]
    exact Firewall.rules_edit_congr (hWrote.rules_eq o hHere) e
  rules_other := by
    intro o hOther
    rw [Policy.rules_edit, if_neg hOther]
    exact hWrote.rules_other o hOther

/- Edits change nothing but the tables. -/
theorem Policy.editAll_kept
    (pol : Policy)
    (t : Tables (Option ℕ))
    (edits : List RuleEdit) :
    (pol.editAll t edits).next = pol.next ∧
      (pol.editAll t edits).files = pol.files ∧
      (pol.editAll t edits).on = pol.on := by
  induction edits generalizing pol with
  | nil => exact ⟨rfl, rfl, rfl⟩
  | cons e edits ih => exact ih (pol.edit t e)

/- By induction on the edits. -/
theorem Wrote.editAll
    (hWrote : Wrote t pol fw pol')
    (edits : List RuleEdit) :
    Wrote t pol (fw.editAll edits)
      (pol'.editAll t edits) := by
  induction edits generalizing fw pol' with
  | nil => exact hWrote
  | cons e edits ih => exact ih (hWrote.edit e)

end

------------------------------------------------------------
-- Devices That Follow a Policy
------------------------------------------------------------

/- A program looks its packets up in these tables. -/
def DeployedObject.UsesTables
    (obj : DeployedObject)
    (p : XdpProg)
    (t : Tables ℕ) : Prop :=
  obj.Uses p 0 t.addrs ∧ obj.Uses p 2 t.rules

/- What a policy has to do with the kernel. -/
structure Wired
    (obj : DeployedObject)
    (k : Kernel)
    (pol : Policy) : Prop where
  next_eq : pol.next = k.nextMap
  files_eq :
    pol.files = ⟨k.pins (exportFile 0), k.pins (exportFile 2)⟩
  on_some :
    ∀ ifindex mode p, k.attached ifindex mode = some p →
      ∃ t, pol.on ifindex = some t ∧ obj.UsesTables p t ∧
        t.addrs < pol.next ∧ t.rules < pol.next
  on_none :
    ∀ ifindex, (∀ mode, k.attached ifindex mode = none) →
      pol.on ifindex = none
  single :
    ∀ ifindex mode, (k.attached ifindex mode).isSome →
      k.attached ifindex mode.other = none

/- It looks at no table. -/
theorem Wired.editAll
    {obj : DeployedObject}
    {k : Kernel}
    {pol : Policy}
    (hWired : Wired obj k pol)
    (t : Tables (Option ℕ))
    (edits : List RuleEdit) :
    Wired obj k (pol.editAll t edits) := by
  rcases pol.editAll_kept t edits with ⟨hNext, hFiles, hOn⟩
  constructor
  · rw [hNext]
    exact hWired.next_eq
  · rw [hFiles]
    exact hWired.files_eq
  · rw [hNext, hOn]
    exact hWired.on_some
  · rw [hOn]
    exact hWired.on_none
  · exact hWired.single

structure Follows
    (obj : DeployedObject)
    (d : Device nrCpus)
    (pol : Policy) : Prop where
  wired : Wired obj d.kernel pol
  holds : HoldsTables d.store pol

theorem follows_boot
    (obj : DeployedObject)
    (nativeXdp : ℤ → Bool) :
    Follows obj (Device.boot nativeXdp : Device nrCpus)
      Policy.boot where
  wired :=
    { next_eq := rfl
      files_eq := rfl
      on_some := by
        rintro _ _ _ ⟨⟩
      on_none := fun _ _ => rfl
      single := fun _ _ _ => rfl }
  holds :=
    { addrs := fun _ hLt => absurd hLt (Nat.not_lt_zero _)
      rules := fun _ hLt => absurd hLt (Nat.not_lt_zero _) }

section

variable {obj : DeployedObject}
variable {d : Device nrCpus}
variable {pol : Policy}
variable {p : XdpProg}

/- A map is found where the program uses it. -/
theorem DeployedObject.objOf_of_uses
    {i : ℕ}
    {m : MapObj}
    (hLt : i < NR_MAPS)
    (hUses : obj.Uses p i m) :
    obj.objOf p i = some m := by
  rcases obj.referenced i hLt with ⟨e, hMem, hSym⟩
  unfold objOf
  cases hFind : (obj.relocs obj.prog).find?
      (fun e => e.sym.stValue = MAP_DEF_SIZE * i) with
  | none =>
      have hNone := List.find?_eq_none.mp hFind e hMem
      simp [hSym] at hNone
  | some e' =>
      have hSym' := List.find?_some hFind
      exact hUses e' (List.mem_of_find?_eq_some hFind)
        (of_decide_eq_true hSym')

theorem DeployedObject.UsesTables.tables_wiring
    {t : Tables ℕ}
    (hUses : obj.UsesTables p t) :
    (obj.wiring p).tables = t.map some := by
  have hAddrs := objOf_of_uses (by decide) hUses.1
  have hRules := objOf_of_uses (by decide) hUses.2
  simp only [Wiring.tables, wiring, MapId.index, hAddrs,
    hRules, Tables.map]

theorem tables_fileWiring
    (hWired : Wired obj d.kernel pol) :
    d.kernel.fileWiring.tables = pol.files := by
  rw [hWired.files_eq]
  rfl

/- The files refer to tables that exist. -/
theorem Wired.files_below
    (hWired : Wired obj d.kernel pol) :
    pol.files.Below pol.next := by
  rw [hWired.next_eq, hWired.files_eq]
  exact ⟨fun _ => d.kernel.pins_lt, fun _ => d.kernel.pins_lt⟩

/- An interface without a program has no tables. -/
theorem Wired.on_of_program_none
    (hWired : Wired obj d.kernel pol)
    {ifindex : ℤ}
    (hProgram : d.program ifindex = none) :
    pol.on ifindex = none := by
  rcases Option.or_eq_none_iff.mp hProgram with
    ⟨hNative, hGeneric⟩
  apply hWired.on_none
  intro mode
  cases mode with
  | generic => exact hGeneric
  | native => exact hNative

/- One with a program has the tables that the program uses. -/
theorem Wired.on_of_program
    (hWired : Wired obj d.kernel pol)
    {ifindex : ℤ}
    (hProgram : d.program ifindex = some p) :
    ∃ t, pol.on ifindex = some t ∧ obj.UsesTables p t ∧
      t.addrs < pol.next ∧ t.rules < pol.next := by
  rcases Option.or_eq_some_iff.mp hProgram with
    hNative | ⟨_, hGeneric⟩
  · exact hWired.on_some ifindex .native p hNative
  · exact hWired.on_some ifindex .generic p hGeneric

------------------------------------------------------------
-- Frames and Runs of the Tool
------------------------------------------------------------

variable (db : NameDb)

/- A frame is filtered by the tables of its interface. -/
theorem Follows.frame
    (hFollows : Follows obj d pol)
    (ifindex : ℤ)
    (cpu : Fin nrCpus)
    (ctx : Frame) :
    PolicyStep db pol (.frame ifindex cpu ctx)
        ((deviceSystem obj db).step d
          (.frame ifindex cpu ctx)).1 pol ∧
      Follows obj
        ((deviceSystem obj db).step d
          (.frame ifindex cpu ctx)).2 pol := by
  cases hProgram : d.program ifindex with
  | none =>
      simp only [deviceSystem, hProgram]
      exact ⟨.unfiltered
        (hFollows.wired.on_of_program_none hProgram), hFollows⟩
  | some p =>
      rcases hFollows.wired.on_of_program hProgram with
        ⟨t, hOn, hUses, hAddrs, hRules⟩
      have hTables := hUses.tables_wiring
      have hBelow : (obj.wiring p).tables.Below pol.next := by
        rw [hTables]
        constructor
        · rintro o ⟨⟩
          exact hAddrs
        · rintro o ⟨⟩
          exact hRules
      have hRep := hFollows.holds.represents hBelow
      simp only [deviceSystem, hProgram, frameStep_eq]
      constructor
      · refine .filtered hOn ?_
        rintro e hPlain rfl
        have hDrops := hRep.drops_iff_blocks cpu hPlain
        rw [xdpVerdict_eq, Except.ok.injEq, hTables,
          Policy.firewallAt_some] at hDrops
        exact hDrops
      · exact
          { wired := hFollows.wired
            holds :=
              hFollows.holds.write (hRep.afterFrame cpu _)
                (.refl _ pol) }

/- A file that opens refers to a map. -/
theorem isSome_target_of_opens
    {k : Kernel}
    {fails : ToolFaults}
    {e : RuleEdit}
    (hOpens : (Device.toolFaults k fails).opens e.file = none) :
    ((Tables.mk (k.pins (exportFile 0))
      (k.pins (exportFile 2))).target e).isSome := by
  have hFile : k.pins e.file ≠ none := by
    intro hNone
    simp only [Device.toolFaults, hNone, if_true] at hOpens
    split at hOpens
    · cases hOpens
    · cases hOpens
  cases e with
  | addr action addr => exact Option.isSome_iff_ne_none.mpr hFile
  | rule action fproto port =>
      exact Option.isSome_iff_ne_none.mpr hFile

/- A run of the tool edits the tables behind the files. -/
theorem Follows.tool
    (hFollows : Follows obj d pol)
    (fails : ToolFaults)
    (fuel : ℕ)
    (frame : Tool.StackFrame)
    (args : List CStr) :
    ∃ pol',
      PolicyStep db pol
          (.tool fails fuel frame args : DeviceEvent nrCpus)
          ((deviceSystem obj db).step d
            (.tool fails fuel frame args)).1 pol' ∧
        Follows obj
          ((deviceSystem obj db).step d
            (.tool fails fuel frame args)).2 pol' := by
  have hFiles := tables_fileWiring hFollows.wired
  have hBelow : d.kernel.fileWiring.tables.Below pol.next := by
    rw [hFiles]
    exact hFollows.wired.files_below
  rcases @Tool.runTool_edits _ (Device.toolFaults d.kernel fails)
      _ _ fuel frame args (hFollows.holds.represents hBelow) with
    ⟨edits, hSome, hOpens, hRep, hLast⟩
  have hThere :
      ∀ e ∈ edits, (pol.files.target e).isSome := by
    intro e hMem
    rw [hFollows.wired.files_eq]
    exact isSome_target_of_opens (hOpens e hMem)
  have hWrote :=
    (Wrote.refl d.kernel.fileWiring.tables pol).editAll
      (edits.flatMap (RuleEdit.carriedOut fails.calls))
  rw [hFiles] at hWrote
  refine ⟨_, .edited hSome hThere hLast, ?_, ?_⟩
  · exact hFollows.wired.editAll _ _
  · apply hFollows.holds.write hRep
    rw [hFiles]
    exact hWrote

end

end XdpDdos
