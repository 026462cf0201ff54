import XdpDdos.Device.Startup

/-
  What an administrator can rely on: as long as the files
  stay and masks can be read, a rule that the tool has
  acknowledged is enforced on every interface that is or will
  be protected.

  Main declarations:
    * `RuleEdit.Matches`, `Firewall.Has`
    * `DeviceEvent.KeepsTables`, `acknowledge`
    * `PolicyStep.shared`, `PolicyStep.enforces`
    * `acknowledged_rules_block`
-/

------------------------------------------------------------
-- Rules in Force
------------------------------------------------------------

namespace XdpDdos

variable {nrCpus : ℕ}

namespace RuleEdit

def action : RuleEdit → BitVec 32
  | .addr action _ => action
  | .rule action _ _ => action

/- The edit that deletes what an edit is about. -/
def undo : RuleEdit → RuleEdit
  | .addr _ src => .addr ACTION_DEL src
  | .rule _ fproto port => .rule ACTION_DEL fproto port

/- A packet is one that the rule of an edit is about. -/
def Matches
    (payload : ByteSeq) : RuleEdit → Prop
  | .addr _ src => Ipv4.source payload = src
  | .rule _ fproto port =>
      Ipv4.CarriesHeader payload fproto ∧
        Ipv4.destPort payload = port

end RuleEdit

namespace Firewall

variable {fw : Firewall}
variable {e e' : RuleEdit}

/- What an edit is about is in force. -/
def Has (fw : Firewall) : RuleEdit → Prop
  | .addr _ addr => addr ∈ fw.addrs
  | .rule _ fproto port => (fproto, port) ∈ fw.rules

theorem Has.blocks
    (hHas : fw.Has e)
    {payload : ByteSeq}
    (hMatches : e.Matches payload) :
    fw.Blocks payload := by
  cases e with
  | addr action addr =>
      left
      rw [RuleEdit.Matches] at hMatches
      rw [hMatches]
      exact hHas
  | rule action fproto port =>
      rcases hMatches with ⟨hCarries, rfl⟩
      exact Or.inr ⟨fproto, hCarries, hHas⟩

theorem mem_editSet_of_add
    {α : Type}
    (x : α)
    (s : Set α) :
    x ∈ editSet ACTION_ADD x s := by
  rw [editSet, if_pos rfl]
  exact Set.mem_insert x s

/- Only its own deletion takes an element away. -/
theorem mem_editSet
    {α : Type}
    {x y : α}
    {s : Set α}
    {action : BitVec 32}
    (hMem : x ∈ s)
    (hKept : ¬ (action = ACTION_DEL ∧ y = x)) :
    x ∈ editSet action y s := by
  unfold editSet
  split
  · exact Set.mem_insert_of_mem y hMem
  · split
    · rename_i hDel
      refine ⟨hMem, ?_⟩
      rintro rfl
      exact hKept ⟨hDel, rfl⟩
    · exact hMem

theorem has_edit_of_add
    (hAdd : e.action = ACTION_ADD) :
    (fw.edit e).Has e := by
  cases e with
  | addr action addr =>
      cases hAdd
      exact mem_editSet_of_add addr fw.addrs
  | rule action fproto port =>
      cases hAdd
      exact mem_editSet_of_add (fproto, port) fw.rules

theorem Has.edit
    (hHas : fw.Has e)
    (hKept : e' ≠ e.undo) :
    (fw.edit e').Has e := by
  cases e with
  | addr action addr =>
      cases e' with
      | addr action' addr' =>
          apply mem_editSet hHas
          rintro ⟨rfl, rfl⟩
          exact hKept rfl
      | rule action' fproto' port' => exact hHas
  | rule action fproto port =>
      cases e' with
      | addr action' addr' => exact hHas
      | rule action' fproto' port' =>
          apply mem_editSet hHas
          rintro ⟨rfl, hEq⟩
          cases hEq
          exact hKept rfl

end Firewall

section

variable {pol : Policy}
variable {e : RuleEdit}
variable {o : ℕ}
variable {edits : List RuleEdit}

/- Edits other than its deletion leave a rule in force. -/
theorem Policy.has_editAll
    (t : Tables (Option ℕ))
    (hHas : (pol.tables o).Has e)
    (hKept : e.undo ∉ edits) :
    ((pol.editAll t edits).tables o).Has e := by
  induction edits generalizing pol with
  | nil => exact hHas
  | cons e' edits ih =>
      rw [List.mem_cons, not_or] at hKept
      have hHere : ((pol.edit t e').tables o).Has e := by
        simp only [Policy.edit]
        split
        · exact hHas.edit (Ne.symm hKept.1)
        · exact hHas
      exact ih hHere hKept.2

/- What was added last is in force. -/
theorem Policy.has_editAll_of_getLast?
    {t : Tables (Option ℕ)}
    (hLast : edits.getLast? = some e)
    (hAdd : e.action = ACTION_ADD)
    (hTarget : t.target e = some o) :
    ((pol.editAll t edits).tables o).Has e := by
  rcases List.getLast?_eq_some_iff.mp hLast with
    ⟨edits', rfl⟩
  rw [Policy.editAll, List.foldl_append]
  simp only [List.foldl_cons, List.foldl_nil, Policy.edit,
    hTarget, if_true]
  exact Firewall.has_edit_of_add hAdd

end

------------------------------------------------------------
-- Acknowledged Rules
------------------------------------------------------------

/-
  A run loses neither the files of the two tables nor rules
  that it cannot read, and a failing call of the tool does
  not pass for a success.
-/
def DeviceEvent.KeepsTables
    (db : NameDb) : DeviceEvent nrCpus → Prop
  | .loader faults args =>
      (∀ opt,
        Loader.optionLoop db Loader.initialOptions
            (Loader.options args) = some opt →
          opt.rmXdpProg = false) ∧
      (faults.objGet (exportFile 0) = false ∧
        faults.objPin (exportFile 0) = false) ∧
      (faults.objGet (exportFile 2) = false ∧
        faults.objPin (exportFile 2) = false) ∧
      ∀ key, faults.tests .portBlacklist .lookup key = none
  | .tool fails _ _ _ =>
      (∀ key,
        fails.calls .portBlacklist .lookup key = none) ∧
      fails.calls.Honest
  | .frame _ _ _ => True

/- All programs look at the tables behind the files. -/
structure Policy.Shared
    (pol : Policy) : Prop where
  below : pol.files.Below pol.next
  same :
    ∀ ifindex t, pol.on ifindex = some t →
      pol.files = t.map some

/- A rule is in force behind the files. -/
def Policy.Enforces
    (pol : Policy)
    (e : RuleEdit) : Prop :=
  ∃ o, pol.files.target e = some o ∧ (pol.tables o).Has e

section

variable {db : NameDb}
variable {pol pol' : Policy}
variable {ev : DeviceEvent nrCpus}
variable {r : DeviceResponse}
variable {n n' o m : ℕ}
variable {file file' : Option ℕ}

/- Files that are kept stay behind the programs. -/
theorem Policy.Shared.kept
    (hShared : pol.Shared)
    {files : Tables (Option ℕ)}
    (hAddrs : FileKept n n' pol.files.addrs files.addrs)
    (hRules : FileKept n n' pol.files.rules files.rules)
    (ifindex : ℤ)
    (t : Tables ℕ)
    (hOn : pol.on ifindex = some t) :
    files = t.map some := by
  have hSame := hShared.same ifindex t hOn
  have hAddrs' := hAddrs.file_eq (congrArg Tables.addrs hSame)
  have hRules' := hRules.file_eq (congrArg Tables.rules hSame)
  cases files
  exact congrArg₂ Tables.mk hAddrs' hRules'

/- Runs that keep the files keep the tables shared. -/
theorem PolicyStep.shared
    (hStep : PolicyStep db pol ev r pol')
    (hKeeps : ev.KeepsTables db)
    (hShared : pol.Shared) :
    pol'.Shared := by
  cases hStep with
  | filtered hOn hVerdict => exact hShared
  | unfiltered hOff => exact hShared
  | @edited fails _ _ _ _ edits hSome hFiles hLast =>
      rcases pol.editAll_kept pol.files
        (edits.flatMap (RuleEdit.carriedOut fails.calls)) with
        ⟨hNext, hFilesEq, hOn⟩
      constructor
      · rw [hFilesEq, hNext]
        exact hShared.below
      · rw [hFilesEq, hOn]
        exact hShared.same
  | @failed _ _ _ _ n files hStatus hCode hNext hAddrs
      hRules =>
      refine ⟨⟨?_, ?_⟩, hShared.kept hAddrs hRules⟩
      · intro o hFile
        exact hAddrs.lt hNext hShared.below.1 hFile
      · intro o hFile
        exact hRules.lt hNext hShared.below.2 hFile
  | removed hArgs hRemove hOn =>
      rw [hKeeps.1 _ hArgs] at hRemove
      cases hRemove
  | @started faults _ opt n t files tests hArgs hStart hNext
      hAddrs hRules hSome hLast =>
      rcases hKeeps with
        ⟨_, ⟨hGet₀, hPin₀⟩, ⟨hGet₂, hPin₂⟩, _⟩
      have hKeptAddrs := hAddrs.fileKept
      have hKeptRules := hRules.fileKept
      rw [hGet₀, hPin₀] at hAddrs
      rw [hGet₂, hPin₂] at hRules
      have hFiles : files = t.map some := by
        cases files
        exact congrArg₂ Tables.mk hAddrs.file_eq.1
          hRules.file_eq.1
      let pol₁ : Policy :=
        { pol.create n with files := files }.attach
          opt.ifindex (some t)
      rcases pol₁.editAll_kept (t.map some)
        (tests.flatMap (RuleEdit.carriedOut faults.tests))
        with ⟨hNext', hFilesEq, hOn⟩
      constructor
      · rw [hFilesEq, hNext']
        constructor
        · intro o hFile
          exact hKeptAddrs.lt hNext hShared.below.1 hFile
        · intro o hFile
          exact hKeptRules.lt hNext hShared.below.2 hFile
      · rw [hFilesEq, hOn]
        intro ifindex t' hOn'
        by_cases hHere : ifindex = opt.ifindex
        · subst hHere
          rw [show pol₁.on opt.ifindex = some t from
            Function.update_self _ _ _] at hOn'
          cases hOn'
          exact hFiles
        · rw [show pol₁.on ifindex = pol.on ifindex from
            Function.update_of_ne hHere _ _] at hOn'
          exact hShared.kept hKeptAddrs hKeptRules ifindex t'
            hOn'

/- The edits that an event asks for. -/
def DeviceEvent.requested :
    DeviceEvent nrCpus → List RuleEdit
  | .tool _ _ _ args => requestedEdits args
  | _ => []

theorem undo_not_mem_testEdits
    (e : RuleEdit) :
    e.undo ∉ testEdits := by
  cases e with
  | addr action addr =>
      simp [RuleEdit.undo, testEdits, ACTION_ADD, ACTION_DEL]
  | rule action fproto port =>
      simp [RuleEdit.undo, testEdits, ACTION_ADD, ACTION_DEL]

/- What was behind a file stays behind it. -/
theorem Policy.Enforces.created
    {e : RuleEdit}
    (hShared : pol.Shared)
    (hEnforces : pol.Enforces e)
    (n : ℕ)
    {files : Tables (Option ℕ)}
    (hAddrs : FileKept pol.next n pol.files.addrs files.addrs)
    (hRules : FileKept pol.next n pol.files.rules files.rules) :
    ∃ o, files.target e = some o ∧
      ((pol.create n).tables o).Has e := by
  rcases hEnforces with ⟨o, hTarget, hHas⟩
  have hLt : o < pol.next := by
    cases e with
    | addr action addr => exact hShared.below.1 o hTarget
    | rule action fproto port =>
        exact hShared.below.2 o hTarget
  refine ⟨o, ?_, ?_⟩
  · cases e with
    | addr action addr => exact hAddrs.file_eq hTarget
    | rule action fproto port => exact hRules.file_eq hTarget
  · simp only [Policy.create, Nat.not_le.mpr hLt, false_and,
      if_false]
    exact hHas

/- A rule stays in force until its deletion is asked for. -/
theorem PolicyStep.enforces
    {e : RuleEdit}
    (hStep : PolicyStep db pol ev r pol')
    (hKeeps : ev.KeepsTables db)
    (hShared : pol.Shared)
    (hKept : e.undo ∉ ev.requested)
    (hEnforces : pol.Enforces e) :
    pol'.Enforces e := by
  cases hStep with
  | filtered hOn hVerdict => exact hEnforces
  | unfiltered hOff => exact hEnforces
  | @edited fails _ _ _ _ edits hSome hFiles hLast =>
      rcases hEnforces with ⟨o, hTarget, hHas⟩
      rw [flatMap_carriedOut hKeeps.1]
      refine ⟨o, ?_, ?_⟩
      · rw [(pol.editAll_kept pol.files edits).2.1]
        exact hTarget
      · apply Policy.has_editAll _ hHas
        exact fun hMem => hKept (hSome.subset hMem)
  | @failed _ _ _ _ n files hStatus hCode hNext hAddrs
      hRules =>
      exact hEnforces.created hShared n hAddrs hRules
  | removed hArgs hRemove hOn =>
      rw [hKeeps.1 _ hArgs] at hRemove
      cases hRemove
  | @started _ _ opt n t files tests hArgs hStart hNext hAddrs
      hRules hSome hLast =>
      rcases hEnforces.created hShared n hAddrs.fileKept
          hRules.fileKept with ⟨o, hTarget, hHas⟩
      rw [flatMap_carriedOut hKeeps.2.2.2]
      let pol₁ : Policy :=
        { pol.create n with files := files }.attach
          opt.ifindex (some t)
      have hHas₁ : (pol₁.tables o).Has e := hHas
      refine ⟨o, ?_, ?_⟩
      · rw [(pol₁.editAll_kept (t.map some) tests).2.1]
        exact hTarget
      · apply Policy.has_editAll _ hHas₁
        exact fun hMem =>
          undo_not_mem_testEdits e (hSome.subset hMem)

/- A rule is in force once the tool says that it was added. -/
theorem PolicyStep.enforces_of_added
    {fails : ToolFaults}
    {fuel : ℕ}
    {frame : Tool.StackFrame}
    {args : List CStr}
    {e : RuleEdit}
    (hStep :
      PolicyStep db pol
        (.tool fails fuel frame args : DeviceEvent nrCpus)
        (.toolEnded (.returned (.exited 0))) pol')
    (hKeeps :
      (DeviceEvent.tool fails fuel frame args :
        DeviceEvent nrCpus).KeepsTables db)
    (hAsked : (requestedEdits args).getLast? = some e)
    (hAdd : e.action = ACTION_ADD) :
    pol'.Enforces e := by
  cases hStep with
  | @edited _ _ _ _ _ edits hSome hFiles hLast =>
      have hLast' : edits.getLast? = some e :=
        (hLast hKeeps.2 rfl).trans hAsked
      rw [flatMap_carriedOut hKeeps.1]
      have hThere := hFiles e (List.mem_of_getLast? hLast')
      rcases Option.isSome_iff_exists.mp hThere with
        ⟨o, hTarget⟩
      refine ⟨o, ?_, ?_⟩
      · rw [(pol.editAll_kept pol.files edits).2.1]
        exact hTarget
      · exact Policy.has_editAll_of_getLast? hLast' hAdd
          hTarget

/- A rule in force is one of every protected interface. -/
theorem Policy.Enforces.firewall
    {e : RuleEdit}
    (hShared : pol.Shared)
    (hEnforces : pol.Enforces e)
    {ifindex : ℤ}
    {t : Tables ℕ}
    (hOn : pol.on ifindex = some t) :
    (pol.firewall t).Has e := by
  rcases hEnforces with ⟨o, hTarget, hHas⟩
  rw [hShared.same ifindex t hOn] at hTarget
  cases e with
  | addr action addr =>
      cases hTarget
      exact hHas
  | rule action fproto port =>
      cases hTarget
      exact hHas

end

/-
  The rules that the tool said it added, without those whose
  deletion it was asked for since.
-/
def acknowledge
    (ev : DeviceEvent nrCpus)
    (r : DeviceResponse)
    (acked : Set RuleEdit) : Set RuleEdit :=
  { e | e ∈ acked ∧ e.undo ∉ ev.requested ∨
    r = .toolEnded (.returned (.exited 0)) ∧
      ev.requested.getLast? = some e ∧
      e.action = ACTION_ADD }

/- The rules that are acknowledged after a run. -/
def acknowledged
    (obj : DeployedObject)
    (db : NameDb)
    (nativeXdp : ℤ → Bool)
    (es : List (DeviceEvent nrCpus)) : Set RuleEdit :=
  (deviceSystem obj db).ghost (fun _ => acknowledge)
    (.boot nativeXdp) ∅ es

section

variable {obj : DeployedObject}
variable {db : NameDb}
variable {nativeXdp : ℤ → Bool}

/- The device follows a policy that enforces what it said. -/
def KeepsWord
    (obj : DeployedObject)
    (d : Device nrCpus)
    (acked : Set RuleEdit) : Prop :=
  ∃ pol, Follows obj d pol ∧ pol.Shared ∧
    ∀ e ∈ acked, pol.Enforces e

/- A run of one event keeps the word given before. -/
theorem KeepsWord.step
    {d : Device nrCpus}
    {acked : Set RuleEdit}
    (hWord : KeepsWord obj d acked)
    {ev : DeviceEvent nrCpus}
    (hKeeps : ev.KeepsTables db) :
    KeepsWord obj ((deviceSystem obj db).step d ev).2
      (acknowledge ev ((deviceSystem obj db).step d ev).1
        acked) := by
  rcases hWord with ⟨pol, hFollows, hShared, hEnforces⟩
  rcases hFollows.step db ev with ⟨pol', hStep, hFollows'⟩
  refine ⟨pol', hFollows', hStep.shared hKeeps hShared, ?_⟩
  rintro e (⟨hAcked, hKept⟩ | ⟨hExit, hAsked, hAdd⟩)
  · exact hStep.enforces hKeeps hShared hKept
      (hEnforces e hAcked)
  · cases ev with
    | loader faults args => cases hAsked
    | frame ifindex cpu ctx => cases hAsked
    | tool fails fuel frame args =>
        rw [hExit] at hStep
        exact hStep.enforces_of_added hKeeps hAsked hAdd

theorem keepsWord_boot :
    KeepsWord obj (Device.boot nativeXdp : Device nrCpus) ∅ := by
  refine ⟨.boot, follows_boot obj nativeXdp, ?_, ?_⟩
  · refine ⟨⟨?_, ?_⟩, ?_⟩
    · rintro o ⟨⟩
    · rintro o ⟨⟩
    · rintro ifindex t ⟨⟩
  · intro e hMem
    exact hMem.elim

/- A protected interface filters by its tables. -/
theorem Follows.drops_iff
    {d : Device nrCpus}
    {pol : Policy}
    (hFollows : Follows obj d pol)
    (db : NameDb)
    {ifindex : ℤ}
    {p : XdpProg}
    (hProgram : d.program ifindex = some p)
    (cpu : Fin nrCpus)
    {f : EthFrame}
    (hFrame : PlainIpv4Frame f) :
    ∃ t, pol.on ifindex = some t ∧ obj.UsesTables p t ∧
      (((deviceSystem obj db).step d
          (.frame ifindex cpu f.bytes)).1 =
            .verdict (.ok .drop) ↔
        (pol.firewall t).Blocks f.payload) := by
  rcases hFollows.wired.on_of_program hProgram with
    ⟨t, hOn, hUses, _⟩
  refine ⟨t, hOn, hUses, ?_⟩
  have hStep :=
    (hFollows.frame db ifindex cpu f.bytes).1
  have hVerdict :
      ∃ action,
        ((deviceSystem obj db).step d
          (.frame ifindex cpu f.bytes)).1 =
            .verdict (.ok action) := by
    simp only [deviceSystem, hProgram, frameStep_eq]
    exact ⟨_, rfl⟩
  rcases hVerdict with ⟨action, hAction⟩
  rw [hAction] at hStep ⊢
  cases hStep with
  | @filtered _ _ _ _ t' hOn' hBlocks =>
      rw [hOn] at hOn'
      cases hOn'
      rw [← hBlocks f hFrame rfl]
      constructor
      · intro hDrop
        cases hDrop
        rfl
      · rintro rfl
        rfl

/-
  As long as no run takes the files away or fails to read
  masks, a plain packet that an acknowledged rule is about is
  dropped on every protected interface, also on one that is
  protected later, and on every CPU.
-/
theorem acknowledged_rules_block
    {es : List (DeviceEvent nrCpus)}
    (hKeeps : ∀ ev ∈ es, ev.KeepsTables db)
    {e : RuleEdit}
    (hAcked : e ∈ acknowledged obj db nativeXdp es)
    {ifindex : ℤ}
    {p : XdpProg}
    (hProgram :
      ((deviceSystem obj db).final (.boot nativeXdp)
        es).program ifindex = some p)
    (cpu : Fin nrCpus)
    {f : EthFrame}
    (hFrame : PlainIpv4Frame f)
    (hMatches : e.Matches f.payload) :
    ((deviceSystem obj db).step
        ((deviceSystem obj db).final (.boot nativeXdp) es)
        (.frame ifindex cpu f.bytes)).1 =
      .verdict (.ok .drop) := by
  have hWord :
      KeepsWord obj
        ((deviceSystem obj db).final (.boot nativeXdp) es)
        (acknowledged obj db nativeXdp es) := by
    apply Reactive.ghost_simulation_of_allSteps
      (deviceSystem obj db) _
      (fun _ ev => ev.KeepsTables db) (KeepsWord obj)
      (fun d acked ev hKeeps hWord => hWord.step hKeeps)
    · exact Reactive.allSteps_of_mem _ hKeeps _
    · exact keepsWord_boot
  rcases hWord with ⟨pol, hFollows, hShared, hEnforces⟩
  rcases hFollows.drops_iff db hProgram cpu hFrame with
    ⟨t, hOn, _, hDrops⟩
  rw [hDrops]
  exact ((hEnforces e hAcked).firewall hShared hOn).blocks
    hMatches

end

def addTcp80 : List CStr :=
  ["-a".toList, "-t".toList, "80".toList]

/- A start, and a rule that is added for TCP port 80. -/
def startThenAdd : List (DeviceEvent 2) :=
  [.loader {} startEth0,
    .tool .none 0 Tool.emptyFrame addTcp80]

theorem acknowledged_startThenAdd :
    .rule ACTION_ADD .tcp 80 ∈
      acknowledged blacklistDeployed ethDb (fun _ => false)
        startThenAdd := by
  have hReady :=
    @ready_startEth0 2 blacklistDeployed (fun _ => false)
  have hAdded :=
    @step_editPort _ _ ethDb _ addTcp80 _ hReady 0
      Tool.emptyFrame _ 80 rfl (Or.inl rfl) rfl rfl (by decide)
  exact Or.inr ⟨hAdded, rfl, rfl⟩

theorem acknowledged_rules_block_startThenAdd :
    ((deviceSystem blacklistDeployed ethDb).step
        ((deviceSystem blacklistDeployed ethDb).final
          (.boot fun _ => false) startThenAdd)
        (.frame 1 1 plainFrame.bytes)).1 =
      .verdict (.ok .drop) := by
  rcases @ready_startEth0 2 blacklistDeployed
      (fun _ => false) with ⟨p, hProgram, _⟩
  have hProgram' :
      ((deviceSystem blacklistDeployed ethDb).final
        (.boot fun _ => false) startThenAdd).program 1 =
          some p := by
    rw [startThenAdd, Reactive.final_cons,
      Reactive.final_cons, Reactive.final, Device.program,
      kernel_step_tool]
    exact hProgram
  have hMatches :
      (RuleEdit.rule ACTION_ADD .tcp 80).Matches
        plainFrame.payload := by
    refine ⟨⟨?_, ?_⟩, ?_⟩ <;> decide
  refine acknowledged_rules_block ?_ acknowledged_startThenAdd
    hProgram' 1 plainFrame_plain hMatches
  · intro ev hMem
    rcases List.mem_cons.mp hMem with rfl | hMem
    · refine ⟨?_, ⟨rfl, rfl⟩, ⟨rfl, rfl⟩, fun _ => rfl⟩
      intro opt hArgs
      rw [optionLoop_startEth0] at hArgs
      cases hArgs
      rfl
    · rw [List.mem_singleton.mp hMem]
      exact ⟨fun _ => rfl, by rintro _ _ _ ⟨⟩⟩

end XdpDdos
