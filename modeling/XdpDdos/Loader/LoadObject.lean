import XdpDdos.Loader.Passes

/-
  Loading a well-formed object, when the kernel creates its
  maps and accepts its programs.

  Main declarations:
    * `LoadCall.Succeeds`, `FdSource`
    * `IsRelocated`, `LoadedObject`
    * `wellFormedObject_loads`
-/

------------------------------------------------------------
-- Calls That Succeed
------------------------------------------------------------

namespace XdpDdos

/- A call of the loader, with its answer. -/
abbrev LoadAnswer :=
  CallProg.Answered LoadCall LoadCall.Resp

/- Creating a map and loading a program do not fail. -/
def LoadCall.Succeeds : LoadAnswer → Prop
  | ⟨.createMapNode .., fd⟩ => 0 ≤ fd
  | ⟨.createMapInMapNode .., fd⟩ => 0 ≤ fd
  | ⟨.loadProgram .., fd⟩ => 0 ≤ fd
  | _ => True

/- The call creates the map of an entry, and gives `fd`. -/
def LoadCall.Creates
    (map : BpfMapData)
    (fd : ℤ) : LoadAnswer → Prop
  | ⟨.createMapNode mapType name keySize valueSize maxEntries
        mapFlags _, answer⟩ =>
      answer = fd ∧ name = map.name ∧
        mapType = map.mapDef.type ∧
        keySize = map.mapDef.keySize ∧
        valueSize = map.mapDef.valueSize ∧
        maxEntries = map.mapDef.maxEntries ∧
        mapFlags = map.mapDef.mapFlags
  | ⟨.createMapInMapNode mapType name keySize _ maxEntries
        mapFlags _, answer⟩ =>
      answer = fd ∧ name = map.name ∧
        mapType = map.mapDef.type ∧
        keySize = map.mapDef.keySize ∧
        maxEntries = map.mapDef.maxEntries ∧
        mapFlags = map.mapDef.mapFlags
  | _ => False

section

variable {υ σ : Type}

/- Where the descriptor of map `i` comes from. -/
def FdSource
    (handler : CallProg.Handler LoadCall LoadCall.Resp σ)
    (fixupMap : Option (FixupMapCb υ))
    (calls : List LoadAnswer)
    (map : BpfMapData)
    (i : ℕ)
    (fd : ℤ) : Prop :=
  (∃ call ∈ calls, LoadCall.Creates map fd call) ∨
    fd ≠ -1 ∧ ∃ cb ∈ fixupMap, ∃ u s calls u' s',
      CallProg.Returns handler (cb map i u) s calls (fd, u') s'

/- The callback returns, whatever it is asked. -/
def CallbackReturns
    (handler : CallProg.Handler LoadCall LoadCall.Resp σ)
    (cb : FixupMapCb υ) : Prop :=
  ∀ map i u s, ∃ calls r s',
    CallProg.Returns handler (cb map i u) s calls r s'

variable
  {handler : CallProg.Handler LoadCall LoadCall.Resp σ}
variable {fixupMap : Option (FixupMapCb υ)}

theorem FdSource.mono
    {calls calls' : List LoadAnswer}
    {map : BpfMapData}
    {i : ℕ}
    {fd : ℤ}
    (hSource : FdSource handler fixupMap calls map i fd)
    (hCalls : calls ⊆ calls') :
    FdSource handler fixupMap calls' map i fd := by
  rcases hSource with ⟨call, hMem, hCreates⟩ | hAssigned
  · exact Or.inl ⟨call, hCalls hMem, hCreates⟩
  · exact Or.inr hAssigned

/- One call creates the map, unless its inner map is none. -/
theorem returns_createMap
    (handler : CallProg.Handler LoadCall LoadCall.Resp σ)
    (map : BpfMapData)
    (mapFd : ℕ → ℤ)
    (s : σ)
    (hInner : map.mapDef.InnerInTable) :
    ∃ call fd s',
      CallProg.Returns handler (createMap map mapFd) s [call]
          fd s' ∧
        LoadCall.Creates map fd call ∧
        (LoadCall.Succeeds call → 0 ≤ fd) := by
  by_cases hOfMaps :
      map.mapDef.type = BPF_MAP_TYPE_ARRAY_OF_MAPS ∨
        map.mapDef.type = BPF_MAP_TYPE_HASH_OF_MAPS
  · rw [createMap, if_pos hOfMaps, if_pos (hInner hOfMaps)]
    exact ⟨_, _, _, .call (.ret _ _),
      ⟨rfl, rfl, rfl, rfl, rfl, rfl⟩, id⟩
  · rw [createMap, if_neg hOfMaps]
    exact ⟨_, _, _, .call (.ret _ _),
      ⟨rfl, rfl, rfl, rfl, rfl, rfl, rfl⟩, id⟩

/- The callback, or its absence, gives a descriptor. -/
theorem returns_fixupMapFd
    (hCallback : ∀ cb ∈ fixupMap, CallbackReturns handler cb)
    (map : BpfMapData)
    (i : ℕ)
    (u : υ)
    (s : σ) :
    ∃ calls r s',
      CallProg.Returns handler (fixupMapFd fixupMap map i u) s
        calls r s' := by
  cases fixupMap with
  | none => exact ⟨[], _, s, .ret _ _⟩
  | some cb => exact hCallback cb rfl map i u s

/- A round of the loop that gave map `i` its descriptor. -/
structure GaveFd
    (i : ℕ)
    (fd : ℤ)
    (g g' : LoaderGlobals) : Prop where
  mapFd_self : g'.mapFd i = fd
  mapFd_of_ne : ∀ j, j ≠ i → g'.mapFd j = g.mapFd j
  mapData_of_ne : ∀ j, j ≠ i → g'.mapData j = g.mapData j

theorem gaveFd_giveFd
    (i : ℕ)
    (fd : ℤ)
    (g : LoaderGlobals) :
    GaveFd i fd g (g.giveFd i fd) where
  mapFd_self := Function.update_self _ _ _
  mapFd_of_ne := fun _ hNe => Function.update_of_ne hNe _ _
  mapData_of_ne := fun _ hNe => Function.update_of_ne hNe _ _

theorem gaveFd_giveNewFd
    (i : ℕ)
    (fd : ℤ)
    (g : LoaderGlobals) :
    GaveFd i fd g (g.giveNewFd i fd) := by
  have hGave := gaveFd_giveFd i fd g
  unfold LoaderGlobals.giveNewFd
  split
  · exact ⟨hGave.mapFd_self, hGave.mapFd_of_ne,
      hGave.mapData_of_ne⟩
  · exact hGave

/- What the loop over the maps `is` achieves. -/
structure MapsLoaded
    (handler : CallProg.Handler LoadCall LoadCall.Resp σ)
    (fixupMap : Option (FixupMapCb υ))
    (is : List ℕ)
    (calls : List LoadAnswer)
    (g g' : LoaderGlobals) : Prop where
  mapFd_of_notMem : ∀ i, i ∉ is → g'.mapFd i = g.mapFd i
  source :
    ∀ i ∈ is,
      FdSource handler fixupMap calls (g.mapData i) i
        (g'.mapFd i)

theorem MapsLoaded.cons
    {i : ℕ}
    {is : List ℕ}
    {calls calls' : List LoadAnswer}
    {fd : ℤ}
    {g g₁ g' : LoaderGlobals}
    (hFresh : i ∉ is)
    (hGave : GaveFd i fd g g₁)
    (hSource :
      FdSource handler fixupMap calls (g.mapData i) i fd)
    (hRest : MapsLoaded handler fixupMap is calls' g₁ g') :
    MapsLoaded handler fixupMap (i :: is) (calls ++ calls') g
      g' where
  mapFd_of_notMem := by
    intro j hMem
    rw [List.mem_cons, not_or] at hMem
    rw [hRest.mapFd_of_notMem j hMem.2,
      hGave.mapFd_of_ne j hMem.1]
  source := by
    intro j hMem
    rcases List.mem_cons.mp hMem with rfl | hTail
    · rw [hRest.mapFd_of_notMem j hFresh, hGave.mapFd_self]
      exact hSource.mono (List.subset_append_left _ _)
    · have hNe : j ≠ i := by
        rintro rfl
        exact hFresh hTail
      rw [← hGave.mapData_of_ne j hNe]
      exact (hRest.source j hTail).mono
        (List.subset_append_right _ _)

/-
  When creations succeed the loop over the maps returns 0,
  and each map has a descriptor of its own.
-/
theorem returns_loadMaps
    (hCallback : ∀ cb ∈ fixupMap, CallbackReturns handler cb)
    {is : List ℕ}
    (hIs : ∀ i ∈ is, i < MAX_MAPS)
    (hNodup : is.Nodup)
    {g : LoaderGlobals}
    (hInner :
      ∀ i ∈ is, (g.mapData i).mapDef.InnerInTable)
    {u : υ}
    {s : σ}
    (hOk :
      ∀ call ∈ CallProg.trace handler
        (loadMaps fixupMap is g u) s, LoadCall.Succeeds call) :
    ∃ calls g' u' s',
      CallProg.Returns handler (loadMaps fixupMap is g u) s
        calls (0, g', u') s' ∧
      MapsLoaded handler fixupMap is calls g g' := by
  induction is generalizing g u s with
  | nil =>
      refine ⟨[], g, u, s, .ret _ _, fun _ _ => rfl, ?_⟩
      intro i hMem
      cases hMem
  | cons i is ih =>
      rcases List.nodup_cons.mp hNodup with ⟨hFresh, hNodup'⟩
      have hIs' : ∀ j ∈ is, j < MAX_MAPS := by
        intro j hMem
        exact hIs j (List.mem_cons_of_mem i hMem)
      have hInner'
          {fd : ℤ}
          {g₁ : LoaderGlobals}
          (hGave : GaveFd i fd g g₁) :
          ∀ j ∈ is,
            (g₁.mapData j).mapDef.InnerInTable := by
        intro j hMem
        have hNe : j ≠ i := by
          rintro rfl
          exact hFresh hMem
        rw [hGave.mapData_of_ne j hNe]
        exact hInner j (List.mem_cons_of_mem i hMem)
      rw [loadMaps_cons fixupMap
        (hIs i List.mem_cons_self)] at hOk ⊢
      rcases returns_fixupMapFd hCallback (g.mapData i) i u s
        with ⟨calls₁, ⟨fd, u₁⟩, s₁, hFixup⟩
      rw [hFixup.trace_bind] at hOk
      by_cases hAssigned : fixupMap.isSome ∧ fd ≠ -1
      · rw [if_pos hAssigned] at hOk
        have hGave := gaveFd_giveFd i fd g
        rcases ih hIs' hNodup' (hInner' hGave)
          (fun call hMem =>
            hOk call (List.mem_append_right _ hMem)) with
          ⟨calls₂, g₂, u₂, s₂, hRest, hLoaded⟩
        refine ⟨calls₁ ++ calls₂, g₂, u₂, s₂,
          hFixup.bind ?_, hLoaded.cons hFresh hGave ?_⟩
        · rw [if_pos hAssigned]
          exact hRest
        · rcases Option.isSome_iff_exists.mp hAssigned.1 with
            ⟨cb, rfl⟩
          exact Or.inr ⟨hAssigned.2, cb, rfl, u, s, calls₁,
            u₁, s₁, hFixup⟩
      · rw [if_neg hAssigned] at hOk
        rcases returns_createMap handler (g.mapData i)
          g.mapFd s₁ (hInner i List.mem_cons_self) with
          ⟨call, newFd, s₂, hCreate, hCreates, hNonneg⟩
        rw [hCreate.trace_bind] at hOk
        have hFd : ¬ newFd < 0 := by
          have hCall := hOk call (by simp)
          exact Int.not_lt.mpr (hNonneg hCall)
        rw [if_neg hFd] at hOk
        have hGave := gaveFd_giveNewFd i newFd g
        rcases ih hIs' hNodup' (hInner' hGave)
          (fun call hMem =>
            hOk call (List.mem_append_right _
              (List.mem_append_right _ hMem))) with
          ⟨calls₂, g₂, u₂, s₃, hRest, hLoaded⟩
        refine ⟨(calls₁ ++ [call]) ++ calls₂, g₂, u₂, s₃, ?_,
          hLoaded.cons hFresh hGave ?_⟩
        · rw [List.append_assoc]
          apply hFixup.bind
          rw [if_neg hAssigned]
          apply hCreate.bind
          rw [if_neg hFd]
          exact hRest
        · exact Or.inl ⟨call, by simp, hCreates⟩

------------------------------------------------------------
-- Programs
------------------------------------------------------------

/- The call that loads a packet program. -/
def progLoad
    (g : LoaderGlobals)
    (data : ElfData)
    (fd : ℤ) : LoadAnswer :=
  ⟨.loadProgram .xdp data.dBuf (insnsCount data.dSize)
    g.license g.kernVersion, fd⟩

/- Record the descriptors of loaded programs, in order. -/
def LoaderGlobals.addProgs
    (g : LoaderGlobals)
    (fds : List ℤ) : LoaderGlobals :=
  fds.foldl LoaderGlobals.addProg g

theorem LoaderGlobals.addProgs_rest
    (g : LoaderGlobals)
    (fds : List ℤ) :
    { g.addProgs fds with
      progFd := g.progFd
      progCnt := g.progCnt } = g := by
  induction fds generalizing g with
  | nil => rfl
  | cons fd fds ih =>
      have hRest :=
        congrArg
          (fun h : LoaderGlobals =>
            { h with
              progFd := g.progFd
              progCnt := g.progCnt })
          (ih (g.addProg fd))
      exact hRest

theorem LoaderGlobals.progCnt_addProgs
    (g : LoaderGlobals)
    (fds : List ℤ) :
    (g.addProgs fds).progCnt = g.progCnt + fds.length := by
  induction fds generalizing g with
  | nil => rfl
  | cons fd fds ih =>
      refine (ih (g.addProg fd)).trans ?_
      simp only [addProg, List.length_cons]
      omega

/- Earlier programs keep their places. -/
theorem LoaderGlobals.progFd_addProgs_of_lt
    (g : LoaderGlobals)
    (fds : List ℤ)
    {j : ℕ}
    (hLt : j < g.progCnt) :
    (g.addProgs fds).progFd j = g.progFd j := by
  induction fds generalizing g with
  | nil => rfl
  | cons fd fds ih =>
      have hLater : j < (g.addProg fd).progCnt := by
        simp only [addProg]
        omega
      refine (ih (g.addProg fd) hLater).trans ?_
      exact Function.update_of_ne (Nat.ne_of_lt hLt) _ _

theorem LoaderGlobals.progFd_addProgs
    (g : LoaderGlobals)
    {fds : List ℤ}
    {j : ℕ}
    (hLt : j < fds.length) :
    (g.addProgs fds).progFd (g.progCnt + j) = fds[j] := by
  induction fds generalizing g j with
  | nil => cases hLt
  | cons fd fds ih =>
      cases j with
      | zero =>
          refine (progFd_addProgs_of_lt (g.addProg fd) fds
            (Nat.lt_succ_self _)).trans ?_
          exact Function.update_self _ _ _
      | succ j =>
          have hRest :=
            ih (g.addProg fd) (Nat.lt_of_succ_lt_succ hLt)
          rw [List.getElem_cons_succ, ← hRest]
          simp only [addProg, addProgs, List.foldl_cons,
            Nat.add_comm, Nat.add_left_comm]

/- When the kernel takes them, all programs are recorded. -/
theorem returns_loadXdpProgs
    {datas : List ElfData}
    {g : LoaderGlobals}
    {s : σ}
    (hOk :
      ∀ call ∈ CallProg.trace handler (loadXdpProgs datas g) s,
        LoadCall.Succeeds call) :
    ∃ fds s',
      fds.length = datas.length ∧
      CallProg.Returns handler (loadXdpProgs datas g) s
        (List.zipWith (progLoad g) datas fds)
        (0, g.addProgs fds) s' := by
  induction datas generalizing g s with
  | nil => exact ⟨[], s, rfl, .ret _ _⟩
  | cons data datas ih =>
      rw [loadXdpProgs, CallProg.call'_bind] at hOk ⊢
      rw [CallProg.trace] at hOk
      have hFd := hOk _ List.mem_cons_self
      rw [if_neg (Int.not_lt.mpr hFd)] at hOk
      rcases ih (fun call hMem =>
        hOk call (List.mem_cons_of_mem _ hMem)) with
        ⟨fds, s', hLength, hRest⟩
      refine ⟨_ :: fds, s', congrArg (· + 1) hLength,
        .call ?_⟩
      rw [if_neg (Int.not_lt.mpr hFd)]
      exact hRest

end

------------------------------------------------------------
-- Loaded Objects
------------------------------------------------------------

/- Sizes below 2 GiB are counted in whole instructions. -/
theorem insnsCount_of_lt
    {size : ℕ}
    (hInt : size < 2 ^ 31) :
    insnsCount size = size / INSN_SIZE := by
  rw [insnsCount, cInt_of_lt hInt, BitVec.ofInt_natCast,
    BitVec.toNat_ofNat, Nat.mod_eq_of_lt (by omega)]

theorem progLoad_of_lt
    (g : LoaderGlobals)
    {data : ElfData}
    (fd : ℤ)
    (hInt : data.dSize < 2 ^ 31) :
    progLoad g data fd =
      ⟨.loadProgram .xdp data.dBuf (data.dSize / INSN_SIZE)
        g.license g.kernVersion, fd⟩ := by
  rw [← insnsCount_of_lt hInt]
  rfl

/-
  The instructions `insns` are those of the file, except that
  each relocated one is marked as a load of a map and holds
  the descriptor of the map that its symbol names.
-/
structure IsRelocated
    (obj : BpfObject)
    (g : LoaderGlobals)
    (es : List RelEntry)
    (file insns : ByteSeq) : Prop where
  length_eq : insns.length = file.length
  relocated :
    ∀ e ∈ es, ∃ i < obj.nrMaps,
      obj.IsMapOf e.sym (g.mapData i) ∧
        insnAt insns e.insnIdx =
          (insnAt file e.insnIdx).withMapFd (g.mapFd i)
  kept :
    ∀ idx, (∀ e ∈ es, e.insnIdx ≠ idx) →
      insnAt insns idx = insnAt file idx

/-
  An object is loaded when each map has a descriptor of its
  own, and the calls `loads` loaded the relocated programs in
  header order.
-/
structure LoadedObject
    {υ σ : Type}
    (obj : BpfObject)
    (handler : CallProg.Handler LoadCall LoadCall.Resp σ)
    (fixupMap : Option (FixupMapCb υ))
    (calls loads : List LoadAnswer)
    (g : LoaderGlobals) : Prop where
  table : obj.HasTable g.mapData
  mapFds :
    ∀ i < obj.nrMaps, (g.mapData i).fd = g.mapFd i ∧
      ∃ map : BpfMapData, map.SameMap (g.mapData i) ∧
        FdSource handler fixupMap calls map i (g.mapFd i)
  progCnt_eq : g.progCnt = obj.elf.progSecs.length
  loads_length : loads.length = obj.elf.progSecs.length
  loads_eq :
    ∀ j p, obj.elf.progSecs[j]? = some p →
      ∃ prog insns,
        obj.elf.getSec p = some prog ∧
        IsRelocated obj g (obj.relocs p) prog.data.dBuf insns ∧
        loads[j]? =
          some (⟨.loadProgram .xdp insns
            (prog.data.dSize / INSN_SIZE) g.license
            g.kernVersion, g.progFd j⟩ : LoadAnswer)

theorem LoadedObject.mono
    {υ σ : Type}
    {obj : BpfObject}
    {handler : CallProg.Handler LoadCall LoadCall.Resp σ}
    {fixupMap : Option (FixupMapCb υ)}
    {calls calls' loads : List LoadAnswer}
    {g : LoaderGlobals}
    (hLoaded :
      LoadedObject obj handler fixupMap calls loads g)
    (hCalls : calls ⊆ calls') :
    LoadedObject obj handler fixupMap calls' loads g := by
  refine ⟨hLoaded.table, ?_, hLoaded.progCnt_eq,
    hLoaded.loads_length, hLoaded.loads_eq⟩
  intro i hLt
  rcases hLoaded.mapFds i hLt with
    ⟨hFd, map, hSame, hSource⟩
  exact ⟨hFd, map, hSame, hSource.mono hCalls⟩

namespace BpfObject

variable {obj : BpfObject}

/- Patched code is relocated code. -/
theorem isRelocated_patchAll
    {g : LoaderGlobals}
    (hTable : obj.HasTable g.mapData)
    (hAgrees : ∀ i < obj.nrMaps, g.FdAgrees i)
    {p : ℕ}
    {prog : Sec}
    (hProg : obj.elf.getSec p = some prog)
    (hCode : prog.IsCode) :
    IsRelocated obj g (obj.relocs p) prog.data.dBuf
      (patchAll g.mapData obj.nrMaps (obj.relocs p)
        prog.data.dBuf) := by
  have hValid (e : RelEntry) (hMem : e ∈ obj.relocs p) :=
    valid_of_mem_relocs hTable hProg hCode hMem
  have hInsns :
      ∀ e ∈ obj.relocs p,
        HasInsn prog.data.dBuf e.insnIdx := by
    intro e hMem
    exact (hValid e hMem).2.hasInsn
  refine ⟨length_patchAll _ _, ?_, ?_⟩
  · intro e hMem
    rcases hTable.findMap_eq (hValid e hMem).1 with
      ⟨i, hLt, hFind, hMap⟩
    refine ⟨i, hLt, hMap, ?_⟩
    rw [insnAt_patchAll_of_mem hInsns
      (obj.relocs_nodup hProg hCode) hMem]
    simp only [symFd, hFind]
    rw [hAgrees i hLt]
  · intro idx hNone
    exact insnAt_patchAll_of_notMem hInsns hNone

/- Programs are executable code. -/
theorem isCode_of_mem_progSecs
    {p : ℕ}
    (hMem : p ∈ obj.elf.progSecs) :
    ∃ prog, obj.elf.getSec p = some prog ∧ prog.IsCode := by
  rcases (Option.any_eq_true _ _).mp
    (List.mem_filter.mp hMem).2 with ⟨prog, hProg, hName⟩
  exact ⟨prog, hProg, (obj.prog_code hProg hName).2⟩

theorem program_eq
    (maps : ℕ → BpfMapData)
    {p : ℕ}
    {prog : Sec}
    (hProg : obj.elf.getSec p = some prog)
    (hCode : prog.IsCode) :
    obj.program maps p =
      { prog.data with
        dBuf := patchAll maps obj.nrMaps (obj.relocs p)
          prog.data.dBuf } := by
  simp only [program, hProg, patched_of_isCode _ hCode]
  rfl

/- All programs of the object were loaded. -/
theorem loadedObject_addProgs
    {υ σ : Type}
    {handler : CallProg.Handler LoadCall LoadCall.Resp σ}
    {fixupMap : Option (FixupMapCb υ)}
    {calls : List LoadAnswer}
    {g : LoaderGlobals}
    {fds : List ℤ}
    (hTable : obj.HasTable g.mapData)
    (hAgrees : ∀ i < obj.nrMaps, g.FdAgrees i)
    (hMaps : ∀ i < obj.nrMaps,
      ∃ map : BpfMapData, map.SameMap (g.mapData i) ∧
        FdSource handler fixupMap calls map i (g.mapFd i))
    (hCnt : g.progCnt = 0)
    (hFds : fds.length = (obj.programs g.mapData).length) :
    LoadedObject obj handler fixupMap calls
      (List.zipWith (progLoad g) (obj.programs g.mapData) fds)
      (g.addProgs fds) := by
  have hLength :
      fds.length = obj.elf.progSecs.length := by
    rw [hFds, programs, programsIn, List.length_map,
      Elf.progSecs]
  have hRest := g.addProgs_rest fds
  have hMapData := congrArg LoaderGlobals.mapData hRest
  have hMapFd := congrArg LoaderGlobals.mapFd hRest
  have hLicense := congrArg LoaderGlobals.license hRest
  have hVersion := congrArg LoaderGlobals.kernVersion hRest
  simp only at hMapData hMapFd hLicense hVersion
  have hTable' : obj.HasTable (g.addProgs fds).mapData := by
    rw [hMapData]
    exact hTable
  have hAgrees' :
      ∀ i < obj.nrMaps, (g.addProgs fds).FdAgrees i := by
    intro i hLt
    rw [LoaderGlobals.FdAgrees, hMapData, hMapFd]
    exact hAgrees i hLt
  refine ⟨hTable', ?_, ?_, ?_, ?_⟩
  · intro i hLt
    refine ⟨hAgrees' i hLt, ?_⟩
    rw [hMapData, hMapFd]
    exact hMaps i hLt
  · rw [LoaderGlobals.progCnt_addProgs, hCnt, Nat.zero_add,
      hLength]
  · rw [List.length_zipWith, ← hFds, Nat.min_self, hLength]
  · intro j p hProgSec
    rcases isCode_of_mem_progSecs
      (List.mem_of_getElem? hProgSec) with
      ⟨prog, hProg, hCode⟩
    rcases List.getElem?_eq_some_iff.mp hProgSec with
      ⟨hLt, _⟩
    rw [← hLength] at hLt
    have hProgram := program_eq g.mapData hProg hCode
    have hProgFd := g.progFd_addProgs hLt
    rw [hCnt, Nat.zero_add] at hProgFd
    refine ⟨prog, (obj.program g.mapData p).dBuf, hProg, ?_,
      ?_⟩
    · rw [hProgram, ← hMapData]
      exact isRelocated_patchAll hTable' hAgrees' hProg hCode
    · rw [Elf.progSecs] at hProgSec
      rw [List.getElem?_zipWith, programs, programsIn,
        List.getElem?_map, hProgSec, Option.map_some,
        List.getElem?_eq_getElem hLt, hProgFd, hLicense,
        hVersion]
      have hInt := (obj.code_whole hProg hCode).2.2
      have hSize :
          (obj.program g.mapData p).dSize =
            prog.data.dSize := by
        rw [hProgram]
      rw [← hSize] at hInt ⊢
      exact congrArg some (progLoad_of_lt g fds[j] hInt)

end BpfObject

/- No array of maps names an inner map beyond the table. -/
theorem BpfObject.innerInTable
    {obj : BpfObject}
    {maps : ℕ → BpfMapData}
    (hTable : obj.HasTable maps) :
    ∀ i < obj.nrMaps,
      (maps i).mapDef.InnerInTable := by
  intro i hLt
  rcases hTable i hLt with ⟨sym, hMem, _, hMap⟩
  rw [hMap.mapDef_eq]
  exact obj.inner_ok sym hMem

/- Opening the object is the first call. -/
theorem returns_elfOpen
    {σ : Type}
    {handler : CallProg.Handler LoadCall LoadCall.Resp σ}
    {path : CStr}
    {s : σ}
    {answer : Option Elf}
    (hOpen : (handler (.elfOpen path) s).1 = answer) :
    CallProg.Returns handler (.call' (.elfOpen path)) s
      [⟨.elfOpen path, answer⟩] answer
      (handler (.elfOpen path) s).2 := by
  subst hOpen
  exact .call (.ret _ _)

/- The passes over a well-formed object, after it is open. -/
theorem loadElf_loads
    {υ σ : Type}
    {obj : BpfObject}
    {handler : CallProg.Handler LoadCall LoadCall.Resp σ}
    {fixupMap : Option (FixupMapCb υ)}
    {g : LoaderGlobals}
    {u : υ}
    {s : σ}
    (hCallback : ∀ cb ∈ fixupMap, CallbackReturns handler cb)
    (hFresh : ∀ i, g.processedSec i = false)
    (hCnt : g.progCnt = 0)
    (hOk :
      ∀ call ∈ CallProg.trace handler
        (loadElf fixupMap obj.elf g u) s,
        LoadCall.Succeeds call) :
    ∃ calls loads g' u' s',
      CallProg.Returns handler (loadElf fixupMap obj.elf g u)
        s (calls ++ loads) (0, g', u') s' ∧
      LoadedObject obj handler fixupMap calls loads g' ∧
      g'.kernVersion = g.kernVersion := by
  rcases obj.scan_eq g with ⟨_, _, _, _, _, _, hBefore⟩
  have hIs : ∀ i ∈ List.range obj.nrMaps, i < MAX_MAPS := by
    intro i hMem
    have hLe : obj.nrMaps ≤ MAX_MAPS := obj.tiled.syms_le
    rw [List.mem_range] at hMem
    omega
  have hInner :
      ∀ i ∈ List.range obj.nrMaps,
        ((obj.beforeMaps g).mapData
          i).mapDef.InnerInTable := by
    intro i hMem
    exact BpfObject.innerInTable hBefore.table i
      (List.mem_range.mp hMem)
  rw [obj.loadElf_eq fixupMap hFresh hCnt u] at hOk ⊢
  -- the maps
  rcases returns_loadMaps hCallback hIs List.nodup_range
    hInner (CallProg.forall_trace_of_bind hOk) with
    ⟨calls, g₁, u₁, s₁, hMapsRun, hLoaded⟩
  rcases (loadMaps_leaves fixupMap _ _ u).of_run
    hMapsRun.run_eq with ⟨hGiven, hAgrees⟩
  rw [hMapsRun.trace_bind] at hOk
  have hOk' :
      ∀ call ∈ CallProg.trace handler
        (loadXdpProgs (obj.programs g₁.mapData)
          (obj.afterRelocs g₁)) s₁,
        LoadCall.Succeeds call := by
    apply CallProg.forall_trace_of_bind
    intro call hMem
    exact hOk call (List.mem_append_right _ hMem)
  -- the relocations change neither maps nor descriptors
  have hKept :
      BpfObject.GivenKept g g₁ (obj.afterRelocs g₁) :=
    BpfObject.afterRelocs_kept hFresh hBefore hGiven
  have hMapData := hKept.mapData_eq
  have hMapFd := hKept.mapFd_eq
  -- the programs
  rcases returns_loadXdpProgs hOk' with
    ⟨fds, s₂, hLength, hProgsRun⟩
  rw [← hMapData] at hLength hProgsRun
  refine ⟨calls,
    List.zipWith (progLoad (obj.afterRelocs g₁))
      (obj.programs (obj.afterRelocs g₁).mapData) fds,
    (obj.afterRelocs g₁).addProgs fds, u₁, s₂,
    hMapsRun.bind ?_, ?_, ?_⟩
  · rw [← List.append_nil (List.zipWith _ _ _)]
    simp only [ne_eq, not_true_eq_false, if_false,
      ← hMapData]
    exact hProgsRun.bind (.ret _ _)
  · apply BpfObject.loadedObject_addProgs
    · rw [hMapData]
      exact hBefore.table.of_sameMap hGiven.same
    · intro i hLt
      rw [LoaderGlobals.FdAgrees, hMapData, hMapFd]
      exact hAgrees rfl i (Or.inl (List.mem_range.mpr hLt))
    · intro i hLt
      rw [hMapData, hMapFd]
      exact ⟨_, hGiven.same i,
        hLoaded.source i (List.mem_range.mpr hLt)⟩
    · exact hKept.progCnt_eq.trans hCnt
    · exact hLength
  · have hAdded := congrArg LoaderGlobals.kernVersion
      ((obj.afterRelocs g₁).addProgs_rest fds)
    exact hAdded.trans hKept.kernVersion_eq

/-
  A well-formed object is loaded, in whatever order its
  sections, symbols and relocations are: if the kernel
  creates the maps and takes the programs, the loader returns
  0 and has loaded the relocated programs in header order.
-/
theorem wellFormedObject_loads
    {υ σ : Type}
    (obj : BpfObject)
    (handler : CallProg.Handler LoadCall LoadCall.Resp σ)
    (path : CStr)
    (fixupMap : Option (FixupMapCb υ))
    (g : LoaderGlobals)
    (u : υ)
    (s : σ)
    (hCallback : ∀ cb ∈ fixupMap, CallbackReturns handler cb)
    (hCnt : g.progCnt = 0)
    (hOpen : (handler (.elfOpen path) s).1 = some obj.elf)
    (hOk :
      ∀ call ∈ CallProg.trace handler
        (doLoadBpfFile path fixupMap g u) s,
        LoadCall.Succeeds call) :
    ∃ calls loads g' u' s',
      CallProg.Returns handler
        (doLoadBpfFile path fixupMap g u) s
        (calls ++ loads) (0, g', u') s' ∧
      LoadedObject obj handler fixupMap calls loads g' ∧
      g'.kernVersion = 0 := by
  have hFresh : ∀ i, g.reset.processedSec i = false :=
    fun _ => rfl
  have hOpenRun := returns_elfOpen hOpen
  rw [doLoadBpfFile] at hOk ⊢
  rw [hOpenRun.trace_bind] at hOk
  rcases loadElf_loads hCallback hFresh hCnt
    (fun call hMem =>
      hOk call (List.mem_append_right _ hMem)) with
    ⟨calls, loads, g', u', s', hRun, hLoaded, hVersion⟩
  refine ⟨⟨.elfOpen path, some obj.elf⟩ :: calls, loads, g',
    u', s', hOpenRun.bind hRun, ?_, hVersion⟩
  exact hLoaded.mono (List.subset_cons_self _ _)

/- A kernel without errors: descriptors are counted up. -/
def countingHandler :
    CallProg.Handler LoadCall LoadCall.Resp ℕ
  | .elfOpen _, n => (some blacklistElf, n)
  | .createMapNode .., n => (n, n + 1)
  | .createMapInMapNode .., n => (n, n + 1)
  | .loadProgram .., n => (n, n + 1)
  | .mapUpdateElem .., n => (0, n)
  | .perfAttach .., n => (0, n)
  | .statfs _, n => (.error EINVAL, n)
  | .objGet _, n => (-1, n)
  | .objPin .., n => (0, n)
  | .setLinkXdpFd .., n => (0, n)
  | .unlink _, n => (0, n)
  | .chown .., n => (0, n)
  | .setrlimit, n => (0, n)
  | .testRules .., n => ((), n)

theorem countingHandler_succeeds
    (op : LoadCall)
    (n : ℕ) :
    LoadCall.Succeeds ⟨op, (countingHandler op n).1⟩ := by
  cases op with
  | createMapNode => exact Int.natCast_nonneg n
  | createMapInMapNode => exact Int.natCast_nonneg n
  | loadProgram => exact Int.natCast_nonneg n
  | _ => trivial

theorem wellFormedObject_loads_blacklist :
    ∃ calls loads g' u' s',
      CallProg.Returns countingHandler
        (doLoadBpfFile (υ := Unit) [] none .start ()) 3
        (calls ++ loads) (0, g', u') s' ∧
      LoadedObject (υ := Unit) blacklistObject
        countingHandler none calls loads g' ∧
      g'.kernVersion = 0 := by
  apply wellFormedObject_loads blacklistObject
    countingHandler [] none .start () 3
  · intro cb hMem
    cases hMem
  · rfl
  · rfl
  · exact CallProg.forall_trace countingHandler_succeeds _ _

end XdpDdos
