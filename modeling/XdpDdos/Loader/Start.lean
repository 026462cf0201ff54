import XdpDdos.Loader.LoadObject
import XdpDdos.Loader.Kernel

/-
  Loading the deployed object on the kernel: five maps, all
  of them used by one program, and the files they get.

  Main declarations:
    * `DeployedObject`, `DeployedObject.Uses`
    * `MapsReady`, `run_loadMaps`
    * `run_exportMaps`
    * `DeployedObject.run_loadKernObject`
-/

------------------------------------------------------------
-- The Deployed Object
------------------------------------------------------------

namespace XdpDdos

/- One program, which refers to each of the exported maps. -/
structure DeployedObject extends BpfObject where
  prog : ℕ
  nrMaps_eq : toBpfObject.nrMaps = NR_MAPS
  progSecs_eq : elf.progSecs = [prog]
  referenced :
    ∀ i < NR_MAPS, ∃ e ∈ toBpfObject.relocs prog,
      e.sym.stValue = MAP_DEF_SIZE * i

def blacklistDeployed : DeployedObject where
  toBpfObject := blacklistObject
  prog := 5
  nrMaps_eq := by decide +kernel
  progSecs_eq := by decide +kernel
  referenced := by decide +kernel

namespace DeployedObject

/- The program uses the object `m` as map `i`. -/
def Uses
    (obj : DeployedObject)
    (p : XdpProg)
    (i : ℕ)
    (m : MapObj) : Prop :=
  ∀ e ∈ obj.relocs obj.prog,
    e.sym.stValue = MAP_DEF_SIZE * i →
      p.mapAt e.insnIdx = some m

/- Each map file refers to the map that the program uses. -/
def Controls
    (obj : DeployedObject)
    (k : Kernel)
    (p : XdpProg) : Prop :=
  ∀ i < NR_MAPS, ∃ m,
    k.pins (exportFile i) = some m ∧ obj.Uses p i m

/- The globals when the loader is about to create maps. -/
def globals (obj : DeployedObject) : LoaderGlobals :=
  obj.beforeMaps LoaderGlobals.start.reset

/- The name under which the loader creates map `i`. -/
def mapName
    (obj : DeployedObject)
    (i : ℕ) : CStr :=
  (obj.globals.mapData i).name

theorem Uses.unique
    {obj : DeployedObject}
    {p : XdpProg}
    {i : ℕ}
    {m m' : MapObj}
    (hLt : i < NR_MAPS)
    (hUses : obj.Uses p i m)
    (hUses' : obj.Uses p i m') :
    m = m' := by
  rcases obj.referenced i hLt with ⟨e, hMem, hSym⟩
  have hMap := hUses e hMem hSym
  rw [hUses' e hMem hSym] at hMap
  exact (Option.some.inj hMap).symm

end DeployedObject

------------------------------------------------------------
-- Giving Descriptors to the Maps
------------------------------------------------------------

/- The map that a start takes over from the file of `i`. -/
def Kernel.held
    (k : Kernel)
    (faults : Faults)
    (i : ℕ) : Option MapObj :=
  if faults.objGet (exportFile i) then none
  else k.pins (exportFile i)

theorem Kernel.pins_of_held
    {k : Kernel}
    {faults : Faults}
    {i : ℕ}
    {m : MapObj}
    (hHeld : k.held faults i = some m) :
    k.pins (exportFile i) = some m := by
  unfold held at hHeld
  split at hHeld
  · cases hHeld
  · exact hHeld

/- Creating maps changes nothing that has a name. -/
structure Kernel.SameButMaps
    (k k' : Kernel) : Prop where
  pins_eq : k'.pins = k.pins
  attached_eq : k'.attached = k.attached
  nativeXdp_eq : k'.nativeXdp = k.nativeXdp
  nextMap_le : k.nextMap ≤ k'.nextMap

theorem Kernel.SameButMaps.refl
    (k : Kernel) :
    k.SameButMaps k where
  pins_eq := rfl
  attached_eq := rfl
  nativeXdp_eq := rfl
  nextMap_le := Nat.le_refl _

theorem Kernel.SameButMaps.addMap
    {k k' : Kernel}
    (hSame : k.SameButMaps k') :
    k.SameButMaps k'.addMap where
  pins_eq := hSame.pins_eq
  attached_eq := hSame.attached_eq
  nativeXdp_eq := hSame.nativeXdp_eq
  nextMap_le := Nat.le_succ_of_le hSame.nextMap_le

theorem Kernel.SameButMaps.held_eq
    {k k' : Kernel}
    (hSame : k.SameButMaps k')
    (faults : Faults)
    (i : ℕ) :
    k'.held faults i = k.held faults i := by
  rw [held, held, hSame.pins_eq]

/-
  The first `n` maps are `maps`: taken over from their files
  where possible, new and marked for export otherwise.
-/
structure MapsReady
    (faults : Faults)
    (k : Kernel)
    (n : ℕ)
    (maps : ℕ → MapObj)
    (g : LoaderGlobals)
    (marked : ExportMarks)
    (s : Process) : Prop where
  nextFd_eq : s.nextFd = 3 + n
  mapFd_eq : ∀ i < n, g.mapFd i = (3 + i : ℕ)
  fds_eq : ∀ i < n, s.fds (3 + i : ℕ) = some (.map (maps i))
  kernel : k.SameButMaps s.kernel
  maps_lt : ∀ i < n, maps i < s.kernel.nextMap
  held : ∀ i < n, ∀ m, k.held faults i = some m → maps i = m
  fresh : ∀ i < n, k.held faults i = none → k.nextMap ≤ maps i
  marked_eq :
    ∀ i, marked i = true ↔ i < n ∧ k.held faults i = none

theorem mapsReady_start
    (faults : Faults)
    (k : Kernel)
    (maps : ℕ → MapObj)
    (g : LoaderGlobals) :
    MapsReady faults k 0 maps g (fun _ => false)
      (.start k) where
  nextFd_eq := rfl
  mapFd_eq := fun _ hLt => absurd hLt (Nat.not_lt_zero _)
  fds_eq := fun _ hLt => absurd hLt (Nat.not_lt_zero _)
  kernel := .refl k
  maps_lt := fun _ hLt => absurd hLt (Nat.not_lt_zero _)
  held := fun _ hLt => absurd hLt (Nat.not_lt_zero _)
  fresh := fun _ hLt => absurd hLt (Nat.not_lt_zero _)
  marked_eq := by
    intro i
    simp

section

variable {faults : Faults}
variable {k : Kernel}
variable {n : ℕ}
variable {maps : ℕ → MapObj}
variable {g g' : LoaderGlobals}
variable {marked : ExportMarks}
variable {s : Process}

theorem MapsReady.nextFd_pos
    (hReady : MapsReady faults k n maps g marked s) :
    0 < s.nextFd := by
  rw [hReady.nextFd_eq]
  omega

/- The next map got a descriptor, for the object `m`. -/
theorem MapsReady.next
    (hReady : MapsReady faults k n maps g marked s)
    (hGave : GaveFd n (s.nextFd : ℤ) g g')
    {m : MapObj}
    {k' : Kernel}
    {marked' : ExportMarks}
    (hKernel : k.SameButMaps k')
    (hNext : s.kernel.nextMap ≤ k'.nextMap)
    (hExists : m < k'.nextMap)
    (hHeld : ∀ m', k.held faults n = some m' → m = m')
    (hFresh : k.held faults n = none → k.nextMap ≤ m)
    (hMarked :
      ∀ i, marked' i = true ↔
        marked i = true ∨ i = n ∧ k.held faults n = none) :
    MapsReady faults k (n + 1) (Function.update maps n m) g'
      marked'
      (Process.openFd { s with kernel := k' } (.map m)).2 := by
  have hNextFd := hReady.nextFd_eq
  refine
    { nextFd_eq := ?_
      mapFd_eq := ?_
      fds_eq := ?_
      kernel := hKernel
      maps_lt := ?_
      held := ?_
      fresh := ?_
      marked_eq := ?_ }
  · simp only [Process.openFd]
    omega
  · intro i hLt
    by_cases hEq : i = n
    · rw [hEq, hGave.mapFd_self, hNextFd]
    · rw [hGave.mapFd_of_ne i hEq]
      exact hReady.mapFd_eq i (by omega)
  · intro i hLt
    simp only [Process.openFd, hNextFd]
    by_cases hEq : i = n
    · rw [hEq, Function.update_self, Function.update_self]
    · have hNe : ((3 + i : ℕ) : ℤ) ≠ (3 + n : ℕ) := by
        omega
      rw [Function.update_of_ne hNe, Function.update_of_ne hEq]
      exact hReady.fds_eq i (by omega)
  · intro i hLt
    simp only [Process.openFd]
    by_cases hEq : i = n
    · rw [hEq, Function.update_self]
      exact hExists
    · rw [Function.update_of_ne hEq]
      exact Nat.lt_of_lt_of_le
        (hReady.maps_lt i (by omega)) hNext
  · intro i hLt m' hSome
    by_cases hEq : i = n
    · rw [hEq, Function.update_self]
      exact hHeld m' (hEq ▸ hSome)
    · rw [Function.update_of_ne hEq]
      exact hReady.held i (by omega) m' hSome
  · intro i hLt hNone
    by_cases hEq : i = n
    · rw [hEq, Function.update_self]
      exact hFresh (hEq ▸ hNone)
    · rw [Function.update_of_ne hEq]
      exact hReady.fresh i (by omega) hNone
  · intro i
    rw [hMarked i, hReady.marked_eq i]
    constructor
    · rintro (⟨hLt, hNone⟩ | ⟨rfl, hNone⟩)
      · exact ⟨by omega, hNone⟩
      · exact ⟨by omega, hNone⟩
    · rintro ⟨hLt, hNone⟩
      by_cases hEq : i = n
      · exact Or.inr ⟨hEq, hEq ▸ hNone⟩
      · exact Or.inl ⟨by omega, hNone⟩

/- A held map is taken over. -/
theorem MapsReady.takeOver
    (hReady : MapsReady faults k n maps g marked s)
    {m : MapObj}
    (hHeld : k.held faults n = some m) :
    MapsReady faults k (n + 1) (Function.update maps n m)
      (g.giveFd n s.nextFd) marked (s.openFd (.map m)).2 := by
  have hExists : m < s.kernel.nextMap :=
    Nat.lt_of_lt_of_le
      (k.pins_lt (Kernel.pins_of_held hHeld))
      hReady.kernel.nextMap_le
  refine hReady.next (gaveFd_giveFd n (s.nextFd : ℤ) g)
    hReady.kernel (Nat.le_refl _) hExists ?_ ?_ ?_
  · intro m' hSome
    rw [hHeld] at hSome
    exact Option.some.inj hSome
  · intro hNone
    rw [hHeld] at hNone
    cases hNone
  · intro i
    simp [hHeld]

/- A map that is not held is created, and marked. -/
theorem MapsReady.create
    (hReady : MapsReady faults k n maps g marked s)
    (hHeld : k.held faults n = none) :
    MapsReady faults k (n + 1)
      (Function.update maps n s.kernel.nextMap)
      (g.giveNewFd n s.nextFd) (Function.update marked n true)
      (Process.openFd { s with kernel := s.kernel.addMap }
        (.map s.kernel.nextMap)).2 := by
  refine hReady.next (gaveFd_giveNewFd n (s.nextFd : ℤ) g)
    hReady.kernel.addMap (Nat.le_succ _) (Nat.lt_succ_self _)
    ?_ (fun _ => hReady.kernel.nextMap_le) ?_
  · intro m' hSome
    rw [hHeld] at hSome
    cases hSome
  · intro i
    by_cases hEq : i = n
    · simp [hEq, hHeld]
    · simp [hEq]

------------------------------------------------------------
-- The Loop Over the Maps
------------------------------------------------------------

variable {elf : Elf}

theorem exportFile_eq
    {i : ℕ}
    (hLt : i < NR_MAPS) :
    mapIdxToExportFilename i = some (exportFile i) := by
  match i, hLt with
  | 0, _ => rfl
  | 1, _ => rfl
  | 2, _ => rfl
  | 3, _ => rfl
  | 4, _ => rfl

theorem objGet_exportFile
    (faults : Faults)
    (i : ℕ)
    (s : Process) :
    Kernel.objGet faults (exportFile i) s =
      match s.kernel.held faults i with
      | some m => s.openFd (.map m)
      | none => (-1, s) := by
  rw [Kernel.objGet, Kernel.held]
  by_cases hFault : faults.objGet (exportFile i) = true
  · rw [if_pos hFault, if_pos hFault]
  · rw [if_neg hFault, if_neg hFault]
    cases s.kernel.pins (exportFile i) with
    | none => rfl
    | some m => rfl

/- On the mounted file system a held map is opened. -/
theorem run_loadMapFile
    (elf : Elf)
    (faults : Faults)
    (i : ℕ)
    (hFd : 0 < s.nextFd) :
    CallProg.run (Kernel.handle elf faults)
        (loadMapFile (some (exportFile i))) s =
      match s.kernel.held faults i with
      | some m =>
          (.returned (s.nextFd : ℤ), (s.openFd (.map m)).2)
      | none => (.returned (-1), s) := by
  have hChecked :
      CallProg.run (Kernel.handle elf faults)
          (bpfFsCheckPath (some (exportFile i))) s =
        (.returned 0, s) := rfl
  have hGet := objGet_exportFile faults i s
  rw [loadMapFile, CallProg.run_bind_of_returned hChecked,
    if_neg (Int.lt_irrefl 0)]
  cases hHeld : s.kernel.held faults i with
  | none =>
      have hRefused : ¬ ((-1 : ℤ) > 0) := by decide
      rw [hHeld] at hGet
      apply (CallProg.run_call'_of_answer
        (Kernel.handle elf faults) (.objGet (exportFile i))
        hGet _).trans
      rw [if_neg hRefused]
      rfl
  | some m =>
      have hOpened : ((s.nextFd : ℕ) : ℤ) > 0 := by omega
      rw [hHeld] at hGet
      apply (CallProg.run_call'_of_answer
        (Kernel.handle elf faults) (.objGet (exportFile i))
        hGet _).trans
      rw [if_pos hOpened]
      rfl

/- The callback takes over a held map, or marks its index. -/
theorem run_preLoadMapsViaFs
    (elf : Elf)
    (faults : Faults)
    (map : BpfMapData)
    {i : ℕ}
    (hLt : i < NR_MAPS)
    (marked : ExportMarks)
    (hFd : 0 < s.nextFd) :
    CallProg.run (Kernel.handle elf faults)
        (preLoadMapsViaFs map i marked) s =
      match s.kernel.held faults i with
      | some m =>
          (.returned ((s.nextFd : ℤ), marked),
            (s.openFd (.map m)).2)
      | none =>
          (.returned (map.fd, Function.update marked i true),
            s) := by
  have hOpened : ((s.nextFd : ℕ) : ℤ) > 0 := by omega
  have hFile := run_loadMapFile elf faults i hFd
  rw [preLoadMapsViaFs, exportFile_eq hLt,
    CallProg.run_bind, hFile]
  cases s.kernel.held faults i with
  | none => rfl
  | some m =>
      simp only [hOpened, if_true]
      rfl

/- One call creates the map of an entry. -/
theorem run_createMap
    (elf : Elf)
    (faults : Faults)
    {map : BpfMapData}
    (mapFd : ℕ → ℤ)
    (hInner : map.mapDef.InnerInTable)
    (s : Process) :
    CallProg.run (Kernel.handle elf faults)
        (createMap map mapFd) s =
      (.returned (Kernel.createMap faults map.name s).1,
        (Kernel.createMap faults map.name s).2) := by
  by_cases hOfMaps :
      map.mapDef.type = BPF_MAP_TYPE_ARRAY_OF_MAPS ∨
        map.mapDef.type = BPF_MAP_TYPE_HASH_OF_MAPS
  · rw [createMap, if_pos hOfMaps, if_pos (hInner hOfMaps)]
    rfl
  · rw [createMap, if_neg hOfMaps]
    rfl

/- What the loop needs to know of the maps still to come. -/
structure MapsPending
    (names : ℕ → CStr)
    (n : ℕ)
    (g : LoaderGlobals) : Prop where
  noFd :
    ∀ i, n ≤ i → i < NR_MAPS → (g.mapData i).fd = -1
  name_eq :
    ∀ i, n ≤ i → i < NR_MAPS → (g.mapData i).name = names i
  inner_ok :
    ∀ i, n ≤ i → i < NR_MAPS →
      (g.mapData i).mapDef.InnerInTable

theorem MapsPending.next
    {names : ℕ → CStr}
    {fd : ℤ}
    (hPending : MapsPending names n g)
    (hGave : GaveFd n fd g g') :
    MapsPending names (n + 1) g' := by
  have hSame
      (i : ℕ)
      (hLe : n + 1 ≤ i) :
      g'.mapData i = g.mapData i :=
    hGave.mapData_of_ne i (by omega)
  refine ⟨?_, ?_, ?_⟩
  · intro i hLe hLt
    rw [hSame i hLe]
    exact hPending.noFd i (by omega) hLt
  · intro i hLe hLt
    rw [hSame i hLe]
    exact hPending.name_eq i (by omega) hLt
  · intro i hLe hLt
    rw [hSame i hLe]
    exact hPending.inner_ok i (by omega) hLt

/- Map `i` is held, or can be created. -/
def Provided
    (faults : Faults)
    (k : Kernel)
    (names : ℕ → CStr)
    (i : ℕ) : Prop :=
  (k.held faults i).isSome ∨
    faults.createMap (names i) = false

/- How the loop over the maps from `n` on ends. -/
inductive MapsOutcome
    (elf : Elf)
    (faults : Faults)
    (k : Kernel)
    (names : ℕ → CStr)
    (n : ℕ)
    (p : LoadProg (ℕ × LoaderGlobals × ExportMarks))
    (s : Process) : Prop where
  | ready
      {g' : LoaderGlobals}
      {marked' : ExportMarks}
      {maps' : ℕ → MapObj}
      {s' : Process}
      (hRun :
        CallProg.run (Kernel.handle elf faults) p s =
          (.returned (0, g', marked'), s'))
      (hReady :
        MapsReady faults k NR_MAPS maps' g' marked' s')
      (hProvided :
        ∀ i, n ≤ i → i < NR_MAPS → Provided faults k names i)
  | failed
      {s' : Process}
      {i : ℕ}
      (hRun :
        ∃ r, r.1 = 1 ∧
          CallProg.run (Kernel.handle elf faults) p s =
            (.returned r, s'))
      (hKernel : k.SameButMaps s'.kernel)
      (hLe : n ≤ i)
      (hLt : i < NR_MAPS)
      (hMissing : ¬ Provided faults k names i)

/- A round that succeeds leaves the outcome to the rest. -/
theorem MapsOutcome.of_rest
    {names : ℕ → CStr}
    {p p' : LoadProg (ℕ × LoaderGlobals × ExportMarks)}
    {s' : Process}
    (hRest : MapsOutcome elf faults k names (n + 1) p' s')
    (hStep :
      CallProg.run (Kernel.handle elf faults) p s =
        CallProg.run (Kernel.handle elf faults) p' s')
    (hProvided : Provided faults k names n) :
    MapsOutcome elf faults k names n p s := by
  cases hRest with
  | ready hRun hReady hLater =>
      refine .ready (hStep.trans hRun) hReady ?_
      intro i hLe hLt
      by_cases hEq : i = n
      · exact hEq ▸ hProvided
      · exact hLater i (by omega) hLt
  | failed hRun hKernel hLe hLt hMissing =>
      rcases hRun with ⟨r, hRet, hRun⟩
      exact .failed ⟨r, hRet, hStep.trans hRun⟩ hKernel
        (by omega) hLt hMissing

/- A round for a held map. -/
theorem run_loadMaps_held
    (elf : Elf)
    (hReady : MapsReady faults k n maps g marked s)
    (hLt : n < NR_MAPS)
    {m : MapObj}
    (hHeld : k.held faults n = some m)
    (is : List ℕ) :
    CallProg.run (Kernel.handle elf faults)
        (loadMaps (some preLoadMapsViaFs) (n :: is) g marked)
        s =
      CallProg.run (Kernel.handle elf faults)
        (loadMaps (some preLoadMapsViaFs) is
          (g.giveFd n s.nextFd) marked)
        (s.openFd (.map m)).2 := by
  have hCallback :=
    run_preLoadMapsViaFs elf faults (g.mapData n) hLt marked
      hReady.nextFd_pos
  rw [hReady.kernel.held_eq, hHeld] at hCallback
  have hAssigned : ((s.nextFd : ℕ) : ℤ) ≠ -1 := by omega
  rw [loadMaps_cons _ (Nat.lt_trans hLt (by decide))]
  apply (CallProg.run_bind_of_returned hCallback _).trans
  rw [if_pos ⟨rfl, hAssigned⟩]

/- A round for a map that has to be created. -/
theorem run_loadMaps_new
    (elf : Elf)
    {names : ℕ → CStr}
    (hReady : MapsReady faults k n maps g marked s)
    (hPending : MapsPending names n g)
    (hLt : n < NR_MAPS)
    (hHeld : k.held faults n = none)
    (is : List ℕ) :
    CallProg.run (Kernel.handle elf faults)
        (loadMaps (some preLoadMapsViaFs) (n :: is) g marked)
        s =
      if faults.createMap (names n) then
        (.returned (1,
          (g.setMapData n
            { g.mapData n with
              fd := (g.mapData n).fd }).setMapFd n (-1),
          Function.update marked n true), s)
      else
        CallProg.run (Kernel.handle elf faults)
          (loadMaps (some preLoadMapsViaFs) is
            (g.giveNewFd n s.nextFd)
            (Function.update marked n true))
          (Process.openFd { s with kernel := s.kernel.addMap }
            (.map s.kernel.nextMap)).2 := by
  have hCallback :=
    run_preLoadMapsViaFs elf faults (g.mapData n) hLt marked
      hReady.nextFd_pos
  rw [hReady.kernel.held_eq, hHeld] at hCallback
  have hUnassigned :
      ¬ ((some preLoadMapsViaFs).isSome = true ∧
        (g.mapData n).fd ≠ -1) := by
    rw [hPending.noFd n (Nat.le_refl n) hLt]
    simp
  have hCreate :=
    run_createMap elf faults g.mapFd
      (hPending.inner_ok n (Nat.le_refl n) hLt) s
  rw [hPending.name_eq n (Nat.le_refl n) hLt,
    Kernel.createMap] at hCreate
  rw [loadMaps_cons _ (Nat.lt_trans hLt (by decide))]
  apply (CallProg.run_bind_of_returned hCallback _).trans
  rw [if_neg hUnassigned]
  by_cases hFault : faults.createMap (names n) = true
  · rw [if_pos hFault] at hCreate ⊢
    exact CallProg.run_bind_of_returned hCreate _
  · rw [if_neg hFault] at hCreate ⊢
    have hFd : ¬ ((s.nextFd : ℕ) : ℤ) < 0 := by omega
    apply (CallProg.run_bind_of_returned hCreate _).trans
    simp only [Process.openFd, hFd, if_false]

/- The loop takes over the held maps and creates the rest. -/
theorem run_loadMaps
    (elf : Elf)
    {names : ℕ → CStr}
    (r : ℕ)
    (hCount : n + r = NR_MAPS)
    (hReady : MapsReady faults k n maps g marked s)
    (hPending : MapsPending names n g) :
    MapsOutcome elf faults k names n
      (loadMaps (some preLoadMapsViaFs) (List.range' n r) g
        marked) s := by
  induction r generalizing n maps g marked s with
  | zero =>
      have hAll : n = NR_MAPS := hCount
      subst hAll
      refine .ready rfl hReady ?_
      intro i hLe hLt
      omega
  | succ r ih =>
      have hLt : n < NR_MAPS := by omega
      rw [List.range'_succ]
      cases hHeld : k.held faults n with
      | some m =>
          have hRest :=
            ih (by omega) (hReady.takeOver hHeld)
              (hPending.next (gaveFd_giveFd n _ g))
          apply hRest.of_rest
          · exact run_loadMaps_held elf hReady hLt hHeld _
          · exact Or.inl (by rw [hHeld]; rfl)
      | none =>
          have hRound :=
            run_loadMaps_new elf hReady hPending hLt hHeld
              (List.range' (n + 1) r)
          by_cases hFault : faults.createMap (names n) = true
          · rw [if_pos hFault] at hRound
            have hMissing : ¬ Provided faults k names n := by
              rw [Provided, hHeld, hFault]
              simp
            exact .failed ⟨_, rfl, hRound⟩ hReady.kernel
              (Nat.le_refl n) hLt hMissing
          · rw [if_neg hFault] at hRound
            have hRest :=
              ih (by omega) (hReady.create hHeld)
                (hPending.next (gaveFd_giveNewFd n _ g))
            apply hRest.of_rest hRound
            exact Or.inr (by simpa using hFault)

------------------------------------------------------------
-- Loading the Program
------------------------------------------------------------

/- A load of a descriptor is resolved when it is loaded. -/
theorem mapAt_loadInsns
    {insns : ByteSeq}
    {insnsCnt idx : ℕ}
    {insn : BpfInsn}
    {fd : ℕ}
    {m : MapObj}
    (hInsn : insnAt insns idx = insn.withMapFd (fd : ℤ))
    (hCode : insn.code = LD_IMM64)
    (hLt : idx < insnsCnt)
    (hInt : fd < 2 ^ 31)
    (hFd : s.fds (fd : ℤ) = some (.map m)) :
    (s.loadInsns insns insnsCnt).mapAt idx = some m := by
  have hImm : (BitVec.ofInt 32 (fd : ℤ)).toInt = fd := by
    rw [BitVec.ofInt_natCast]
    exact cInt_of_lt hInt
  simp only [Process.loadInsns, hLt, if_true,
    Process.resolveMap, hInsn, BpfInsn.withMapFd, hCode,
    and_self, hImm, hFd]

/- The program that is loaded uses the maps. -/
theorem uses_loadInsns
    (obj : DeployedObject)
    (hTable : obj.HasTable g.mapData)
    (hAgrees : ∀ i < obj.nrMaps, g.FdAgrees i)
    (hReady : MapsReady faults k NR_MAPS maps g marked s)
    {i : ℕ}
    (hLt : i < NR_MAPS) :
    obj.Uses
      (s.loadInsns (obj.program g.mapData obj.prog).dBuf
        (insnsCount (obj.program g.mapData obj.prog).dSize))
      i (maps i) := by
  have hProgSec : obj.prog ∈ obj.elf.progSecs := by
    rw [obj.progSecs_eq]
    exact List.mem_singleton.mpr rfl
  rcases BpfObject.isCode_of_mem_progSecs hProgSec with
    ⟨prog, hProg, hCode⟩
  have hRelocated :=
    BpfObject.isRelocated_patchAll hTable hAgrees hProg hCode
  rcases obj.code_whole hProg hCode with ⟨hSize, _, hInt⟩
  rw [BpfObject.program_eq _ hProg hCode]
  simp only [insnsCount_of_lt hInt]
  intro e hMem hSym
  rcases BpfObject.valid_of_mem_relocs hTable hProg hCode hMem
    with ⟨_, hValid⟩
  rcases hRelocated.relocated e hMem with
    ⟨j, hIdx, hMap, hInsn⟩
  have hIndex : j = i := by
    have hOffset := hTable.elfOffset_eq hIdx
    rw [hMap.elfOffset_eq, hSym] at hOffset
    simp only [MAP_DEF_SIZE] at hOffset
    omega
  subst hIndex
  rw [hReady.mapFd_eq j hLt] at hInsn
  apply mapAt_loadInsns hInsn hValid.code_eq
  · have hHas := hValid.hasInsn
    simp only [HasInsn, INSN_SIZE] at hHas
    simp only [INSN_SIZE]
    omega
  · simp only [NR_MAPS] at hLt
    omega
  · exact hReady.fds_eq j hLt

------------------------------------------------------------
-- Exporting the Maps
------------------------------------------------------------

theorem exportFile_inj
    {i j : ℕ}
    (hI : i < NR_MAPS)
    (hJ : j < NR_MAPS)
    (hEq : exportFile i = exportFile j) :
    i = j := by
  have hAll :
      ∀ i < NR_MAPS, ∀ j < NR_MAPS,
        exportFile i = exportFile j → i = j := by
    decide
  exact hAll i hI j hJ hEq

/- A new map can be given the name of its file. -/
def Exportable
    (faults : Faults)
    (k : Kernel)
    (i : ℕ) : Prop :=
  k.pins (exportFile i) = none ∧
    faults.objPin (exportFile i) = false

instance
    (faults : Faults)
    (k : Kernel)
    (i : ℕ) :
    Decidable (Exportable faults k i) := by
  unfold Exportable
  infer_instance

/- What exporting the maps `is` leaves. -/
structure Exported
    (faults : Faults)
    (marked : ExportMarks)
    (maps : ℕ → MapObj)
    (is : List ℕ)
    (s s' : Process) : Prop where
  fds_eq : s'.fds = s.fds
  attached_eq : s'.kernel.attached = s.kernel.attached
  nativeXdp_eq : s'.kernel.nativeXdp = s.kernel.nativeXdp
  nextMap_eq : s'.kernel.nextMap = s.kernel.nextMap
  pins_of_notMem :
    ∀ path, (∀ i ∈ is, path ≠ exportFile i) →
      s'.kernel.pins path = s.kernel.pins path
  pins_of_mem :
    ∀ i ∈ is,
      s'.kernel.pins (exportFile i) =
        if marked i = true ∧ Exportable faults s.kernel i then
          some (maps i)
        else s.kernel.pins (exportFile i)

theorem Exported.nil
    (faults : Faults)
    (marked : ExportMarks)
    (maps : ℕ → MapObj)
    (s : Process) :
    Exported faults marked maps [] s s where
  fds_eq := rfl
  attached_eq := rfl
  nativeXdp_eq := rfl
  nextMap_eq := rfl
  pins_of_notMem := fun _ _ => rfl
  pins_of_mem := fun _ hMem => absurd hMem List.not_mem_nil

/- Naming one map leaves the other files alone. -/
theorem Exported.cons
    {i : ℕ}
    {is : List ℕ}
    {s₁ s' : Process}
    (hIs : ∀ j ∈ i :: is, j < NR_MAPS)
    (hNodup : (i :: is).Nodup)
    (hFirst : Exported faults marked maps [i] s s₁)
    (hRest : Exported faults marked maps is s₁ s') :
    Exported faults marked maps (i :: is) s s' := by
  rcases List.nodup_cons.mp hNodup with ⟨hFresh, _⟩
  have hOther
      (j : ℕ)
      (hMem : j ∈ is) :
      exportFile j ≠ exportFile i := by
    intro hEq
    have hSame := exportFile_inj
      (hIs j (List.mem_cons_of_mem i hMem))
      (hIs i List.mem_cons_self) hEq
    exact hFresh (hSame ▸ hMem)
  refine
    { fds_eq := hRest.fds_eq.trans hFirst.fds_eq
      attached_eq := hRest.attached_eq.trans hFirst.attached_eq
      nativeXdp_eq :=
        hRest.nativeXdp_eq.trans hFirst.nativeXdp_eq
      nextMap_eq := hRest.nextMap_eq.trans hFirst.nextMap_eq
      pins_of_notMem := ?_
      pins_of_mem := ?_ }
  · intro path hNone
    rw [hRest.pins_of_notMem path (fun j hMem =>
        hNone j (List.mem_cons_of_mem i hMem)),
      hFirst.pins_of_notMem path]
    intro j hMem
    rw [List.mem_singleton.mp hMem]
    exact hNone i List.mem_cons_self
  · intro j hMem
    rcases List.mem_cons.mp hMem with rfl | hTail
    · rw [hRest.pins_of_notMem _ (fun j' hMem' =>
          (hOther j' hMem').symm)]
      exact hFirst.pins_of_mem j (List.mem_singleton.mpr rfl)
    · have hSame :
          s₁.kernel.pins (exportFile j) =
            s.kernel.pins (exportFile j) := by
        apply hFirst.pins_of_notMem
        intro i' hMem'
        rw [List.mem_singleton.mp hMem']
        exact hOther j hTail
      have hExport :
          Exportable faults s₁.kernel j ↔
            Exportable faults s.kernel j := by
        rw [Exportable, hSame, Exportable]
      rw [hRest.pins_of_mem j hTail, hSame]
      simp only [hExport]

/- Pinning one map, marked for it, under its name. -/
theorem exported_objPin
    (faults : Faults)
    {i : ℕ}
    {fd : ℤ}
    (hMark : marked i = true)
    (hFd : s.fds fd = some (.map (maps i)))
    (hExists : maps i < s.kernel.nextMap) :
    Exported faults marked maps [i] s
      (Kernel.objPin faults fd (exportFile i) s).2 := by
  by_cases hExport : Exportable faults s.kernel i
  · rcases Kernel.pin_of_lt hExists (exportFile i) with
      ⟨hPins, hAttached, hNative, hNext⟩
    have hPinned :
        (Kernel.objPin faults fd (exportFile i) s).2 =
          { s with
            kernel := s.kernel.pin (exportFile i) (maps i) } := by
      simp only [Kernel.objPin, hExport.1, hExport.2, hFd,
        Bool.false_eq_true, if_false]
    rw [hPinned]
    refine ⟨rfl, hAttached, hNative, hNext, ?_, ?_⟩
    · intro path hNone
      simp only [hPins]
      exact Function.update_of_ne
        (hNone i (List.mem_singleton.mpr rfl)) _ _
    · intro j hMem
      rw [List.mem_singleton.mp hMem, if_pos ⟨hMark, hExport⟩]
      simp only [hPins, Function.update_self]
  · have hKept :
        (Kernel.objPin faults fd (exportFile i) s).2 = s := by
      rw [Kernel.objPin]
      by_cases hFault : faults.objPin (exportFile i) = true
      · rw [if_pos hFault]
      · rw [if_neg hFault, hFd]
        cases hPin : s.kernel.pins (exportFile i) with
        | none =>
            exact absurd ⟨hPin, by simpa using hFault⟩ hExport
        | some m => rfl
    rw [hKept]
    refine ⟨rfl, rfl, rfl, rfl, fun _ _ => rfl, ?_⟩
    intro j hMem
    rw [List.mem_singleton.mp hMem, if_neg]
    exact fun hBoth => hExport hBoth.2

theorem run_exportMapIdx
    (elf : Elf)
    (faults : Faults)
    (mapFd : ℕ → ℤ)
    (i : ℕ)
    (s : Process) :
    ∃ ret,
      CallProg.run (Kernel.handle elf faults)
          (exportMapIdx mapFd i) s =
        (.returned ret,
          (Kernel.objPin faults (mapFd i)
            (exportFile i) s).2) := by
  rw [exportMapIdx, CallProg.call'_bind, CallProg.run_call]
  split
  · exact ⟨EXIT_FAIL_MAP, rfl⟩
  · exact ⟨0, rfl⟩

/- All marked maps are exported; errors end nothing. -/
theorem run_exportMaps
    (elf : Elf)
    (faults : Faults)
    (marked : ExportMarks)
    {mapFd : ℕ → ℤ}
    {is : List ℕ}
    (hIs : ∀ i ∈ is, i < NR_MAPS)
    (hNodup : is.Nodup)
    (hMaps :
      ∀ i ∈ is, s.fds (mapFd i) = some (.map (maps i)) ∧
        maps i < s.kernel.nextMap) :
    ∃ s',
      CallProg.run (Kernel.handle elf faults)
          (exportMaps mapFd marked is) s =
        (.returned (), s') ∧
      Exported faults marked maps is s s' := by
  induction is generalizing s with
  | nil => exact ⟨s, rfl, .nil faults marked maps s⟩
  | cons i is ih =>
      have hTail :
          ∀ j ∈ is, j ∈ i :: is :=
        fun j => List.mem_cons_of_mem i
      rcases hMaps i List.mem_cons_self with ⟨hFd, hExists⟩
      cases hMark : marked i with
      | false =>
          have hFirst : Exported faults marked maps [i] s s := by
            refine ⟨rfl, rfl, rfl, rfl, fun _ _ => rfl, ?_⟩
            intro j hMem
            rw [List.mem_singleton.mp hMem, hMark, if_neg]
            rintro ⟨hTrue, _⟩
            cases hTrue
          rcases ih (fun j hMem => hIs j (hTail j hMem))
            hNodup.of_cons
            (fun j hMem => hMaps j (hTail j hMem)) with
            ⟨s', hRun, hRest⟩
          refine ⟨s', ?_, hFirst.cons hIs hNodup hRest⟩
          rw [exportMaps, hMark]
          exact hRun
      | true =>
          have hFirst :=
            exported_objPin faults hMark hFd hExists
          rcases ih (s := (Kernel.objPin faults (mapFd i)
              (exportFile i) s).2)
            (fun j hMem => hIs j (hTail j hMem))
            hNodup.of_cons
            (fun j hMem => by
              rw [hFirst.fds_eq, hFirst.nextMap_eq]
              exact hMaps j (hTail j hMem)) with
            ⟨s', hRun, hRest⟩
          refine ⟨s', ?_, hFirst.cons hIs hNodup hRest⟩
          rw [exportMaps, hMark, if_pos rfl]
          rcases run_exportMapIdx elf faults mapFd i s with
            ⟨ret, hPin⟩
          exact (CallProg.run_bind_of_returned hPin _).trans
            hRun

end

------------------------------------------------------------
-- Loading the Object
------------------------------------------------------------

/- Nothing that loading the object needs fails. -/
structure Loads
    (obj : DeployedObject)
    (faults : Faults)
    (k : Kernel) : Prop where
  provided :
    ∀ i < NR_MAPS, Provided faults k obj.mapName i
  accepted : faults.loadProgram = false

/- The loader's call, in a process that was just started. -/
def loadKernObject :
    LoadProg (ℤ × LoaderGlobals × ExportMarks) :=
  doLoadBpfFile KERN_OBJECT (some preLoadMapsViaFs) .start
    (fun _ => false)

/- How loading the object ends. -/
inductive LoadOutcome
    (obj : DeployedObject)
    (faults : Faults)
    (k : Kernel) : Prop where
  | loaded
      {g₁ g : LoaderGlobals}
      {marked : ExportMarks}
      {maps : ℕ → MapObj}
      {p : XdpProg}
      {s₁ : Process}
      (hRun :
        CallProg.run (Kernel.handle obj.elf faults)
            loadKernObject (.start k) =
          (.returned (0, g, marked), (s₁.openFd (.prog p)).2))
      (hLoads : Loads obj faults k)
      (hReady : MapsReady faults k NR_MAPS maps g₁ marked s₁)
      (hMapFd : g.mapFd = g₁.mapFd)
      (hProgFd : g.progFd 0 = s₁.nextFd)
      (hUses : ∀ i < NR_MAPS, obj.Uses p i (maps i))
  | failed
      {s' : Process}
      (hRun :
        ∃ r, r.1 ≠ 0 ∧
          CallProg.run (Kernel.handle obj.elf faults)
              loadKernObject (.start k) =
            (.returned r, s'))
      (hFails : ¬ Loads obj faults k)
      (hKernel : k.SameButMaps s'.kernel)

/- One program is loaded unless the kernel refuses it. -/
theorem run_loadXdpProgs_singleton
    (elf : Elf)
    (faults : Faults)
    (data : ElfData)
    (g : LoaderGlobals)
    (s : Process) :
    CallProg.run (Kernel.handle elf faults)
        (loadXdpProgs [data] g) s =
      if faults.loadProgram then (.returned (-1, g), s)
      else
        (.returned (0, g.addProg s.nextFd),
          (s.openFd (.prog (s.loadInsns data.dBuf
            (insnsCount data.dSize)))).2) := by
  rw [loadXdpProgs, CallProg.call'_bind, CallProg.run_call]
  by_cases hFault : faults.loadProgram = true
  · simp only [Kernel.handle, hFault, if_true]
    rfl
  · have hFd : ¬ ((s.nextFd : ℕ) : ℤ) < 0 := by omega
    simp only [Kernel.handle, hFault, Process.openFd]
    rw [if_neg Bool.false_ne_true, if_neg hFd]
    rfl

namespace DeployedObject

theorem programs_eq
    (obj : DeployedObject)
    (table : ℕ → BpfMapData) :
    obj.programs table = [obj.program table obj.prog] := by
  have hSecs := obj.progSecs_eq
  rw [Elf.progSecs] at hSecs
  rw [BpfObject.programs, BpfObject.programsIn, hSecs]
  rfl

/- What is known of the maps when the loop over them starts. -/
theorem mapsPending
    (obj : DeployedObject) :
    MapsPending obj.mapName 0 obj.globals := by
  rcases obj.scan_eq LoaderGlobals.start.reset with
    ⟨_, _, _, _, _, _, hBefore⟩
  refine ⟨?_, fun _ _ _ => rfl, ?_⟩
  · intro i _ hLt
    exact hBefore.noFds i (Nat.lt_trans hLt (by decide))
  · intro i _ hLt
    apply BpfObject.innerInTable hBefore.table i
    rw [obj.nrMaps_eq]
    exact hLt

/- What is known once all maps have a descriptor. -/
theorem maps_given
    (obj : DeployedObject)
    {g : LoaderGlobals}
    {marked : ExportMarks}
    {s : Process}
    (hRun :
      CallProg.run (Kernel.handle obj.elf faults)
          (loadMaps (some preLoadMapsViaFs)
            (List.range' 0 NR_MAPS) obj.globals
            (fun _ => false)) (.start k) =
        (.returned (0, g, marked), s)) :
    (obj.afterRelocs g).progCnt = 0 ∧
      (obj.afterRelocs g).mapFd = g.mapFd ∧
      obj.HasTable g.mapData ∧
      ∀ i < obj.nrMaps, g.FdAgrees i := by
  have hFresh :
      ∀ i, LoaderGlobals.start.reset.processedSec i = false :=
    fun _ => rfl
  rcases obj.scan_eq LoaderGlobals.start.reset with
    ⟨_, _, _, _, _, _, hBefore⟩
  rw [← globals] at hBefore
  rcases (loadMaps_leaves _ _ _ _).of_run hRun with
    ⟨hGiven, hAgrees⟩
  have hKept :=
    BpfObject.afterRelocs_kept hFresh hBefore hGiven
  refine ⟨hKept.progCnt_eq, hKept.mapFd_eq,
    hBefore.table.of_sameMap hGiven.same, ?_⟩
  intro i hLt
  rw [obj.nrMaps_eq] at hLt
  apply hAgrees rfl i
  rw [← List.range_eq_range']
  exact Or.inl (List.mem_range.mpr hLt)

/- The loader's call ends in one of the two ways. -/
theorem run_loadKernObject
    (obj : DeployedObject)
    (faults : Faults)
    (k : Kernel) :
    LoadOutcome obj faults k := by
  have hFresh :
      ∀ i, LoaderGlobals.start.reset.processedSec i = false :=
    fun _ => rfl
  have hPasses :
      CallProg.run (Kernel.handle obj.elf faults)
          loadKernObject (.start k) =
        CallProg.run (Kernel.handle obj.elf faults)
          (loadElf (some preLoadMapsViaFs) obj.elf
            LoaderGlobals.start.reset (fun _ => false))
          (.start k) := rfl
  rw [obj.loadElf_eq _ hFresh rfl, obj.nrMaps_eq,
    List.range_eq_range', ← globals] at hPasses
  have hMaps :=
    run_loadMaps obj.elf NR_MAPS (Nat.zero_add NR_MAPS)
      (mapsReady_start faults k (fun _ => 0) obj.globals)
      obj.mapsPending
  cases hMaps with
  | failed hRun hKernel hLe hLt hMissing =>
      rcases hRun with ⟨r, hRet, hRun⟩
      have hRet' : r.1 ≠ 0 := by
        rw [hRet]
        decide
      have hOne : (1 : ℤ) ≠ 0 := by decide
      refine .failed ⟨(1, r.2.1, r.2.2), hOne, ?_⟩ ?_ hKernel
      · rw [hPasses, CallProg.run_bind_of_returned hRun,
          if_pos hRet']
        rfl
      · intro hLoads
        exact hMissing (hLoads.provided _ hLt)
  | @ready g₁ marked maps s₁ hRun hReady hProvided =>
      rcases obj.maps_given hRun with
        ⟨hZero, hMapFd, hTable, hFds⟩
      have hProgs :=
        run_loadXdpProgs_singleton obj.elf faults
          (obj.program g₁.mapData obj.prog)
          (obj.afterRelocs g₁) s₁
      rw [CallProg.run_bind_of_returned hRun,
        if_neg (not_not_intro rfl), obj.programs_eq] at hPasses
      by_cases hFault : faults.loadProgram = true
      · rw [if_pos hFault] at hProgs
        have hNeg : (-1 : ℤ) ≠ 0 := by decide
        refine .failed ⟨(-1, _, _), hNeg, hPasses.trans
          (CallProg.run_bind_of_returned hProgs _)⟩ ?_
          hReady.kernel
        intro hLoads
        rw [hLoads.accepted] at hFault
        cases hFault
      · rw [if_neg hFault] at hProgs
        refine .loaded (hPasses.trans
          (CallProg.run_bind_of_returned hProgs _))
          ⟨fun i hLt => hProvided i (Nat.zero_le i) hLt, ?_⟩
          hReady hMapFd ?_ ?_
        · simpa using hFault
        · simp only [LoaderGlobals.addProg, hZero,
            Function.update_self]
        · intro i hLt
          exact uses_loadInsns obj hTable hFds hReady hLt

end DeployedObject

end XdpDdos
