import XdpDdos.Lib.Watched
import XdpDdos.Loader.LoadOutcome

/-
  The loader with the positions that it takes from the object
  file, each noted before it is used.

  Without the notes it is the loader as it is.

  Main declarations:
    * `Position`, `Position.InRange`
    * `Noted.doLoadBpfFile`
    * `forget_doLoadBpfFile`
-/

------------------------------------------------------------
-- Positions
------------------------------------------------------------

namespace XdpDdos

/-
  A position in a table or in a buffer: an index into
  `processed_sec`; the number of license bytes copied; an
  index into `prog_fd`; an instruction that is relocated, if
  its entry could be read, in a program of `count`; `size`
  bytes of a map definition at `offset`, in a section of
  `length` bytes; the map whose descriptor the map at index
  `i` is created with.
-/
inductive Position where
  | processedSec (i : ℕ)
  | license (size : ℕ)
  | progFd (i : ℕ)
  | insn (idx : Option ℕ) (count : ℕ)
  | mapDef (offset : ℕ) (size : ℤ) (length : ℕ)
  | innerMap (innerMapIdx i : ℕ)
  deriving Repr, DecidableEq

/- An inner map is in range if it is loaded already. -/
def Position.InRange : Position → Prop
  | .processedSec i => i < NR_PROCESSED_SEC
  | .license size => size ≤ LICENSE_SIZE
  | .progFd i => i < MAX_PROGS
  | .insn idx count => ∃ k ∈ idx, k < count
  | .mapDef offset size length =>
      size = 0 ∨ 0 ≤ size ∧ offset + size.toNat ≤ length
  | .innerMap innerMapIdx i => innerMapIdx < i

instance : DecidablePred Position.InRange := by
  intro pos
  cases pos with
  | insn idx count =>
      exact inferInstanceAs (Decidable (∃ k ∈ idx, k < count))
  | _ =>
      unfold Position.InRange
      infer_instance

abbrev NotedProg (α : Type) :=
  WatchedProg Position LoadCall LoadCall.Resp α

/- The number of instructions in a buffer. -/
def insnCount (insn : ByteSeq) : ℕ :=
  insn.length / INSN_SIZE

theorem hasInsn_iff
    {insn : ByteSeq}
    {idx : ℕ} :
    HasInsn insn idx ↔ idx < insnCount insn := by
  simp only [HasInsn, insnCount, INSN_SIZE]
  omega

/-
  The bytes that are compared with zero: those up to the
  first that is not.
-/
def bytesCompared
    (data : ElfData)
    (offset size : ℕ) : ℕ :=
  match ((data.dBuf.drop offset).take size).findIdx?
      (· ≠ 0) with
  | some k => k + 1
  | none => size

------------------------------------------------------------
-- The Loader, With Its Positions
------------------------------------------------------------

namespace Noted

open CallProg (note watch)

variable {υ : Type}

def setProcessed
    (g : LoaderGlobals)
    (i : ℕ) : NotedProg LoaderGlobals := do
  note (.processedSec i)
  .ofExcept (g.setProcessed i)

def isProcessed
    (g : LoaderGlobals)
    (i : ℕ) : NotedProg Bool := do
  note (.processedSec i)
  .ofExcept (g.isProcessed i)

def copyLicense
    (g : LoaderGlobals)
    (data : ElfData) : NotedProg LoaderGlobals := do
  note (.license data.dSize)
  .ofExcept (g.copyLicense data)

/- Look for license, version, maps and symbols; 1 is failure. -/
def scanSecs
    (elf : Elf) :
    List ℕ → Scan → NotedProg (ℕ × Scan)
  | [], sc => return (0, sc)
  | i :: is, sc =>
      match elf.getSec i with
      | none => scanSecs elf is sc
      | some sec =>
          if sec.shname = "license".toList then do
            let g ← setProcessed sc.globals i
            let g ← copyLicense g sec.data
            scanSecs elf is { sc with globals := g }
          else if sec.shname = "version".toList then do
            let g ← setProcessed sc.globals i
            if sec.data.dSize ≠ 4 then
              return (1, { sc with globals := g })
            else
              match sec.data.dBuf.load32 0 with
              | none => .halt (.crash .outOfRange)
              | some version =>
                  scanSecs elf is { sc with
                    globals := { g with
                      kernVersion := version } }
          else if sec.shname = "maps".toList then
            scanSecs elf is { sc with
              mapsShndx := some i
              globals := { sc.globals with
                mapData :=
                  clearMapFds sc.globals.mapData } }
          else if sec.shdr.shType = SHT_SYMTAB then
            scanSecs elf is { sc with
              symtab := some (sec.data, sec.shdr.shLink) }
          else scanSecs elf is sc

/- The definition at `offset`, and whether it is known. -/
def readMapDef
    (dataMaps : ElfData)
    (mapSzElf mapSzCopy : ℤ)
    (offset : ℕ) : NotedProg (BpfMapDef × Bool) := do
  note (.mapDef offset mapSzCopy dataMaps.dBuf.length)
  let mapDef ← .ofExcept (copyMapDef dataMaps offset mapSzCopy)
  if mapSzElf > MAP_DEF_SIZE then do
    let offset := offset + MAP_DEF_SIZE
    let size := mapSzElf.toNat - MAP_DEF_SIZE
    note (.mapDef offset (bytesCompared dataMaps offset size)
      dataMaps.dBuf.length)
    let valid ← .ofExcept (validateZero dataMaps offset size)
    return (mapDef, valid)
  else return (mapDef, true)

def fillMaps
    (elf : Elf)
    (strtabidx : ℕ)
    (dataMaps : ElfData)
    (mapSzElf mapSzCopy : ℤ)
    (nrMaps : ℕ) :
    List (GElfSym × ℕ) → (ℕ → BpfMapData) →
      NotedProg (ℤ × (ℕ → BpfMapData))
  | [], maps => return (nrMaps, maps)
  | (sym, i) :: rest, maps =>
      match elf.strptr strtabidx sym.stName with
      | none => .halt (.crash .nullPointer)
      | some mapName =>
          if i < MAX_MAPS then do
            let (mapDef, valid) ←
              readMapDef dataMaps mapSzElf mapSzCopy
                sym.stValue
            let maps := Function.update maps i
              { maps i with
                name := mapName
                elfOffset := sym.stValue
                mapDef := mapDef }
            if valid then
              fillMaps elf strtabidx dataMaps mapSzElf
                mapSzCopy nrMaps rest maps
            else return (-EFBIG, maps)
          else .halt (.crash .outOfRange)

/- `load_elf_maps_section`. -/
def loadElfMapsSection
    (maps : ℕ → BpfMapData)
    (mapsShndx : ℕ)
    (elf : Elf)
    (symbols : ElfData)
    (strtabidx : ℕ) :
    NotedProg (ℤ × (ℕ → BpfMapData)) :=
  match elf.scns[mapsShndx]?.bind ElfScn.data with
  | none => return (-EINVAL, maps)
  | some dataMaps => do
      let sym ←
        .ofExcept (mapSymbols symbols mapsShndx
          (List.range (symbols.dSize / SYM_SIZE)) [])
      let nrMaps := sym.length
      let sym := sym.mergeSort
        fun l r => decide (cmpSymbols l r ≤ 0)
      if nrMaps = 0 then .halt (.crash .divByZero)
      else
        let mapSzElf := cInt (dataMaps.dSize / nrMaps)
        let mapSzCopy := min mapSzElf MAP_DEF_SIZE
        fillMaps elf strtabidx dataMaps mapSzElf mapSzCopy
          nrMaps sym.zipIdx maps

/- The inner map, if the map at index `i` has one. -/
def noteInnerMap
    (mapDef : BpfMapDef)
    (i : ℕ) : NotedProg Unit :=
  if mapDef.type = BPF_MAP_TYPE_ARRAY_OF_MAPS ∨
      mapDef.type = BPF_MAP_TYPE_HASH_OF_MAPS then
    note (.innerMap mapDef.innerMapIdx i)
  else return ()

/- `load_maps`. -/
def loadMaps
    (fixupMap : Option (FixupMapCb υ)) :
    List ℕ → LoaderGlobals → υ →
      NotedProg (ℕ × LoaderGlobals × υ)
  | [], g, u => return (0, g, u)
  | i :: is, g, u => do
      if i ≥ MAX_MAPS then
        .halt (.crash .outOfRange)
      else
        let map := g.mapData i
        let (fd, u) ← watch (fixupMapFd fixupMap map i u)
        let map := { map with fd := fd }
        let g := g.setMapData i map
        if fixupMap.isSome ∧ fd ≠ -1 then
          loadMaps fixupMap is (g.setMapFd i fd) u
        else do
          noteInnerMap map.mapDef i
          let fd ← watch (createMap map g.mapFd)
          let g := g.setMapFd i fd
          if fd < 0 then
            return (1, g, u)
          else
            let g := g.setMapData i { map with fd := fd }
            let g :=
              if map.mapDef.type = BPF_MAP_TYPE_PROG_ARRAY then
                { g with progArrayFd := fd }
              else g
            loadMaps fixupMap is g u

/- The maps section: read definitions and create the maps. -/
def loadMapsOf
    (fixupMap : Option (FixupMapCb υ))
    (elf : Elf)
    (symtab : ElfData × ℕ)
    (mapsShndx : Option ℕ)
    (g : LoaderGlobals)
    (u : υ) :
    NotedProg (ℕ × ℕ × LoaderGlobals × υ) :=
  match mapsShndx with
  | none => return (0, 0, g, u)
  | some mapsShndx => do
      let (nrMaps, maps) ←
        loadElfMapsSection g.mapData mapsShndx elf symtab.1
          symtab.2
      let g := { g with mapData := maps }
      if nrMaps < 0 then
        return (1, 0, g, u)
      else do
        let (ret, g, u) ←
          loadMaps fixupMap (List.range nrMaps.toNat) g u
        if ret ≠ 0 then
          return (1, 0, g, u)
        else do
          let g ←
            setProcessed { g with
              mapDataCount := nrMaps.toNat } mapsShndx
          return (0, nrMaps.toNat, g, u)

/-
  Apply the entries of a relocation section.  If an entry
  cannot be read, the instruction is an arbitrary one.
-/
def applyRels
    (data symbols : ElfData)
    (maps : ℕ → BpfMapData)
    (nrMaps : ℕ) :
    List ℕ → ByteSeq → NotedProg (ℕ × ByteSeq)
  | [], insn => return (0, insn)
  | i :: is, insn =>
      match gelfGetrel data i with
      | none => do
          note (.insn none (insnCount insn))
          .halt (.crash .uninitialised)
      | some rel => do
          let insnIdx := rel.rOffset / INSN_SIZE % 2 ^ 32
          note (.insn (some insnIdx) (insnCount insn))
          if ¬ HasInsn insn insnIdx then
            .halt (.crash .outOfRange)
          else if (insnAt insn insnIdx).code ≠ LD_IMM64 then
            return (1, insn)
          else
            let insn :=
              setSrcReg insn insnIdx BPF_PSEUDO_MAP_FD
            match matchMap maps nrMaps
              (gelfGetsym symbols rel.sym) with
            | .error crash => .halt (.crash crash)
            | .ok none => return (1, insn)
            | .ok (some mapIdx) =>
                applyRels data symbols maps nrMaps is
                  (setImm insn insnIdx
                    (BitVec.ofInt 32 (maps mapIdx).fd))

/- `parse_relo_and_apply`. -/
def parseReloAndApply
    (data symbols : ElfData)
    (shdr : GElfShdr)
    (insn : ByteSeq)
    (maps : ℕ → BpfMapData)
    (nrMaps : ℕ) : NotedProg (ℕ × ByteSeq) :=
  if shdr.shEntsize = 0 then .halt (.crash .divByZero)
  else
    let nrels := cInt (shdr.shSize / shdr.shEntsize)
    applyRels data symbols maps nrMaps
      (List.range nrels.toNat) insn

/- Process relocation sections. -/
def relocateSecs
    (symbols : ElfData)
    (nrMaps : ℕ) :
    List ℕ → Elf → LoaderGlobals →
      NotedProg (Elf × LoaderGlobals)
  | [], elf, g => return (elf, g)
  | i :: is, elf, g => do
      if ← isProcessed g i then
        relocateSecs symbols nrMaps is elf g
      else
        match elf.getSec i with
        | none => relocateSecs symbols nrMaps is elf g
        | some sec =>
            if sec.shdr.shType ≠ SHT_REL then
              relocateSecs symbols nrMaps is elf g
            else
              match elf.getSec sec.shdr.shInfo with
              | none => relocateSecs symbols nrMaps is elf g
              | some prog =>
                  if prog.shdr.shType ≠ SHT_PROGBITS ∨
                      prog.shdr.shFlags.getLsbD
                        SHF_EXECINSTR_BIT = false then
                    relocateSecs symbols nrMaps is elf g
                  else do
                    let g ← setProcessed g i
                    let (_, insn) ←
                      parseReloAndApply sec.data symbols
                        sec.shdr prog.data.dBuf g.mapData
                        nrMaps
                    relocateSecs symbols nrMaps is
                      (elf.setBuf sec.shdr.shInfo insn) g

/- Load a program, and attach it as its section name says. -/
def loadAndAttach
    (event : TableStr)
    (data : ElfData)
    (g : LoaderGlobals) : NotedProg (ℤ × LoaderGlobals) :=
  match progTypeOf event.str with
  | none => return (-1, g)
  | some progType => do
      let fd : ℤ ←
        watch (.call' (LoadCall.loadProgram progType
          data.dBuf (insnsCount data.dSize) g.license
          g.kernVersion))
      if fd < 0 then
        return (-1, g)
      else do
        note (.progFd g.progCnt)
        watch (afterLoad progType event fd g)

/- Load the programs, in the order of the sections. -/
def loadSecs
    (elf : Elf) :
    List ℕ → LoaderGlobals → NotedProg (ℤ × LoaderGlobals)
  | [], g => return (0, g)
  | i :: is, g => do
      if ← isProcessed g i then
        loadSecs elf is g
      else
        match elf.getSec i with
        | none => loadSecs elf is g
        | some sec =>
            if isProgName sec.shname then do
              let (ret, g) ←
                loadAndAttach sec.event sec.data g
              if ret ≠ 0 then return (ret, g)
              else loadSecs elf is g
            else loadSecs elf is g

/- The passes over an opened object. -/
def loadElf
    (fixupMap : Option (FixupMapCb υ))
    (elf : Elf)
    (g : LoaderGlobals)
    (u : υ) : NotedProg (ℤ × LoaderGlobals × υ) := do
  let (ret, sc) ←
    scanSecs elf elf.secIndices ⟨g, none, none⟩
  if ret ≠ 0 then
    return (1, sc.globals, u)
  else
    match sc.symtab with
    | none => return (1, sc.globals, u)
    | some symtab => do
        let (ret, nrMaps, g, u) ←
          loadMapsOf fixupMap elf symtab sc.mapsShndx
            sc.globals u
        if ret ≠ 0 then
          return (1, g, u)
        else do
          let (elf, g) ←
            relocateSecs symtab.1 nrMaps elf.secIndices elf g
          let (ret, g) ← loadSecs elf elf.secIndices g
          return (ret, g, u)

/- `do_load_bpf_file`. -/
def doLoadBpfFile
    (path : CStr)
    (fixupMap : Option (FixupMapCb υ))
    (g : LoaderGlobals)
    (u : υ) : NotedProg (ℤ × LoaderGlobals × υ) := do
  let g := g.reset
  match ← watch (.call' (LoadCall.elfOpen path)) with
  | none => return (1, g, u)
  | some elf => loadElf fixupMap elf g u

end Noted

------------------------------------------------------------
-- Without the Notes
------------------------------------------------------------

open CallProg (forget forget_bind)

section

variable {υ : Type}

theorem forget_setProcessed
    (g : LoaderGlobals)
    (i : ℕ) :
    forget (Noted.setProcessed g i) =
      .ofExcept (g.setProcessed i) :=
  CallProg.forget_ofExcept _

theorem forget_isProcessed
    (g : LoaderGlobals)
    (i : ℕ) :
    forget (Noted.isProcessed g i) =
      .ofExcept (g.isProcessed i) :=
  CallProg.forget_ofExcept _

theorem forget_copyLicense
    (g : LoaderGlobals)
    (data : ElfData) :
    forget (Noted.copyLicense g data) =
      .ofExcept (g.copyLicense data) :=
  CallProg.forget_ofExcept _

/- A computation in two parts. -/
theorem ofExcept_bind
    {α β : Type}
    (e : Except Crash α)
    (f : α → Except Crash β) :
    (.ofExcept (e >>= f) : LoadProg β) =
      .ofExcept e >>= fun value => .ofExcept (f value) := by
  cases e with
  | ok value => rfl
  | error crash => rfl

theorem forget_scanSecs
    (elf : Elf)
    (is : List ℕ)
    (sc : Scan) :
    forget (Noted.scanSecs elf is sc) =
      .ofExcept (scanSecs elf is sc) := by
  induction is generalizing sc with
  | nil => rfl
  | cons i is ih =>
      rw [Noted.scanSecs, scanSecs]
      cases elf.getSec i with
      | none => exact ih sc
      | some sec =>
          simp only
          split
          · rw [forget_bind, forget_setProcessed,
              ofExcept_bind]
            congr 1
            funext g
            rw [forget_bind, forget_copyLicense,
              ofExcept_bind]
            congr 1
            funext g
            exact ih _
          · split
            · rw [forget_bind, forget_setProcessed,
                ofExcept_bind]
              congr 1
              funext g
              split
              · rfl
              · cases sec.data.dBuf.load32 0 with
                | none => rfl
                | some version => exact ih _
            · split
              · exact ih _
              · split
                · exact ih _
                · exact ih sc

theorem forget_readMapDef
    (dataMaps : ElfData)
    (mapSzElf mapSzCopy : ℤ)
    (offset : ℕ) :
    forget
        (Noted.readMapDef dataMaps mapSzElf mapSzCopy
          offset) =
      .ofExcept
        (Indexed.readMapDef dataMaps mapSzElf mapSzCopy
          offset) := by
  rw [Noted.readMapDef, Indexed.readMapDef,
    CallProg.forget_note_bind, forget_bind,
    CallProg.forget_ofExcept, ofExcept_bind]
  congr 1
  funext mapDef
  by_cases hLarge : mapSzElf > MAP_DEF_SIZE
  · rw [if_pos hLarge, if_pos hLarge,
      CallProg.forget_note_bind, forget_bind,
      CallProg.forget_ofExcept, ofExcept_bind]
    rfl
  · rw [if_neg hLarge, if_neg hLarge]
    rfl

theorem forget_fillMaps
    (elf : Elf)
    (strtabidx : ℕ)
    (dataMaps : ElfData)
    (mapSzElf mapSzCopy : ℤ)
    (nrMaps : ℕ)
    (l : List (GElfSym × ℕ))
    (maps : ℕ → BpfMapData) :
    forget
        (Noted.fillMaps elf strtabidx dataMaps mapSzElf
          mapSzCopy nrMaps l maps) =
      .ofExcept (fillMaps elf strtabidx dataMaps mapSzElf
        mapSzCopy nrMaps l maps) := by
  induction l generalizing maps with
  | nil => rfl
  | cons entry l ih =>
      rcases entry with ⟨sym, i⟩
      rw [fillMaps_step, Noted.fillMaps]
      cases elf.strptr strtabidx sym.stName with
      | none => rfl
      | some mapName =>
          simp only
          split
          · rw [forget_bind, forget_readMapDef, ofExcept_bind]
            congr 1
            funext r
            rcases r with ⟨mapDef, valid⟩
            cases valid with
            | true => exact ih _
            | false => rfl
          · rfl

theorem forget_loadElfMapsSection
    (maps : ℕ → BpfMapData)
    (mapsShndx : ℕ)
    (elf : Elf)
    (symbols : ElfData)
    (strtabidx : ℕ) :
    forget
        (Noted.loadElfMapsSection maps mapsShndx elf symbols
          strtabidx) =
      .ofExcept (loadElfMapsSection maps mapsShndx elf symbols
        strtabidx) := by
  unfold Noted.loadElfMapsSection loadElfMapsSection
  cases elf.scns[mapsShndx]?.bind ElfScn.data with
  | none => rfl
  | some dataMaps =>
      simp only
      rw [forget_bind, CallProg.forget_ofExcept,
        ofExcept_bind]
      congr 1
      funext sym
      split
      · rfl
      · exact forget_fillMaps _ _ _ _ _ _ _ _

/- Noting the inner map does nothing else. -/
theorem forget_noteInnerMap_bind
    {α : Type}
    (mapDef : BpfMapDef)
    (i : ℕ)
    (f : Unit → NotedProg α) :
    forget (Noted.noteInnerMap mapDef i >>= f) =
      forget (f ()) := by
  rw [Noted.noteInnerMap]
  split <;> rfl

theorem forget_loadMaps
    (fixupMap : Option (FixupMapCb υ))
    (is : List ℕ)
    (g : LoaderGlobals)
    (u : υ) :
    forget (Noted.loadMaps fixupMap is g u) =
      loadMaps fixupMap is g u := by
  induction is generalizing g u with
  | nil => rfl
  | cons i is ih =>
      rw [Noted.loadMaps, loadMaps]
      split
      · rfl
      · rw [forget_bind, CallProg.forget_watch]
        congr 1
        funext r
        rcases r with ⟨fd, u'⟩
        simp only
        split
        · exact ih _ _
        · rw [forget_noteInnerMap_bind, forget_bind,
            CallProg.forget_watch]
          congr 1
          funext newFd
          split
          · rfl
          · exact ih _ _

theorem forget_loadMapsOf
    (fixupMap : Option (FixupMapCb υ))
    (elf : Elf)
    (symtab : ElfData × ℕ)
    (mapsShndx : Option ℕ)
    (g : LoaderGlobals)
    (u : υ) :
    forget
        (Noted.loadMapsOf fixupMap elf symtab mapsShndx g u) =
      loadMapsOf fixupMap elf symtab mapsShndx g u := by
  unfold Noted.loadMapsOf loadMapsOf
  cases mapsShndx with
  | none => rfl
  | some mapsShndx =>
      simp only
      rw [forget_bind, forget_loadElfMapsSection]
      congr 1
      funext r
      rcases r with ⟨nrMaps, maps⟩
      simp only
      split
      · rfl
      · rw [forget_bind, forget_loadMaps]
        congr 1
        funext r
        rcases r with ⟨ret, g', u'⟩
        simp only
        split
        · rfl
        · rw [forget_bind, forget_setProcessed]
          rfl

theorem forget_applyRels
    (data symbols : ElfData)
    (maps : ℕ → BpfMapData)
    (nrMaps : ℕ)
    (is : List ℕ)
    (insn : ByteSeq) :
    forget (Noted.applyRels data symbols maps nrMaps is insn) =
      .ofExcept
        (applyRels data symbols maps nrMaps is insn) := by
  induction is generalizing insn with
  | nil => rfl
  | cons i is ih =>
      rw [Noted.applyRels, applyRels]
      cases gelfGetrel data i with
      | none => rfl
      | some rel =>
          simp only
          rw [CallProg.forget_note_bind]
          split
          · rfl
          · split
            · rfl
            · cases matchMap maps nrMaps
                (gelfGetsym symbols rel.sym) with
              | error crash => rfl
              | ok found =>
                  cases found with
                  | none => rfl
                  | some mapIdx => exact ih _

theorem forget_parseReloAndApply
    (data symbols : ElfData)
    (shdr : GElfShdr)
    (insn : ByteSeq)
    (maps : ℕ → BpfMapData)
    (nrMaps : ℕ) :
    forget
        (Noted.parseReloAndApply data symbols shdr insn maps
          nrMaps) =
      .ofExcept
        (parseReloAndApply data symbols shdr insn maps
          nrMaps) := by
  rw [Noted.parseReloAndApply, parseReloAndApply]
  split
  · rfl
  · exact forget_applyRels _ _ _ _ _ _

theorem forget_relocateSecs
    (symbols : ElfData)
    (nrMaps : ℕ)
    (is : List ℕ)
    (elf : Elf)
    (g : LoaderGlobals) :
    forget (Noted.relocateSecs symbols nrMaps is elf g) =
      .ofExcept (relocateSecs symbols nrMaps is elf g) := by
  induction is generalizing elf g with
  | nil => rfl
  | cons i is ih =>
      rw [Noted.relocateSecs, relocateSecs, forget_bind,
        forget_isProcessed, ofExcept_bind]
      congr 1
      funext processed
      split
      · exact ih elf g
      · cases elf.getSec i with
        | none => exact ih elf g
        | some sec =>
            simp only
            split
            · exact ih elf g
            · cases elf.getSec sec.shdr.shInfo with
              | none => exact ih elf g
              | some prog =>
                  simp only
                  split
                  · exact ih elf g
                  · rw [forget_bind, forget_setProcessed,
                      ofExcept_bind]
                    congr 1
                    funext g'
                    rw [forget_bind,
                      forget_parseReloAndApply, ofExcept_bind]
                    congr 1
                    funext r
                    rcases r with ⟨ret, insn⟩
                    exact ih _ _

theorem forget_loadAndAttach
    (event : TableStr)
    (data : ElfData)
    (g : LoaderGlobals) :
    forget (Noted.loadAndAttach event data g) =
      loadAndAttach event data g := by
  cases hType : progTypeOf event.str with
  | none =>
      rw [Noted.loadAndAttach, loadAndAttach, hType]
      rfl
  | some progType =>
      rw [Noted.loadAndAttach, hType,
        loadAndAttach_of_type hType]
      simp only
      rw [forget_bind, CallProg.forget_watch,
        CallProg.call'_bind, CallProg.call.injEq]
      refine ⟨rfl, heq_of_eq (funext fun (fd : ℤ) => ?_)⟩
      by_cases hFail : fd < 0
      · rw [if_pos hFail, afterLoad, if_pos hFail]
        rfl
      · rw [if_neg hFail, CallProg.forget_note_bind,
          CallProg.forget_watch]

theorem forget_loadSecs
    (elf : Elf)
    (is : List ℕ)
    (g : LoaderGlobals) :
    forget (Noted.loadSecs elf is g) = loadSecs elf is g := by
  induction is generalizing g with
  | nil => rfl
  | cons i is ih =>
      rw [Noted.loadSecs, loadSecs, forget_bind,
        forget_isProcessed]
      congr 1
      funext processed
      split
      · exact ih g
      · cases elf.getSec i with
        | none => exact ih g
        | some sec =>
            simp only
            split
            · rw [forget_bind, forget_loadAndAttach]
              congr 1
              funext r
              rcases r with ⟨ret, g'⟩
              simp only
              split
              · rfl
              · exact ih g'
            · exact ih g

theorem forget_loadElf
    (fixupMap : Option (FixupMapCb υ))
    (elf : Elf)
    (g : LoaderGlobals)
    (u : υ) :
    forget (Noted.loadElf fixupMap elf g u) =
      loadElf fixupMap elf g u := by
  rw [Noted.loadElf, loadElf, forget_bind, forget_scanSecs]
  congr 1
  funext r
  rcases r with ⟨ret, sc⟩
  simp only
  split
  · rfl
  · cases sc.symtab with
    | none => rfl
    | some symtab =>
        simp only
        rw [forget_bind, forget_loadMapsOf]
        congr 1
        funext r
        rcases r with ⟨ret, nrMaps, g', u'⟩
        simp only
        split
        · rfl
        · rw [forget_bind, forget_relocateSecs]
          congr 1
          funext r
          rcases r with ⟨elf', g''⟩
          simp only
          rw [forget_bind, forget_loadSecs]
          rfl

/- Without its notes it is the loader as it is. -/
theorem forget_doLoadBpfFile
    (path : CStr)
    (fixupMap : Option (FixupMapCb υ))
    (g : LoaderGlobals)
    (u : υ) :
    forget (Noted.doLoadBpfFile path fixupMap g u) =
      doLoadBpfFile path fixupMap g u := by
  rw [Noted.doLoadBpfFile, doLoadBpfFile, forget_bind,
    CallProg.forget_watch]
  congr 1
  funext opened
  cases opened with
  | none => rfl
  | some elf => exact forget_loadElf fixupMap elf g.reset u

end

end XdpDdos
