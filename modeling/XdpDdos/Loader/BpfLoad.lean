import XdpDdos.Loader.Calls
import XdpDdos.Kern.Maps

/-
  The ELF loader: `do_load_bpf_file` and what it calls.

  Code without calls that may break the rules of C is in
  `Except Crash`; the messages it prints are left out.

  Main declarations:
    * `LoaderGlobals`, `BpfMapData`
    * `loadAndAttach`, `loadMaps`
    * `parseReloAndApply`, `loadElfMapsSection`
    * `doLoadBpfFile`
-/

------------------------------------------------------------
-- Global State
------------------------------------------------------------

namespace XdpDdos

def MAX_MAPS : ℕ := 32

def MAX_PROGS : ℕ := 32

/- Length of `license`. -/
def LICENSE_SIZE : ℕ := 128

/- Length of `processed_sec`. -/
def NR_PROCESSED_SEC : ℕ := 128

/- `sizeof(struct bpf_map_def)`. -/
def MAP_DEF_SIZE : ℕ := 28

def BPF_MAP_TYPE_PROG_ARRAY : ℕ := 3

def BPF_MAP_TYPE_ARRAY_OF_MAPS : ℕ := 12

def BPF_MAP_TYPE_HASH_OF_MAPS : ℕ := 13

def EFBIG : Errno := 27

/- `struct bpf_map_data`. -/
structure BpfMapData where
  fd : ℤ
  name : CStr
  elfOffset : ℕ
  mapDef : BpfMapDef
  deriving Repr, DecidableEq

/- The loader's global variables. -/
structure LoaderGlobals where
  license : ByteSeq
  kernVersion : BitVec 32
  processedSec : ℕ → Bool
  mapFd : ℕ → ℤ
  progFd : ℕ → ℤ
  progCnt : ℕ
  progArrayFd : ℤ
  mapData : ℕ → BpfMapData
  mapDataCount : ℕ

namespace LoaderGlobals

/- Static storage is zero when the process starts. -/
def start : LoaderGlobals where
  license := List.replicate LICENSE_SIZE 0
  kernVersion := 0
  processedSec := fun _ => false
  mapFd := fun _ => 0
  progFd := fun _ => 0
  progCnt := 0
  progArrayFd := -1
  mapData := fun _ => ⟨0, [], 0, ⟨0, 0, 0, 0, 0, 0, 0⟩⟩
  mapDataCount := 0

/- The first lines of `do_load_bpf_file`. -/
def reset (g : LoaderGlobals) : LoaderGlobals :=
  { g with
    kernVersion := 0
    license := List.replicate LICENSE_SIZE 0
    processedSec := fun _ => false }

/- `processed_sec[i] = true`. -/
def setProcessed
    (g : LoaderGlobals)
    (i : ℕ) : Except Crash LoaderGlobals :=
  if i < NR_PROCESSED_SEC then
    .ok { g with
      processedSec := Function.update g.processedSec i true }
  else .error .outOfRange

/- The value of `processed_sec[i]`. -/
def isProcessed
    (g : LoaderGlobals)
    (i : ℕ) : Except Crash Bool :=
  if i < NR_PROCESSED_SEC then .ok (g.processedSec i)
  else .error .outOfRange

/- `memcpy(license, data->d_buf, data->d_size)`. -/
def copyLicense
    (g : LoaderGlobals)
    (data : ElfData) : Except Crash LoaderGlobals :=
  if data.dSize ≤ LICENSE_SIZE ∧
      data.dSize ≤ data.dBuf.length then
    .ok { g with
      license :=
        data.dBuf.take data.dSize ++
          g.license.drop data.dSize }
  else .error .outOfRange

/- Set one entry of `map_data`. -/
def setMapData
    (g : LoaderGlobals)
    (i : ℕ)
    (map : BpfMapData) : LoaderGlobals :=
  { g with mapData := Function.update g.mapData i map }

/- Set one entry of `map_fd`. -/
def setMapFd
    (g : LoaderGlobals)
    (i : ℕ)
    (fd : ℤ) : LoaderGlobals :=
  { g with mapFd := Function.update g.mapFd i fd }

end LoaderGlobals

------------------------------------------------------------
-- Loading One Program
------------------------------------------------------------

/-
  The character at index `i` of a pointer, `none` for a NUL:
  in the string, behind it in the table, or past the table.
-/
def charAt
    (s : TableStr)
    (i : ℕ) : Except Crash (Option Char) :=
  if i ≤ s.str.length then .ok s.str[i]?
  else
    match s.behind[i - (s.str.length + 1)]? with
    | none => .error .outOfRange
    | some c => .ok (if c = Char.ofNat 0 then none else some c)

/-
  The characters that `atoi` reads from index `i` on.  Behind
  the string it needs something that ends the number.
-/
def numeralAt
    (s : TableStr)
    (i : ℕ) : Except Crash CStr :=
  if i ≤ s.str.length then .ok (s.str.drop i)
  else
    let rest := s.behind.drop (i - (s.str.length + 1))
    if rest.all Char.isDigit then .error .outOfRange
    else .ok rest

/- Both readers fail only past the end of the table. -/
theorem eq_outOfRange_of_charAt
    {event : TableStr}
    {i : ℕ}
    {crash : Crash}
    (hChar : charAt event i = .error crash) :
    crash = .outOfRange := by
  unfold charAt at hChar
  split at hChar
  · cases hChar
  · split at hChar
    · cases hChar
      rfl
    · cases hChar

theorem eq_outOfRange_of_numeralAt
    {event : TableStr}
    {i : ℕ}
    {crash : Crash}
    (hNumeral : numeralAt event i = .error crash) :
    crash = .outOfRange := by
  unfold numeralAt at hNumeral
  split at hNumeral
  · cases hNumeral
  · dsimp only at hNumeral
    split at hNumeral
    · cases hNumeral
      rfl
    · cases hNumeral

/- `atoi` of a string that starts with a digit. -/
def atoi (s : CStr) : ℤ :=
  cInt (min
    ((s.takeWhile Char.isDigit).foldl
      (fun n c => 10 * n + (c.toNat - 48)) 0)
    (2 ^ 63 - 1))

/- The program type that a section name asks for. -/
def progTypeOf (event : CStr) : Option BpfProgType :=
  if "socket".toList.isPrefixOf event then
    some .socketFilter
  else if "kprobe/".toList.isPrefixOf event ∨
      "kretprobe/".toList.isPrefixOf event then
    some .kprobe
  else if "tracepoint/".toList.isPrefixOf event then
    some .tracepoint
  else if "xdp".toList.isPrefixOf event then
    some .xdp
  else if "perf_event".toList.isPrefixOf event then
    some .perfEvent
  else if "cgroup/skb".toList.isPrefixOf event then
    some .cgroupSkb
  else if "cgroup/sock".toList.isPrefixOf event then
    some .cgroupSock
  else if "sockops".toList.isPrefixOf event then
    some .sockOps
  else if "sk_skb".toList.isPrefixOf event then
    some .skSkb
  else none

/- Store a program at the index its section name ends in. -/
def populateProgArray
    (event : CStr)
    (fd : ℤ)
    (g : LoaderGlobals) : LoadProg ℤ := do
  let err ←
    .call' (LoadCall.mapUpdateElem g.progArrayFd
      (atoi event) fd)
  if err < 0 then return -1
  else return 0

/- `is_socket || is_sockops || is_sk_skb`: a program array. -/
def attachProgArray
    (event : TableStr)
    (skip : ℕ)
    (fd : ℤ)
    (g : LoaderGlobals) : LoadProg ℤ := do
  let c ← .ofExcept (charAt event skip)
  if c ≠ some '/' then
    return 0
  else do
    let c ← .ofExcept (charAt event (skip + 1))
    if c.any Char.isDigit then do
      let index ← .ofExcept (numeralAt event (skip + 1))
      populateProgArray index fd g
    else
      return -1

/- A kernel probe or a trace point. -/
def attachTracing
    (event : TableStr)
    (skip : ℕ)
    (isTracepoint : Bool)
    (fd : ℤ)
    (g : LoaderGlobals) : LoadProg ℤ := do
  let c ← .ofExcept (charAt event skip)
  match c with
  | none => return -1
  | some digit =>
      if !isTracepoint && digit.isDigit then do
        let index ← .ofExcept (numeralAt event skip)
        populateProgArray index fd g
      else
        .call' (LoadCall.perfAttach event.str fd)

/- The instruction count of a buffer of `size` bytes. -/
def insnsCount (size : ℕ) : ℕ :=
  (BitVec.ofInt 64 (cInt size)).toNat / INSN_SIZE

/- Load a program, and attach it as its section name says. -/
def loadAndAttach
    (event : TableStr)
    (data : ElfData)
    (g : LoaderGlobals) : LoadProg (ℤ × LoaderGlobals) :=
  match progTypeOf event.str with
  | none => return (-1, g)
  | some progType => do
      let fd ← .call' (LoadCall.loadProgram progType
        data.dBuf (insnsCount data.dSize) g.license
        g.kernVersion)
      if fd < 0 then
        return (-1, g)
      else if g.progCnt ≥ MAX_PROGS then
        .halt (.crash .outOfRange)
      else
        let g :=
          { g with
            progFd := Function.update g.progFd g.progCnt fd
            progCnt := g.progCnt + 1 }
        match progType with
        | .xdp | .perfEvent | .cgroupSkb | .cgroupSock =>
            return (0, g)
        | .socketFilter => do
            let ret ← attachProgArray event 6 fd g
            return (ret, g)
        | .sockOps | .skSkb => do
            let ret ← attachProgArray event 7 fd g
            return (ret, g)
        | .kprobe => do
            let skip :=
              if "kprobe/".toList.isPrefixOf event.str then 7
              else 10
            let ret ← attachTracing event skip false fd g
            return (ret, g)
        | .tracepoint => do
            let ret ← attachTracing event 11 true fd g
            return (ret, g)

------------------------------------------------------------
-- Creating Maps
------------------------------------------------------------

/-
  The callback before a map is created: it is given the map
  and its index, and returns what it leaves in the map's
  `fd`.  It may keep variables `υ` of its own.
-/
abbrev FixupMapCb (υ : Type) :=
  BpfMapData → ℕ → υ → LoadProg (ℤ × υ)

/- The node a map asks for, or -1. -/
def numaNode (mapDef : BpfMapDef) : ℤ :=
  if mapDef.mapFlags &&& 4 ≠ 0 then cInt mapDef.numaNode
  else -1

/- Create the map that a definition describes. -/
def createMap
    (map : BpfMapData)
    (mapFd : ℕ → ℤ) : LoadProg ℤ :=
  let mapDef := map.mapDef
  if mapDef.type = BPF_MAP_TYPE_ARRAY_OF_MAPS ∨
      mapDef.type = BPF_MAP_TYPE_HASH_OF_MAPS then
    if mapDef.innerMapIdx < MAX_MAPS then
      .call' (LoadCall.createMapInMapNode mapDef.type map.name
        mapDef.keySize (mapFd mapDef.innerMapIdx)
        mapDef.maxEntries mapDef.mapFlags (numaNode mapDef))
    else .halt (.crash .outOfRange)
  else
    .call' (LoadCall.createMapNode mapDef.type map.name
      mapDef.keySize mapDef.valueSize mapDef.maxEntries
      mapDef.mapFlags (numaNode mapDef))

variable {υ : Type}

/- Let the callback, if there is one, look at a map. -/
def fixupMapFd
    (fixupMap : Option (FixupMapCb υ))
    (map : BpfMapData)
    (i : ℕ)
    (u : υ) : LoadProg (ℤ × υ) :=
  match fixupMap with
  | none => return (map.fd, u)
  | some cb => cb map i u

/-
  Give every map a descriptor: the one that the callback
  assigned, or that of a newly created map.  Without a
  callback every map is created.
-/
def loadMaps
    (fixupMap : Option (FixupMapCb υ)) :
    List ℕ → LoaderGlobals → υ →
      LoadProg (ℕ × LoaderGlobals × υ)
  | [], g, u => return (0, g, u)
  | i :: is, g, u => do
      if i ≥ MAX_MAPS then
        .halt (.crash .outOfRange)
      else
        let map := g.mapData i
        let (fd, u) ← fixupMapFd fixupMap map i u
        let map := { map with fd := fd }
        let g := g.setMapData i map
        -- Allow userspace to assign map FD prior to creation
        if fixupMap.isSome ∧ fd ≠ -1 then
          loadMaps fixupMap is (g.setMapFd i fd) u
        else do
          let fd ← createMap map g.mapFd
          let g := g.setMapFd i fd
          if fd < 0 then
            return (1, g, u)
          else
            let g := g.setMapData i { map with fd := fd }
            let g :=
              if map.mapDef.type = BPF_MAP_TYPE_PROG_ARRAY then
                { g with progArrayFd := fd }
              else g
            loadMaps fixupMap is g u

------------------------------------------------------------
-- Relocations
------------------------------------------------------------

/- The first map recorded at an offset. -/
def findMap
    (maps : ℕ → BpfMapData)
    (nrMaps : ℕ)
    (offset : ℕ) : Option ℕ :=
  (List.range nrMaps).find? fun mapIdx =>
    (maps mapIdx).elfOffset = offset

/-
  Match FD relocation against recorded map_data[] offset.
  The symbol is set only if it could be read, and its value
  is looked at only if there is a map to compare with.
-/
def matchMap
    (maps : ℕ → BpfMapData)
    (nrMaps : ℕ)
    (sym : Option GElfSym) : Except Crash (Option ℕ) :=
  match sym with
  | some sym => .ok (findMap maps nrMaps sym.stValue)
  | none =>
      if nrMaps = 0 then .ok none else .error .uninitialised

/-
  Apply the entries of a relocation section to a program's
  instructions.  Entries already applied stay applied when a
  later one is invalid; the result is then 1.
-/
def applyRels
    (data symbols : ElfData)
    (maps : ℕ → BpfMapData)
    (nrMaps : ℕ) :
    List ℕ → ByteSeq → Except Crash (ℕ × ByteSeq)
  | [], insn => .ok (0, insn)
  | i :: is, insn =>
      match gelfGetrel data i with
      | none => .error .uninitialised
      | some rel =>
          let insnIdx := rel.rOffset / INSN_SIZE % 2 ^ 32
          if ¬ HasInsn insn insnIdx then
            .error .outOfRange
          else if (insnAt insn insnIdx).code ≠ LD_IMM64 then
            .ok (1, insn)
          else
            let insn :=
              setSrcReg insn insnIdx BPF_PSEUDO_MAP_FD
            match matchMap maps nrMaps
              (gelfGetsym symbols rel.sym) with
            | .error crash => .error crash
            | .ok none => .ok (1, insn)
            | .ok (some mapIdx) =>
                applyRels data symbols maps nrMaps is
                  (setImm insn insnIdx
                    (BitVec.ofInt 32 (maps mapIdx).fd))

/- `parse_relo_and_apply`. -/
def parseReloAndApply
    (data symbols : ElfData)
    (shdr : GElfShdr)
    (insn : ByteSeq)
    (maps : ℕ → BpfMapData)
    (nrMaps : ℕ) : Except Crash (ℕ × ByteSeq) :=
  if shdr.shEntsize = 0 then .error .divByZero
  else
    let nrels := cInt (shdr.shSize / shdr.shEntsize)
    applyRels data symbols maps nrMaps
      (List.range nrels.toNat) insn

------------------------------------------------------------
-- Map Definitions
------------------------------------------------------------

/- `cmp_symbols`. -/
def cmpSymbols (l r : GElfSym) : ℤ :=
  if l.stValue < r.stValue then -1
  else if l.stValue > r.stValue then 1
  else 0

/- Collect the symbols of the maps section. -/
def mapSymbols
    (symbols : ElfData)
    (mapsShndx : ℕ) :
    List ℕ → List GElfSym → Except Crash (List GElfSym)
  | [], sym => .ok sym
  | i :: is, sym =>
      if sym.length < MAX_MAPS + 1 then
        match gelfGetsym symbols i with
        | none => mapSymbols symbols mapsShndx is sym
        | some s =>
            if s.stShndx ≠ mapsShndx then
              mapSymbols symbols mapsShndx is sym
            else
              mapSymbols symbols mapsShndx is (sym ++ [s])
      else .error .assertFailed

/- A definition stored in `bytes`; missing bytes are zero. -/
def decodeMapDef (bytes : ByteSeq) : BpfMapDef where
  type := (bytes.le32At 0).toNat
  keySize := (bytes.le32At 4).toNat
  valueSize := (bytes.le32At 8).toNat
  maxEntries := (bytes.le32At 12).toNat
  mapFlags := (bytes.le32At 16).toNat
  innerMapIdx := (bytes.le32At 20).toNat
  numaNode := (bytes.le32At 24).toNat

/- Copy `size` bytes of the maps section. -/
def copyMapDef
    (data : ElfData)
    (offset : ℕ)
    (size : ℤ) : Except Crash BpfMapDef :=
  if size = 0 ∨
      0 ≤ size ∧
        offset + size.toNat ≤ data.dBuf.length then
    .ok (decodeMapDef
      ((data.dBuf.drop offset).take size.toNat))
  else .error .outOfRange

/- Verify that no newer features were requested. -/
def validateZero
    (data : ElfData)
    (offset size : ℕ) : Except Crash Bool :=
  let bytes := (data.dBuf.drop offset).take size
  if bytes.any (· ≠ 0) then .ok false
  else if bytes.length < size then .error .outOfRange
  else .ok true

/- Copy the relevant part of the ELF maps data. -/
def fillMaps
    (elf : Elf)
    (strtabidx : ℕ)
    (dataMaps : ElfData)
    (mapSzElf mapSzCopy : ℤ)
    (nrMaps : ℕ) :
    List (GElfSym × ℕ) → (ℕ → BpfMapData) →
      Except Crash (ℤ × (ℕ → BpfMapData))
  | [], maps => .ok (nrMaps, maps)
  | (sym, i) :: rest, maps =>
      match elf.strptr strtabidx sym.stName with
      | none => .error .nullPointer
      | some mapName =>
          if i ≥ MAX_MAPS then .error .outOfRange
          else do
            let offset := sym.stValue
            let mapDef ← copyMapDef dataMaps offset mapSzCopy
            let maps := Function.update maps i
              { maps i with
                name := mapName
                elfOffset := offset
                mapDef := mapDef }
            let valid ←
              if mapSzElf > MAP_DEF_SIZE then
                validateZero dataMaps (offset + MAP_DEF_SIZE)
                  (mapSzElf.toNat - MAP_DEF_SIZE)
              else .ok true
            if valid then
              fillMaps elf strtabidx dataMaps mapSzElf
                mapSzCopy nrMaps rest maps
            else .ok (-EFBIG, maps)

/- `load_elf_maps_section`. -/
def loadElfMapsSection
    (maps : ℕ → BpfMapData)
    (mapsShndx : ℕ)
    (elf : Elf)
    (symbols : ElfData)
    (strtabidx : ℕ) :
    Except Crash (ℤ × (ℕ → BpfMapData)) :=
  match elf.scns[mapsShndx]?.bind ElfScn.data with
  | none => .ok (-EINVAL, maps)
  | some dataMaps => do
      -- For each map get corresponding symbol table entry
      let sym ← mapSymbols symbols mapsShndx
        (List.range (symbols.dSize / SYM_SIZE)) []
      let nrMaps := sym.length
      -- Align to map_fd[] order, via sort on offset
      let sym := sym.mergeSort
        fun l r => decide (cmpSymbols l r ≤ 0)
      if nrMaps = 0 then .error .divByZero
      else
        let mapSzElf := cInt (dataMaps.dSize / nrMaps)
        let mapSzCopy := min mapSzElf MAP_DEF_SIZE
        fillMaps elf strtabidx dataMaps mapSzElf mapSzCopy
          nrMaps sym.zipIdx maps

------------------------------------------------------------
-- The Three Passes
------------------------------------------------------------

/- What the first pass finds. -/
structure Scan where
  globals : LoaderGlobals
  mapsShndx : Option ℕ
  symtab : Option (ElfData × ℕ)

/- A map without a descriptor yet. -/
def clearMapFds
    (maps : ℕ → BpfMapData) : ℕ → BpfMapData :=
  fun j =>
    if j < MAX_MAPS then { maps j with fd := -1 } else maps j

/- Look for license, version, maps and symbols; 1 is failure. -/
def scanSecs
    (elf : Elf) :
    List ℕ → Scan → Except Crash (ℕ × Scan)
  | [], sc => .ok (0, sc)
  | i :: is, sc =>
      match elf.getSec i with
      | none => scanSecs elf is sc
      | some sec =>
          if sec.shname = "license".toList then do
            let g ← sc.globals.setProcessed i
            let g ← g.copyLicense sec.data
            scanSecs elf is { sc with globals := g }
          else if sec.shname = "version".toList then do
            let g ← sc.globals.setProcessed i
            if sec.data.dSize ≠ 4 then
              .ok (1, { sc with globals := g })
            else
              match sec.data.dBuf.load32 0 with
              | none => .error .outOfRange
              | some version =>
                  scanSecs elf is { sc with
                    globals := { g with
                      kernVersion := version } }
          else if sec.shname = "maps".toList then
            scanSecs elf is { sc with
              mapsShndx := some i
              globals := { sc.globals with
                mapData :=
                  clearMapFds sc.globals.mapData } }
          else if sec.shdr.shType = SHT_SYMTAB then
            scanSecs elf is { sc with
              symtab := some (sec.data, sec.shdr.shLink) }
          else scanSecs elf is sc

/-
  Process relocation sections, and rewrite the instructions
  of the program sections they are for.  The result of
  `parse_relo_and_apply` is not looked at.
-/
def relocateSecs
    (symbols : ElfData)
    (nrMaps : ℕ) :
    List ℕ → Elf → LoaderGlobals →
      Except Crash (Elf × LoaderGlobals)
  | [], elf, g => .ok (elf, g)
  | i :: is, elf, g => do
      if ← g.isProcessed i then
        relocateSecs symbols nrMaps is elf g
      else
        match elf.getSec i with
        | none => relocateSecs symbols nrMaps is elf g
        | some sec =>
            if sec.shdr.shType ≠ SHT_REL then
              relocateSecs symbols nrMaps is elf g
            else
              -- locate prog sec that needs map fixup
              match elf.getSec sec.shdr.shInfo with
              | none => relocateSecs symbols nrMaps is elf g
              | some prog =>
                  if prog.shdr.shType ≠ SHT_PROGBITS ∨
                      prog.shdr.shFlags.getLsbD
                        SHF_EXECINSTR_BIT = false then
                    relocateSecs symbols nrMaps is elf g
                  else do
                    let g ← g.setProcessed i
                    let (_, insn) ←
                      parseReloAndApply sec.data symbols
                        sec.shdr prog.data.dBuf g.mapData
                        nrMaps
                    relocateSecs symbols nrMaps is
                      (elf.setBuf sec.shdr.shInfo insn) g

/- The prefixes of section names that hold programs. -/
def progPrefixes : List CStr :=
  ["kprobe/".toList, "kretprobe/".toList,
    "tracepoint/".toList, "xdp".toList,
    "perf_event".toList, "socket".toList,
    "cgroup/".toList, "sockops".toList, "sk_skb".toList]

/- A section with this name is loaded as a program. -/
def isProgName (shname : CStr) : Bool :=
  progPrefixes.any fun p => p.isPrefixOf shname

/- Load the programs, in the order of the sections. -/
def loadSecs
    (elf : Elf) :
    List ℕ → LoaderGlobals → LoadProg (ℤ × LoaderGlobals)
  | [], g => return (0, g)
  | i :: is, g => do
      if ← .ofExcept (g.isProcessed i) then
        loadSecs elf is g
      else
        match elf.getSec i with
        | none => loadSecs elf is g
        | some sec =>
            if isProgName sec.shname then do
              let (ret, g) ←
                loadAndAttach sec.event sec.data g
              if ret ≠ 0 then return (ret, g)
              else loadSecs elf is g
            else loadSecs elf is g

/- The indices of all sections but the null section. -/
def Elf.secIndices (elf : Elf) : List ℕ :=
  List.range' 1 (elf.shnum - 1)

/- The maps section: read definitions and create the maps. -/
def loadMapsOf
    (fixupMap : Option (FixupMapCb υ))
    (elf : Elf)
    (symtab : ElfData × ℕ)
    (mapsShndx : Option ℕ)
    (g : LoaderGlobals)
    (u : υ) :
    LoadProg (ℕ × ℕ × LoaderGlobals × υ) :=
  match mapsShndx with
  | none => return (0, 0, g, u)
  | some mapsShndx => do
      let (nrMaps, maps) ←
        .ofExcept (loadElfMapsSection g.mapData mapsShndx elf
          symtab.1 symtab.2)
      let g := { g with mapData := maps }
      if nrMaps < 0 then
        return (1, 0, g, u)
      else do
        let (ret, g, u) ←
          loadMaps fixupMap (List.range nrMaps.toNat) g u
        if ret ≠ 0 then
          return (1, 0, g, u)
        else do
          let g ←
            .ofExcept ({ g with
              mapDataCount := nrMaps.toNat }.setProcessed
                mapsShndx)
          return (0, nrMaps.toNat, g, u)

/- The passes over an opened object. -/
def loadElf
    (fixupMap : Option (FixupMapCb υ))
    (elf : Elf)
    (g : LoaderGlobals)
    (u : υ) : LoadProg (ℤ × LoaderGlobals × υ) := do
  let (ret, sc) ←
    .ofExcept (scanSecs elf elf.secIndices ⟨g, none, none⟩)
  if ret ≠ 0 then
    return (1, sc.globals, u)
  else
    match sc.symtab with
    | none => return (1, sc.globals, u)
    | some symtab => do
        let (ret, nrMaps, g, u) ←
          loadMapsOf fixupMap elf symtab sc.mapsShndx
            sc.globals u
        if ret ≠ 0 then
          return (1, g, u)
        else do
          let (elf, g) ←
            .ofExcept (relocateSecs symtab.1 nrMaps
              elf.secIndices elf g)
          let (ret, g) ← loadSecs elf elf.secIndices g
          return (ret, g, u)

/- `do_load_bpf_file`. -/
def doLoadBpfFile
    (path : CStr)
    (fixupMap : Option (FixupMapCb υ))
    (g : LoaderGlobals)
    (u : υ) : LoadProg (ℤ × LoaderGlobals × υ) := do
  let g := g.reset
  match ← .call' (LoadCall.elfOpen path) with
  | none => return (1, g, u)
  | some elf => loadElf fixupMap elf g u

end XdpDdos
