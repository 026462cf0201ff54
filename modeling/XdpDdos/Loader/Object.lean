import Mathlib.Data.List.Perm.Subperm
import XdpDdos.Loader.Relocation
import XdpDdos.Loader.MapTable

/-
  Well-formed objects: what a compiler emits for a file with
  maps, a license and packet programs.  Nothing is said of
  the order of the sections or of the symbols.

  Main declarations:
    * `BpfObject`
    * `BpfObject.relocs`, `BpfObject.progSecs`
    * `BpfObject.valid_of_mem_relocsOf`
-/

------------------------------------------------------------
-- Sections of an Object
------------------------------------------------------------

namespace XdpDdos

/- A program section, in the eyes of the relocation pass. -/
def Sec.IsCode (sec : Sec) : Prop :=
  sec.shdr.shType = SHT_PROGBITS ∧
    sec.shdr.shFlags.getLsbD SHF_EXECINSTR_BIT = true

instance (sec : Sec) : Decidable sec.IsCode := by
  unfold Sec.IsCode
  infer_instance

namespace Elf

/- The entries in section `i` for the instructions of `p`. -/
def relocsOf
    (elf : Elf)
    (symbols : ElfData)
    (i p : ℕ) : List RelEntry :=
  match elf.getSec i with
  | none => []
  | some sec =>
      if sec.shdr.shType = SHT_REL ∧ sec.shdr.shInfo = p then
        (List.range (sec.shdr.shSize / REL_SIZE)).filterMap
          (relocAt? sec.data symbols)
      else []

/- All entries for the instructions of section `p`. -/
def relocs
    (elf : Elf)
    (symbols : ElfData)
    (p : ℕ) : List RelEntry :=
  elf.secIndices.flatMap fun i => elf.relocsOf symbols i p

/- Section `i` is loaded as a program. -/
def isProgSec
    (elf : Elf)
    (i : ℕ) : Bool :=
  (elf.getSec i).any fun sec => isProgName sec.shname

/- The program sections, in header order. -/
def progSecs (elf : Elf) : List ℕ :=
  elf.secIndices.filter elf.isProgSec

theorem mem_relocsOf
    {elf : Elf}
    {symbols : ElfData}
    {i p : ℕ}
    {e : RelEntry}
    (hMem : e ∈ elf.relocsOf symbols i p) :
    ∃ sec, elf.getSec i = some sec ∧
      sec.shdr.shType = SHT_REL ∧ sec.shdr.shInfo = p ∧
      ∃ k < sec.shdr.shSize / REL_SIZE,
        relocAt? sec.data symbols k = some e := by
  unfold relocsOf at hMem
  cases hSec : elf.getSec i with
  | none =>
      rw [hSec] at hMem
      cases hMem
  | some sec =>
      rw [hSec] at hMem
      by_cases hRel :
          sec.shdr.shType = SHT_REL ∧ sec.shdr.shInfo = p
      · simp only [hRel, and_self, if_true,
          List.mem_filterMap, List.mem_range] at hMem
        rcases hMem with ⟨k, hLt, hEntry⟩
        exact ⟨sec, rfl, hRel.1, hRel.2, k, hLt, hEntry⟩
      · simp only [hRel, if_false, List.not_mem_nil] at hMem

theorem relocsOf_eq
    {elf : Elf}
    {symbols : ElfData}
    {i : ℕ}
    {sec : Sec}
    (hSec : elf.getSec i = some sec)
    (hRel : sec.shdr.shType = SHT_REL)
    (p : ℕ) :
    elf.relocsOf symbols i p =
      if p = sec.shdr.shInfo then
        (List.range (sec.shdr.shSize / REL_SIZE)).filterMap
          (relocAt? sec.data symbols)
      else [] := by
  simp only [relocsOf, hSec, hRel, true_and, eq_comm]

end Elf

/- An array or hash of maps names a map that can exist. -/
def BpfMapDef.InnerInTable (mapDef : BpfMapDef) : Prop :=
  mapDef.type = BPF_MAP_TYPE_ARRAY_OF_MAPS ∨
      mapDef.type = BPF_MAP_TYPE_HASH_OF_MAPS →
    mapDef.innerMapIdx < MAX_MAPS

instance
    (mapDef : BpfMapDef) :
    Decidable mapDef.InnerInTable := by
  unfold BpfMapDef.InnerInTable
  infer_instance

/- The entry is for a 64-bit load, and names one of `syms`. -/
def RelEntry.Fits
    (e : RelEntry)
    (syms : List GElfSym)
    (insn : ByteSeq) : Prop :=
  e.sym ∈ syms ∧ HasInsn insn e.insnIdx ∧
    (insnAt insn e.insnIdx).code = LD_IMM64

instance
    (e : RelEntry)
    (syms : List GElfSym)
    (insn : ByteSeq) :
    Decidable (e.Fits syms insn) := by
  unfold RelEntry.Fits
  infer_instance

/- If the section is for code, all its entries fit. -/
def Elf.RelocsFit
    (elf : Elf)
    (symbols : ElfData)
    (syms : List GElfSym)
    (sec : Sec) : Prop :=
  ∀ prog ∈ elf.getSec sec.shdr.shInfo, prog.IsCode →
    sec.shdr.shEntsize = REL_SIZE ∧
      ∀ k < sec.shdr.shSize / REL_SIZE,
        ∃ e ∈ relocAt? sec.data symbols k,
          e.Fits syms prog.data.dBuf

instance
    (elf : Elf)
    (symbols : ElfData)
    (syms : List GElfSym)
    (sec : Sec) :
    Decidable (elf.RelocsFit symbols syms sec) := by
  unfold Elf.RelocsFit
  infer_instance

------------------------------------------------------------
-- Well-Formed Objects
------------------------------------------------------------

/-
  An object with one symbol table and one maps section that
  its map symbols tile.  Programs have names that start with
  `xdp`, and hold whole instructions.  Sizes of code are in
  the range of the `int` that the loader keeps them in.
-/
structure BpfObject where
  elf : Elf
  mapsShndx : ℕ
  maps : Sec
  symtabShndx : ℕ
  symtab : Sec
  shnum_lt : elf.shnum < NR_PROCESSED_SEC
  null_sec : elf.getSec 0 = none
  license_fits :
    ∀ {i sec}, elf.getSec i = some sec →
      sec.shname = "license".toList →
        sec.shdr.shType = SHT_PROGBITS ∧
          sec.data.dSize ≤ LICENSE_SIZE ∧
          sec.data.dSize ≤ sec.data.dBuf.length
  no_version :
    ∀ {i sec}, elf.getSec i = some sec →
      sec.shname ≠ "version".toList
  maps_sec : elf.getSec mapsShndx = some maps
  maps_name : maps.shname = "maps".toList
  maps_type : maps.shdr.shType = SHT_PROGBITS
  maps_only :
    ∀ {i sec}, elf.getSec i = some sec →
      sec.shname = "maps".toList → i = mapsShndx
  symtab_sec : elf.getSec symtabShndx = some symtab
  symtab_type : symtab.shdr.shType = SHT_SYMTAB
  symtab_only :
    ∀ {i sec}, elf.getSec i = some sec →
      sec.shdr.shType = SHT_SYMTAB → i = symtabShndx
  tiled :
    TiledMaps elf mapsShndx
      (symtab.data, symtab.shdr.shLink) maps.data
  inner_ok :
    ∀ sym ∈ symsIn symtab.data mapsShndx,
      (decodeMapDef
        ((maps.data.dBuf.drop sym.stValue).take
          MAP_DEF_SIZE)).InnerInTable
  progs_le : elf.progSecs.length ≤ MAX_PROGS
  prog_code :
    ∀ {i sec}, elf.getSec i = some sec →
      isProgName sec.shname →
        "xdp".toList.isPrefixOf sec.shname ∧ sec.IsCode
  code_whole :
    ∀ {i sec}, elf.getSec i = some sec → sec.IsCode →
      sec.data.dSize = sec.data.dBuf.length ∧
        INSN_SIZE ∣ sec.data.dSize ∧
        sec.data.dSize < 2 ^ 31
  relocs_fit :
    ∀ {i sec}, elf.getSec i = some sec →
      sec.shdr.shType = SHT_REL →
        elf.RelocsFit symtab.data
          (symsIn symtab.data mapsShndx) sec
  relocs_nodup :
    ∀ {p prog}, elf.getSec p = some prog → prog.IsCode →
      ((elf.relocs symtab.data p).map
        RelEntry.insnIdx).Nodup

namespace BpfObject

variable (obj : BpfObject)

/- The number of maps. -/
def nrMaps : ℕ :=
  (symsIn obj.symtab.data obj.mapsShndx).length

/- The symbol table as the loader passes it on. -/
def symtabArg : ElfData × ℕ :=
  (obj.symtab.data, obj.symtab.shdr.shLink)

/- The entries for the instructions of section `p`. -/
def relocs (p : ℕ) : List RelEntry :=
  obj.elf.relocs obj.symtab.data p

/- The table holds the maps of the object. -/
def HasTable (maps : ℕ → BpfMapData) : Prop :=
  MapTable obj.elf obj.mapsShndx obj.symtabArg obj.maps.data
    maps

/- The entry is that of the map a symbol names. -/
def IsMapOf
    (sym : GElfSym)
    (map : BpfMapData) : Prop :=
  XdpDdos.IsMapOf obj.elf obj.symtab.shdr.shLink
    obj.maps.data sym map

end BpfObject

------------------------------------------------------------
-- Facts About Well-Formed Objects
------------------------------------------------------------

/- Readable sections are among the indices of a pass. -/
theorem Elf.lt_shnum_of_getSec
    {elf : Elf}
    {i : ℕ}
    {sec : Sec}
    (hSec : elf.getSec i = some sec) :
    i < elf.shnum := by
  by_contra hGe
  have hNone : elf.scns[i]? = none :=
    List.getElem?_eq_none (Nat.le_of_not_lt hGe)
  simp [Elf.getSec, hNone] at hSec

namespace BpfObject

variable {obj : BpfObject}
variable {maps : ℕ → BpfMapData}

theorem mem_secIndices
    {i : ℕ}
    {sec : Sec}
    (hSec : obj.elf.getSec i = some sec) :
    i ∈ obj.elf.secIndices := by
  have hLt := Elf.lt_shnum_of_getSec hSec
  have hPos : i ≠ 0 := by
    rintro rfl
    rw [obj.null_sec] at hSec
    cases hSec
  simp only [Elf.secIndices, List.mem_range'_1]
  omega

theorem lt_of_mem_secIndices
    {i : ℕ}
    (hMem : i ∈ obj.elf.secIndices) :
    i < NR_PROCESSED_SEC := by
  have hLt := obj.shnum_lt
  simp only [Elf.secIndices, List.mem_range'_1] at hMem
  omega

theorem eq_mapsShndx_iff
    {i : ℕ}
    {sec : Sec}
    (hSec : obj.elf.getSec i = some sec) :
    i = obj.mapsShndx ↔ sec.shname = "maps".toList := by
  constructor
  · rintro rfl
    rw [obj.maps_sec] at hSec
    cases hSec
    exact obj.maps_name
  · intro hName
    exact obj.maps_only hSec hName

theorem eq_symtabShndx_iff
    {i : ℕ}
    {sec : Sec}
    (hSec : obj.elf.getSec i = some sec) :
    i = obj.symtabShndx ↔ sec.shdr.shType = SHT_SYMTAB := by
  constructor
  · rintro rfl
    rw [obj.symtab_sec] at hSec
    cases hSec
    exact obj.symtab_type
  · intro hType
    exact obj.symtab_only hSec hType

/- Relocations name a map in the table. -/
theorem HasTable.findMap_eq
    (hTable : obj.HasTable maps)
    {sym : GElfSym}
    (hMem : sym ∈ symsIn obj.symtab.data obj.mapsShndx) :
    ∃ i < obj.nrMaps,
      findMap maps obj.nrMaps sym.stValue = some i ∧
        obj.IsMapOf sym (maps i) :=
  MapTable.findMap_eq hTable obj.tiled hMem

/- Each entry of a relocation section can be applied. -/
theorem relocAt_valid
    (hTable : obj.HasTable maps)
    {i k : ℕ}
    {sec prog : Sec}
    (hSec : obj.elf.getSec i = some sec)
    (hRel : sec.shdr.shType = SHT_REL)
    (hProg : obj.elf.getSec sec.shdr.shInfo = some prog)
    (hCode : prog.IsCode)
    (hLt : k < sec.shdr.shSize / REL_SIZE) :
    ∃ e, relocAt? sec.data obj.symtab.data k = some e ∧
      e.sym ∈ symsIn obj.symtab.data obj.mapsShndx ∧
      e.Valid maps obj.nrMaps prog.data.dBuf := by
  rcases (obj.relocs_fit hSec hRel _ hProg hCode).2 k hLt
    with ⟨e, hEntry, hSym, hInsn, hLoad⟩
  rcases hTable.findMap_eq hSym with ⟨m, _, hMap, _⟩
  rcases obj.code_whole hProg hCode with ⟨hSize, _, hInt⟩
  refine ⟨e, hEntry, hSym, ?_, hInsn, hLoad, ?_⟩
  · simp only [HasInsn, INSN_SIZE] at hInsn
    omega
  · rw [hMap]
    rfl

theorem valid_of_mem_relocsOf
    (hTable : obj.HasTable maps)
    {i p : ℕ}
    {prog : Sec}
    {e : RelEntry}
    (hProg : obj.elf.getSec p = some prog)
    (hCode : prog.IsCode)
    (hMem : e ∈ obj.elf.relocsOf obj.symtab.data i p) :
    e.sym ∈ symsIn obj.symtab.data obj.mapsShndx ∧
      e.Valid maps obj.nrMaps prog.data.dBuf := by
  rcases Elf.mem_relocsOf hMem with
    ⟨sec, hSec, hRel, rfl, k, hLt, hEntry⟩
  rcases relocAt_valid hTable hSec hRel hProg hCode hLt with
    ⟨e', hEntry', hSym, hValid⟩
  rw [hEntry] at hEntry'
  cases hEntry'
  exact ⟨hSym, hValid⟩

theorem HasTable.elfOffset_eq
    (hTable : obj.HasTable maps)
    {i : ℕ}
    (hLt : i < obj.nrMaps) :
    (maps i).elfOffset = MAP_DEF_SIZE * i := by
  rcases hTable i hLt with ⟨sym, _, hValue, hMap⟩
  exact hMap.elfOffset_eq.trans hValue

/- An entry of a program names a map and fits its code. -/
theorem valid_of_mem_relocs
    (hTable : obj.HasTable maps)
    {p : ℕ}
    {prog : Sec}
    {e : RelEntry}
    (hProg : obj.elf.getSec p = some prog)
    (hCode : prog.IsCode)
    (hMem : e ∈ obj.relocs p) :
    e.sym ∈ symsIn obj.symtab.data obj.mapsShndx ∧
      e.Valid maps obj.nrMaps prog.data.dBuf := by
  rcases List.mem_flatMap.mp hMem with ⟨i, _, hHere⟩
  exact valid_of_mem_relocsOf hTable hProg hCode hHere

/- Every entry of the section counts. -/
theorem length_relocsOf
    {i : ℕ}
    {sec prog : Sec}
    (hSec : obj.elf.getSec i = some sec)
    (hRel : sec.shdr.shType = SHT_REL)
    (hProg : obj.elf.getSec sec.shdr.shInfo = some prog)
    (hCode : prog.IsCode) :
    (obj.elf.relocsOf obj.symtab.data i
        sec.shdr.shInfo).length =
      sec.shdr.shSize / REL_SIZE := by
  rw [Elf.relocsOf_eq hSec hRel, if_pos rfl,
    List.length_filterMap_eq_countP,
    List.countP_eq_length.mpr, List.length_range]
  intro k hMem
  rcases (obj.relocs_fit hSec hRel _ hProg hCode).2 k
    (List.mem_range.mp hMem) with ⟨e, hEntry, _⟩
  rw [hEntry]
  rfl

/- The entries of a section are for distinct instructions. -/
theorem nodup_relocsOf
    {i p : ℕ}
    {sec prog : Sec}
    (hSec : obj.elf.getSec i = some sec)
    (hProg : obj.elf.getSec p = some prog)
    (hCode : prog.IsCode) :
    ((obj.elf.relocsOf obj.symtab.data i p).map
      RelEntry.insnIdx).Nodup := by
  have hSublist :
      (obj.elf.relocsOf obj.symtab.data i p).Sublist
        (obj.relocs p) := by
    apply List.sublist_flatten_of_mem
    exact List.mem_map_of_mem (mem_secIndices hSec)
  exact (hSublist.map RelEntry.insnIdx).nodup
    (obj.relocs_nodup hProg hCode)

/-
  Entries for distinct instructions of a section are fewer
  than its bytes, so that their number fits an `int`.
-/
theorem nrels_lt
    {i : ℕ}
    {sec prog : Sec}
    (hSec : obj.elf.getSec i = some sec)
    (hRel : sec.shdr.shType = SHT_REL)
    (hProg : obj.elf.getSec sec.shdr.shInfo = some prog)
    (hCode : prog.IsCode) :
    sec.shdr.shSize / REL_SIZE < 2 ^ 31 := by
  have hInside :
      (obj.elf.relocsOf obj.symtab.data i
          sec.shdr.shInfo).map RelEntry.insnIdx ⊆
        List.range prog.data.dBuf.length := by
    intro idx hMem
    rcases List.mem_map.mp hMem with ⟨e, hEntry, rfl⟩
    rcases Elf.mem_relocsOf hEntry with
      ⟨sec', hSec', _, _, k, hLt, hAt⟩
    rw [hSec] at hSec'
    cases hSec'
    rcases (obj.relocs_fit hSec hRel _ hProg hCode).2 k
      hLt with ⟨e', hAt', _, hInsn, _⟩
    rw [hAt] at hAt'
    cases hAt'
    simp only [HasInsn, INSN_SIZE] at hInsn
    rw [List.mem_range]
    omega
  have hLe :=
    ((nodup_relocsOf hSec hProg hCode).subperm
      hInside).length_le
  rw [List.length_map, List.length_range,
    length_relocsOf hSec hRel hProg hCode] at hLe
  rcases obj.code_whole hProg hCode with ⟨hSize, _, hInt⟩
  omega

end BpfObject

------------------------------------------------------------
-- An Object with Five Maps
------------------------------------------------------------

theorem Elf.forall_getSec
    {elf : Elf}
    {P : ℕ → Sec → Prop}
    (hAll :
      ∀ i < elf.shnum, ∀ sec ∈ elf.getSec i, P i sec)
    {i : ℕ}
    {sec : Sec}
    (hSec : elf.getSec i = some sec) :
    P i sec :=
  hAll i (Elf.lt_shnum_of_getSec hSec) sec hSec

/- The `n` low bytes of a number, lowest first. -/
def leBytes
    (n value : ℕ) : ByteSeq :=
  (List.range n).map fun k =>
    BitVec.ofNat 8 (value / 256 ^ k)

/- A section whose data is `buf`. -/
def plainScn
    (shname : String)
    (shType shFlags shLink shInfo shEntsize : ℕ)
    (buf : ByteSeq) : ElfScn where
  shname := some shname.toList
  shdr :=
    { shType := shType
      shFlags := BitVec.ofNat 64 shFlags
      shSize := buf.length
      shLink := shLink
      shInfo := shInfo
      shEntsize := shEntsize }
  data := some ⟨buf, buf.length⟩

/- The bytes of a map definition. -/
def mapDefBytes (mapDef : BpfMapDef) : ByteSeq :=
  leBytes 4 mapDef.type ++ leBytes 4 mapDef.keySize ++
    leBytes 4 mapDef.valueSize ++
    leBytes 4 mapDef.maxEntries ++
    leBytes 4 mapDef.mapFlags ++
    leBytes 4 mapDef.innerMapIdx ++
    leBytes 4 mapDef.numaNode

/- The bytes of a symbol for a map definition. -/
def symBytes
    (stName stShndx stValue : ℕ) : ByteSeq :=
  leBytes 4 stName ++ leBytes 2 0x11 ++ leBytes 2 stShndx ++
    leBytes 8 stValue ++ leBytes 8 MAP_DEF_SIZE

/- The bytes of a relocation entry. -/
def relBytes
    (rOffset sym : ℕ) : ByteSeq :=
  leBytes 8 rOffset ++ leBytes 4 1 ++ leBytes 4 sym

/-
  The five maps of `xdp_ddos01_blacklist_kern.c`, and code
  that loads each of them and then returns `XDP_PASS`.  The
  relocation section comes before its program.
-/
def blacklistElf : Elf where
  scns :=
    [⟨none, ⟨0, 0, 0, 0, 0, 0⟩, none, []⟩,
      plainScn ".relxdp_prog" SHT_REL 0 3 5 REL_SIZE
        ((List.range 5).flatMap fun k =>
          relBytes (2 * INSN_SIZE * k) (k + 1)),
      plainScn "maps" SHT_PROGBITS 3 0 0 0
        ([.blacklist, .verdictCnt, .portBlacklist,
          .portBlacklistDropCount .tcp,
          .portBlacklistDropCount .udp].flatMap
            fun id : MapId => mapDefBytes id.mapDef),
      plainScn ".symtab" SHT_SYMTAB 0 6 1 SYM_SIZE
        (symBytes 0 0 0 ++
          (List.range 5).flatMap fun k =>
            symBytes (k + 1) 2 (MAP_DEF_SIZE * k)),
      plainScn "license" SHT_PROGBITS 3 0 0 0
        [0x47, 0x50, 0x4c, 0],
      plainScn "xdp_prog" SHT_PROGBITS 6 0 0 0
        ((List.range 5).flatMap (fun _ =>
            leBytes INSN_SIZE 0x118 ++ leBytes INSN_SIZE 0) ++
          leBytes INSN_SIZE 0x2000000b7 ++
          leBytes INSN_SIZE 0x95)]
  strptr := fun _ stName =>
    [some [], some "blacklist".toList,
      some "verdict_cnt".toList,
      some "port_blacklist".toList,
      some "port_blacklist_drop_count_tcp".toList,
      some "port_blacklist_drop_count_udp".toList].getD
        stName none

def blacklistMaps : Sec :=
  (blacklistElf.getSec 2).get (by decide +kernel)

def blacklistSymtab : Sec :=
  (blacklistElf.getSec 3).get (by decide +kernel)

def blacklistObject : BpfObject where
  elf := blacklistElf
  mapsShndx := 2
  maps := blacklistMaps
  symtabShndx := 3
  symtab := blacklistSymtab
  shnum_lt := by decide +kernel
  null_sec := by decide +kernel
  license_fits :=
    Elf.forall_getSec (P := fun _ sec =>
      sec.shname = "license".toList →
        sec.shdr.shType = SHT_PROGBITS ∧
          sec.data.dSize ≤ LICENSE_SIZE ∧
          sec.data.dSize ≤ sec.data.dBuf.length)
      (by decide +kernel)
  no_version :=
    Elf.forall_getSec (P := fun _ sec =>
      sec.shname ≠ "version".toList) (by decide +kernel)
  maps_sec := (Option.some_get _).symm
  maps_name := by decide +kernel
  maps_type := by decide +kernel
  maps_only :=
    Elf.forall_getSec (P := fun i sec =>
      sec.shname = "maps".toList → i = 2) (by decide +kernel)
  symtab_sec := (Option.some_get _).symm
  symtab_type := by decide +kernel
  symtab_only :=
    Elf.forall_getSec (P := fun i sec =>
      sec.shdr.shType = SHT_SYMTAB → i = 3)
      (by decide +kernel)
  tiled :=
    { data_eq := by decide +kernel
      syms_pos := by decide +kernel
      syms_le := by decide +kernel
      offsets := by decide +kernel
      size_eq := by decide +kernel
      buf_eq := by decide +kernel
      named := by decide +kernel }
  inner_ok := by decide +kernel
  progs_le := by decide +kernel
  prog_code :=
    Elf.forall_getSec (P := fun _ sec =>
      isProgName sec.shname = true →
        "xdp".toList.isPrefixOf sec.shname ∧ sec.IsCode)
      (by decide +kernel)
  code_whole :=
    Elf.forall_getSec (P := fun _ sec =>
      sec.IsCode →
        sec.data.dSize = sec.data.dBuf.length ∧
          INSN_SIZE ∣ sec.data.dSize ∧
          sec.data.dSize < 2 ^ 31)
      (by decide +kernel)
  relocs_fit :=
    Elf.forall_getSec (P := fun _ sec =>
      sec.shdr.shType = SHT_REL →
        blacklistElf.RelocsFit blacklistSymtab.data
          (symsIn blacklistSymtab.data 2) sec)
      (by decide +kernel)
  relocs_nodup :=
    Elf.forall_getSec (P := fun p prog =>
      prog.IsCode →
        ((blacklistElf.relocs blacklistSymtab.data p).map
          RelEntry.insnIdx).Nodup) (by decide +kernel)

end XdpDdos
