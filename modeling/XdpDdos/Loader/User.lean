import XdpDdos.Loader.BpfLoad
import XdpDdos.Control.Modify

/-
  The loader `xdp_ddos01_blacklist_user.c`, once its options
  are parsed; the messages it prints are left out.

  Main declarations:
    * `mapIdxToExportFilename`
    * `preLoadMapsViaFs`, `exportMaps`
    * `removeXdpProgram`, `main`
-/

------------------------------------------------------------
-- Files and Exit Codes
------------------------------------------------------------

namespace XdpDdos

def EXIT_FAIL : ℕ := 1

def EXIT_FAIL_XDP : ℕ := 3

def EXIT_FAIL_MAP : ℕ := 20

def EXIT_FAIL_MAP_FS : ℕ := 23

def NR_MAPS : ℕ := 5

def BPF_FS_MAGIC : ℕ := 0xcafe4a11

def XDP_FLAGS_SKB_MODE : BitVec 32 := 2

/- The object file that `main` loads. -/
def KERN_OBJECT : CStr :=
  "/system/etc/bpf/xdp_ddos01_blacklist_kern.o".toList

/- `map_idx_to_export_filename`. -/
def mapIdxToExportFilename : ℕ → Option CStr
  | 0 => some "/sys/fs/bpf/ddos_blacklist".toList
  | 1 => some "/sys/fs/bpf/ddos_blacklist_stat_verdict".toList
  | 2 => some "/sys/fs/bpf/ddos_port_blacklist".toList
  | 3 =>
      some "/sys/fs/bpf/ddos_port_blacklist_count_tcp".toList
  | 4 =>
      some "/sys/fs/bpf/ddos_port_blacklist_count_udp".toList
  | _ => none

/- The file of a map that has one. -/
def exportFile (i : ℕ) : CStr :=
  (mapIdxToExportFilename i).getD []

/-
  What the command line asks for; the interface is -1 when
  none is given, and an unknown one is refused.
-/
structure Options where
  ifindex : ℤ
  ifindex_ok : ifindex = -1 ∨ 0 < ifindex
  rmXdpProg : Bool
  xdpFlags : BitVec 32
  owner : BitVec 32
  group : BitVec 32

------------------------------------------------------------
-- Removing the Program
------------------------------------------------------------

/- Unlink map files; failures are only warned about. -/
def unlinkMaps : List ℕ → LoadProg Unit
  | [] => return ()
  | i :: is => do
      let _ ← .call' (LoadCall.unlink (exportFile i))
      unlinkMaps is

/- `remove_xdp_program`. -/
def removeXdpProgram
    (ifindex : ℤ)
    (xdpFlags : BitVec 32) : LoadProg Unit := do
  if ifindex > -1 then do
    let _ ← .call' (LoadCall.setLinkXdpFd ifindex (-1) xdpFlags)
    -- Remove all exported map file
    unlinkMaps (List.range NR_MAPS)
  else
    unlinkMaps (List.range NR_MAPS)

------------------------------------------------------------
-- Maps That Already Exist
------------------------------------------------------------

/- `dirname` of a path that does not end in a slash. -/
def dirname (path : CStr) : CStr :=
  if '/' ∈ path then
    match (path.reverse.dropWhile (· ≠ '/')).drop 1 with
    | [] => ['/']
    | dir => dir.reverse
  else ['.']

/- Verify BPF-filesystem is mounted on given file path. -/
def bpfFsCheckPath : Option CStr → LoadProg ℤ
  | none => return -EINVAL
  | some path => do
      match ← .call' (LoadCall.statfs (dirname path)) with
      | .error errno => return -errno
      | .ok fType =>
          if fType ≠ BPF_FS_MAGIC then return -EINVAL
          else return 0

/- Load existing map via filesystem, if possible. -/
def loadMapFile (file : Option CStr) : LoadProg ℤ := do
  let err ← bpfFsCheckPath file
  if err < 0 then .halt (.exit EXIT_FAIL_MAP_FS)
  else do
    let fd ← .call' (LoadCall.objGet (file.getD []))
    if fd > 0 then return fd
    else return -1

/- `maps_marked_for_export`. -/
abbrev ExportMarks :=
  ℕ → Bool

/-
  The callback before a map is created: it takes the map that
  the file refers to, or else marks the map for export.
-/
def preLoadMapsViaFs : FixupMapCb ExportMarks :=
  fun map idx marked => do
    let fd ← loadMapFile (mapIdxToExportFilename idx)
    if fd > 0 then
      -- Makes bpf_load.c skip creating map
      return (fd, marked)
    else
      return (map.fd, Function.update marked idx true)

/- `export_map_idx`. -/
def exportMapIdx
    (mapFd : ℕ → ℤ)
    (mapIdx : ℕ) : LoadProg ℕ := do
  -- Export map as a file
  let ret ← .call' (LoadCall.objPin (mapFd mapIdx)
    (exportFile mapIdx))
  if ret ≠ 0 then return EXIT_FAIL_MAP
  else return 0

/- Export the marked maps; the results are not looked at. -/
def exportMaps
    (mapFd : ℕ → ℤ)
    (marked : ExportMarks) : List ℕ → LoadProg Unit
  | [] => return ()
  | i :: is =>
      if marked i then do
        let _ ← exportMapIdx mapFd i
        exportMaps mapFd marked is
      else exportMaps mapFd marked is

/- `chown_maps`. -/
def chownMaps
    (owner group : BitVec 32) : List ℕ → LoadProg Unit
  | [] => return ()
  | i :: is => do
      let _ ← .call' (LoadCall.chown (exportFile i) owner group)
      chownMaps owner group is

------------------------------------------------------------
-- The Main Program
------------------------------------------------------------

/- Attach the loaded program, after exporting its maps. -/
def exportAndAttach
    (opt : Options)
    (g : LoaderGlobals)
    (marked : ExportMarks) : LoadProg ℕ := do
  -- Export maps that were not loaded from filesystem
  exportMaps g.mapFd marked (List.range NR_MAPS)
  -- an unsigned owner is never negative
  chownMaps opt.owner opt.group (List.range NR_MAPS)
  let ret ←
    .call' (LoadCall.setLinkXdpFd opt.ifindex (g.progFd 0)
      opt.xdpFlags)
  if ret < 0 then return EXIT_FAIL_XDP
  else do
    -- Add something to the map as a test
    .call' (LoadCall.testRules (g.mapFd 0) (g.mapFd 2)
      (g.mapFd 4))
    return EXIT_OK

/- `main`, after its options are parsed. -/
def main (opt : Options) : LoadProg ℕ := do
  if opt.ifindex = -1 then return EXIT_FAIL_OPTION
  else if opt.rmXdpProg then do
    removeXdpProgram opt.ifindex opt.xdpFlags
    return EXIT_OK
  else do
    -- Increase resource limits
    let err ← .call' LoadCall.setrlimit
    if err ≠ 0 then return 1
    else do
      -- Load bpf-ELF file with callback
      let (ret, g, marked) ←
        doLoadBpfFile KERN_OBJECT (some preLoadMapsViaFs)
          .start (fun _ => false)
      if ret ≠ 0 then return EXIT_FAIL
      else if g.progFd 0 = 0 then return 1
      else exportAndAttach opt g marked

end XdpDdos
