import XdpDdos.Loader.Object

/-
  What the three passes do with a well-formed object: after
  the scan and the relocations, which make no calls, loading
  an object is creating its maps and then loading its
  relocated programs.

  Main declarations:
    * `scanSecs_eq`, `relocateSecs_eq`, `loadSecs_eq`
    * `loadMaps_leaves`
    * `BpfObject.loadElf_eq`
-/

------------------------------------------------------------
-- Marks
------------------------------------------------------------

namespace XdpDdos

/- Sections that satisfy `P` may have become processed. -/
structure LoaderGlobals.Marked
    (P : ℕ → Prop)
    (g g' : LoaderGlobals) : Prop where
  rest_eq : { g' with processedSec := g.processedSec } = g
  processed :
    ∀ i, g'.processedSec i = true →
      g.processedSec i = true ∨ P i

namespace LoaderGlobals

variable {P : ℕ → Prop}
variable {g g' g'' : LoaderGlobals}

theorem Marked.refl
    (P : ℕ → Prop)
    (g : LoaderGlobals) :
    Marked P g g where
  rest_eq := rfl
  processed := fun _ => Or.inl

theorem Marked.trans
    (hFirst : Marked P g g')
    (hSecond : Marked P g' g'') :
    Marked P g g'' where
  rest_eq := by
    have hRest :=
      congrArg
        (fun h : LoaderGlobals =>
          { h with processedSec := g.processedSec })
        hSecond.rest_eq
    exact hRest.trans hFirst.rest_eq
  processed := by
    intro i hMark
    rcases hSecond.processed i hMark with hOld | hNew
    · exact hFirst.processed i hOld
    · exact Or.inr hNew

/- A mark within the table is set. -/
theorem setProcessed_of_lt
    (g : LoaderGlobals)
    {i : ℕ}
    (hLt : i < NR_PROCESSED_SEC) :
    g.setProcessed i =
        .ok { g with
          processedSec :=
            Function.update g.processedSec i true } ∧
      ∀ j, Function.update g.processedSec i true j = true →
        g.processedSec j = true ∨ j = i := by
  refine ⟨if_pos hLt, ?_⟩
  intro j hMark
  by_cases hEq : j = i
  · exact Or.inr hEq
  · rw [Function.update_of_ne hEq] at hMark
    exact Or.inl hMark

theorem isProcessed_of_lt
    {i : ℕ}
    (hLt : i < NR_PROCESSED_SEC) :
    g.isProcessed i = .ok (g.processedSec i) :=
  if_pos hLt

end LoaderGlobals

------------------------------------------------------------
-- The Scan
------------------------------------------------------------

/- A readable section with the name of the license. -/
def Elf.IsLicenseSec
    (elf : Elf)
    (i : ℕ) : Prop :=
  ∃ sec, elf.getSec i = some sec ∧
    sec.shname = "license".toList

/- What a scan that has `seen` the maps section leaves. -/
structure Scanned
    (elf : Elf)
    (seen : Prop)
    (g g' : LoaderGlobals) : Prop where
  kernVersion_eq : g'.kernVersion = g.kernVersion
  progCnt_eq : g'.progCnt = g.progCnt
  mapFds :
    ∀ i < MAX_MAPS, seen ∨ (g.mapData i).fd = -1 →
      (g'.mapData i).fd = -1
  processed :
    ∀ i, g'.processedSec i = true →
      g.processedSec i = true ∨ elf.IsLicenseSec i

theorem Scanned.refl
    {elf : Elf}
    {seen : Prop}
    (hUnseen : ¬ seen)
    (g : LoaderGlobals) :
    Scanned elf seen g g where
  kernVersion_eq := rfl
  progCnt_eq := rfl
  mapFds := fun _ _ hFd => hFd.resolve_left hUnseen
  processed := fun _ => Or.inl

theorem Scanned.trans
    {elf : Elf}
    {seen seen' : Prop}
    {g g' g'' : LoaderGlobals}
    (hFirst : Scanned elf seen g g')
    (hSecond : Scanned elf seen' g' g'') :
    Scanned elf (seen ∨ seen') g g'' where
  kernVersion_eq :=
    hSecond.kernVersion_eq.trans hFirst.kernVersion_eq
  progCnt_eq := hSecond.progCnt_eq.trans hFirst.progCnt_eq
  mapFds := by
    intro i hLt hFd
    apply hSecond.mapFds i hLt
    rcases hFd with (hSeen | hSeen') | hOld
    · exact Or.inr (hFirst.mapFds i hLt (Or.inl hSeen))
    · exact Or.inl hSeen'
    · exact Or.inr (hFirst.mapFds i hLt (Or.inr hOld))
  processed := by
    intro i hMark
    rcases hSecond.processed i hMark with hOld | hNew
    · exact hFirst.processed i hOld
    · exact Or.inr hNew

namespace BpfObject

variable (obj : BpfObject)

/- What the scan makes of section `i`, the next one. -/
def ScanRound
    (i : ℕ)
    (is : List ℕ)
    (sc : Scan) : Prop :=
  ∃ g',
    Scanned obj.elf (i = obj.mapsShndx) sc.globals g' ∧
    scanSecs obj.elf (i :: is) sc =
      scanSecs obj.elf is
        { globals := g'
          mapsShndx :=
            if i = obj.mapsShndx then some obj.mapsShndx
            else sc.mapsShndx
          symtab :=
            if i = obj.symtabShndx then some obj.symtabArg
            else sc.symtab }

/- The license is copied, and its section marked. -/
theorem scanRound_license
    {i : ℕ}
    {sec : Sec}
    (hLt : i < NR_PROCESSED_SEC)
    (hSec : obj.elf.getSec i = some sec)
    (hLicense : sec.shname = "license".toList)
    (is : List ℕ)
    (sc : Scan) :
    obj.ScanRound i is sc := by
  rcases obj.license_fits hSec hLicense with
    ⟨hType, hSize, hBuf⟩
  have hMaps : i ≠ obj.mapsShndx := by
    rw [ne_eq, eq_mapsShndx_iff hSec, hLicense]
    decide
  have hSymtab : i ≠ obj.symtabShndx := by
    rw [ne_eq, eq_symtabShndx_iff hSec, hType]
    decide
  rcases LoaderGlobals.setProcessed_of_lt sc.globals hLt with
    ⟨hSet, hMarks⟩
  refine ⟨{ sc.globals with
    processedSec :=
      Function.update sc.globals.processedSec i true
    license :=
      sec.data.dBuf.take sec.data.dSize ++
        sc.globals.license.drop sec.data.dSize },
    ⟨rfl, rfl, ?_, ?_⟩, ?_⟩
  · intro j _ hFd
    exact hFd.resolve_left hMaps
  · intro j hMark
    apply (hMarks j hMark).imp_right
    rintro rfl
    exact ⟨sec, hSec, hLicense⟩
  · simp only [scanSecs, hSec, hLicense, if_true, hSet,
      except_ok_bind, LoaderGlobals.copyLicense, hSize,
      hBuf, and_self, hMaps, hSymtab, if_false]

/- The maps section takes all descriptors away. -/
theorem scanRound_maps
    (is : List ℕ)
    (sc : Scan) :
    obj.ScanRound obj.mapsShndx is sc := by
  have hLicense :
      ¬ obj.maps.shname = "license".toList := by
    rw [obj.maps_name]
    decide
  have hSymtab : obj.mapsShndx ≠ obj.symtabShndx := by
    rw [ne_eq, eq_symtabShndx_iff obj.maps_sec,
      obj.maps_type]
    decide
  refine ⟨{ sc.globals with
    mapData := clearMapFds sc.globals.mapData },
    ⟨rfl, rfl, ?_, fun _ => Or.inl⟩, ?_⟩
  · intro j hMap _
    simp only [clearMapFds, hMap, if_true]
  · simp only [scanSecs, obj.maps_sec]
    rw [if_neg hLicense,
      if_neg (obj.no_version obj.maps_sec),
      if_pos obj.maps_name, if_true, if_neg hSymtab]

/- The scan of one section of the object. -/
theorem scanSecs_cons
    {i : ℕ}
    (hLt : i < NR_PROCESSED_SEC)
    (is : List ℕ)
    (sc : Scan) :
    obj.ScanRound i is sc := by
  cases hSec : obj.elf.getSec i with
  | none =>
      have hMaps : i ≠ obj.mapsShndx := by
        rintro rfl
        cases hSec.symm.trans obj.maps_sec
      have hSymtab : i ≠ obj.symtabShndx := by
        rintro rfl
        cases hSec.symm.trans obj.symtab_sec
      refine ⟨sc.globals, .refl hMaps _, ?_⟩
      simp only [scanSecs, hSec, hMaps, hSymtab, if_false]
  | some sec =>
      by_cases hLicense : sec.shname = "license".toList
      · exact obj.scanRound_license hLt hSec hLicense is sc
      · by_cases hMaps : i = obj.mapsShndx
        · exact hMaps ▸ obj.scanRound_maps is sc
        · -- at most the symbols are taken from the others
          have hVersion := obj.no_version hSec
          have hName : sec.shname ≠ "maps".toList :=
            fun hEq => hMaps ((eq_mapsShndx_iff hSec).mpr hEq)
          refine ⟨sc.globals, .refl hMaps _, ?_⟩
          by_cases hSymtab : i = obj.symtabShndx
          · have hType :=
              (eq_symtabShndx_iff hSec).mp hSymtab
            subst hSymtab
            rw [obj.symtab_sec] at hSec
            cases hSec
            simp only [scanSecs, obj.symtab_sec]
            rw [if_neg hLicense, if_neg hVersion,
              if_neg hName, if_pos hType, if_neg hMaps,
              if_true, symtabArg]
          · have hType : sec.shdr.shType ≠ SHT_SYMTAB :=
              fun hEq =>
                hSymtab ((eq_symtabShndx_iff hSec).mpr hEq)
            simp only [scanSecs, hSec]
            rw [if_neg hLicense, if_neg hVersion,
              if_neg hName, if_neg hType, if_neg hMaps,
              if_neg hSymtab]

/- The scan finds the maps and the symbols. -/
theorem scanSecs_eq
    {is : List ℕ}
    (hIs : ∀ i ∈ is, i < NR_PROCESSED_SEC)
    (sc : Scan) :
    ∃ g',
      Scanned obj.elf (obj.mapsShndx ∈ is) sc.globals g' ∧
      scanSecs obj.elf is sc =
        .ok (0,
          { globals := g'
            mapsShndx :=
              if obj.mapsShndx ∈ is then some obj.mapsShndx
              else sc.mapsShndx
            symtab :=
              if obj.symtabShndx ∈ is then some obj.symtabArg
              else sc.symtab }) := by
  induction is generalizing sc with
  | nil => exact ⟨sc.globals, .refl List.not_mem_nil _, rfl⟩
  | cons i is ih =>
      rcases obj.scanSecs_cons (hIs i List.mem_cons_self) is sc
        with ⟨g₁, hScanned, hStep⟩
      have hTail :
          ∀ j ∈ is, j < NR_PROCESSED_SEC := by
        intro j hMem
        exact hIs j (List.mem_cons_of_mem i hMem)
      rcases ih hTail ⟨g₁,
          if i = obj.mapsShndx then some obj.mapsShndx
          else sc.mapsShndx,
          if i = obj.symtabShndx then some obj.symtabArg
          else sc.symtab⟩ with ⟨g₂, hScanned', hRest⟩
      refine ⟨g₂, ?_, ?_⟩
      · simpa only [List.mem_cons, eq_comm] using
          hScanned.trans hScanned'
      · rw [hStep, hRest]
        by_cases hMaps : obj.mapsShndx ∈ is <;>
          by_cases hSymtab : obj.symtabShndx ∈ is <;>
          simp [hMaps, hSymtab, eq_comm]

end BpfObject

------------------------------------------------------------
-- The Relocation Pass
------------------------------------------------------------

/- The section with other bytes in its buffer. -/
def Sec.withBuf
    (sec : Sec)
    (buf : ByteSeq) : Sec :=
  { sec with data := { sec.data with dBuf := buf } }

/- A relocation section for a section with code. -/
def Elf.TargetsCode
    (elf : Elf)
    (i : ℕ) : Prop :=
  ∃ sec prog, elf.getSec i = some sec ∧
    sec.shdr.shType = SHT_REL ∧
    elf.getSec sec.shdr.shInfo = some prog ∧ prog.IsCode

theorem Elf.relocsOf_of_not_targetsCode
    {elf : Elf}
    {symbols : ElfData}
    {i p : ℕ}
    {prog : Sec}
    (hNot : ¬ elf.TargetsCode i)
    (hProg : elf.getSec p = some prog)
    (hCode : prog.IsCode) :
    elf.relocsOf symbols i p = [] := by
  apply List.eq_nil_iff_forall_not_mem.mpr
  intro e hMem
  rcases Elf.mem_relocsOf hMem with
    ⟨sec, hSec, hRel, hInfo, _⟩
  exact hNot ⟨sec, prog, hSec, hRel, hInfo ▸ hProg, hCode⟩

namespace BpfObject

/- The code of section `p` after the entries `es`. -/
def patched
    (obj : BpfObject)
    (maps : ℕ → BpfMapData)
    (es : List RelEntry)
    (sec : Sec) : Sec :=
  if sec.IsCode then
    sec.withBuf (patchAll maps obj.nrMaps es sec.data.dBuf)
  else sec

/- `elf` is the object after the relocations in `is`. -/
structure RelocatedBy
    (obj : BpfObject)
    (maps : ℕ → BpfMapData)
    (is : List ℕ)
    (elf : Elf) : Prop where
  shnum_eq : elf.shnum = obj.elf.shnum
  getSec_eq :
    ∀ p, elf.getSec p =
      (obj.elf.getSec p).map
        (obj.patched maps
          (is.flatMap fun i =>
            obj.elf.relocsOf obj.symtab.data i p))

variable {obj : BpfObject}
variable {maps : ℕ → BpfMapData}

@[simp] theorem patched_shname
    (es : List RelEntry)
    (sec : Sec) :
    (obj.patched maps es sec).shname = sec.shname := by
  unfold patched
  split <;> rfl

@[simp] theorem patched_event
    (es : List RelEntry)
    (sec : Sec) :
    (obj.patched maps es sec).event = sec.event := by
  unfold patched
  split <;> rfl

@[simp] theorem patched_shdr
    (es : List RelEntry)
    (sec : Sec) :
    (obj.patched maps es sec).shdr = sec.shdr := by
  unfold patched
  split <;> rfl

@[simp] theorem patched_isCode
    (es : List RelEntry)
    (sec : Sec) :
    (obj.patched maps es sec).IsCode ↔ sec.IsCode := by
  simp [Sec.IsCode]

theorem patched_of_isCode
    (es : List RelEntry)
    {sec : Sec}
    (hCode : sec.IsCode) :
    obj.patched maps es sec =
      sec.withBuf
        (patchAll maps obj.nrMaps es sec.data.dBuf) :=
  if_pos hCode

theorem patched_of_not_isCode
    (es : List RelEntry)
    {sec : Sec}
    (hCode : ¬ sec.IsCode) :
    obj.patched maps es sec = sec :=
  if_neg hCode

theorem relocatedBy_nil : obj.RelocatedBy maps [] obj.elf := by
  refine ⟨rfl, ?_⟩
  intro p
  cases hSec : obj.elf.getSec p with
  | none => rfl
  | some sec =>
      by_cases hCode : sec.IsCode
      · rw [Option.map_some, patched_of_isCode _ hCode]
        rfl
      · rw [Option.map_some, patched_of_not_isCode _ hCode]

/- A section without entries for code changes nothing. -/
theorem RelocatedBy.skip
    {is : List ℕ}
    {elf : Elf}
    (hElf : obj.RelocatedBy maps is elf)
    {i : ℕ}
    (hNone :
      ∀ p prog, obj.elf.getSec p = some prog → prog.IsCode →
        obj.elf.relocsOf obj.symtab.data i p = []) :
    obj.RelocatedBy maps (is ++ [i]) elf := by
  refine ⟨hElf.shnum_eq, ?_⟩
  intro p
  rw [hElf.getSec_eq p]
  cases hSec : obj.elf.getSec p with
  | none => rfl
  | some prog =>
      by_cases hCode : prog.IsCode
      · rw [List.flatMap_append, List.flatMap_singleton,
          hNone p prog hSec hCode, List.append_nil]
      · simp only [Option.map_some,
          patched_of_not_isCode _ hCode]

/- Applying the entries of section `i` to its target. -/
theorem RelocatedBy.setBuf
    {is : List ℕ}
    {elf : Elf}
    (hElf : obj.RelocatedBy maps is elf)
    {i : ℕ}
    {sec prog prog' : Sec}
    (hSec : obj.elf.getSec i = some sec)
    (hRel : sec.shdr.shType = SHT_REL)
    (hProg : obj.elf.getSec sec.shdr.shInfo = some prog)
    (hCode : prog.IsCode)
    (hProg' : elf.getSec sec.shdr.shInfo = some prog') :
    obj.RelocatedBy maps (is ++ [i])
      (elf.setBuf sec.shdr.shInfo
        (patchAll maps obj.nrMaps
          (obj.elf.relocsOf obj.symtab.data i
            sec.shdr.shInfo) prog'.data.dBuf)) := by
  refine ⟨(Elf.shnum_setBuf _ _ _).trans hElf.shnum_eq, ?_⟩
  intro p
  rw [Elf.getSec_setBuf]
  by_cases hHere : p = sec.shdr.shInfo
  · subst hHere
    have hPatched := hElf.getSec_eq sec.shdr.shInfo
    rw [hProg', hProg, Option.map_some,
      patched_of_isCode _ hCode] at hPatched
    cases hPatched
    rw [if_pos rfl, hProg', hProg, Option.map_some,
      Option.map_some, patched_of_isCode _ hCode,
      List.flatMap_append, List.flatMap_singleton,
      patchAll_append]
    rfl
  · rw [if_neg hHere, hElf.getSec_eq p, List.flatMap_append,
      List.flatMap_singleton, Elf.relocsOf_eq hSec hRel,
      if_neg hHere, List.append_nil]

/- All entries of a section are applied to patched code. -/
theorem parseReloAndApply_eq
    (hTable : obj.HasTable maps)
    (is : List ℕ)
    {i : ℕ}
    {sec prog : Sec}
    (hSec : obj.elf.getSec i = some sec)
    (hRel : sec.shdr.shType = SHT_REL)
    (hProg : obj.elf.getSec sec.shdr.shInfo = some prog)
    (hCode : prog.IsCode) :
    let insn :=
      patchAll maps obj.nrMaps
        (is.flatMap fun j =>
          obj.elf.relocsOf obj.symtab.data j sec.shdr.shInfo)
        prog.data.dBuf
    parseReloAndApply sec.data obj.symtab.data sec.shdr insn
        maps obj.nrMaps =
      .ok (0,
        patchAll maps obj.nrMaps
          (obj.elf.relocsOf obj.symtab.data i
            sec.shdr.shInfo) insn) := by
  intro insn
  have hEntsize := (obj.relocs_fit hSec hRel _ hProg hCode).1
  have hNrels :
      (cInt (sec.shdr.shSize / REL_SIZE)).toNat =
        sec.shdr.shSize / REL_SIZE := by
    rw [cInt_of_lt (nrels_lt hSec hRel hProg hCode)]
    rfl
  have hNonzero : ¬ REL_SIZE = 0 := by decide
  simp only [parseReloAndApply, hEntsize, hNonzero, if_false,
    hNrels]
  rw [applyRels_eq, Elf.relocsOf_eq hSec hRel, if_pos rfl]
  intro k hMem
  rcases relocAt_valid hTable hSec hRel hProg hCode
    (List.mem_range.mp hMem) with ⟨e, hEntry, _, hValid⟩
  refine ⟨e, hEntry, hValid.patchAll ?_⟩
  intro e' hMem'
  rcases List.mem_flatMap.mp hMem' with ⟨j, _, hHere⟩
  exact (valid_of_mem_relocsOf hTable hProg hCode hHere).2

/- A section that the pass has nothing to do for. -/
theorem relocateSecs_skip
    {done : List ℕ}
    {elf : Elf}
    {g : LoaderGlobals}
    {i : ℕ}
    (hElf : obj.RelocatedBy maps done elf)
    (hLt : i < NR_PROCESSED_SEC)
    (hNot : ¬ obj.elf.TargetsCode i)
    (is : List ℕ) :
    relocateSecs obj.symtab.data obj.nrMaps (i :: is) elf g =
      relocateSecs obj.symtab.data obj.nrMaps is elf g := by
  rw [relocateSecs, LoaderGlobals.isProcessed_of_lt hLt,
    except_ok_bind]
  cases hMark : g.processedSec i with
  | true => rfl
  | false =>
      have hSec' := hElf.getSec_eq i
      cases hSec : obj.elf.getSec i with
      | none =>
          rw [hSec, Option.map_none] at hSec'
          simp only [hSec', Bool.false_eq_true, if_false]
      | some sec =>
          rw [hSec, Option.map_some] at hSec'
          simp only [hSec', patched_shdr, Bool.false_eq_true,
            if_false]
          by_cases hRel : sec.shdr.shType = SHT_REL
          · rw [if_neg (not_not_intro hRel)]
            have hProg' := hElf.getSec_eq sec.shdr.shInfo
            cases hProg : obj.elf.getSec sec.shdr.shInfo with
            | none =>
                rw [hProg, Option.map_none] at hProg'
                simp only [hProg']
            | some prog =>
                rw [hProg, Option.map_some] at hProg'
                have hCode : ¬ prog.IsCode := by
                  intro hCode
                  exact hNot ⟨sec, prog, hSec, hRel, hProg,
                    hCode⟩
                simp only [hProg', patched_shdr]
                rw [if_pos]
                rw [Sec.IsCode, not_and_or] at hCode
                simpa using hCode
          · rw [if_pos hRel]

/- A section with entries for code: all are applied. -/
theorem relocateSecs_apply
    {done : List ℕ}
    {elf : Elf}
    {g : LoaderGlobals}
    {i : ℕ}
    (hTable : obj.HasTable g.mapData)
    (hElf : obj.RelocatedBy g.mapData done elf)
    (hLt : i < NR_PROCESSED_SEC)
    (hUnmarked : g.processedSec i = false)
    (hTarget : obj.elf.TargetsCode i)
    (is : List ℕ) :
    ∃ elf', obj.RelocatedBy g.mapData (done ++ [i]) elf' ∧
      relocateSecs obj.symtab.data obj.nrMaps (i :: is) elf
          g =
        relocateSecs obj.symtab.data obj.nrMaps is elf'
          { g with
            processedSec :=
              Function.update g.processedSec i true } := by
  rcases hTarget with ⟨sec, prog, hSec, hRel, hProg, hCode⟩
  have hNotCode : ¬ sec.IsCode := by
    intro hCode
    rw [Sec.IsCode, hRel] at hCode
    exact absurd hCode.1 (by decide)
  have hSec' := hElf.getSec_eq i
  rw [hSec, Option.map_some,
    patched_of_not_isCode _ hNotCode] at hSec'
  have hProg' := hElf.getSec_eq sec.shdr.shInfo
  rw [hProg, Option.map_some,
    patched_of_isCode _ hCode] at hProg'
  refine ⟨_, hElf.setBuf hSec hRel hProg hCode hProg', ?_⟩
  rw [relocateSecs, LoaderGlobals.isProcessed_of_lt hLt,
    except_ok_bind, hUnmarked]
  have hParse :=
    parseReloAndApply_eq hTable done hSec hRel hProg hCode
  simp only [hSec', hRel, hProg', Sec.withBuf, hCode.1,
    hCode.2, Bool.false_eq_true, if_false, ne_eq,
    not_true_eq_false,
    (LoaderGlobals.setProcessed_of_lt g hLt).1, hParse,
    except_ok_bind]
  rfl

/- The relocation pass over the whole object. -/
theorem relocateSecs_eq
    {done is : List ℕ}
    {elf : Elf}
    {g : LoaderGlobals}
    (hTable : obj.HasTable g.mapData)
    (hElf : obj.RelocatedBy g.mapData done elf)
    (hIs : ∀ i ∈ is, i < NR_PROCESSED_SEC)
    (hNodup : is.Nodup)
    (hUnmarked :
      ∀ i ∈ is, obj.elf.TargetsCode i →
        g.processedSec i = false) :
    ∃ elf' g',
      obj.RelocatedBy g.mapData (done ++ is) elf' ∧
      LoaderGlobals.Marked obj.elf.TargetsCode g g' ∧
      relocateSecs obj.symtab.data obj.nrMaps is elf g =
        .ok (elf', g') := by
  induction is generalizing done elf g with
  | nil =>
      refine ⟨elf, g, ?_, .refl _ g, rfl⟩
      rwa [List.append_nil]
  | cons i is ih =>
      have hLt := hIs i List.mem_cons_self
      have hIs' : ∀ j ∈ is, j < NR_PROCESSED_SEC := by
        intro j hMem
        exact hIs j (List.mem_cons_of_mem i hMem)
      rcases List.nodup_cons.mp hNodup with ⟨hFresh, hNodup'⟩
      rw [List.append_cons]
      by_cases hTarget : obj.elf.TargetsCode i
      · rcases relocateSecs_apply hTable hElf hLt
          (hUnmarked i List.mem_cons_self hTarget) hTarget is
          with ⟨elf₁, hElf₁, hStep⟩
        rw [hStep]
        have hMarked :
            LoaderGlobals.Marked obj.elf.TargetsCode g
              { g with
                processedSec :=
                  Function.update g.processedSec i true } := by
          refine ⟨rfl, ?_⟩
          intro j hMark
          apply ((LoaderGlobals.setProcessed_of_lt g hLt).2 j
            hMark).imp_right
          rintro rfl
          exact hTarget
        have hUnmarked' :
            ∀ j ∈ is, obj.elf.TargetsCode j →
              Function.update g.processedSec i true j =
                false := by
          intro j hMem hTarget'
          have hNe : j ≠ i := by
            rintro rfl
            exact hFresh hMem
          rw [Function.update_of_ne hNe]
          exact hUnmarked j (List.mem_cons_of_mem i hMem)
            hTarget'
        rcases ih (g := { g with
            processedSec :=
              Function.update g.processedSec i true })
          hTable hElf₁ hIs' hNodup' hUnmarked' with
          ⟨elf₂, g₂, hElf₂, hMarked', hRest⟩
        exact ⟨elf₂, g₂, hElf₂, hMarked.trans hMarked', hRest⟩
      · rw [relocateSecs_skip hElf hLt hTarget is]
        apply ih hTable (hElf.skip ?_) hIs' hNodup'
        · intro j hMem hTarget'
          exact hUnmarked j (List.mem_cons_of_mem i hMem)
            hTarget'
        · intro p prog hProg hCode
          exact Elf.relocsOf_of_not_targetsCode hTarget hProg
            hCode

end BpfObject

------------------------------------------------------------
-- The Programs
------------------------------------------------------------

/- Record the descriptor of a loaded program. -/
def LoaderGlobals.addProg
    (g : LoaderGlobals)
    (fd : ℤ) : LoaderGlobals :=
  { g with
    progFd := Function.update g.progFd g.progCnt fd
    progCnt := g.progCnt + 1 }

/- Load packet programs one after the other. -/
def loadXdpProgs :
    List ElfData → LoaderGlobals →
      LoadProg (ℤ × LoaderGlobals)
  | [], g => return (0, g)
  | data :: rest, g => do
      let fd ← .call' (LoadCall.loadProgram .xdp data.dBuf
        (insnsCount data.dSize) g.license g.kernVersion)
      if fd < 0 then return (-1, g)
      else loadXdpProgs rest (g.addProg fd)

theorem progTypeOf_xdp
    {event : CStr}
    (hXdp : "xdp".toList.isPrefixOf event) :
    progTypeOf event = some .xdp := by
  have hPrefix : "xdp".toList <+: event := by
    simpa using hXdp
  rcases hPrefix with ⟨rest, rfl⟩
  rfl

/- A packet program is loaded, and attached to nothing. -/
theorem loadAndAttach_xdp
    {event : TableStr}
    (hXdp : "xdp".toList.isPrefixOf event.str)
    (data : ElfData)
    {g : LoaderGlobals}
    (hRoom : g.progCnt < MAX_PROGS) :
    loadAndAttach event data g =
      .call (LoadCall.loadProgram .xdp data.dBuf
          (insnsCount data.dSize) g.license g.kernVersion)
        fun fd =>
          if fd < 0 then .ret (-1, g)
          else .ret (0, g.addProg fd) := by
  have hFull : ¬ MAX_PROGS ≤ g.progCnt := Nat.not_le.mpr hRoom
  simp only [loadAndAttach, progTypeOf_xdp hXdp,
    CallProg.call'_bind, CallProg.pure_eq_ret, ge_iff_le,
    hFull, if_false]
  rfl

namespace BpfObject

/- The relocated code of section `p`. -/
def program
    (obj : BpfObject)
    (maps : ℕ → BpfMapData)
    (p : ℕ) : ElfData :=
  match obj.elf.getSec p with
  | none => ⟨[], 0⟩
  | some sec => (obj.patched maps (obj.relocs p) sec).data

/- The code of the programs among the sections `is`. -/
def programsIn
    (obj : BpfObject)
    (maps : ℕ → BpfMapData)
    (is : List ℕ) : List ElfData :=
  (is.filter obj.elf.isProgSec).map (obj.program maps)

/- The relocated code of all programs, in header order. -/
def programs
    (obj : BpfObject)
    (maps : ℕ → BpfMapData) : List ElfData :=
  obj.programsIn maps obj.elf.secIndices

variable {obj : BpfObject}
variable {maps : ℕ → BpfMapData}

theorem programsIn_cons_of_prog
    {i : ℕ}
    {sec : Sec}
    (hSec : obj.elf.getSec i = some sec)
    (hName : isProgName sec.shname = true)
    (is : List ℕ) :
    obj.programsIn maps (i :: is) =
      (obj.patched maps (obj.relocs i) sec).data ::
        obj.programsIn maps is := by
  have hProg : obj.elf.isProgSec i = true := by
    rw [Elf.isProgSec, hSec]
    exact hName
  rw [programsIn, List.filter_cons_of_pos hProg,
    List.map_cons, programsIn, program, hSec]

theorem programsIn_cons_of_other
    {i : ℕ}
    (hOther : ¬ obj.elf.isProgSec i = true)
    (is : List ℕ) :
    obj.programsIn maps (i :: is) =
      obj.programsIn maps is := by
  rw [programsIn, List.filter_cons_of_neg hOther, programsIn]

/- The last pass loads the relocated programs. -/
theorem loadSecs_eq
    {elf : Elf}
    (hElf : obj.RelocatedBy maps obj.elf.secIndices elf)
    {is : List ℕ}
    (hIs : ∀ i ∈ is, i < NR_PROCESSED_SEC)
    {g : LoaderGlobals}
    (hUnmarked :
      ∀ i ∈ is, obj.elf.isProgSec i →
        g.processedSec i = false)
    (hRoom :
      g.progCnt + (is.filter obj.elf.isProgSec).length ≤
        MAX_PROGS) :
    loadSecs elf is g =
      loadXdpProgs (obj.programsIn maps is) g := by
  induction is generalizing g with
  | nil => rfl
  | cons i is ih =>
      have hLt := hIs i List.mem_cons_self
      have hIs' : ∀ j ∈ is, j < NR_PROCESSED_SEC := by
        intro j hMem
        exact hIs j (List.mem_cons_of_mem i hMem)
      have hSec' := hElf.getSec_eq i
      rw [loadSecs, LoaderGlobals.isProcessed_of_lt hLt,
        CallProg.ofExcept_ok, CallProg.ret_bind]
      by_cases hProg : obj.elf.isProgSec i = true
      · have hMark := hUnmarked i List.mem_cons_self hProg
        rw [List.filter_cons_of_pos hProg,
          List.length_cons] at hRoom
        rcases (Option.any_eq_true _ _).mp hProg with
          ⟨sec, hSec, hName⟩
        rw [hSec, Option.map_some] at hSec'
        have hXdp : "xdp".toList.isPrefixOf sec.event.str :=
          (obj.prog_code hSec hName).1
        rw [programsIn_cons_of_prog hSec hName]
        simp only [hMark, Bool.false_eq_true, if_false, hSec',
          patched_shname, patched_event, hName, if_true,
          loadAndAttach_xdp hXdp _ (by omega :
            g.progCnt < MAX_PROGS),
          loadXdpProgs, CallProg.call_bind,
          CallProg.call'_bind, CallProg.call.injEq,
          heq_eq_eq]
        refine ⟨rfl, ?_⟩
        funext fd
        by_cases hFd : fd < 0
        · rw [if_pos hFd, if_pos hFd]
          rfl
        · rw [if_neg hFd, if_neg hFd]
          apply ih hIs'
          · intro j hMem hHere
            exact hUnmarked j (List.mem_cons_of_mem i hMem)
              hHere
          · simp only [LoaderGlobals.addProg]
            omega
      · rw [List.filter_cons_of_neg hProg] at hRoom
        have hRest :
            loadSecs elf is g =
              loadXdpProgs (obj.programsIn maps (i :: is))
                g := by
          rw [programsIn_cons_of_other hProg]
          apply ih hIs' _ hRoom
          intro j hMem hHere
          exact hUnmarked j (List.mem_cons_of_mem i hMem) hHere
        rw [← hRest]
        cases g.processedSec i with
        | true => rfl
        | false =>
            cases hSec : obj.elf.getSec i with
            | none =>
                rw [hSec, Option.map_none] at hSec'
                simp only [hSec', Bool.false_eq_true,
                  if_false]
            | some sec =>
                rw [hSec, Option.map_some] at hSec'
                have hName : ¬ isProgName sec.shname := by
                  simpa [Elf.isProgSec, hSec] using hProg
                simp only [hSec', patched_shname, hName,
                  Bool.false_eq_true, if_false]

end BpfObject

------------------------------------------------------------
-- The Maps
------------------------------------------------------------

/- Map entries may have been given descriptors. -/
structure LoaderGlobals.MapsGiven
    (g g' : LoaderGlobals) : Prop where
  same : ∀ i, (g.mapData i).SameMap (g'.mapData i)
  rest_eq :
    { g' with
      mapData := g.mapData
      mapFd := g.mapFd
      progArrayFd := g.progArrayFd } = g

namespace LoaderGlobals

variable {g g' g'' : LoaderGlobals}

theorem MapsGiven.refl (g : LoaderGlobals) : MapsGiven g g where
  same := fun _ => ⟨rfl, rfl, rfl⟩
  rest_eq := rfl

theorem MapsGiven.trans
    (hFirst : MapsGiven g g')
    (hSecond : MapsGiven g' g'') :
    MapsGiven g g'' where
  same := by
    intro i
    rcases hFirst.same i with ⟨hName, hOffset, hDef⟩
    rcases hSecond.same i with ⟨hName', hOffset', hDef'⟩
    exact ⟨hName'.trans hName, hOffset'.trans hOffset,
      hDef'.trans hDef⟩
  rest_eq := by
    have hRest :=
      congrArg
        (fun h : LoaderGlobals =>
          { h with
            mapData := g.mapData
            mapFd := g.mapFd
            progArrayFd := g.progArrayFd })
        hSecond.rest_eq
    exact hRest.trans hFirst.rest_eq

theorem MapsGiven.processedSec_eq
    (hGiven : MapsGiven g g') :
    g'.processedSec = g.processedSec := by
  have hRest := congrArg processedSec hGiven.rest_eq
  exact hRest

theorem MapsGiven.kernVersion_eq
    (hGiven : MapsGiven g g') :
    g'.kernVersion = g.kernVersion := by
  have hRest := congrArg kernVersion hGiven.rest_eq
  exact hRest

theorem MapsGiven.progCnt_eq
    (hGiven : MapsGiven g g') :
    g'.progCnt = g.progCnt := by
  have hRest := congrArg progCnt hGiven.rest_eq
  exact hRest

/- Map `i` gets the descriptor `fd`, in both tables. -/
def giveFd
    (g : LoaderGlobals)
    (i : ℕ)
    (fd : ℤ) : LoaderGlobals :=
  (g.setMapData i { g.mapData i with fd := fd }).setMapFd i fd

theorem giveFd_mapsGiven
    (g : LoaderGlobals)
    (i : ℕ)
    (fd : ℤ) :
    MapsGiven g (g.giveFd i fd) where
  same := by
    intro j
    simp only [giveFd, setMapData, setMapFd]
    by_cases hEq : j = i
    · subst hEq
      rw [Function.update_self]
      exact ⟨rfl, rfl, rfl⟩
    · rw [Function.update_of_ne hEq]
      exact ⟨rfl, rfl, rfl⟩
  rest_eq := rfl

/- The two tables agree on the descriptor of map `i`. -/
def FdAgrees
    (g : LoaderGlobals)
    (i : ℕ) : Prop :=
  (g.mapData i).fd = g.mapFd i

theorem giveFd_fdAgrees
    (g : LoaderGlobals)
    (fd : ℤ)
    {i j : ℕ}
    (hAgrees : j = i ∨ g.FdAgrees j) :
    (g.giveFd i fd).FdAgrees j := by
  simp only [FdAgrees, giveFd, setMapData, setMapFd]
  by_cases hEq : j = i
  · subst hEq
    simp only [Function.update_self]
  · simp only [Function.update_of_ne hEq]
    exact hAgrees.resolve_left hEq

end LoaderGlobals

namespace LoaderGlobals

/- Map `i` was created; program arrays are remembered. -/
def giveNewFd
    (g : LoaderGlobals)
    (i : ℕ)
    (fd : ℤ) : LoaderGlobals :=
  if (g.mapData i).mapDef.type = BPF_MAP_TYPE_PROG_ARRAY then
    { g.giveFd i fd with progArrayFd := fd }
  else g.giveFd i fd

/- The entry is written before a creation and behind it. -/
theorem setMapData_twice
    (g : LoaderGlobals)
    (i : ℕ)
    (fd : ℤ)
    (map map' : BpfMapData) :
    ((g.setMapData i map).setMapFd i fd).setMapData i map' =
      (g.setMapData i map').setMapFd i fd := by
  simp only [setMapData, setMapFd, Function.update_idem]

theorem giveNewFd_mapsGiven
    (g : LoaderGlobals)
    (i : ℕ)
    (fd : ℤ) :
    MapsGiven g (g.giveNewFd i fd) := by
  have hGiven := giveFd_mapsGiven g i fd
  unfold giveNewFd
  split
  · exact ⟨hGiven.same, rfl⟩
  · exact hGiven

theorem giveNewFd_fdAgrees
    (g : LoaderGlobals)
    (fd : ℤ)
    {i j : ℕ}
    (hAgrees : j = i ∨ g.FdAgrees j) :
    (g.giveNewFd i fd).FdAgrees j := by
  have hGiven := giveFd_fdAgrees g fd hAgrees
  unfold giveNewFd
  split
  · exact hGiven
  · exact hGiven

end LoaderGlobals

variable {υ : Type}

/-
  One round of the loop: the map gets the descriptor that the
  callback assigned, or that of the map created for it.
-/
theorem loadMaps_cons
    (fixupMap : Option (FixupMapCb υ))
    {i : ℕ}
    (hLt : i < MAX_MAPS)
    (is : List ℕ)
    (g : LoaderGlobals)
    (u : υ) :
    loadMaps fixupMap (i :: is) g u =
      (fixupMapFd fixupMap (g.mapData i) i u >>= fun r =>
        if fixupMap.isSome ∧ r.1 ≠ -1 then
          loadMaps fixupMap is (g.giveFd i r.1) r.2
        else
          createMap (g.mapData i) g.mapFd >>= fun fd =>
            if fd < 0 then
              .ret (1, (g.setMapData i
                { g.mapData i with fd := r.1 }).setMapFd i fd,
                r.2)
            else
              loadMaps fixupMap is (g.giveNewFd i fd) r.2) := by
  rw [loadMaps, if_neg (Nat.not_le.mpr hLt)]
  refine congrArg _ (funext ?_)
  rintro ⟨fd, u⟩
  refine ite_congr rfl (fun _ => rfl) (fun _ => ?_)
  refine congrArg _ (funext fun newFd => ?_)
  refine ite_congr rfl (fun _ => rfl) (fun _ => ?_)
  rw [LoaderGlobals.setMapData_twice, LoaderGlobals.giveNewFd]
  rfl

/-
  Whatever the callback and the kernel answer, maps get at
  most descriptors, and on success the same in both tables.
-/
theorem loadMaps_leaves
    (fixupMap : Option (FixupMapCb υ))
    (is : List ℕ)
    (g : LoaderGlobals)
    (u : υ) :
    (loadMaps fixupMap is g u).Leaves fun r =>
      LoaderGlobals.MapsGiven g r.2.1 ∧
        (r.1 = 0 →
          ∀ i, i ∈ is ∨ g.FdAgrees i → r.2.1.FdAgrees i) := by
  induction is generalizing g u with
  | nil =>
      refine ⟨.refl g, ?_⟩
      rintro _ i (hMem | hAgrees)
      · cases hMem
      · exact hAgrees
  | cons i is ih =>
      by_cases hLt : i < MAX_MAPS
      · rw [loadMaps_cons fixupMap hLt]
        -- the rest of the loop, after a round that gave `g'`
        have hRound
            (g' : LoaderGlobals)
            (u' : υ)
            (hGiven : LoaderGlobals.MapsGiven g g')
            (hRound :
              ∀ j, j = i ∨ g.FdAgrees j → g'.FdAgrees j) :
            (loadMaps fixupMap is g' u').Leaves fun r =>
              LoaderGlobals.MapsGiven g r.2.1 ∧
                (r.1 = 0 → ∀ j, j ∈ i :: is ∨ g.FdAgrees j →
                  r.2.1.FdAgrees j) := by
          apply (ih g' u').mono
          rintro ⟨ret, g'', u''⟩ ⟨hGiven', hAgrees⟩
          refine ⟨hGiven.trans hGiven', ?_⟩
          rintro hRet j (hMem | hOld)
          · apply hAgrees hRet
            rcases List.mem_cons.mp hMem with hHere | hTail
            · exact Or.inr (hRound j (Or.inl hHere))
            · exact Or.inl hTail
          · exact hAgrees hRet j
              (Or.inr (hRound j (Or.inr hOld)))
        apply (CallProg.leaves_true (fun _ => trivial)
          _).bind
        rintro ⟨fd, u'⟩ -
        by_cases hAssigned : fixupMap.isSome ∧ fd ≠ -1
        · rw [if_pos hAssigned]
          apply hRound _ _ (g.giveFd_mapsGiven i fd)
          intro j
          exact g.giveFd_fdAgrees fd
        · rw [if_neg hAssigned]
          apply (CallProg.leaves_true (fun _ => trivial)
            _).bind
          rintro newFd -
          by_cases hFail : newFd < 0
          · rw [if_pos hFail]
            refine ⟨⟨?_, rfl⟩, ?_⟩
            · exact (g.giveFd_mapsGiven i fd).same
            · intro hRet
              cases hRet
          · rw [if_neg hFail]
            apply hRound _ _ (g.giveNewFd_mapsGiven i newFd)
            intro j
            exact g.giveNewFd_fdAgrees newFd
      · rw [loadMaps, if_pos (Nat.le_of_not_lt hLt)]
        trivial

------------------------------------------------------------
-- Loading an Object
------------------------------------------------------------

namespace BpfObject

/- The globals once the sections and the maps are known. -/
def beforeMaps
    (obj : BpfObject)
    (g : LoaderGlobals) : LoaderGlobals :=
  match scanSecs obj.elf obj.elf.secIndices
    ⟨g, none, none⟩ with
  | .error _ => g
  | .ok (_, sc) =>
      match loadElfMapsSection sc.globals.mapData
        obj.mapsShndx obj.elf obj.symtab.data
        obj.symtab.shdr.shLink with
      | .error _ => sc.globals
      | .ok (_, maps) => { sc.globals with mapData := maps }

/- The globals once the maps section is done. -/
def afterMaps
    (obj : BpfObject)
    (g : LoaderGlobals) : LoaderGlobals :=
  { g with
    mapDataCount := obj.nrMaps
    processedSec :=
      Function.update g.processedSec obj.mapsShndx true }

/- The globals after the relocation pass. -/
def afterRelocs
    (obj : BpfObject)
    (g : LoaderGlobals) : LoaderGlobals :=
  match relocateSecs obj.symtab.data obj.nrMaps
    obj.elf.secIndices obj.elf (obj.afterMaps g) with
  | .error _ => g
  | .ok (_, g') => g'

/- What is known of the globals before maps are created. -/
structure BeforeMaps
    (obj : BpfObject)
    (g g₀ : LoaderGlobals) : Prop where
  table : obj.HasTable g₀.mapData
  noFds : ∀ i < MAX_MAPS, (g₀.mapData i).fd = -1
  kernVersion_eq : g₀.kernVersion = g.kernVersion
  progCnt_eq : g₀.progCnt = g.progCnt
  processed :
    ∀ i, g₀.processedSec i = true →
      g.processedSec i = true ∨ obj.elf.IsLicenseSec i

theorem secIndices_lt
    (obj : BpfObject) :
    ∀ i ∈ obj.elf.secIndices, i < NR_PROCESSED_SEC :=
  fun _ => lt_of_mem_secIndices

/- The scan and the maps section of a well-formed object. -/
theorem scan_eq
    (obj : BpfObject)
    (g : LoaderGlobals) :
    ∃ sc,
      sc.mapsShndx = some obj.mapsShndx ∧
      sc.symtab = some obj.symtabArg ∧
      scanSecs obj.elf obj.elf.secIndices ⟨g, none, none⟩ =
        .ok (0, sc) ∧
      loadElfMapsSection sc.globals.mapData obj.mapsShndx
          obj.elf obj.symtab.data obj.symtab.shdr.shLink =
        .ok ((obj.nrMaps : ℕ),
          (obj.beforeMaps g).mapData) ∧
      obj.beforeMaps g =
        { sc.globals with
          mapData := (obj.beforeMaps g).mapData } ∧
      obj.BeforeMaps g (obj.beforeMaps g) := by
  rcases obj.scanSecs_eq obj.secIndices_lt ⟨g, none, none⟩
    with ⟨g₁, hScanned, hScan⟩
  have hMaps := mem_secIndices obj.maps_sec
  rw [if_pos hMaps, if_pos (mem_secIndices obj.symtab_sec)]
    at hScan
  rcases loadElfMapsSection_eq obj.tiled g₁.mapData with
    ⟨maps, hRead, hTable, hFds⟩
  have hBefore :
      obj.beforeMaps g = { g₁ with mapData := maps } := by
    simp only [beforeMaps, hScan, hRead]
  refine ⟨_, rfl, rfl, hScan, ?_, ?_, ?_⟩
  · rw [hBefore]
    exact hRead
  · rw [hBefore]
  · rw [hBefore]
    exact
      { table := hTable
        noFds := by
          intro i hLt
          exact (hFds i).trans
            (hScanned.mapFds i hLt (Or.inl hMaps))
        kernVersion_eq := hScanned.kernVersion_eq
        progCnt_eq := hScanned.progCnt_eq
        processed := hScanned.processed }

/- Which sections may be marked before the relocations. -/
theorem isDataSec_of_processed
    {obj : BpfObject}
    {g g₀ g₁ : LoaderGlobals}
    (hFresh : ∀ i, g.processedSec i = false)
    (hBefore : obj.BeforeMaps g g₀)
    (hGiven : LoaderGlobals.MapsGiven g₀ g₁)
    {i : ℕ}
    (hMark : (obj.afterMaps g₁).processedSec i = true) :
    ∃ sec, obj.elf.getSec i = some sec ∧
      sec.shdr.shType = SHT_PROGBITS ∧
      isProgName sec.shname = false := by
  simp only [afterMaps] at hMark
  by_cases hEq : i = obj.mapsShndx
  · subst hEq
    refine ⟨obj.maps, obj.maps_sec, obj.maps_type, ?_⟩
    rw [obj.maps_name]
    decide
  · rw [Function.update_of_ne hEq] at hMark
    rw [hGiven.processedSec_eq] at hMark
    rcases hBefore.processed i hMark with hOld | hLicense
    · rw [hFresh i] at hOld
      cases hOld
    · rcases hLicense with ⟨sec, hSec, hName⟩
      refine ⟨sec, hSec, (obj.license_fits hSec hName).1, ?_⟩
      rw [hName]
      decide

/-
  The relocation pass on the maps that were given: it keeps
  everything but marks, and no program is marked by it.
-/
theorem afterRelocs_marked
    {obj : BpfObject}
    {g g₀ g₁ : LoaderGlobals}
    (hFresh : ∀ i, g.processedSec i = false)
    (hBefore : obj.BeforeMaps g g₀)
    (hGiven : LoaderGlobals.MapsGiven g₀ g₁) :
    ∃ elf',
      obj.RelocatedBy g₁.mapData obj.elf.secIndices elf' ∧
      LoaderGlobals.Marked obj.elf.TargetsCode
        (obj.afterMaps g₁) (obj.afterRelocs g₁) ∧
      relocateSecs obj.symtab.data obj.nrMaps
          obj.elf.secIndices obj.elf (obj.afterMaps g₁) =
        .ok (elf', obj.afterRelocs g₁) := by
  have hTable : obj.HasTable (obj.afterMaps g₁).mapData :=
    hBefore.table.of_sameMap hGiven.same
  have hUnmarked :
      ∀ i ∈ obj.elf.secIndices, obj.elf.TargetsCode i →
        (obj.afterMaps g₁).processedSec i = false := by
    rintro i _ ⟨sec, _, hSec, hRel, _⟩
    by_contra hMark
    rw [Bool.not_eq_false] at hMark
    rcases isDataSec_of_processed hFresh hBefore hGiven hMark
      with ⟨sec', hSec', hType, _⟩
    rw [hSec] at hSec'
    cases hSec'
    rw [hRel] at hType
    exact absurd hType (by decide)
  rcases relocateSecs_eq hTable relocatedBy_nil
    obj.secIndices_lt (List.nodup_range' _) hUnmarked with
    ⟨elf', g', hElf, hMarked, hEq⟩
  have hAfter : obj.afterRelocs g₁ = g' := by
    simp only [afterRelocs, hEq]
  rw [hAfter]
  exact ⟨elf', hElf, hMarked, hEq⟩

/- What is left of the globals when programs are loaded. -/
structure GivenKept
    (g g₁ g₂ : LoaderGlobals) : Prop where
  mapData_eq : g₂.mapData = g₁.mapData
  mapFd_eq : g₂.mapFd = g₁.mapFd
  progCnt_eq : g₂.progCnt = g.progCnt
  kernVersion_eq : g₂.kernVersion = g.kernVersion

/- The relocation pass leaves maps and counters alone. -/
theorem afterRelocs_kept
    {obj : BpfObject}
    {g g₀ g₁ : LoaderGlobals}
    (hFresh : ∀ i, g.processedSec i = false)
    (hBefore : obj.BeforeMaps g g₀)
    (hGiven : LoaderGlobals.MapsGiven g₀ g₁) :
    GivenKept g g₁ (obj.afterRelocs g₁) := by
  rcases afterRelocs_marked hFresh hBefore hGiven with
    ⟨_, _, hMarked, _⟩
  have hRest := hMarked.rest_eq
  have hMapData := congrArg LoaderGlobals.mapData hRest
  have hMapFd := congrArg LoaderGlobals.mapFd hRest
  have hProgCnt := congrArg LoaderGlobals.progCnt hRest
  have hVersion := congrArg LoaderGlobals.kernVersion hRest
  exact
    { mapData_eq := hMapData
      mapFd_eq := hMapFd
      progCnt_eq := hProgCnt.trans
        (hGiven.progCnt_eq.trans hBefore.progCnt_eq)
      kernVersion_eq := hVersion.trans
        (hGiven.kernVersion_eq.trans
          hBefore.kernVersion_eq) }

theorem isProgSec_unmarked
    {obj : BpfObject}
    {g g₀ g₁ : LoaderGlobals}
    (hFresh : ∀ i, g.processedSec i = false)
    (hBefore : obj.BeforeMaps g g₀)
    (hGiven : LoaderGlobals.MapsGiven g₀ g₁)
    {i : ℕ}
    (hProg : obj.elf.isProgSec i = true) :
    (obj.afterRelocs g₁).processedSec i = false := by
  rcases (Option.any_eq_true _ _).mp hProg with
    ⟨sec, hSec, hName⟩
  rcases afterRelocs_marked hFresh hBefore hGiven with
    ⟨_, _, hMarked, _⟩
  by_contra hMark
  rw [Bool.not_eq_false] at hMark
  rcases hMarked.processed i hMark with hData | hRelSec
  · rcases isDataSec_of_processed hFresh hBefore hGiven hData
      with ⟨sec', hSec', _, hOther⟩
    rw [hSec] at hSec'
    cases hSec'
    rw [hName] at hOther
    cases hOther
  · rcases hRelSec with ⟨sec', _, hSec', hRel, _⟩
    rw [hSec] at hSec'
    cases hSec'
    have hType := (obj.prog_code hSec hName).2.1
    rw [hRel] at hType
    exact absurd hType (by decide)

/-
  Loading a well-formed object is giving descriptors to its
  maps, and then loading its relocated programs.
-/
theorem loadElf_eq
    (obj : BpfObject)
    (fixupMap : Option (FixupMapCb υ))
    {g : LoaderGlobals}
    (hFresh : ∀ i, g.processedSec i = false)
    (hCnt : g.progCnt = 0)
    (u : υ) :
    loadElf fixupMap obj.elf g u =
      (loadMaps fixupMap (List.range obj.nrMaps)
          (obj.beforeMaps g) u >>= fun r =>
        if r.1 ≠ 0 then .ret (1, r.2.1, r.2.2)
        else
          loadXdpProgs (obj.programs r.2.1.mapData)
              (obj.afterRelocs r.2.1) >>= fun q =>
            .ret (q.1, q.2, r.2.2)) := by
  rcases obj.scan_eq g with
    ⟨sc, hMaps, hSymtab, hScan, hRead, hEq, hBefore⟩
  have hNonneg : ¬ ((obj.nrMaps : ℕ) : ℤ) < 0 := by omega
  simp only [loadElf, hScan, hMaps, hSymtab, symtabArg,
    CallProg.ofExcept_ok, CallProg.ret_bind, ne_eq,
    not_true_eq_false, if_false, loadMapsOf, hRead, hNonneg,
    Int.toNat_natCast, CallProg.bind_assoc]
  rw [← hEq]
  refine (loadMaps_leaves fixupMap _ _ u).bind_congr ?_
  rintro ⟨ret, g₁, u₁⟩ ⟨hGiven, _⟩
  by_cases hRet : ret = 0
  · rcases afterRelocs_marked hFresh hBefore hGiven with
      ⟨elf', hElf, hMarked, hRelocs⟩
    have hMark := (LoaderGlobals.setProcessed_of_lt
      { g₁ with mapDataCount := obj.nrMaps }
      (obj.secIndices_lt _ (mem_secIndices obj.maps_sec))).1
    have hKept := afterRelocs_kept hFresh hBefore hGiven
    have hRoom :
        (obj.afterRelocs g₁).progCnt +
            (obj.elf.secIndices.filter
              obj.elf.isProgSec).length ≤ MAX_PROGS := by
      rw [hKept.progCnt_eq, hCnt, Nat.zero_add]
      exact obj.progs_le
    have hLoad := loadSecs_eq hElf obj.secIndices_lt
      (fun i _ hProg =>
        isProgSec_unmarked hFresh hBefore hGiven hProg) hRoom
    have hIndices : elf'.secIndices = obj.elf.secIndices := by
      rw [Elf.secIndices, hElf.shnum_eq, Elf.secIndices]
    simp only [afterMaps] at hRelocs
    simp only [hRet, not_true_eq_false, if_false, hMark,
      CallProg.ofExcept_ok, CallProg.pure_eq_ret,
      CallProg.ret_bind, hRelocs, hIndices, hLoad]
    rfl
  · simp only [hRet, not_false_eq_true, if_true]
    rfl

end BpfObject

end XdpDdos
