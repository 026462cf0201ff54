import XdpDdos.Loader.PassPositions

/-
  Which positions the loader uses for the maps: the bytes of
  the definitions, and the maps that others are created with.

  Main declarations:
    * `MapDefOutside`, `verdict_readMapDef`
    * `MapsOutside`, `verdict_section`
    * `BpfMapDef.InnerEarlier`, `Elf.InnerMapsEarlier`
    * `keepsIn_loadMaps`, `trace_loadMaps_none`
    * `keepsIn_loadMapsOf`, `continues_loadMapsOf_givenMaps`
-/

------------------------------------------------------------
-- The Bytes of a Definition
------------------------------------------------------------

namespace XdpDdos

open CallProg (Continues AlwaysOverruns KeepsIn)

/- The bytes up to one that is not zero are there. -/
theorem bytesCompared_inRange_iff
    {data : ElfData}
    {offset size : ℕ} :
    (Position.mapDef offset (bytesCompared data offset size)
        data.dBuf.length).InRange ↔
      ((data.dBuf.drop offset).take size).any (· ≠ 0) =
          true ∨
        size = 0 ∨ offset + size ≤ data.dBuf.length := by
  have hLength :
      ((data.dBuf.drop offset).take size).length ≤
        data.dBuf.length - offset := by
    rw [List.length_take, List.length_drop]
    exact Nat.min_le_right _ _
  unfold Position.InRange bytesCompared
  cases hFirst :
      ((data.dBuf.drop offset).take size).findIdx?
        (· ≠ 0) with
  | none =>
      rw [List.findIdx?_eq_none_iff] at hFirst
      have hNone :
          ((data.dBuf.drop offset).take size).any (· ≠ 0) =
            false :=
        List.any_eq_false.mpr fun byte hMem =>
          Bool.not_eq_true _ ▸ hFirst byte hMem
      simp only [hNone, Bool.false_eq_true, false_or]
      omega
  | some k =>
      rcases List.findIdx?_eq_some_iff_getElem.mp hFirst with
        ⟨hLt, hHere, _⟩
      have hAny :
          ((data.dBuf.drop offset).take size).any (· ≠ 0) =
            true :=
        List.any_eq_true.mpr
          ⟨_, List.getElem_mem hLt, hHere⟩
      refine iff_of_true (Or.inr ?_) (Or.inl hAny)
      simp only
      omega

/- When the comparison comes to an end. -/
theorem validateZero_ok_iff
    {data : ElfData}
    {offset size : ℕ} :
    (∃ valid, validateZero data offset size = .ok valid) ↔
      (Position.mapDef offset (bytesCompared data offset size)
        data.dBuf.length).InRange := by
  rw [bytesCompared_inRange_iff, validateZero]
  simp only [List.length_take, List.length_drop]
  by_cases hAny :
      ((data.dBuf.drop offset).take size).any (· ≠ 0) = true
  · rw [if_pos hAny]
    exact iff_of_true ⟨_, rfl⟩ (Or.inl hAny)
  · rw [if_neg hAny]
    split
    · rename_i hShort
      refine iff_of_false ?_ ?_
      · rintro ⟨valid, hEq⟩
        cases hEq
      · rintro (hIs | hInside)
        · exact hAny hIs
        · omega
    · rename_i hShort
      refine iff_of_true ⟨_, rfl⟩ (Or.inr ?_)
      omega

/-
  Bytes of the definition at `offset` are looked at that the
  section does not have.
-/
inductive MapDefOutside
    (dataMaps : ElfData)
    (mapSzElf : ℤ)
    (offset : ℕ) : Prop where
  | negative
      (hSize : mapSzElf < 0)
  | copied
      (hSize : mapSzElf ≠ 0)
      (hEnd :
        dataMaps.dBuf.length <
          offset + min mapSzElf.toNat MAP_DEF_SIZE)
  | compared
      (hSize : MAP_DEF_SIZE < mapSzElf)
      (hZero :
        newFeatureAt dataMaps mapSzElf.toNat offset = false)
      (hEnd :
        dataMaps.dBuf.length < offset + mapSzElf.toNat)

section

variable {dataMaps : ElfData}
variable {mapSzElf : ℤ}
variable {offset : ℕ}

/- The bytes that are copied are in the section. -/
theorem copied_inRange_iff :
    (Position.mapDef offset (min mapSzElf MAP_DEF_SIZE)
        dataMaps.dBuf.length).InRange ↔
      ¬ mapSzElf < 0 ∧
        ¬ (mapSzElf ≠ 0 ∧
          dataMaps.dBuf.length <
            offset + min mapSzElf.toNat MAP_DEF_SIZE) := by
  simp only [Position.InRange, MAP_DEF_SIZE]
  omega

/- The copy is made exactly if they are. -/
theorem copyMapDef_of_inRange
    {size : ℤ}
    (hUse :
      (Position.mapDef offset size
        dataMaps.dBuf.length).InRange) :
    ∃ mapDef,
      copyMapDef dataMaps offset size = .ok mapDef :=
  ⟨_, if_pos hUse⟩

theorem copyMapDef_of_not_inRange
    {size : ℤ}
    (hUse :
      ¬ (Position.mapDef offset size
        dataMaps.dBuf.length).InRange) :
    copyMapDef dataMaps offset size = .error .outOfRange :=
  if_neg hUse

/- Of a large definition the rest is compared with zero. -/
theorem compared_inRange_iff
    (dataMaps : ElfData)
    (offset : ℕ)
    (hLarge : MAP_DEF_SIZE < mapSzElf) :
    (Position.mapDef (offset + MAP_DEF_SIZE)
        (bytesCompared dataMaps (offset + MAP_DEF_SIZE)
          (mapSzElf.toNat - MAP_DEF_SIZE))
        dataMaps.dBuf.length).InRange ↔
      ¬ (newFeatureAt dataMaps mapSzElf.toNat offset = false ∧
        dataMaps.dBuf.length < offset + mapSzElf.toNat) := by
  rw [bytesCompared_inRange_iff, ← newFeatureAt]
  cases newFeatureAt dataMaps mapSzElf.toNat offset with
  | true => simp
  | false =>
      simp only [Bool.false_eq_true, false_or, true_and]
      omega

/- The part for a large definition. -/
theorem verdict_compared
    (dataMaps : ElfData)
    (offset : ℕ)
    (hLarge : MAP_DEF_SIZE < mapSzElf)
    (mapDef : BpfMapDef) :
    Verdict Position.InRange
      (newFeatureAt dataMaps mapSzElf.toNat offset = false ∧
        dataMaps.dBuf.length < offset + mapSzElf.toNat)
      (do
        CallProg.note
          (.mapDef (offset + MAP_DEF_SIZE)
            (bytesCompared dataMaps (offset + MAP_DEF_SIZE)
              (mapSzElf.toNat - MAP_DEF_SIZE))
            dataMaps.dBuf.length)
        let valid ←
          .ofExcept (validateZero dataMaps
            (offset + MAP_DEF_SIZE)
            (mapSzElf.toNat - MAP_DEF_SIZE))
        return (mapDef, valid) :
          NotedProg (BpfMapDef × Bool)) := by
  have hRange := compared_inRange_iff dataMaps offset hLarge
  by_cases hUse :
      (Position.mapDef (offset + MAP_DEF_SIZE)
        (bytesCompared dataMaps (offset + MAP_DEF_SIZE)
          (mapSzElf.toNat - MAP_DEF_SIZE))
        dataMaps.dBuf.length).InRange
  · refine .keeps (hRange.mp hUse)
      (CallProg.keepsIn_note_bind hUse ?_)
    exact (CallProg.keepsIn_ofExcept _).bind fun _ => trivial
  · refine .overruns (not_not.mp (mt hRange.mpr hUse))
      (CallProg.alwaysOverruns_note hUse ?_)
    rw [← validateZero_ok_iff] at hUse
    cases hZero :
        validateZero dataMaps (offset + MAP_DEF_SIZE)
          (mapSzElf.toNat - MAP_DEF_SIZE) with
    | error crash => exact ⟨crash, rfl⟩
    | ok valid => exact absurd ⟨valid, hZero⟩ hUse

theorem verdict_readMapDef
    (dataMaps : ElfData)
    (mapSzElf : ℤ)
    (offset : ℕ) :
    Verdict Position.InRange
      (MapDefOutside dataMaps mapSzElf offset)
      (Noted.readMapDef dataMaps mapSzElf
        (min mapSzElf MAP_DEF_SIZE) offset) := by
  by_cases hCopied :
      (Position.mapDef offset (min mapSzElf MAP_DEF_SIZE)
        dataMaps.dBuf.length).InRange
  · have hInside := copied_inRange_iff.mp hCopied
    rcases copyMapDef_of_inRange hCopied with ⟨mapDef, hCopy⟩
    have hRun :
        Continues Position.InRange
          (Noted.readMapDef dataMaps mapSzElf
            (min mapSzElf MAP_DEF_SIZE) offset) _ :=
      .use hCopied (.refl _)
    rw [hCopy] at hRun
    simp only [CallProg.ofExcept_ok] at hRun
    change Continues Position.InRange _
      (if mapSzElf > MAP_DEF_SIZE then _ else _) at hRun
    by_cases hLarge : mapSzElf > MAP_DEF_SIZE
    · rw [if_pos hLarge] at hRun
      cases verdict_compared dataMaps offset hLarge
          mapDef with
      | overruns hBad hOver =>
          exact .overruns (.compared hLarge hBad.1 hBad.2)
            (hRun.alwaysOverruns hOver)
      | keeps hBad hKeeps =>
          refine .keeps ?_ (hRun.keepsIn hKeeps)
          intro hOutside
          cases hOutside with
          | negative hSize => exact hInside.1 hSize
          | copied hSize hEnd => exact hInside.2 ⟨hSize, hEnd⟩
          | compared hSize hZero hEnd =>
              exact hBad ⟨hZero, hEnd⟩
    · rw [if_neg hLarge] at hRun
      refine .keeps ?_ (hRun.keepsIn trivial)
      intro hOutside
      cases hOutside with
      | negative hSize => exact hInside.1 hSize
      | copied hSize hEnd => exact hInside.2 ⟨hSize, hEnd⟩
      | compared hSize hZero hEnd => exact hLarge hSize
  · have hOutside : MapDefOutside dataMaps mapSzElf offset := by
      rw [copied_inRange_iff, not_and_or, not_not,
        not_not] at hCopied
      rcases hCopied with hSize | ⟨hSize, hEnd⟩
      · exact .negative hSize
      · exact .copied hSize hEnd
    refine .overruns hOutside
      (CallProg.alwaysOverruns_note hCopied
        ⟨.outOfRange, ?_⟩)
    rw [copyMapDef_of_not_inRange hCopied]
    rfl

------------------------------------------------------------
-- The Definitions of a Section
------------------------------------------------------------

/- A symbol with an entry, and a definition outside. -/
structure DefOutside
    (elf : Elf)
    (strtabidx : ℕ)
    (dataMaps : ElfData)
    (mapSzElf : ℤ)
    (entry : GElfSym × ℕ) : Prop where
  named : (elf.strptr strtabidx entry.1.stName).isSome
  index_lt : entry.2 < MAX_MAPS
  outside : MapDefOutside dataMaps mapSzElf entry.1.stValue

end

section

variable {elf : Elf}
variable {strtabidx : ℕ}
variable {dataMaps : ElfData}
variable {mapSzElf : ℤ}
variable {nrMaps : ℕ}

/- A symbol with a name and an entry: its definition first. -/
theorem continues_fillMaps
    {sym : GElfSym}
    {i : ℕ}
    {mapName : List Char}
    (hName : elf.strptr strtabidx sym.stName = some mapName)
    (hLt : i < MAX_MAPS)
    (l : List (GElfSym × ℕ))
    (maps : ℕ → BpfMapData) :
    Continues Position.InRange
      (Noted.fillMaps elf strtabidx dataMaps mapSzElf
        (min mapSzElf MAP_DEF_SIZE) nrMaps
        ((sym, i) :: l) maps) (do
      let (mapDef, valid) ←
        Noted.readMapDef dataMaps mapSzElf
          (min mapSzElf MAP_DEF_SIZE) sym.stValue
      let maps' := Function.update maps i
        { maps i with
          name := mapName
          elfOffset := sym.stValue
          mapDef := mapDef }
      if valid then
        Noted.fillMaps elf strtabidx dataMaps mapSzElf
          (min mapSzElf MAP_DEF_SIZE) nrMaps l maps'
      else
        return (-EFBIG, maps')) := by
  simp only [Noted.fillMaps, hName, hLt, if_true]
  exact .refl _

theorem fillPosStep
    (entry : GElfSym × ℕ)
    (l : List (GElfSym × ℕ))
    (maps : ℕ → BpfMapData) :
    LoopStep Position.InRange
      (Fills elf strtabidx dataMaps mapSzElf)
      (DefOutside elf strtabidx dataMaps mapSzElf)
      (fun _ _ => True)
      (Noted.fillMaps elf strtabidx dataMaps mapSzElf
        (min mapSzElf MAP_DEF_SIZE) nrMaps)
      entry l maps := by
  rcases entry with ⟨sym, i⟩
  cases hName : elf.strptr strtabidx sym.stName with
  | none =>
      have hUnnamed :
          ¬ (elf.strptr strtabidx sym.stName).isSome := by
        rw [hName]
        exact Bool.false_ne_true
      refine .stops (fun hIs => hUnnamed hIs.1.named)
        (fun hIs => hUnnamed hIs.named) ?_
      simp only [Noted.fillMaps, hName]
      trivial
  | some mapName =>
      have hNamed :
          (elf.strptr strtabidx sym.stName).isSome := by
        rw [hName]
        rfl
      by_cases hLt : i < MAX_MAPS
      · have hCons :
            Continues Position.InRange
              (Noted.fillMaps elf strtabidx dataMaps mapSzElf
                (min mapSzElf MAP_DEF_SIZE) nrMaps
                ((sym, i) :: l) maps) _ :=
          continues_fillMaps hName hLt l maps
        cases verdict_readMapDef dataMaps mapSzElf
            sym.stValue with
        | overruns hBad hOver =>
            exact .exceeds ⟨hNamed, hLt, hBad⟩
              (hCons.alwaysOverruns (hOver.bind _))
        | keeps hBad hKeeps =>
            have hNot :
                ¬ DefOutside elf strtabidx dataMaps mapSzElf
                  (sym, i) :=
              fun hIs => hBad hIs.outside
            have hRead :=
              CallProg.continues_of_forget hKeeps
                (forget_readMapDef _ _ _ _)
            have hRun := hCons.trans (hRead.bind _)
            cases hResult :
                Indexed.readMapDef dataMaps mapSzElf
                  (min mapSzElf MAP_DEF_SIZE)
                  sym.stValue with
            | error crash =>
                rw [hResult] at hRun
                refine .stops ?_ hNot (hRun.keepsIn trivial)
                intro hFills
                rw [hFills.1.readMapDef_eq] at hResult
                cases hResult
            | ok read =>
                rcases read with ⟨mapDef, valid⟩
                rw [hResult] at hRun
                cases valid with
                | true =>
                    exact .passes _
                      ⟨filledIn_of_readMapDef hNamed hResult,
                        hLt⟩ hNot trivial hRun
                | false =>
                    refine .stops ?_ hNot
                      (hRun.keepsIn trivial)
                    intro hFills
                    rw [hFills.1.readMapDef_eq] at hResult
                    cases hResult
      · refine .stops (fun hIs => hLt hIs.2)
          (fun hIs => hLt hIs.index_lt) ?_
        simp only [Noted.fillMaps, hName, hLt, if_false]
        trivial

/- The loop overruns if it comes to such a symbol. -/
theorem verdict_fillMaps
    (l : List (GElfSym × ℕ))
    (maps : ℕ → BpfMapData) :
    Verdict Position.InRange
      (Reaches (Fills elf strtabidx dataMaps mapSzElf)
        (DefOutside elf strtabidx dataMaps mapSzElf) l)
      (Noted.fillMaps elf strtabidx dataMaps mapSzElf
        (min mapSzElf MAP_DEF_SIZE) nrMaps l maps) := by
  have hNil :
      ∀ maps,
        KeepsIn Position.InRange
          (Noted.fillMaps elf strtabidx dataMaps mapSzElf
            (min mapSzElf MAP_DEF_SIZE) nrMaps [] maps) :=
    fun _ => trivial
  exact loop_verdict hNil
    (fun entry l maps _ => fillPosStep entry l maps) trivial

end

/-
  The symbols fit, and in the order of their offsets the
  first that is not filled in has a definition outside.
-/
structure MapsOutside
    (elf : Elf)
    (mapsShndx : ℕ)
    (symtab : ElfData × ℕ)
    (dataMaps : ElfData) : Prop where
  syms_fit : SymsFit symtab.1 mapsShndx
  outside :
    Reaches
      (Fills elf symtab.2 dataMaps
        (cInt (dataMaps.dSize /
          (symsIn symtab.1 mapsShndx).length)))
      (DefOutside elf symtab.2 dataMaps
        (cInt (dataMaps.dSize /
          (symsIn symtab.1 mapsShndx).length)))
      (sortedSyms (symsIn symtab.1 mapsShndx)).zipIdx

/- Reading the section overruns it only so. -/
theorem verdict_section
    {elf : Elf}
    {mapsShndx : ℕ}
    {symtab : ElfData × ℕ}
    {dataMaps : ElfData}
    (hData :
      elf.scns[mapsShndx]?.bind ElfScn.data = some dataMaps)
    (maps : ℕ → BpfMapData) :
    Verdict Position.InRange
      (MapsOutside elf mapsShndx symtab dataMaps)
      (Noted.loadElfMapsSection maps mapsShndx elf symtab.1
        symtab.2) := by
  simp only [Noted.loadElfMapsSection, hData]
  cases hSyms :
      mapSymbols symtab.1 mapsShndx
        (List.range (symtab.1.dSize / SYM_SIZE)) [] with
  | error crash =>
      refine .keeps ?_ trivial
      intro hOutside
      have hOk :=
        mapSymbols_range_iff.mpr ⟨hOutside.syms_fit, rfl⟩
      rw [hSyms] at hOk
      cases hOk
  | ok sym =>
      rcases mapSymbols_range_iff.mp hSyms with ⟨hFit, rfl⟩
      rw [CallProg.ofExcept_ok, CallProg.ret_bind]
      by_cases hNone :
          (symsIn symtab.1 mapsShndx).length = 0
      · rw [if_pos hNone]
        refine .keeps ?_ trivial
        intro hOutside
        have hReached := hOutside.outside
        have hSorted :
            (sortedSyms
              (symsIn symtab.1 mapsShndx)).zipIdx = [] := by
          rw [List.length_eq_zero_iff.mp hNone, sortedSyms,
            List.mergeSort_nil, List.zipIdx_nil]
        rw [hSorted] at hReached
        cases hReached
      · rw [if_neg hNone]
        have hFill :
            Verdict Position.InRange _
              (Noted.fillMaps elf symtab.2 dataMaps
                (cInt (dataMaps.dSize /
                  (symsIn symtab.1 mapsShndx).length))
                _ (symsIn symtab.1 mapsShndx).length
                (sortedSyms
                  (symsIn symtab.1 mapsShndx)).zipIdx maps) :=
          verdict_fillMaps _ maps
        cases hFill with
        | overruns hBad hOver =>
            exact .overruns ⟨hFit, hBad⟩ hOver
        | keeps hBad hKeeps =>
            exact .keeps (fun hIs => hBad hIs.outside) hKeeps

------------------------------------------------------------
-- Inner Maps
------------------------------------------------------------

/- A map of maps names one that comes before it. -/
def BpfMapDef.InnerEarlier
    (mapDef : BpfMapDef)
    (i : ℕ) : Prop :=
  mapDef.type = BPF_MAP_TYPE_ARRAY_OF_MAPS ∨
      mapDef.type = BPF_MAP_TYPE_HASH_OF_MAPS →
    mapDef.innerMapIdx < i

section

variable {υ α : Type}
variable {i : ℕ}
variable {is : List ℕ}

theorem BpfMapDef.InnerEarlier.inTable
    {mapDef : BpfMapDef}
    (hEarlier : mapDef.InnerEarlier i)
    (hLt : i < MAX_MAPS) :
    mapDef.InnerInTable :=
  fun hIs => Nat.lt_trans (hEarlier hIs) hLt

theorem continues_noteInnerMap
    {mapDef : BpfMapDef}
    (hEarlier : mapDef.InnerEarlier i)
    (f : Unit → NotedProg α) :
    Continues Position.InRange
      (Noted.noteInnerMap mapDef i >>= f) (f ()) := by
  rw [Noted.noteInnerMap]
  split
  · rename_i hIs
    exact .use (hEarlier hIs) (.refl _)
  · exact .refl _

/- An inner map that does not come before. -/
theorem trace_noteInnerMap
    {mapDef : BpfMapDef}
    (hNot : ¬ mapDef.InnerEarlier i)
    (f : Unit → NotedProg α)
    {σ : Type}
    (handler :
      CallProg.Handler LoadCall LoadCall.Resp σ)
    (s : σ) :
    ∃ call ∈ (Noted.noteInnerMap mapDef i >>= f).trace
        (CallProg.watched handler) s,
      ¬ call.1.Keeps Position.InRange := by
  rw [BpfMapDef.InnerEarlier, Classical.not_imp] at hNot
  rw [Noted.noteInnerMap, if_pos hNot.1]
  exact ⟨_, List.mem_cons_self, hNot.2⟩

/- The loop body, with the tables as `giveFd` leaves them. -/
theorem noted_loadMaps_cons
    (fixupMap : Option (FixupMapCb υ))
    (hLt : i < MAX_MAPS)
    (is : List ℕ)
    (g : LoaderGlobals)
    (u : υ) :
    Noted.loadMaps fixupMap (i :: is) g u =
      (CallProg.watch (fixupMapFd fixupMap (g.mapData i) i
          u) >>= fun r =>
        if fixupMap.isSome ∧ r.1 ≠ -1 then
          Noted.loadMaps fixupMap is (g.giveFd i r.1) r.2
        else
          Noted.noteInnerMap (g.mapData i).mapDef i >>=
            fun _ =>
          CallProg.watch (createMap (g.mapData i) g.mapFd) >>=
            fun fd =>
          if fd < 0 then
            .ret (1, (g.setMapData i
              { g.mapData i with fd := r.1 }).setMapFd i fd,
              r.2)
          else
            Noted.loadMaps fixupMap is (g.giveNewFd i fd)
              r.2) := by
  rw [Noted.loadMaps, if_neg (Nat.not_le.mpr hLt)]
  refine congrArg _ (funext ?_)
  rintro ⟨fd, u⟩
  refine ite_congr rfl (fun _ => rfl) (fun _ => ?_)
  refine congrArg _ (funext fun _ => ?_)
  refine congrArg _ (funext fun newFd => ?_)
  refine ite_congr rfl (fun _ => rfl) (fun _ => ?_)
  rw [LoaderGlobals.setMapData_twice, LoaderGlobals.giveNewFd]
  rfl

/- Maps that name earlier ones are loaded in range. -/
theorem keepsIn_loadMaps
    (fixupMap : Option (FixupMapCb υ))
    (g : LoaderGlobals)
    (u : υ)
    (hInner :
      ∀ i ∈ is, (g.mapData i).mapDef.InnerEarlier i) :
    KeepsIn Position.InRange
      (Noted.loadMaps fixupMap is g u) := by
  induction is generalizing g u with
  | nil => trivial
  | cons i is ih =>
      rw [List.forall_mem_cons] at hInner
      by_cases hLt : i < MAX_MAPS
      · rw [noted_loadMaps_cons fixupMap hLt]
        -- a round keeps all definitions
        have hRound
            {g' : LoaderGlobals}
            (hGiven : LoaderGlobals.MapsGiven g g')
            (u' : υ) :
            KeepsIn Position.InRange
              (Noted.loadMaps fixupMap is g' u') := by
          apply ih
          intro j hMem
          rw [(hGiven.same j).2.2]
          exact hInner.2 j hMem
        apply (CallProg.keepsIn_watch _).bind
        rintro ⟨fd, u'⟩
        by_cases hAssigned : fixupMap.isSome ∧ fd ≠ -1
        · rw [if_pos hAssigned]
          exact hRound (g.giveFd_mapsGiven i fd) u'
        · rw [if_neg hAssigned]
          apply (continues_noteInnerMap hInner.1 _).keepsIn
          apply (CallProg.keepsIn_watch _).bind
          intro newFd
          split
          · trivial
          · exact hRound (g.giveNewFd_mapsGiven i newFd) u'
      · rw [Noted.loadMaps, if_pos (Nat.le_of_not_lt hLt)]
        trivial

/- With all descriptors assigned no map names another. -/
theorem keepsIn_loadMaps_givenMaps
    (g : LoaderGlobals) :
    KeepsIn Position.InRange
      (Noted.loadMaps (some givenMaps) is g ()) := by
  induction is generalizing g with
  | nil => trivial
  | cons i is ih =>
      by_cases hLt : i < MAX_MAPS
      · rw [noted_loadMaps_cons _ hLt]
        exact ih (g.giveFd i 0)
      · rw [Noted.loadMaps, if_pos (Nat.le_of_not_lt hLt)]
        trivial

/- The loop body when no callback is given. -/
theorem noted_loadMaps_none
    (hLt : i < MAX_MAPS)
    (is : List ℕ)
    (g : LoaderGlobals) :
    Noted.loadMaps (none : Option (FixupMapCb Unit))
        (i :: is) g () =
      (Noted.noteInnerMap (g.mapData i).mapDef i >>= fun _ =>
        CallProg.watch (createMap (g.mapData i) g.mapFd) >>=
          fun fd =>
        if fd < 0 then
          .ret (1, (g.setMapData i (g.mapData i)).setMapFd i
            fd, ())
        else
          Noted.loadMaps none is (g.giveNewFd i fd) ()) :=
  noted_loadMaps_cons none hLt is g ()

/- Without a callback each inner map is used. -/
theorem trace_loadMaps_none
    {g : LoaderGlobals}
    (hIs : ∀ i ∈ is, i < MAX_MAPS)
    (hInner :
      ∃ i ∈ is, ¬ (g.mapData i).mapDef.InnerEarlier i)
    (elf : Elf) :
    ∃ call ∈ (Noted.loadMaps
        (none : Option (FixupMapCb Unit)) is g ()).trace
          (CallProg.watched (allSucceed elf)) (),
      ¬ call.1.Keeps Position.InRange := by
  induction is generalizing g with
  | nil =>
      rcases hInner with ⟨i, hMem, _⟩
      cases hMem
  | cons i is ih =>
      rw [List.forall_mem_cons] at hIs
      rw [noted_loadMaps_none hIs.1]
      by_cases hHere : (g.mapData i).mapDef.InnerEarlier i
      · have hCreate :
            (CallProg.watch (createMap (g.mapData i)
                g.mapFd) : NotedProg ℤ).run
                (CallProg.watched (allSucceed elf)) () =
              (.returned 0, ()) := by
          rw [CallProg.run_watch]
          exact run_createMap_allSucceed
            (hHere.inTable hIs.1) _ elf
        have hRest :
            ∃ j ∈ is,
              ¬ ((g.giveNewFd i 0).mapData
                j).mapDef.InnerEarlier j := by
          rcases hInner with ⟨j, hMem, hNot⟩
          refine ⟨j, ?_, ?_⟩
          · rcases List.mem_cons.mp hMem with rfl | hMem
            · exact absurd hHere hNot
            · exact hMem
          · rw [((g.giveNewFd_mapsGiven i 0).same j).2.2]
            exact hNot
        rcases ih hIs.2 hRest with ⟨call, hMem, hBad⟩
        exact ⟨call,
          (continues_noteInnerMap hHere _).mem_trace
            (CallProg.mem_trace_bind_right hCreate hMem),
          hBad⟩
      · exact trace_noteInnerMap hHere _ _ ()

end

------------------------------------------------------------
-- The Part for the Maps
------------------------------------------------------------

/- In the order of the table each inner map comes before. -/
def Elf.InnerMapsEarlier
    (elf : Elf)
    (symtab : ElfData × ℕ) : Prop :=
  ∀ mapsShndx ∈ elf.mapsShndx?,
    ∀ sec ∈ elf.getSec mapsShndx,
      ∀ entry ∈
          (sortedSyms (symsIn symtab.1 mapsShndx)).zipIdx,
        (decodeMapDef
          ((sec.data.dBuf.drop entry.1.stValue).take
            (min (cInt (sec.data.dSize /
              (symsIn symtab.1 mapsShndx).length)).toNat
              MAP_DEF_SIZE))).InnerEarlier entry.2

section

variable {υ : Type}
variable {elf : Elf}
variable {symtab : ElfData × ℕ}
variable {mapsShndx : ℕ}
variable {sec : Sec}
variable {g : LoaderGlobals}
variable {u : υ}
variable {fixupMap : Option (FixupMapCb υ)}

/- A table that is filled has no definition outside. -/
theorem MapsFill.not_outside
    (hFill : MapsFill elf mapsShndx symtab sec.data) :
    ¬ MapsOutside elf mapsShndx symtab sec.data := by
  intro hOutside
  have hAll :=
    fills_zipIdx_iff.mpr ⟨hFill.count_le, hFill.filled⟩
  refine hOutside.outside.not_forall ?_ hAll
  rintro entry hIs ⟨hFilled, _⟩
  have hCopied := hFilled.copied
  cases hIs.outside with
  | negative hSize =>
      exact absurd hFilled.size_nonneg (by omega)
  | copied hSize hEnd => omega
  | compared hSize hZero hEnd =>
      have hChecked := hFilled.checked hSize
      omega

/- The definitions that are used without a callback. -/
theorem innerEarlier_filledTable
    (hMaps : elf.mapsShndx? = some mapsShndx)
    (hSec : elf.getSec mapsShndx = some sec) :
    elf.InnerMapsEarlier symtab ↔
      ∀ i ∈ List.range (symsIn symtab.1 mapsShndx).length,
        (filledTable elf mapsShndx symtab sec.data g.mapData
          i).mapDef.InnerEarlier i := by
  constructor
  · intro hInner i hMem
    rw [List.mem_range, ← length_sortedSyms] at hMem
    have hEntry :
        ((sortedSyms (symsIn symtab.1 mapsShndx))[i], i) ∈
          (sortedSyms (symsIn symtab.1 mapsShndx)).zipIdx :=
      List.mem_zipIdx_iff_getElem?.mpr
        (List.getElem?_eq_getElem hMem)
    have hHere := hInner mapsShndx hMaps sec hSec _ hEntry
    rw [mapDef_filledTable g.mapData hEntry]
    exact hHere
  · intro hAll m hMem sec' hMem' entry hEntry
    have hSame : m = mapsShndx :=
      Option.some.inj (hMem.symm.trans hMaps)
    subst hSame
    have hSame : sec' = sec :=
      Option.some.inj (hMem'.symm.trans hSec)
    subst hSame
    have hGet := List.mem_zipIdx_iff_getElem?.mp hEntry
    rcases List.getElem?_eq_some_iff.mp hGet with ⟨hLt, _⟩
    rw [length_sortedSyms] at hLt
    have hHere := hAll entry.2 (List.mem_range.mpr hLt)
    rw [mapDef_filledTable g.mapData hEntry] at hHere
    exact hHere

/- What follows on a section that is read in range. -/
theorem continues_loadMapsOf
    {result : Except Crash (ℤ × (ℕ → BpfMapData))}
    (hSec : elf.getSec mapsShndx = some sec)
    (hNot : ¬ MapsOutside elf mapsShndx symtab sec.data)
    (hRun :
      loadElfMapsSection g.mapData mapsShndx elf symtab.1
          symtab.2 =
        result) :
    Continues Position.InRange
      (Noted.loadMapsOf fixupMap elf symtab (some mapsShndx) g
        u)
      (.ofExcept result >>= fun r =>
        if r.1 < 0 then
          .ret (1, 0, { g with mapData := r.2 }, u)
        else
          Noted.loadMaps fixupMap (List.range r.1.toNat)
              { g with mapData := r.2 } u >>= fun r' =>
            if r'.1 ≠ 0 then .ret (1, 0, r'.2.1, r'.2.2)
            else
              Noted.setProcessed
                  { r'.2.1 with mapDataCount := r.1.toNat }
                  mapsShndx >>= fun g' =>
                .ret (0, r.1.toNat, g', r'.2.2)) := by
  cases verdict_section (data_of_getSec hSec) g.mapData with
  | overruns hBad hOver => exact absurd hBad hNot
  | keeps hBad hKeeps =>
      have hRead :=
        CallProg.continues_of_forget hKeeps
          (forget_loadElfMapsSection _ _ _ _ _)
      rw [hRun] at hRead
      exact hRead.bind _

/- For a table that is filled. -/
theorem continues_loadMapsOf_of_fill
    (hSec : elf.getSec mapsShndx = some sec)
    (hFill : MapsFill elf mapsShndx symtab sec.data) :
    Continues Position.InRange
      (Noted.loadMapsOf fixupMap elf symtab (some mapsShndx) g
        u)
      (Noted.loadMaps fixupMap
          (List.range (symsIn symtab.1 mapsShndx).length)
          { g with
            mapData :=
              filledTable elf mapsShndx symtab sec.data
                g.mapData } u >>= fun r =>
        if r.1 ≠ 0 then .ret (1, 0, r.2.1, r.2.2)
        else
          Noted.setProcessed
              { r.2.1 with
                mapDataCount :=
                  (symsIn symtab.1 mapsShndx).length }
              mapsShndx >>= fun g' =>
            .ret (0, (symsIn symtab.1 mapsShndx).length, g',
              r.2.2)) := by
  have hRun :
      Continues Position.InRange
        (Noted.loadMapsOf fixupMap elf symtab
          (some mapsShndx) g u) _ :=
    continues_loadMapsOf hSec hFill.not_outside
      (hFill.load_eq (data_of_getSec hSec) g.mapData)
  have hDone :
      ¬ ((symsIn symtab.1 mapsShndx).length : ℤ) < 0 := by
    omega
  rw [CallProg.ofExcept_ok, CallProg.ret_bind,
    if_neg hDone] at hRun
  exact hRun

/- All uses are in range if those of filled tables are. -/
theorem keepsIn_loadMapsOf
    (hOutside :
      ∀ mapsShndx ∈ elf.mapsShndx?,
        ∀ sec ∈ elf.getSec mapsShndx,
          ¬ MapsOutside elf mapsShndx symtab sec.data)
    (hFilled :
      ∀ mapsShndx ∈ elf.mapsShndx?,
        ∀ sec ∈ elf.getSec mapsShndx,
          MapsFill elf mapsShndx symtab sec.data →
            mapsShndx < NR_PROCESSED_SEC ∧
              KeepsIn Position.InRange
                (Noted.loadMaps fixupMap
                  (List.range
                    (symsIn symtab.1 mapsShndx).length)
                  { g with
                    mapData :=
                      filledTable elf mapsShndx symtab
                        sec.data g.mapData } u)) :
    KeepsIn Position.InRange
      (Noted.loadMapsOf fixupMap elf symtab elf.mapsShndx? g
        u) := by
  cases hMaps : elf.mapsShndx? with
  | none => trivial
  | some mapsShndx =>
      rcases exists_of_mapsShndx? hMaps with ⟨sec, hSec, _⟩
      have hNot := hOutside mapsShndx hMaps sec hSec
      have hOutcome :
          SectionOutcome elf mapsShndx symtab sec.data
            g.mapData :=
        sectionOutcome (data_of_getSec hSec) g.mapData
      cases hOutcome with
      | divides hNone hRun =>
          exact (continues_loadMapsOf hSec hNot hRun).keepsIn
            trivial
      | crashes crash hSome hFill hRefused hCrash hRun =>
          exact (continues_loadMapsOf hSec hNot hRun).keepsIn
            trivial
      | refuses maps' hRefused hRun =>
          exact (continues_loadMapsOf hSec hNot hRun).keepsIn
            trivial
      | fills hFill hRun =>
          rcases hFilled mapsShndx hMaps sec hSec hFill with
            ⟨hLt, hLoad⟩
          apply (continues_loadMapsOf_of_fill hSec
            hFill).keepsIn
          apply hLoad.bind
          rintro ⟨ret, g', u'⟩
          simp only
          split
          · trivial
          · exact (continues_setProcessed rfl hLt).keepsIn
              trivial

/- A definition outside is read in every run. -/
theorem overruns_loadMapsOf
    (hSec : elf.getSec mapsShndx = some sec)
    (hOutside : MapsOutside elf mapsShndx symtab sec.data) :
    AlwaysOverruns Position.InRange
      (Noted.loadMapsOf fixupMap elf symtab (some mapsShndx) g
        u) := by
  cases verdict_section (data_of_getSec hSec) g.mapData with
  | overruns hBad hOver => exact hOver.bind _
  | keeps hBad hKeeps => exact absurd hOutside hBad

end

section

variable {elf : Elf}
variable {symtab : ElfData × ℕ}
variable {mapsShndx : ℕ}
variable {sec : Sec}

/- The maps are given descriptors, and nothing is created. -/
theorem continues_loadMaps_givenMaps
    {is : List ℕ}
    (hIs : ∀ i ∈ is, i < MAX_MAPS)
    (g : LoaderGlobals) :
    ∃ g', Continues Position.InRange
      (Noted.loadMaps (some givenMaps) is g ())
      (.ret (0, g', ())) := by
  rcases loadMaps_givenMaps hIs g with ⟨g', _, hLoad⟩
  refine ⟨g', CallProg.continues_of_forget
    (e := .ok (0, g', ())) (keepsIn_loadMaps_givenMaps g) ?_⟩
  rw [forget_loadMaps, hLoad]
  rfl

/- Then a maps section without a mark is found. -/
theorem overruns_loadMapsOf_of_index
    (hSec : elf.getSec mapsShndx = some sec)
    (hFill : MapsFill elf mapsShndx symtab sec.data)
    (hOut : ¬ mapsShndx < NR_PROCESSED_SEC)
    (g : LoaderGlobals) :
    AlwaysOverruns Position.InRange
      (Noted.loadMapsOf (some givenMaps) elf symtab
        (some mapsShndx) g ()) := by
  rcases continues_loadMaps_givenMaps hFill.index_lt
    { g with
      mapData :=
        filledTable elf mapsShndx symtab sec.data
          g.mapData } with ⟨g', hLoad⟩
  apply ((continues_loadMapsOf_of_fill hSec hFill).trans
    (hLoad.bind _)).alwaysOverruns
  exact overruns_setProcessed rfl hOut

/- A table that is filled is gone past. -/
theorem continues_loadMapsOf_givenMaps
    (hPass : elf.MapsPass symtab)
    (g : LoaderGlobals) :
    ∃ nrMaps g',
      AfterMaps elf symtab.1 g nrMaps g' ∧
        Continues Position.InRange
          (Noted.loadMapsOf (some givenMaps) elf symtab
            elf.mapsShndx? g ())
          (.ret (0, nrMaps, g', ())) := by
  rcases loadMapsOf_givenMaps hPass g with
    ⟨nrMaps, g', hAfter, hLoad⟩
  refine ⟨nrMaps, g', hAfter, CallProg.continues_of_forget
    (e := .ok (0, nrMaps, g', ())) (keepsIn_loadMapsOf ?_ ?_)
    ?_⟩
  · intro mapsShndx hMaps sec hSec
    exact ((hPass mapsShndx hMaps).2 sec hSec).not_outside
  · intro mapsShndx hMaps sec hSec hFill
    exact ⟨(hPass mapsShndx hMaps).1,
      keepsIn_loadMaps_givenMaps _⟩
  · rw [forget_loadMapsOf, hLoad]
    rfl

/- Without a callback an inner map that is not earlier is used. -/
theorem trace_loadMapsOf_none
    (hMaps : elf.mapsShndx? = some mapsShndx)
    (hSec : elf.getSec mapsShndx = some sec)
    (hFill : MapsFill elf mapsShndx symtab sec.data)
    (hInner : ¬ elf.InnerMapsEarlier symtab)
    (g : LoaderGlobals) :
    ∃ call ∈ (Noted.loadMapsOf
        (none : Option (FixupMapCb Unit)) elf symtab
          (some mapsShndx) g ()).trace
          (CallProg.watched (allSucceed elf)) (),
      ¬ call.1.Keeps Position.InRange := by
  rw [innerEarlier_filledTable (g := g) hMaps hSec] at hInner
  simp only [not_forall] at hInner
  rcases hInner with ⟨i, hMem, hNot⟩
  rcases trace_loadMaps_none
    (g := { g with
      mapData :=
        filledTable elf mapsShndx symtab sec.data g.mapData })
    hFill.index_lt ⟨i, hMem, hNot⟩ elf with
    ⟨call, hCall, hBad⟩
  exact ⟨call,
    (continues_loadMapsOf_of_fill hSec hFill).mem_trace
      (CallProg.mem_trace_bind_left hCall _), hBad⟩

end

end XdpDdos
