import XdpDdos.Control.Modify
import XdpDdos.Lib.Interleaving
import Mathlib.Data.Fintype.List
import Mathlib.Data.List.FinRange

/-
  Concurrent calls of `blacklist_port_modify`.

  A call reads a port's masks in one system call and writes
  them in another.  An update for the other protocol that
  falls in between is overwritten; without such updates the
  calls take effect one at a time, in the order in which
  they write.

  Main declarations:
    * `PortCall`, `portPool`, `runInOrder`
    * `lost_update`
    * `KeepsWindows`
    * `portUpdates_serializable`
-/

------------------------------------------------------------
-- Calls in Progress
------------------------------------------------------------

namespace XdpDdos

variable {nrCpus : ℕ}

/- The arguments of one call of `blacklist_port_modify`. -/
structure PortCall where
  dport : BitVec 32
  action : BitVec 32
  proto : BitVec 32

namespace PortCall

/- The call, with the descriptors its callers pass. -/
def prog (c : PortCall) : MapProg nrCpus ℕ :=
  blacklistPortModify .portBlacklist (countFd c.proto)
    c.dport c.action c.proto

/- The second half of the call, from the update on. -/
def writeBack
    (c : PortCall)
    (fproto : DdosFilter)
    (buffer : Slots nrCpus) : MapProg nrCpus ℕ := do
  let res ←
    bpfMapUpdateElem .portBlacklist c.dport
      (fun cpu =>
        editMask c.action fproto.mask (buffer cpu)) .exist
  match res with
  | .error errno => return modifyStatus (.error errno)
  | .ok () =>
      clearStats (countFd c.proto) c.dport c.action

end PortCall

/- Calls in different processes, before their first step. -/
def portPool
    {k : ℕ}
    (calls : Fin k → PortCall)
    (m : Maps nrCpus) :
    Pool (MapCall nrCpus) MapCall.Resp ℕ
      (Maps nrCpus) (Fin k) where
  progs := fun i => (calls i).prog
  shared := m

/- The processes take turns at every map system call. -/
def portSystem
    (nrCpus k : ℕ) :
    Reactive
      (Pool (MapCall nrCpus) MapCall.Resp ℕ
        (Maps nrCpus) (Fin k))
      (Fin k) (Option (MapCall nrCpus)) :=
  poolSystem Maps.handle

/- The calls run to their end, one after another. -/
def runInOrder
    {k : ℕ}
    (calls : Fin k → PortCall)
    (m : Maps nrCpus)
    (order : List (Fin k)) : Maps nrCpus :=
  order.foldl
    (fun m i =>
      (CallProg.run Maps.handle (calls i).prog m).2) m

/- Every call has returned success. -/
def AllOk
    {k : ℕ}
    (pool :
      Pool (MapCall nrCpus) MapCall.Resp ℕ
        (Maps nrCpus) (Fin k)) : Prop :=
  ∀ i, pool.progs i = .ret EXIT_OK

/- The masks are those of some order of the calls. -/
def Serializable
    {k : ℕ}
    (calls : Fin k → PortCall)
    (m : Maps nrCpus)
    (schedule : List (Fin k)) : Prop :=
  ∃ order : List (Fin k), order.Perm (List.finRange k) ∧
    ∀ port cpu,
      (((portSystem nrCpus k).final (portPool calls m)
          schedule).shared.portBlacklist.slots
            (Maps.portIndex port) cpu) =
        (runInOrder calls m order).portBlacklist.slots
          (Maps.portIndex port) cpu

------------------------------------------------------------
-- A Lost Update
------------------------------------------------------------

/- Block port 80 for TCP and for UDP. -/
def twoAdds : Fin 2 → PortCall
  | 0 => ⟨80, ACTION_ADD, 6⟩
  | 1 => ⟨80, ACTION_ADD, 17⟩

/- Both calls read, then both write. -/
def overlapping : List (Fin 2) :=
  [0, 1, 0, 1]

/-
  Both calls report success, yet TCP port 80 is not blocked,
  whereas both orders of the calls block it.
-/
theorem lost_update :
    AllOk
        ((portSystem 1 2).final
          (portPool twoAdds Maps.fresh) overlapping) ∧
      ¬ Serializable twoAdds (Maps.fresh : Maps 1)
        overlapping := by
  constructor
  · intro i
    match i with
    | 0 => rfl
    | 1 => rfl
  · rintro ⟨order, hPerm, hMasks⟩
    have hLost :
        ((portSystem 1 2).final (portPool twoAdds Maps.fresh)
            overlapping).shared.portBlacklist.slots
          (Maps.portIndex 80) 0 = 2 := by decide
    have hBoth (i j : Fin 2) (hDistinct : [i, j].Nodup) :
        (runInOrder twoAdds (Maps.fresh : Maps 1)
            [i, j]).portBlacklist.slots
          (Maps.portIndex 80) 0 = 3 := by
      revert i j
      decide
    obtain ⟨i, j, rfl⟩ :=
      List.length_eq_two.mp hPerm.length_eq
    have hSame := hMasks 80 0
    rw [hLost, hBoth i j
      (hPerm.nodup_iff.mpr (List.nodup_finRange 2))] at hSame
    exact absurd hSame (by decide)

------------------------------------------------------------
-- Masks Under a 32-Bit Key
------------------------------------------------------------

/- What a call's buffer holds after its lookup. -/
def lookupBuffer :
    Except Errno (Slots nrCpus) → Slots nrCpus
  | .ok values => values
  | .error _ => fun _ => 0

namespace Maps

/- The masks a call reads under a key. -/
def masks
    (m : Maps nrCpus)
    (key : BitVec 32) : Slots nrCpus :=
  lookupBuffer (m.lookupElem key .portBlacklist)

/- Write the masks under a key, if it is in range. -/
def writeMasks
    (m : Maps nrCpus)
    (key : BitVec 32)
    (values : Slots nrCpus) : Maps nrCpus :=
  (m.updateElem key values .exist .portBlacklist).2

/- Writing under a key changes no other key. -/
theorem masks_writeMasks_of_ne
    (m : Maps nrCpus)
    {key key' : BitVec 32}
    (values : Slots nrCpus)
    (hKey : key' ≠ key) :
    (m.writeMasks key values).masks key' = m.masks key' := by
  simp only [writeMasks, masks, updateElem, lookupElem,
    PercpuArray.updateElem, PercpuArray.lookupElem]
  cases hIdx : PercpuArray.index? key with
  | none => rfl
  | some idx =>
      cases hIdx' : PercpuArray.index? key' with
      | none => rfl
      | some idx' =>
          have hNe : idx' ≠ idx := by
            rintro rfl
            exact hKey (PercpuArray.index?_inj hIdx' hIdx)
          simp [hNe]

/- A key in range reads back what was written. -/
theorem masks_writeMasks_self
    (m : Maps nrCpus)
    (key : BitVec 32)
    (values : Slots nrCpus) :
    (m.writeMasks key values).masks key = values ∨
      m.writeMasks key values = m := by
  simp only [writeMasks, masks, updateElem, lookupElem,
    PercpuArray.updateElem, PercpuArray.lookupElem]
  cases hIdx : PercpuArray.index? key with
  | none => exact Or.inr rfl
  | some idx =>
      left
      simp [lookupBuffer]

end Maps

/- The masks agree in every bit but that of a protocol. -/
def AgreeOutside
    (fproto : DdosFilter)
    (v w : Slots nrCpus) : Prop :=
  ∀ cpu i, i ≠ fproto.index →
    (v cpu).getLsbD i = (w cpu).getLsbD i

/- An edit sets or clears its bit and keeps the others. -/
theorem editMask_agreeOutside
    {action : BitVec 32}
    (hAction : action = ACTION_ADD ∨ action = ACTION_DEL)
    (fproto : DdosFilter)
    (v : Slots nrCpus) :
    AgreeOutside fproto
      (fun cpu => editMask action fproto.mask (v cpu)) v := by
  intro cpu i hBit
  rcases hAction with rfl | rfl
  · rw [getLsbD_editMask_add]
    simp [hBit]
  · rw [getLsbD_editMask_del]
    simp [hBit]

/- The result of an edit does not depend on its own bit. -/
theorem editMask_congr
    {action : BitVec 32}
    (hAction : action = ACTION_ADD ∨ action = ACTION_DEL)
    {fproto : DdosFilter}
    {v w : Slots nrCpus}
    (hAgree : AgreeOutside fproto v w) :
    (fun cpu => editMask action fproto.mask (v cpu)) =
      fun cpu => editMask action fproto.mask (w cpu) := by
  funext cpu
  apply BitVec.eq_of_getLsbD_eq
  intro i _
  by_cases hBit : i = fproto.index
  · rcases hAction with rfl | rfl
    · simp [getLsbD_editMask_add, hBit]
    · simp [getLsbD_editMask_del, hBit]
  · rw [editMask_agreeOutside hAction fproto v cpu i hBit,
      editMask_agreeOutside hAction fproto w cpu i hBit]
    exact hAgree cpu i hBit

------------------------------------------------------------
-- One Call, Step by Step
------------------------------------------------------------

/- The map a call is about. -/
def MapCall.fd : MapCall nrCpus → MapId
  | .lookupElem fd _ => fd
  | .updateElem fd _ _ _ => fd
  | .deleteElem fd _ => fd

/- A call on another map. -/
def MapCall.SparesMasks (op : MapCall nrCpus) : Prop :=
  op.fd ≠ .portBlacklist

theorem handle_portBlacklist
    (op : MapCall nrCpus)
    (m : Maps nrCpus)
    (hOther : op.SparesMasks) :
    (Maps.handle op m).2.portBlacklist = m.portBlacklist := by
  cases op with
  | lookupElem fd key => rfl
  | updateElem fd key values flag =>
      cases fd with
      | portBlacklist => exact absurd rfl hOther
      | blacklist => rfl
      | verdictCnt => rfl
      | portBlacklistDropCount fproto => rfl
  | deleteElem fd key =>
      cases fd with
      | portBlacklist => exact absurd rfl hOther
      | blacklist => rfl
      | verdictCnt => rfl
      | portBlacklistDropCount fproto => rfl

namespace PortCall

/-
  A call is refused at once, or reads the masks of its key
  and goes on to write them back.
-/
theorem prog_cases
    (nrCpus : ℕ)
    (c : PortCall) :
    (∃ status, status ≠ EXIT_OK ∧
        (c.prog : MapProg nrCpus ℕ) = .ret status) ∨
      ∃ fproto, protoFilter c.proto = some fproto ∧
        (c.action = ACTION_ADD ∨ c.action = ACTION_DEL) ∧
        (c.prog : MapProg nrCpus ℕ) =
          .call (.lookupElem .portBlacklist c.dport)
            (fun looked =>
              c.writeBack fproto (lookupBuffer looked)) := by
  unfold prog blacklistPortModify
  by_cases hRefused :
      c.action ≠ ACTION_ADD ∧ c.action ≠ ACTION_DEL
  · rw [if_pos hRefused]
    exact Or.inl ⟨EXIT_FAIL_OPTION, by decide, rfl⟩
  · have hAction :
        c.action = ACTION_ADD ∨ c.action = ACTION_DEL := by
      tauto
    rw [if_neg hRefused]
    cases hProto : protoFilter c.proto with
    | none =>
        exact Or.inl ⟨EXIT_FAIL_OPTION, by decide, rfl⟩
    | some fproto =>
        by_cases hPort : c.dport.toInt > 65535
        · refine Or.inl ⟨EXIT_FAIL_PORT, by decide, ?_⟩
          simp [hPort]
        · refine Or.inr ⟨fproto, rfl, hAction, ?_⟩
          simp only [hPort, if_false]
          rfl

/- After its update a call touches its counter map only. -/
theorem writeBack_eq
    (c : PortCall)
    (fproto : DdosFilter)
    (buffer : Slots nrCpus) :
    ∃ next : Except Errno Unit → MapProg nrCpus ℕ,
      c.writeBack fproto buffer =
          .call (.updateElem .portBlacklist c.dport
            (fun cpu =>
              editMask c.action fproto.mask (buffer cpu))
            .exist) next ∧
        ∀ answer,
          (next answer).Issues MapCall.SparesMasks := by
  refine ⟨_, rfl, ?_⟩
  intro answer
  cases answer with
  | error errno => trivial
  | ok value =>
      change CallProg.Issues MapCall.SparesMasks
        (clearStats (countFd c.proto) c.dport c.action)
      unfold clearStats
      split
      · refine ⟨?_, ?_⟩
        · exact MapId.noConfusion
        · intro answer
          cases answer with
          | error errno => trivial
          | ok value => trivial
      · trivial

/- Run alone, the call writes its edit of what it reads. -/
theorem run_prog_portBlacklist
    (c : PortCall)
    {fproto : DdosFilter}
    (hProg :
      (c.prog : MapProg nrCpus ℕ) =
        .call (.lookupElem .portBlacklist c.dport)
          (fun looked =>
            c.writeBack fproto (lookupBuffer looked)))
    (m : Maps nrCpus) :
    (CallProg.run Maps.handle c.prog m).2.portBlacklist =
      (m.writeMasks c.dport
        (fun cpu => editMask c.action fproto.mask
          (m.masks c.dport cpu))).portBlacklist := by
  rcases c.writeBack_eq fproto (m.masks c.dport) with
    ⟨next, hWrite, hSpares⟩
  have hBuffer :
      lookupBuffer
          (Maps.handle
            (.lookupElem .portBlacklist c.dport) m).1 =
        m.masks c.dport := rfl
  rw [hProg, CallProg.run_call, hBuffer, hWrite,
    CallProg.run_call,
    CallProg.run_preserves Maps.handle Maps.portBlacklist
      handle_portBlacklist (hSpares _)]
  rfl

end PortCall

------------------------------------------------------------
-- Calls That Take Effect When They Write
------------------------------------------------------------

variable {k : ℕ}

/-
  No update that changes a port's masks falls between the
  lookup and the update of a call for the other protocol on
  the same port.
-/
def KeepsWindows
    (calls : Fin k → PortCall)
    (pool :
      Pool (MapCall nrCpus) MapCall.Resp ℕ
        (Maps nrCpus) (Fin k))
    (i : Fin k) : Prop :=
  ∀ key values,
    (pool.progs i).nextCall? =
        some (.updateElem .portBlacklist key values .exist) →
      (pool.shared.writeMasks key values).portBlacklist =
          pool.shared.portBlacklist ∨
        ∀ j values',
          (pool.progs j).nextCall? =
              some (.updateElem .portBlacklist key values'
                .exist) →
            protoFilter (calls j).proto =
              protoFilter (calls i).proto

/- The calls that have written, in the order they did. -/
def writeOrder
    (_pool :
      Pool (MapCall nrCpus) MapCall.Resp ℕ
        (Maps nrCpus) (Fin k))
    (i : Fin k)
    (op : Option (MapCall nrCpus))
    (order : List (Fin k)) : List (Fin k) :=
  match op with
  | some (.updateElem .portBlacklist _ _ _) => order ++ [i]
  | _ => order

/- Where a call stands; `written` says that it has written. -/
inductive CallPhase
    (c : PortCall)
    (m : Maps nrCpus)
    (written : Prop)
    (p : MapProg nrCpus ℕ) : Prop where
  | waiting
      (hOrder : ¬ written)
      (hProg : p = c.prog)
  | loaded
      {fproto : DdosFilter}
      {buffer : Slots nrCpus}
      (hOrder : ¬ written)
      (hProto : protoFilter c.proto = some fproto)
      (hAction :
        c.action = ACTION_ADD ∨ c.action = ACTION_DEL)
      (hCall :
        (c.prog : MapProg nrCpus ℕ) =
          .call (.lookupElem .portBlacklist c.dport)
            (fun looked =>
              c.writeBack fproto (lookupBuffer looked)))
      (hProg : p = c.writeBack fproto buffer)
      (hAgree :
        AgreeOutside fproto buffer (m.masks c.dport))
  | done
      (hOrder : written)
      (hSpares : p.Issues MapCall.SparesMasks)

/- The masks are those of the writes in their order. -/
structure Serialized
    (calls : Fin k → PortCall)
    (m : Maps nrCpus)
    (pool :
      Pool (MapCall nrCpus) MapCall.Resp ℕ
        (Maps nrCpus) (Fin k))
    (order : List (Fin k)) : Prop where
  masks_eq :
    pool.shared.portBlacklist =
      (runInOrder calls m order).portBlacklist
  nodup : order.Nodup
  phase :
    ∀ i, CallPhase (calls i) pool.shared (i ∈ order)
      (pool.progs i)

theorem runInOrder_append
    (calls : Fin k → PortCall)
    (m : Maps nrCpus)
    (order : List (Fin k))
    (i : Fin k) :
    runInOrder calls m (order ++ [i]) =
      (CallProg.run Maps.handle (calls i).prog
        (runInOrder calls m order)).2 := by
  simp [runInOrder]

theorem Maps.masks_congr
    {m m' : Maps nrCpus}
    (hSame : m.portBlacklist = m'.portBlacklist)
    (key : BitVec 32) :
    m.masks key = m'.masks key := by
  simp only [masks, lookupElem, hSame]

theorem Maps.writeMasks_congr
    {m m' : Maps nrCpus}
    (hSame : m.portBlacklist = m'.portBlacklist)
    (key : BitVec 32)
    (values : Slots nrCpus) :
    (m.writeMasks key values).portBlacklist =
      (m'.writeMasks key values).portBlacklist := by
  simp only [writeMasks, updateElem, hSame]

/- A phase depends on the masks only. -/
theorem CallPhase.congr
    {c : PortCall}
    {m m' : Maps nrCpus}
    {written written' : Prop}
    {p : MapProg nrCpus ℕ}
    (hPhase : CallPhase c m written p)
    (hSame : m.portBlacklist = m'.portBlacklist)
    (hWritten : written' ↔ written) :
    CallPhase c m' written' p := by
  cases hPhase with
  | waiting hOrder hProg =>
      exact .waiting (mt hWritten.mp hOrder) hProg
  | loaded hOrder hProto hAction hCall hProg hAgree =>
      refine .loaded (mt hWritten.mp hOrder) hProto hAction
        hCall hProg ?_
      rw [← Maps.masks_congr hSame]
      exact hAgree
  | done hOrder hSpares =>
      exact .done (hWritten.mpr hOrder) hSpares

/- A call for another map leaves the order alone. -/
theorem writeOrder_of_spares
    (pool :
      Pool (MapCall nrCpus) MapCall.Resp ℕ
        (Maps nrCpus) (Fin k))
    (i : Fin k)
    {op : MapCall nrCpus}
    (hOther : op.SparesMasks)
    (order : List (Fin k)) :
    writeOrder pool i (some op) order = order := by
  cases op with
  | lookupElem fd key => rfl
  | deleteElem fd key => rfl
  | updateElem fd key values flag =>
      cases fd with
      | portBlacklist => exact absurd rfl hOther
      | blacklist => rfl
      | verdictCnt => rfl
      | portBlacklistDropCount fproto => rfl

/- A step that spares the masks moves one call only. -/
theorem Serialized.of_spares
    {calls : Fin k → PortCall}
    {m : Maps nrCpus}
    {pool :
      Pool (MapCall nrCpus) MapCall.Resp ℕ
        (Maps nrCpus) (Fin k)}
    {order : List (Fin k)}
    (hInv : Serialized calls m pool order)
    {i : Fin k}
    {p : MapProg nrCpus ℕ}
    {shared : Maps nrCpus}
    (hSame : pool.shared.portBlacklist = shared.portBlacklist)
    (hPhase : CallPhase (calls i) shared (i ∈ order) p) :
    Serialized calls m
      { progs := Function.update pool.progs i p
        shared := shared } order where
  masks_eq := hSame.symm.trans hInv.masks_eq
  nodup := hInv.nodup
  phase := by
    intro j
    by_cases hHere : j = i
    · subst hHere
      simpa using hPhase
    · simpa [hHere] using
        (hInv.phase j).congr hSame Iff.rfl

/- What a loaded call will do next. -/
theorem PortCall.nextCall?_writeBack
    (c : PortCall)
    (fproto : DdosFilter)
    (buffer : Slots nrCpus) :
    (c.writeBack fproto buffer).nextCall? =
      some (.updateElem .portBlacklist c.dport
        (fun cpu =>
          editMask c.action fproto.mask (buffer cpu))
        .exist) := rfl

/-
  A write changes a bit of its own protocol, so the buffers
  of calls for that protocol keep agreeing with the masks.
-/
theorem agreeOutside_writeMasks
    {m : Maps nrCpus}
    {action key : BitVec 32}
    (hAction : action = ACTION_ADD ∨ action = ACTION_DEL)
    {fproto : DdosFilter}
    {buffer buffer' : Slots nrCpus}
    (hAgree : AgreeOutside fproto buffer (m.masks key))
    (hAgree' : AgreeOutside fproto buffer' (m.masks key)) :
    AgreeOutside fproto buffer'
      ((m.writeMasks key
        (fun cpu => editMask action fproto.mask
          (buffer cpu))).masks key) := by
  rcases m.masks_writeMasks_self key
      (fun cpu => editMask action fproto.mask (buffer cpu))
    with hRead | hSame
  · rw [hRead]
    intro cpu i hBit
    rw [editMask_agreeOutside hAction fproto buffer cpu i
      hBit, hAgree cpu i hBit]
    exact hAgree' cpu i hBit
  · rw [hSame]
    exact hAgree'

/-
  So do those of all other loaded calls, if the write keeps
  their windows.
-/
theorem KeepsWindows.agreeOutside
    {calls : Fin k → PortCall}
    {pool :
      Pool (MapCall nrCpus) MapCall.Resp ℕ
        (Maps nrCpus) (Fin k)}
    {i j : Fin k}
    (hWindow : KeepsWindows calls pool i)
    {fproto fproto' : DdosFilter}
    {buffer buffer' : Slots nrCpus}
    (hAction :
      (calls i).action = ACTION_ADD ∨
        (calls i).action = ACTION_DEL)
    (hProto : protoFilter (calls i).proto = some fproto)
    (hProto' : protoFilter (calls j).proto = some fproto')
    (hProg : pool.progs i = (calls i).writeBack fproto buffer)
    (hProg' :
      pool.progs j = (calls j).writeBack fproto' buffer')
    (hAgree :
      AgreeOutside fproto buffer
        (pool.shared.masks (calls i).dport))
    (hAgree' :
      AgreeOutside fproto' buffer'
        (pool.shared.masks (calls j).dport)) :
    AgreeOutside fproto' buffer'
      ((pool.shared.writeMasks (calls i).dport
        (fun cpu => editMask (calls i).action fproto.mask
          (buffer cpu))).masks (calls j).dport) := by
  by_cases hKey : (calls j).dport = (calls i).dport
  · have hNext := congrArg CallProg.nextCall? hProg
    have hNext' := congrArg CallProg.nextCall? hProg'
    rw [PortCall.nextCall?_writeBack] at hNext hNext'
    rw [hKey] at hAgree' hNext' ⊢
    rcases hWindow _ _ hNext with hSame | hProtos
    · rw [Maps.masks_congr hSame]
      exact hAgree'
    · have hFilter := hProtos j _ hNext'
      rw [hProto, hProto', Option.some.injEq] at hFilter
      subst hFilter
      exact agreeOutside_writeMasks hAction hAgree hAgree'
  · rw [Maps.masks_writeMasks_of_ne _ _ hKey]
    exact hAgree'

/-
  A write within its window has the effect that the whole
  call has on the current masks.
-/
theorem Serialized.of_write
    {calls : Fin k → PortCall}
    {m : Maps nrCpus}
    {pool :
      Pool (MapCall nrCpus) MapCall.Resp ℕ
        (Maps nrCpus) (Fin k)}
    {order : List (Fin k)}
    (hInv : Serialized calls m pool order)
    {i : Fin k}
    {fproto : DdosFilter}
    {buffer : Slots nrCpus}
    (hOrder : i ∉ order)
    (hProto : protoFilter (calls i).proto = some fproto)
    (hAction :
      (calls i).action = ACTION_ADD ∨
        (calls i).action = ACTION_DEL)
    (hCall :
      ((calls i).prog : MapProg nrCpus ℕ) =
        .call (.lookupElem .portBlacklist (calls i).dport)
          (fun looked =>
            (calls i).writeBack fproto
              (lookupBuffer looked)))
    (hProg : pool.progs i = (calls i).writeBack fproto buffer)
    (hAgree :
      AgreeOutside fproto buffer
        (pool.shared.masks (calls i).dport))
    (hWindow : KeepsWindows calls pool i)
    {p : MapProg nrCpus ℕ}
    (hSpares : p.Issues MapCall.SparesMasks) :
    Serialized calls m
      { progs := Function.update pool.progs i p
        shared := pool.shared.writeMasks (calls i).dport
          (fun cpu => editMask (calls i).action fproto.mask
            (buffer cpu)) }
      (order ++ [i]) where
  masks_eq := by
    have hMasks := Maps.masks_congr hInv.masks_eq
      (calls i).dport
    rw [runInOrder_append,
      (calls i).run_prog_portBlacklist hCall,
      editMask_congr hAction hAgree, hMasks]
    exact Maps.writeMasks_congr hInv.masks_eq _ _
  nodup := by
    rw [List.nodup_append]
    refine ⟨hInv.nodup, List.nodup_singleton i, ?_⟩
    intro j hj j' hj'
    rw [List.mem_singleton.mp hj']
    rintro rfl
    exact hOrder hj
  phase := by
    intro j
    by_cases hHere : j = i
    · subst hHere
      simp only [Function.update_self]
      exact .done (by simp) hSpares
    · have hMem : j ∈ order ++ [i] ↔ j ∈ order := by
        simp [hHere]
      simp only [Function.update_of_ne hHere]
      cases hInv.phase j with
      | waiting hOrder' hProg' =>
          exact .waiting (mt hMem.mp hOrder') hProg'
      | done hOrder' hSpares' =>
          exact .done (hMem.mpr hOrder') hSpares'
      | @loaded fproto' _ hOrder' hProto' hAction' hCall'
          hProg' hAgree' =>
          exact .loaded (mt hMem.mp hOrder') hProto' hAction'
            hCall' hProg' (hWindow.agreeOutside hAction hProto
              hProto' hProg hProg' hAgree hAgree')

/- Every step within its window keeps the calls serialized. -/
theorem Serialized.step
    {calls : Fin k → PortCall}
    {m : Maps nrCpus}
    {pool :
      Pool (MapCall nrCpus) MapCall.Resp ℕ
        (Maps nrCpus) (Fin k)}
    {order : List (Fin k)}
    {i : Fin k}
    (hWindow : KeepsWindows calls pool i)
    (hInv : Serialized calls m pool order) :
    Serialized calls m ((portSystem nrCpus k).step pool i).2
      (writeOrder pool i
        ((portSystem nrCpus k).step pool i).1 order) := by
  cases hInv.phase i with
  | waiting hOrder hProg =>
      rcases (calls i).prog_cases nrCpus with
        ⟨status, _, hRet⟩ | ⟨fproto, hProto, hAction, hCall⟩
      · rw [portSystem,
          Pool.step_ret Maps.handle (hProg.trans hRet)]
        exact hInv
      · rw [portSystem,
          Pool.step_call Maps.handle (hProg.trans hCall)]
        apply hInv.of_spares rfl
        refine .loaded hOrder hProto hAction hCall rfl ?_
        intro cpu bit _
        rfl
  | @loaded fproto buffer hOrder hProto hAction hCall hProg
      hAgree =>
      rcases (calls i).writeBack_eq fproto buffer with
        ⟨next, hWrite, hSpares⟩
      rw [portSystem,
        Pool.step_call Maps.handle (hProg.trans hWrite)]
      exact hInv.of_write hOrder hProto hAction hCall hProg
        hAgree hWindow (hSpares _)
  | done hOrder hSpares =>
      cases hProg : pool.progs i with
      | ret value =>
          rw [portSystem, Pool.step_ret Maps.handle hProg]
          exact hInv
      | halt how =>
          rw [portSystem, Pool.step_halt Maps.handle hProg]
          exact hInv
      | call op next =>
          rw [hProg] at hSpares
          rcases hSpares with ⟨hOther, hNext⟩
          rw [portSystem, Pool.step_call Maps.handle hProg,
            writeOrder_of_spares pool i hOther]
          apply hInv.of_spares
          · exact (handle_portBlacklist op pool.shared
              hOther).symm
          · exact .done hOrder (hNext _)

/- Before its first step every call is waiting. -/
theorem serialized_portPool
    (calls : Fin k → PortCall)
    (m : Maps nrCpus) :
    Serialized calls m (portPool calls m) [] where
  masks_eq := rfl
  nodup := List.nodup_nil
  phase := by
    intro i
    exact .waiting (List.not_mem_nil) rfl

/- A call that returned success has written. -/
theorem CallPhase.written_of_ok
    {c : PortCall}
    {m : Maps nrCpus}
    {written : Prop}
    (hPhase : CallPhase c m written (.ret EXIT_OK)) :
    written := by
  cases hPhase with
  | waiting hOrder hProg =>
      rcases c.prog_cases nrCpus with
        ⟨status, hStatus, hRet⟩ | ⟨_, _, _, hCall⟩
      · rw [hRet] at hProg
        cases hProg
        exact absurd rfl hStatus
      · rw [hCall] at hProg
        cases hProg
  | @loaded fproto buffer _ _ _ _ hProg _ =>
      rcases c.writeBack_eq fproto buffer with
        ⟨next, hWrite, _⟩
      rw [hWrite] at hProg
      cases hProg
  | done hOrder _ => exact hOrder

/-
  If all calls return success and no update falls into the
  window of a call for the other protocol, the masks are
  those of the calls run one after another, in the order in
  which they wrote.
-/
theorem portUpdates_serializable
    (calls : Fin k → PortCall)
    (m : Maps nrCpus)
    (schedule : List (Fin k))
    (hWindows :
      (portSystem nrCpus k).AllSteps (KeepsWindows calls)
        (portPool calls m) schedule)
    (hOk :
      AllOk
        ((portSystem nrCpus k).final (portPool calls m)
          schedule)) :
    Serializable calls m schedule := by
  have hInv :=
    (portSystem nrCpus k).ghost_simulation_of_allSteps
      writeOrder (KeepsWindows calls) (Serialized calls m)
      (fun pool order i hWindow hInv => hInv.step hWindow)
      hWindows (serialized_portPool calls m)
  refine ⟨(portSystem nrCpus k).ghost writeOrder
    (portPool calls m) [] schedule, ?_, ?_⟩
  · apply (List.perm_ext_iff_of_nodup hInv.nodup
      (List.nodup_finRange k)).mpr
    intro i
    have hPhase := hInv.phase i
    rw [hOk i] at hPhase
    simp [hPhase.written_of_ok]
  · intro port cpu
    rw [hInv.masks_eq]

/- Calls for one protocol never disturb each other. -/
theorem keepsWindows_of_sameProtocol
    {calls : Fin k → PortCall}
    (hSame :
      ∀ i j, protoFilter (calls j).proto =
        protoFilter (calls i).proto)
    (pool :
      Pool (MapCall nrCpus) MapCall.Resp ℕ
        (Maps nrCpus) (Fin k))
    (i : Fin k) :
    KeepsWindows calls pool i := by
  intro key values _
  exact Or.inr fun j _ _ => hSame i j

/- Block TCP port 80, and unblock it. -/
def addAndDelete : Fin 2 → PortCall
  | 0 => ⟨80, ACTION_ADD, 6⟩
  | 1 => ⟨80, ACTION_DEL, 6⟩

theorem portUpdates_serializable_addAndDelete :
    Serializable addAndDelete (Maps.fresh : Maps 1)
      [0, 1, 0, 1, 1] := by
  apply portUpdates_serializable
  · apply Reactive.allSteps_of_forall
    apply keepsWindows_of_sameProtocol
    decide
  · intro i
    match i with
    | 0 => rfl
    | 1 => rfl

end XdpDdos
