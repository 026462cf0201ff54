import XdpDdos.Tool.Update
import XdpDdos.Lib.Json

/-
  What `--list` prints when nothing fails.

  Both loops fetch each key from the one before it, so they
  are followed by splitting the keys into those that were
  listed and those that are still to come.

  Main declarations:
    * `PercpuHash.nextKey_getLast?`, `allPorts`
    * `run_listIpv4From`, `run_listPortsFrom`
    * `listing`, `runTool_of_list`
-/

------------------------------------------------------------
-- Walking the Keys
------------------------------------------------------------

namespace XdpDdos

variable {nrCpus : ℕ}

theorem nextIn_append
    {α : Type}
    [DecidableEq α]
    {x : α}
    {pre : List α}
    (hFirst : x ∉ pre)
    (suf : List α) :
    nextIn x (pre ++ x :: suf) = suf.head? := by
  induction pre with
  | nil => simp [nextIn]
  | cons y ys ih =>
      rw [List.mem_cons, not_or] at hFirst
      rw [List.cons_append, nextIn, if_neg (Ne.symm hFirst.1)]
      exact ih hFirst.2

/- Behind the listed keys comes the first of the others. -/
theorem PercpuHash.nextKey_getLast?
    {κ : Type}
    [DecidableEq κ]
    {maxEntries : ℕ}
    {hash : PercpuHash κ nrCpus maxEntries}
    {pre suf : List κ}
    (hKeys : hash.entries.keys = pre ++ suf) :
    hash.nextKey pre.getLast? = suf.head? := by
  rcases List.eq_nil_or_concat pre with rfl | ⟨init, key, rfl⟩
  · rw [List.getLast?_nil, nextKey, hKeys, List.nil_append]
  · have hNodup := hash.entries.keys_nodup
    rw [hKeys, List.concat_eq_append, List.append_assoc,
      List.singleton_append] at hNodup
    rw [List.concat_eq_append, List.append_assoc,
      List.singleton_append] at hKeys
    have hFirst : key ∉ init := by
      intro hMem
      have hDisjoint := (List.nodup_append.mp hNodup).2.2
      exact hDisjoint key hMem key List.mem_cons_self rfl
    rw [List.concat_eq_append, List.getLast?_concat, nextKey,
      hKeys, if_pos (by simp), nextIn_append hFirst]

/- Behind a port comes the next one, if there is one. -/
theorem PercpuArray.nextKey_port
    (arr : PercpuArray nrCpus NR_PORTS)
    {n : ℕ}
    (hRange : n < NR_PORTS) :
    arr.nextKey (some ((BitVec.ofNat 16 n).setWidth 32)) =
      if n + 1 < NR_PORTS then
        some ((BitVec.ofNat 16 (n + 1)).setWidth 32)
      else none := by
  have hPorts : NR_PORTS = 65536 := rfl
  have hKey :
      ((BitVec.ofNat 16 n).setWidth 32).toNat = n := by
    simp
    omega
  unfold nextKey
  dsimp only
  rw [hKey, if_neg (by omega)]
  by_cases hMore : n + 1 < NR_PORTS
  · rw [if_neg (by omega), if_pos hMore]
    congr 1
    apply BitVec.eq_of_toNat_eq
    simp
    omega
  · rw [if_pos (by omega), if_neg hMore]

/- All ports in order. -/
def allPorts : List (BitVec 16) :=
  (List.range NR_PORTS).map (BitVec.ofNat 16)

/- Likewise the keys of an array with an entry a port. -/
theorem PercpuArray.nextKey_getLast?
    (arr : PercpuArray nrCpus NR_PORTS)
    {pre suf : List (BitVec 16)}
    (hKeys : allPorts = pre ++ suf) :
    arr.nextKey (pre.getLast?.map (BitVec.setWidth 32)) =
      suf.head?.map (BitVec.setWidth 32) := by
  have hLength : pre.length + suf.length = NR_PORTS := by
    have hSame := congrArg List.length hKeys
    simpa [allPorts] using hSame.symm
  have hAt (i : ℕ) (hRange : i < NR_PORTS) :
      (pre ++ suf)[i]? = some (BitVec.ofNat 16 i) := by
    rw [← hKeys]
    simp [allPorts, hRange]
  have hHead :
      suf.head? =
        if pre.length < NR_PORTS then
          some (BitVec.ofNat 16 pre.length)
        else none := by
    by_cases hMore : pre.length < NR_PORTS
    · have hNext := hAt pre.length hMore
      rw [List.getElem?_append_right (Nat.le_refl _),
        Nat.sub_self] at hNext
      rw [if_pos hMore, List.head?_eq_getElem?, hNext]
    · have hNone : suf = [] :=
        List.eq_nil_of_length_eq_zero (by omega)
      rw [if_neg hMore, hNone]
      rfl
  rcases Nat.eq_zero_or_pos pre.length with hZero | hPos
  · have hNil : pre = [] := List.eq_nil_of_length_eq_zero hZero
    subst hNil
    rw [hHead, if_pos (by decide)]
    rfl
  · have hLast :
        pre.getLast? =
          some (BitVec.ofNat 16 (pre.length - 1)) := by
      have hPrev := hAt (pre.length - 1) (by omega)
      rw [List.getElem?_append_left (by omega)] at hPrev
      rw [List.getLast?_eq_getElem?, hPrev]
    rw [hLast, hHead, Option.map_some,
      arr.nextKey_port (by omega), Nat.sub_add_cancel hPos]
    by_cases hMore : pre.length < NR_PORTS
    · rw [if_pos hMore, if_pos hMore]
      rfl
    · rw [if_neg hMore, if_neg hMore]
      rfl

------------------------------------------------------------
-- Addresses
------------------------------------------------------------

namespace Tool

variable {α : Type}

/- What a count is read as when some calls fail. -/
def countRead
    (m : Maps nrCpus)
    (fails : CallFaults)
    (fd : MapId)
    (key : BitVec 32) : BitVec 64 :=
  match m.lookupFaulty fails key fd with
  | .ok values => sumValues values
  | .error _ => 0

/- If none fails it is the sum. -/
@[simp] theorem countRead_none
    (m : Maps nrCpus)
    (fd : MapId)
    (key : BitVec 32) :
    countRead m .none fd key = m.keySum fd key := rfl

/- Reading a count does not disturb the tool. -/
theorem run_count_bind
    (fails : ToolFaults)
    (fd : MapId)
    (key : BitVec 32)
    (next : BitVec 64 → ToolProg nrCpus α)
    (s : ToolState nrCpus) :
    CallProg.run (handle fails)
        (mapProg (getKey32Value64Percpu fd key) >>= next) s =
      CallProg.run (handle fails)
        (next (countRead s.maps fails.calls fd key)) s := by
  have hRun :
      CallProg.run (Maps.handleFaulty fails.calls)
          (getKey32Value64Percpu fd key) s.maps =
        (.returned (countRead s.maps fails.calls fd key),
          s.maps) := by
    rw [getKey32Value64Percpu, Maps.run_lookupFaulty_bind,
      countRead]
    cases s.maps.lookupFaulty fails.calls key fd with
    | ok values => rfl
    | error errno => rfl
  exact run_mapProg_bind fails hRun next

/- An address with its count, as it is printed. -/
def addrText
    (m : Maps nrCpus)
    (key : BitVec 32) : CStr :=
  "\n \"".toList ++ inetNtop key ++ "\" : ".toList ++
    showU64 (m.keySum .blacklist key)

/- The separator that goes by the value of a key. -/
def keyComma (key : BitVec 32) : CStr :=
  if key ≠ 0 then [','] else []

/- The loop prints the addresses that are still to come. -/
theorem run_listIpv4From
    {m : Maps nrCpus}
    {pre suf : List (BitVec 32)}
    (hKeys : m.blacklist.entries.keys = pre ++ suf)
    {fuel : ℕ}
    (hFuel : suf.length < fuel)
    (lastKey : BitVec 32)
    (out : CStr) :
    CallProg.run (handle .none)
        (listIpv4From .blacklist fuel pre.getLast? lastKey)
        ⟨m, out⟩ =
      (.returned (some (suf.getLast?.getD lastKey)),
        ⟨m, out ++ suf.flatMap fun key =>
          keyComma key ++ addrText m key⟩) := by
  induction suf generalizing pre fuel lastKey out with
  | nil =>
      obtain ⟨fuel, rfl⟩ :=
        Nat.exists_eq_succ_of_ne_zero (Nat.ne_of_gt hFuel)
      rw [listIpv4From, run_getNextKey_bind, Maps.getNextKey,
        PercpuHash.nextKey_getLast? hKeys]
      simp
  | cons key suf ih =>
      obtain ⟨fuel, rfl⟩ :=
        Nat.exists_eq_succ_of_ne_zero
          (Nat.ne_of_gt (Nat.lt_of_le_of_lt (Nat.zero_le _)
            hFuel))
      have hRest :
          m.blacklist.entries.keys = (pre ++ [key]) ++ suf := by
        rw [hKeys, List.append_assoc, List.singleton_append]
      have hTail :=
        ih hRest (Nat.lt_of_succ_lt_succ hFuel) key
          (out ++ keyComma key ++ addrText m key)
      rw [List.getLast?_concat] at hTail
      rw [listIpv4From, run_getNextKey_bind, Maps.getNextKey,
        PercpuHash.nextKey_getLast? hKeys]
      simp only [List.head?_cons]
      rw [run_printf_bind, run_count_bind, blacklistPrintIpv4,
        run_printf_bind, ToolFaults.none, countRead_none]
      refine Eq.trans hTail ?_
      rw [List.flatMap_cons, List.getLast?_cons]
      simp only [List.append_assoc, Option.getD_some]

/- The part of the listing about addresses. -/
def addrListing
    (m : Maps nrCpus)
    (frame : StackFrame) : CStr :=
  (m.blacklist.entries.keys.flatMap fun key =>
      keyComma key ++ addrText m key) ++
    keyComma
      (m.blacklist.entries.keys.getLast?.getD frame.key)

theorem run_blacklistListAllIpv4
    (m : Maps nrCpus)
    {fuel : ℕ}
    (hFuel : NR_ADDRS < fuel)
    (frame : StackFrame)
    (out : CStr) :
    CallProg.run (handle .none)
        (blacklistListAllIpv4 fuel frame .blacklist) ⟨m, out⟩ =
      (.returned true, ⟨m, out ++ addrListing m frame⟩) := by
  have hKeys :
      m.blacklist.entries.keys =
        [] ++ m.blacklist.entries.keys := rfl
  have hLoop :=
    run_listIpv4From hKeys
      (Nat.lt_of_le_of_lt m.blacklist.size_le hFuel)
      frame.key out
  rw [List.getLast?_nil] at hLoop
  rw [blacklistListAllIpv4,
    CallProg.run_bind_of_returned hLoop]
  dsimp only
  rw [run_printf_bind]
  simp [addrListing, keyComma]

------------------------------------------------------------
-- Ports
------------------------------------------------------------

/- Texts with commas in between, or in front of each. -/
def joined (started : Bool) (texts : List CStr) : CStr :=
  if started then texts.flatMap (',' :: ·)
  else separated ',' texts

theorem joined_cons
    (started : Bool)
    (text : CStr)
    (texts : List CStr) :
    joined started (text :: texts) =
      (if started then [','] else []) ++ text ++
        joined true texts := by
  cases started with
  | false => simp [joined, separated]
  | true => simp [joined]

/- The counters that the listing opens, one a protocol. -/
def countfds (i : DdosFilter) : MapId :=
  .portBlacklistDropCount i

/- A protocol with its count, as it is printed. -/
def protoText
    (m : Maps nrCpus)
    (key : BitVec 32)
    (i : DdosFilter) : CStr :=
  "\n\t\"".toList ++ protoFilterName i ++ "\" : ".toList ++
    showU64 (m.keySum (countfds i) key)

/- The protocols whose bit is set in a mask. -/
def setProtos (val : BitVec 32) : List DdosFilter :=
  [.tcp, .udp].filter fun i => val &&& (1#32 <<< i.index) ≠ 0

/- A brace instead of the first comma. -/
def braced (started : Bool) (texts : List CStr) : CStr :=
  if started ∨ texts = [] then joined started texts
  else '{' :: joined false texts

theorem braced_cons
    (started : Bool)
    (text : CStr)
    (texts : List CStr) :
    braced started (text :: texts) =
      (if started then [','] else ['{']) ++ text ++
        braced true texts := by
  cases started with
  | false => simp [braced, joined_cons]
  | true => simp [braced, joined_cons]

/- A protocol with a count, as it is printed. -/
def countedProto
    (counts : DdosFilter → BitVec 64)
    (i : DdosFilter) : CStr :=
  "\n\t\"".toList ++ protoFilterName i ++ "\" : ".toList ++
    showU64 (counts i)

theorem run_printProtos
    (fails : ToolFaults)
    (m : Maps nrCpus)
    (key val : BitVec 32)
    (protos : List DdosFilter)
    (started : Bool)
    (out : CStr) :
    CallProg.run (handle fails)
        (printProtos key val countfds protos started)
        ⟨m, out⟩ =
      (.returned (started ||
          (protos.filter fun i =>
            val &&& (1#32 <<< i.index) ≠ 0) ≠ []),
        ⟨m, out ++ braced started
          ((protos.filter fun i =>
            val &&& (1#32 <<< i.index) ≠ 0).map
              (countedProto fun i =>
                countRead m fails.calls (countfds i)
                  key))⟩) := by
  induction protos generalizing started out with
  | nil => simp [printProtos, braced, joined, separated]
  | cons i is ih =>
      rw [printProtos]
      by_cases hSet : val &&& (1#32 <<< i.index) ≠ 0
      · rw [if_pos hSet, run_printf_bind, run_count_bind,
          blacklistPrintProto, run_printf_bind, ih]
        rw [List.filter_cons_of_pos (by simpa using hSet)]
        simp [braced_cons, countedProto]
      · rw [if_neg hSet, ih,
          List.filter_cons_of_neg (by simpa using hSet)]

/- A port with its protocols, as it is printed. -/
def portText
    (m : Maps nrCpus)
    (key val : BitVec 32) : CStr :=
  "\n \"".toList ++ showInt key ++ "\" : ".toList ++
    braced false ((setProtos val).map (protoText m key)) ++
    (if setProtos val = [] then [] else "\n \x7d".toList)

/- A port with the protocols in a mask and their counts. -/
def countedPort
    (counts : DdosFilter → BitVec 64)
    (key val : BitVec 32) : CStr :=
  "\n \"".toList ++ showInt key ++ "\" : ".toList ++
    braced false ((setProtos val).map (countedProto counts)) ++
    (if setProtos val = [] then [] else "\n \x7d".toList)

theorem run_blacklistPrintPort_bind
    (fails : ToolFaults)
    (m : Maps nrCpus)
    (key val : BitVec 32)
    (next : Unit → ToolProg nrCpus α)
    (out : CStr) :
    CallProg.run (handle fails)
        (blacklistPrintPort key val countfds >>= next)
        ⟨m, out⟩ =
      CallProg.run (handle fails) (next ())
        ⟨m, out ++ countedPort
          (fun i => countRead m fails.calls (countfds i) key)
          key val⟩ := by
  have hProtos :=
    run_printProtos fails m key val [.tcp, .udp] false
      (out ++ ("\n \"".toList ++ showInt key ++
        "\" : ".toList))
  rw [blacklistPrintPort, CallProg.bind_assoc, run_printf_bind,
    CallProg.bind_assoc,
    CallProg.run_bind_of_returned hProtos]
  unfold countedPort
  by_cases hNone : setProtos val = []
  · rw [if_pos hNone]
    unfold setProtos at hNone ⊢
    rw [hNone]
    simp
  · rw [if_neg hNone]
    unfold setProtos at hNone ⊢
    simp only [Bool.false_or, hNone, ne_eq, not_false_eq_true,
      decide_true, if_true]
    rw [run_printf_bind]
    simp

/- The mask of a port, as a buffer of one slot has it. -/
def firstMask
    (m : Maps nrCpus)
    (hCpus : 0 < nrCpus)
    (port : BitVec 16) : BitVec 64 :=
  m.portBlacklist.slots (Maps.portIndex port) ⟨0, hCpus⟩

theorem run_lookupPort_bind
    (fails : ToolFaults)
    (m : Maps nrCpus)
    (key : BitVec 32)
    (next :
      Except Errno (Slots nrCpus) → ToolProg nrCpus α)
    (out : CStr) :
    CallProg.run (handle fails)
        (mapProg (bpfMapLookupElem .portBlacklist key) >>=
          next) ⟨m, out⟩ =
      CallProg.run (handle fails)
        (next (m.lookupFaulty fails.calls key
          .portBlacklist)) ⟨m, out⟩ := rfl

/- The value after a lookup; one that fails leaves it alone. -/
def valueRead
    (m : Maps nrCpus)
    (hCpus : 0 < nrCpus)
    (fails : CallFaults)
    (value : BitVec 64)
    (port : BitVec 16) : BitVec 64 :=
  match fails .portBlacklist .lookup (port.setWidth 32) with
  | some _ => value
  | none => firstMask m hCpus port

/- If the slots of all CPUs fit, the first one is read. -/
theorem run_lookupValue_bind
    (fails : ToolFaults)
    (m : Maps nrCpus)
    (hCpus : 0 < nrCpus)
    {frame : StackFrame}
    (hFit : nrCpus ≤ 1 + frame.spare)
    (port : BitVec 16)
    (value : BitVec 64)
    (next : BitVec 64 → ToolProg nrCpus α)
    (out : CStr) :
    CallProg.run (handle fails)
        (lookupValue frame .portBlacklist (port.setWidth 32)
          value >>= next) ⟨m, out⟩ =
      CallProg.run (handle fails)
        (next (valueRead m hCpus fails.calls value port))
        ⟨m, out⟩ := by
  rw [lookupValue, CallProg.bind_assoc, run_lookupPort_bind,
    valueRead]
  cases hFault :
      fails.calls .portBlacklist .lookup
        (port.setWidth 32) with
  | some errno =>
      rw [Maps.lookupFaulty_of_some hFault]
      rfl
  | none =>
      rw [Maps.lookupFaulty_of_none hFault, m.lookupElem_port]
      simp only [hFit, if_true, hCpus, dif_pos]
      rfl

/- If they do not fit, the stack is overwritten. -/
theorem run_lookupValue_of_lt
    (m : Maps nrCpus)
    {frame : StackFrame}
    (hFit : 1 + frame.spare < nrCpus)
    (port : BitVec 16)
    (value : BitVec 64)
    (next : BitVec 64 → ToolProg nrCpus α)
    (out : CStr) :
    CallProg.run (handle .none)
        (lookupValue frame .portBlacklist (port.setWidth 32)
          value >>= next) ⟨m, out⟩ =
      (.halted (.crash .outOfRange), ⟨m, out⟩) := by
  have hLookup :
      m.lookupFaulty ToolFaults.none.calls
          (port.setWidth 32) .portBlacklist =
        .ok (m.portBlacklist.slots (Maps.portIndex port)) :=
    m.lookupElem_port port
  rw [lookupValue, CallProg.bind_assoc, run_lookupPort_bind,
    hLookup]
  simp only [Nat.not_le.mpr hFit, if_false]
  rfl

/- The ports among some whose mask is not zero. -/
def maskedPorts
    (m : Maps nrCpus)
    (hCpus : 0 < nrCpus)
    (ports : List (BitVec 16)) : List (BitVec 16) :=
  ports.filter fun port => firstMask m hCpus port ≠ 0

theorem maskedPorts_cons
    (m : Maps nrCpus)
    (hCpus : 0 < nrCpus)
    (port : BitVec 16)
    (ports : List (BitVec 16)) :
    maskedPorts m hCpus (port :: ports) =
      if firstMask m hCpus port ≠ 0 then
        port :: maskedPorts m hCpus ports
      else maskedPorts m hCpus ports := by
  simp [maskedPorts, List.filter_cons]

/- A port with its mask, as it is printed. -/
def portEntry
    (m : Maps nrCpus)
    (hCpus : 0 < nrCpus)
    (port : BitVec 16) : CStr :=
  portText m (port.setWidth 32)
    ((firstMask m hCpus port).setWidth 32)

/- The ports that are listed, with the values read for them. -/
def valuedPorts
    (m : Maps nrCpus)
    (hCpus : 0 < nrCpus)
    (fails : CallFaults) :
    BitVec 64 → List (BitVec 16) →
      List (BitVec 16 × BitVec 64)
  | _, [] => []
  | value, port :: ports =>
      let value := valueRead m hCpus fails value port
      if value ≠ 0 then
        (port, value) :: valuedPorts m hCpus fails value ports
      else valuedPorts m hCpus fails value ports

/- If no call fails these are the ports with a mask. -/
theorem valuedPorts_none
    (m : Maps nrCpus)
    (hCpus : 0 < nrCpus)
    (value : BitVec 64)
    (ports : List (BitVec 16)) :
    valuedPorts m hCpus .none value ports =
      (maskedPorts m hCpus ports).map fun port =>
        (port, firstMask m hCpus port) := by
  induction ports generalizing value with
  | nil => rfl
  | cons port ports ih =>
      have hRead :
          valueRead m hCpus .none value port =
            firstMask m hCpus port := rfl
      rw [valuedPorts, hRead, ih, maskedPorts_cons]
      by_cases hMask : firstMask m hCpus port ≠ 0
      · rw [if_pos hMask, if_pos hMask, List.map_cons]
      · rw [if_neg hMask, if_neg hMask]

/- A port with the value read for it, as it is printed. -/
def valuedEntry
    (m : Maps nrCpus)
    (fails : CallFaults)
    (e : BitVec 16 × BitVec 64) : CStr :=
  countedPort
    (fun i =>
      countRead m fails (countfds i) (e.1.setWidth 32))
    (e.1.setWidth 32) (e.2.setWidth 32)

/- The loop prints the ports that are still to come. -/
theorem run_listPortsFrom
    (fails : ToolFaults)
    (m : Maps nrCpus)
    (hCpus : 0 < nrCpus)
    {frame : StackFrame}
    (hFit : nrCpus ≤ 1 + frame.spare)
    {pre suf : List (BitVec 16)}
    (hKeys : allPorts = pre ++ suf)
    {fuel : ℕ}
    (hFuel : suf.length < fuel)
    (value : BitVec 64)
    (started : Bool)
    (out : CStr) :
    CallProg.run (handle fails)
        (listPortsFrom frame .portBlacklist countfds fuel
          (pre.getLast?.map (BitVec.setWidth 32)) value started)
        ⟨m, out⟩ =
      (.returned true, ⟨m, out ++ joined started
        ((valuedPorts m hCpus fails.calls value suf).map
          (valuedEntry m fails.calls))⟩) := by
  induction suf generalizing pre fuel value started out with
  | nil =>
      obtain ⟨fuel, rfl⟩ :=
        Nat.exists_eq_succ_of_ne_zero (Nat.ne_of_gt hFuel)
      rw [listPortsFrom, run_getNextKey_bind, Maps.getNextKey,
        PercpuArray.nextKey_getLast? _ hKeys]
      simp [valuedPorts, joined, separated]
  | cons port suf ih =>
      obtain ⟨fuel, rfl⟩ :=
        Nat.exists_eq_succ_of_ne_zero
          (Nat.ne_of_gt (Nat.lt_of_le_of_lt (Nat.zero_le _)
            hFuel))
      have hRest : allPorts = (pre ++ [port]) ++ suf := by
        rw [hKeys, List.append_assoc, List.singleton_append]
      have hTail (value : BitVec 64) (started : Bool)
          (out : CStr) :=
        ih hRest (Nat.lt_of_succ_lt_succ hFuel) value started
          out
      simp only [List.getLast?_concat, Option.map_some] at hTail
      rw [listPortsFrom, run_getNextKey_bind, Maps.getNextKey,
        PercpuArray.nextKey_getLast? _ hKeys]
      simp only [List.head?_cons, Option.map_some]
      rw [run_lookupValue_bind fails m hCpus hFit, valuedPorts]
      by_cases hValue :
          valueRead m hCpus fails.calls value port ≠ 0
      · rw [if_pos hValue, if_pos hValue, run_printf_bind,
          run_blacklistPrintPort_bind, hTail, List.map_cons,
          joined_cons]
        simp [valuedEntry]
      · rw [if_neg hValue, if_neg hValue, hTail]

/- All ports, from the first one on. -/
theorem run_blacklistListAllPorts
    (fails : ToolFaults)
    (m : Maps nrCpus)
    (hCpus : 0 < nrCpus)
    {fuel : ℕ}
    (hFuel : NR_PORTS < fuel)
    {frame : StackFrame}
    (hFit : nrCpus ≤ 1 + frame.spare)
    (out : CStr) :
    CallProg.run (handle fails)
        (blacklistListAllPorts fuel frame .portBlacklist
          countfds) ⟨m, out⟩ =
      (.returned true, ⟨m, out ++ separated ','
        ((valuedPorts m hCpus fails.calls frame.value
          allPorts).map (valuedEntry m fails.calls))⟩) := by
  have hKeys : allPorts = [] ++ allPorts :=
    (List.nil_append allPorts).symm
  have hLength : allPorts.length < fuel := by
    rw [allPorts, List.length_map, List.length_range]
    exact hFuel
  have hLoop :=
    run_listPortsFrom fails m hCpus hFit hKeys hLength
      frame.value false out
  rw [List.getLast?_nil, Option.map_none, joined,
    if_neg Bool.false_ne_true] at hLoop
  rw [blacklistListAllPorts]
  exact hLoop

/- The part of the listing about ports. -/
def portListing
    (m : Maps nrCpus)
    (hCpus : 0 < nrCpus) : CStr :=
  separated ','
    ((maskedPorts m hCpus allPorts).map (portEntry m hCpus))

------------------------------------------------------------
-- The Whole Listing
------------------------------------------------------------

/- All that `--list` prints. -/
def listing
    (m : Maps nrCpus)
    (hCpus : 0 < nrCpus)
    (frame : StackFrame) : CStr :=
  '{' :: (addrListing m frame ++ portListing m hCpus ++
    "\n\x7d\n".toList)

/- The files are opened and the addresses listed first. -/
theorem run_listBlacklists_ports
    (m : Maps nrCpus)
    {fuel : ℕ}
    (hFuel : NR_ADDRS < fuel)
    (frame : StackFrame) :
    CallProg.run (handle .none) (listBlacklists fuel frame)
        { maps := m } =
      CallProg.run (handle .none)
        (blacklistListAllPorts fuel frame .portBlacklist
            countfds >>= fun ended =>
          if ended then do
            close .portBlacklist
            printf "\n\x7d\n".toList
            close (countfds .tcp)
            close (countfds .udp)
            return true
          else return false)
        ⟨m, '{' :: addrListing m frame⟩ := by
  have hFds :
      countFdArray (.portBlacklistDropCount .tcp)
          (.portBlacklistDropCount .udp) =
        countfds := by
    funext i
    cases i with
    | tcp => rfl
    | udp => rfl
  have hAddrs :=
    run_blacklistListAllIpv4 m hFuel frame ['{']
  rw [listBlacklists, run_printf_bind,
    run_openBpfMap_of_none rfl mapOfFile_fileBlacklist]
  refine Eq.trans (CallProg.run_bind_of_returned hAddrs _) ?_
  rw [if_pos rfl, run_close_bind,
    run_openBpfMap_of_none rfl mapOfFile_filePortBlacklist,
    run_openBpfMap_of_none rfl
      (mapOfFile_filePortBlacklistCount .tcp),
    run_openBpfMap_of_none rfl
      (mapOfFile_filePortBlacklistCount .udp), hFds]
  rfl

/- The listing of a machine whose masks fit. -/
theorem run_listBlacklists
    (m : Maps nrCpus)
    (hCpus : 0 < nrCpus)
    {fuel : ℕ}
    (hFuel : NR_ADDRS < fuel)
    {frame : StackFrame}
    (hFit : nrCpus ≤ 1 + frame.spare) :
    CallProg.run (handle .none) (listBlacklists fuel frame)
        { maps := m } =
      (.returned true, ⟨m, listing m hCpus frame⟩) := by
  have hLess : NR_PORTS < NR_ADDRS := by
    decide
  have hPorts :=
    run_blacklistListAllPorts .none m hCpus
      (hLess.trans hFuel) hFit
      ('{' :: addrListing m frame)
  have hEntries :
      (valuedPorts m hCpus ToolFaults.none.calls frame.value
          allPorts).map
          (valuedEntry m ToolFaults.none.calls) =
        (maskedPorts m hCpus allPorts).map
          (portEntry m hCpus) := by
    rw [ToolFaults.none, valuedPorts_none, List.map_map]
    rfl
  rw [hEntries] at hPorts
  rw [run_listBlacklists_ports m hFuel]
  refine Eq.trans (CallProg.run_bind_of_returned hPorts _) ?_
  rw [if_pos rfl, run_close_bind, run_printf_bind]
  simp [listing, portListing]

/- The listing of another one ends at the first port. -/
theorem run_listBlacklists_of_lt
    (m : Maps nrCpus)
    {fuel : ℕ}
    (hFuel : NR_ADDRS < fuel)
    {frame : StackFrame}
    (hFit : 1 + frame.spare < nrCpus) :
    CallProg.run (handle .none) (listBlacklists fuel frame)
        { maps := m } =
      (.halted (.crash .outOfRange),
        ⟨m, '{' :: addrListing m frame⟩) := by
  obtain ⟨fuel, rfl⟩ :=
    Nat.exists_eq_succ_of_ne_zero
      (Nat.ne_of_gt (Nat.lt_of_le_of_lt (Nat.zero_le _) hFuel))
  rw [run_listBlacklists_ports m hFuel, blacklistListAllPorts,
    listPortsFrom, CallProg.bind_assoc, run_getNextKey_bind]
  have hFirst :
      m.getNextKey none .portBlacklist =
        some ((0 : BitVec 16).setWidth 32) := rfl
  dsimp only
  rw [hFirst]
  dsimp only
  rw [CallProg.bind_assoc, run_lookupValue_of_lt m hFit]

/- `--list`, and nothing else to do before. -/
structure AsksForList
    (args : List CStr)
    (st : OptionState) : Prop where
  accepted : optionLoop {} (options args) = some st
  no_action : st.action = 0
  no_others : nonOptions args = []
  list : st.doList = true

/- How the tool ends after the listing. -/
def endingAfterList (st : OptionState) : Ending :=
  if st.stats then .polling st.interval else .exited 0

theorem runTool_of_list
    {args : List CStr}
    {st : OptionState}
    (hList : AsksForList args st)
    (m : Maps nrCpus)
    (fuel : ℕ)
    (frame : StackFrame) :
    runTool fuel frame .none m args =
      match CallProg.run (handle .none)
        (listBlacklists fuel frame) { maps := m } with
      | (.returned true, s) =>
          (.returned (endingAfterList st), s)
      | (.returned false, s) => (.returned .unfinished, s)
      | (.halted how, s) => (.halted how, s) := by
  simp only [runTool, main, hList.accepted]
  rw [run_openBpfMap_of_none rfl mapOfFile_fileVerdict]
  simp only [hList.no_action, hList.no_others, hList.list,
    ne_eq, not_true, if_false, if_true]
  rw [CallProg.run_bind]
  rcases CallProg.run (handle .none)
      (listBlacklists fuel frame) { maps := m } with
    ⟨ended | how, s⟩
  · cases ended with
    | false => rfl
    | true =>
        simp only [if_true, showStats, endingAfterList]
        cases st.stats with
        | false => rfl
        | true => rfl
  · rfl

end Tool

end XdpDdos
