import XdpDdos.Loader.User
import XdpDdos.Lib.CArgs
import Mathlib.Tactic.SplitIfs

/-
  The option loop of the loader, which turns its arguments
  into what `main` acts on.

  Users and interfaces are looked up in databases outside of
  the program.

  Main declarations:
    * `NameDb`
    * `Loader.scanOption`, `Loader.optionLoop`
    * `Loader.main`
    * `Loader.Accepted`, `Loader.optionsOf`
    * `Loader.optionLoop_eq`
-/

------------------------------------------------------------
-- The Loop
------------------------------------------------------------

namespace XdpDdos

/-
  `getpwnam`, as far as user and group are looked at, and
  `if_nametoindex`, which gives 0 for no interface.
-/
structure NameDb where
  getpwnam : CStr → Option (BitVec 32 × BitVec 32)
  ifNametoindex : CStr → Option { ifindex : ℤ // 0 < ifindex }

namespace Loader

def longOptions : List LongOption :=
  [⟨"help".toList, false, 'h'⟩,
    ⟨"remove".toList, false, 'r'⟩,
    ⟨"dev".toList, true, 'd'⟩,
    ⟨"quiet".toList, false, 'q'⟩,
    ⟨"owner".toList, true, 'o'⟩,
    ⟨"skb-mode".toList, false, 'S'⟩]

def optstring : CStr :=
  "hSrqd:".toList

/- What `getopt_long` makes of the arguments. -/
def options (args : List CStr) : List GetoptResult :=
  (getoptLong optstring longOptions args).1

def IF_NAMESIZE : ℕ := 16

/- The variables before the loop. -/
def initialOptions : Options where
  ifindex := -1
  ifindex_ok := Or.inl rfl
  rmXdpProg := false
  xdpFlags := 0
  owner := -1
  group := -1

/- `case 'd'`: the interface of a name that fits. -/
def scanDev
    (db : NameDb)
    (opt : Options)
    (optarg : CStr) : Option Options :=
  if optarg.length ≥ IF_NAMESIZE then none
  else
    match db.ifNametoindex optarg with
    | none => none
    | some ifindex =>
        some { opt with
          ifindex := ifindex
          ifindex_ok := Or.inr ifindex.property }

/- `case 'o'`: extract owner and group from username. -/
def scanOwner
    (db : NameDb)
    (opt : Options)
    (optarg : CStr) : Option Options :=
  match db.getpwnam optarg with
  | none => none
  | some (uid, gid) =>
      some { opt with owner := uid, group := gid }

/-
  One round of the switch; `none` is the usage message.  The
  options with an argument always come with one.
-/
def scanOption
    (db : NameDb)
    (opt : Options)
    (r : GetoptResult) : Option Options :=
  match r.opt with
  | 'q' => some opt
  | 'r' => some { opt with rmXdpProg := true }
  | 'o' => scanOwner db opt (r.optarg.getD [])
  | 'd' => scanDev db opt (r.optarg.getD [])
  | 'S' =>
      some { opt with
        xdpFlags := opt.xdpFlags ||| XDP_FLAGS_SKB_MODE }
  | _ => none

/- The loop over all options. -/
def optionLoop
    (db : NameDb)
    (opt : Options) : List GetoptResult → Option Options
  | [] => some opt
  | r :: rs =>
      match scanOption db opt r with
      | none => none
      | some opt => optionLoop db opt rs

/- `main`, given its arguments behind `argv[0]`. -/
def main
    (db : NameDb)
    (args : List CStr) : LoadProg ℕ :=
  match optionLoop db initialOptions (options args) with
  | none => return EXIT_FAIL_OPTION
  | some opt => XdpDdos.main opt

------------------------------------------------------------
-- What the Loop Computes
------------------------------------------------------------

/- The interface that an option names. -/
def devOf
    (db : NameDb)
    (r : GetoptResult) :
    Option { ifindex : ℤ // 0 < ifindex } :=
  if r.opt = 'd' ∧ (r.optarg.getD []).length < IF_NAMESIZE then
    db.ifNametoindex (r.optarg.getD [])
  else none

/- The user and group of the user an option names. -/
def ownerOf
    (db : NameDb)
    (r : GetoptResult) : Option (BitVec 32 × BitVec 32) :=
  if r.opt = 'o' then db.getpwnam (r.optarg.getD []) else none

/-
  An option that is not an error: the flags, an interface
  that is known by a short name, a user that is known.
-/
def Accepted
    (db : NameDb)
    (r : GetoptResult) : Prop :=
  r.opt = 'q' ∨ r.opt = 'r' ∨ r.opt = 'S' ∨
    (devOf db r).isSome ∨ (ownerOf db r).isSome

instance
    (db : NameDb)
    (r : GetoptResult) :
    Decidable (Accepted db r) := by
  unfold Accepted
  infer_instance

/- What the interfaces named make of the variable. -/
def ifindexOf
    (opt : Options)
    (devs : List { ifindex : ℤ // 0 < ifindex }) : ℤ :=
  match devs.getLast? with
  | some ifindex => ifindex
  | none => opt.ifindex

theorem ifindexOf_ok
    (opt : Options)
    (devs : List { ifindex : ℤ // 0 < ifindex }) :
    ifindexOf opt devs = -1 ∨ 0 < ifindexOf opt devs := by
  unfold ifindexOf
  cases devs.getLast? with
  | none => exact opt.ifindex_ok
  | some ifindex => exact Or.inr ifindex.property

/-
  What options ask for: the last interface and the last user
  named, and the flags in any order.
-/
def optionsOf
    (db : NameDb)
    (opt : Options)
    (rs : List GetoptResult) : Options where
  ifindex := ifindexOf opt (rs.filterMap (devOf db))
  ifindex_ok := ifindexOf_ok opt _
  rmXdpProg := opt.rmXdpProg || rs.any (·.opt = 'r')
  xdpFlags :=
    if rs.any (·.opt = 'S') then
      opt.xdpFlags ||| XDP_FLAGS_SKB_MODE
    else opt.xdpFlags
  owner :=
    ((rs.filterMap (ownerOf db)).getLast?.map
      Prod.fst).getD opt.owner
  group :=
    ((rs.filterMap (ownerOf db)).getLast?.map
      Prod.snd).getD opt.group

section

variable {db : NameDb}
variable {opt : Options}

theorem ifindexOf_append
    (devs devs' : List { ifindex : ℤ // 0 < ifindex }) :
    ifindexOf opt (devs ++ devs') =
      match devs'.getLast? with
      | some ifindex => ifindex
      | none => ifindexOf opt devs := by
  unfold ifindexOf
  rw [List.getLast?_append]
  cases devs'.getLast? with
  | none => rfl
  | some ifindex => rfl

/- The flag is set however often it is given. -/
theorem skbMode_or_self
    (flags : BitVec 32) :
    flags ||| XDP_FLAGS_SKB_MODE ||| XDP_FLAGS_SKB_MODE =
      flags ||| XDP_FLAGS_SKB_MODE := by
  rw [BitVec.or_assoc, BitVec.or_self]

/- The options of two parts of the command line. -/
theorem optionsOf_append
    (rs rs' : List GetoptResult) :
    optionsOf db (optionsOf db opt rs) rs' =
      optionsOf db opt (rs ++ rs') := by
  simp only [optionsOf, Options.mk.injEq,
    List.filterMap_append, List.any_append,
    List.getLast?_append]
  refine ⟨?_, ?_, ?_, ?_, ?_⟩
  · rw [ifindexOf_append]
    rfl
  · rw [Bool.or_assoc]
  · cases rs.any (·.opt = 'S') with
    | false => simp
    | true =>
        simp only [if_true, Bool.true_or]
        split
        · exact skbMode_or_self _
        · rfl
  · cases (rs'.filterMap (ownerOf db)).getLast? with
    | none => rfl
    | some ids => rfl
  · cases (rs'.filterMap (ownerOf db)).getLast? with
    | none => rfl
    | some ids => rfl

/- An option that names no interface and no user. -/
theorem optionsOf_flag
    {r : GetoptResult}
    (hDev : r.opt ≠ 'd')
    (hOwner : r.opt ≠ 'o') :
    optionsOf db opt [r] =
      { opt with
        rmXdpProg := opt.rmXdpProg || decide (r.opt = 'r')
        xdpFlags :=
          if r.opt = 'S' then
            opt.xdpFlags ||| XDP_FLAGS_SKB_MODE
          else opt.xdpFlags } := by
  have hNoDev : devOf db r = none := by
    rw [devOf, if_neg (fun hBoth => hDev hBoth.1)]
  have hNoOwner : ownerOf db r = none := by
    rw [ownerOf, if_neg hOwner]
  simp [optionsOf, hNoDev, hNoOwner, ifindexOf]

/- One round, for an option that names an interface. -/
theorem scanDev_eq
    (optarg : Option CStr) :
    scanDev db opt (optarg.getD []) =
      if Accepted db ⟨'d', optarg⟩ then
        some (optionsOf db opt [⟨'d', optarg⟩])
      else none := by
  by_cases hLong : (optarg.getD []).length ≥ IF_NAMESIZE
  · have hRefused : ¬ Accepted db ⟨'d', optarg⟩ := by
      simp [Accepted, devOf, ownerOf, Nat.not_lt.mpr hLong]
    rw [scanDev, if_pos hLong, if_neg hRefused]
  · have hShort := Nat.lt_of_not_le hLong
    rw [scanDev, if_neg hLong]
    cases hIndex : db.ifNametoindex (optarg.getD []) with
    | none =>
        have hRefused : ¬ Accepted db ⟨'d', optarg⟩ := by
          simp [Accepted, devOf, ownerOf, hIndex]
        rw [if_neg hRefused]
    | some ifindex =>
        have hTaken : Accepted db ⟨'d', optarg⟩ := by
          simp [Accepted, devOf, hShort, hIndex]
        rw [if_pos hTaken]
        simp [optionsOf, devOf, ownerOf, ifindexOf, hShort,
          hIndex]

/- One round, for an option that names a user. -/
theorem scanOwner_eq
    (optarg : Option CStr) :
    scanOwner db opt (optarg.getD []) =
      if Accepted db ⟨'o', optarg⟩ then
        some (optionsOf db opt [⟨'o', optarg⟩])
      else none := by
  rw [scanOwner]
  cases hUser : db.getpwnam (optarg.getD []) with
  | none =>
      have hRefused : ¬ Accepted db ⟨'o', optarg⟩ := by
        simp [Accepted, devOf, ownerOf, hUser]
      rw [if_neg hRefused]
  | some ids =>
      have hTaken : Accepted db ⟨'o', optarg⟩ := by
        simp [Accepted, ownerOf, hUser]
      rw [if_pos hTaken]
      simp [optionsOf, devOf, ownerOf, ifindexOf, hUser]

/- One round of the switch takes what is accepted. -/
theorem scanOption_eq
    (r : GetoptResult) :
    scanOption db opt r =
      if Accepted db r then some (optionsOf db opt [r])
      else none := by
  rcases r with ⟨c, optarg⟩
  unfold scanOption
  split
  case h_1 hOpt | h_2 hOpt | h_5 hOpt =>
    dsimp only at hOpt
    subst hOpt
    rw [if_pos (by simp [Accepted]),
      optionsOf_flag (by simp) (by simp)]
    simp
  case h_3 hOpt =>
    dsimp only at hOpt
    subst hOpt
    exact scanOwner_eq optarg
  case h_4 hOpt =>
    dsimp only at hOpt
    subst hOpt
    exact scanDev_eq optarg
  case h_6 hQuiet hRemove hOwner hDev hSkb =>
    have hRefused : ¬ Accepted db ⟨c, optarg⟩ := by
      simp only [Accepted, devOf, ownerOf]
      rw [if_neg (fun hBoth => hDev hBoth.1), if_neg hOwner]
      rintro (hEq | hEq | hEq | hSome | hSome)
      · exact hQuiet hEq
      · exact hRemove hEq
      · exact hSkb hEq
      · cases hSome
      · cases hSome
    rw [if_neg hRefused]

/- The loop ends at the first option that is an error. -/
theorem optionLoop_eq
    (rs : List GetoptResult) :
    optionLoop db opt rs =
      if ∀ r ∈ rs, Accepted db r then
        some (optionsOf db opt rs)
      else none := by
  induction rs generalizing opt with
  | nil => simp [optionLoop, optionsOf, ifindexOf]
  | cons r rs ih =>
      rw [optionLoop, scanOption_eq]
      by_cases hTaken : Accepted db r
      · rw [if_pos hTaken]
        simp only [ih, optionsOf_append, List.forall_mem_cons,
          hTaken, true_and, List.singleton_append]
      · rw [if_neg hTaken, if_neg]
        intro hAll
        exact hTaken (hAll r List.mem_cons_self)

end

/-
  The loader acts on what all of its options together ask
  for, or makes no call at all: one option that is an error
  turns the whole command line down.
-/
theorem main_eq_of_options
    (db : NameDb)
    (args : List CStr) :
    main db args =
      if ∀ r ∈ options args, Accepted db r then
        XdpDdos.main (optionsOf db initialOptions (options args))
      else .ret EXIT_FAIL_OPTION := by
  rw [main, optionLoop_eq]
  split_ifs
  · rfl
  · rfl

end Loader

end XdpDdos
