import XdpDdos.Lib.ByteSeq
import Mathlib.Data.Int.Notation
import Mathlib.Data.Int.Order.Basic
import Mathlib.Data.List.TakeWhile

/-
  Command line arguments as the C library takes them apart:
  `atoi`, and GNU `getopt_long` with argument permutation.

  Main declarations:
    * `CLib.strtol`, `CLib.atoi`
    * `LongOption`, `GetoptResult`, `getoptLong`
    * `CLib.toInt_atoi_of_digits`
    * `TakesNoArg`, `argsComplete_getoptLong`
-/

------------------------------------------------------------
-- Numbers
------------------------------------------------------------

namespace XdpDdos

/- The value of a string of decimal digits. -/
def decimal (digits : CStr) : ℕ :=
  digits.foldl (fun n c => 10 * n + (c.toNat - 48)) 0

namespace CLib

/- `isspace` in the C locale. -/
def isspace (c : Char) : Bool :=
  c = ' ' || (9 ≤ c.toNat && c.toNat ≤ 13)

/- The sign in front of a number, and what follows it. -/
def scanSign : CStr → Bool × CStr
  | [] => (false, [])
  | c :: rest =>
      if c = '-' then (true, rest)
      else if c = '+' then (false, rest)
      else (false, c :: rest)

/- A value that does not fit a 64-bit `long` is clamped. -/
def clampLong (value : ℤ) : ℤ :=
  max (-2 ^ 63) (min value (2 ^ 63 - 1))

/- `strtol` in base ten: white space, a sign, digits. -/
def strtol (nptr : CStr) : ℤ :=
  let (negative, rest) := scanSign (nptr.dropWhile isspace)
  let value : ℤ := decimal (rest.takeWhile Char.isDigit)
  clampLong (if negative then -value else value)

/- `atoi`: the `long` is truncated to an `int`. -/
def atoi (nptr : CStr) : BitVec 32 :=
  BitVec.ofInt 32 (strtol nptr)

/- A digit is neither white space nor a sign. -/
theorem isspace_of_isDigit
    {c : Char}
    (hDigit : c.isDigit = true) :
    isspace c = false := by
  simp only [Char.isDigit, Bool.and_eq_true,
    decide_eq_true_eq] at hDigit
  have hLow : 48 ≤ c.toNat := hDigit.1
  have hBlank : c ≠ ' ' := by
    rintro rfl
    simp at hLow
  simp only [isspace, hBlank, decide_false, Bool.false_or,
    Bool.and_eq_false_iff, decide_eq_false_iff_not]
  omega

theorem scanSign_of_isDigit
    {c : Char}
    (hDigit : c.isDigit = true)
    (rest : CStr) :
    scanSign (c :: rest) = (false, c :: rest) := by
  have hMinus : c ≠ '-' := by
    rintro rfl
    simp [Char.isDigit] at hDigit
  have hPlus : c ≠ '+' := by
    rintro rfl
    simp [Char.isDigit] at hDigit
  rw [scanSign, if_neg hMinus, if_neg hPlus]

/- A numeral is converted to its value, or clamped. -/
theorem strtol_of_digits
    {s : CStr}
    (hDigits : s.all Char.isDigit = true) :
    strtol s = clampLong (decimal s) := by
  have hWhole : s.takeWhile Char.isDigit = s := by
    rw [List.takeWhile_eq_self_iff]
    exact List.all_eq_true.mp hDigits
  cases s with
  | nil => rfl
  | cons c rest =>
      have hDigit : c.isDigit = true :=
        List.all_eq_true.mp hDigits c List.mem_cons_self
      simp only [strtol, List.dropWhile_cons,
        isspace_of_isDigit hDigit, Bool.false_eq_true,
        if_false, scanSign_of_isDigit hDigit, hWhole]

/- A numeral below 2^31 is converted to its value. -/
theorem toInt_atoi_of_digits
    {s : CStr}
    (hDigits : s.all Char.isDigit = true)
    (hSmall : decimal s < 2 ^ 31) :
    (atoi s).toInt = decimal s := by
  unfold atoi
  rw [strtol_of_digits hDigits, BitVec.toInt_ofInt]
  unfold clampLong
  rw [Int.min_eq_left (by omega), Int.max_eq_right (by omega)]
  exact Int.bmod_eq_of_le (by omega) (by omega)

end CLib

------------------------------------------------------------
-- Options
------------------------------------------------------------

/- `struct option`, for options without a flag to set. -/
structure LongOption where
  name : CStr
  hasArg : Bool
  val : Char

/- What one call of `getopt_long` returns, and `optarg`. -/
structure GetoptResult where
  opt : Char
  optarg : Option CStr
  deriving Repr, DecidableEq

/- The answer to an unknown or malformed option. -/
def GetoptResult.unknown : GetoptResult :=
  ⟨'?', none⟩

/- Whether a short option exists and takes an argument. -/
def findShort (c : Char) : CStr → Option Bool
  | [] => none
  | o :: rest =>
      if o = c ∧ c ≠ ':' then some (rest.head? = some ':')
      else findShort c rest

/-
  The long option of a name: the exact one, or the one the
  name abbreviates without ambiguity.
-/
def findLong
    (longopts : List LongOption)
    (name : CStr) : Option LongOption :=
  match longopts.find? (fun o => o.name = name) with
  | some o => some o
  | none =>
      match longopts.filter (fun o => name.isPrefixOf o.name)
        with
      | [] => none
      | o :: others =>
          if others.all (fun p =>
              p.hasArg = o.hasArg ∧ p.val = o.val) then
            some o
          else none

/-
  The options of one argument, and the last one if it still
  lacks its argument.
-/
abbrev ScannedArg :=
  List GetoptResult × Option Char

/- `-abc`: options up to one that takes the rest. -/
def scanShort (optstring : CStr) : CStr → ScannedArg
  | [] => ([], none)
  | c :: rest =>
      match findShort c optstring with
      | none =>
          let (results, pending) := scanShort optstring rest
          (.unknown :: results, pending)
      | some false =>
          let (results, pending) := scanShort optstring rest
          (⟨c, none⟩ :: results, pending)
      | some true =>
          if rest = [] then ([], some c)
          else ([⟨c, some rest⟩], none)

/- `--name` or `--name=value`. -/
def scanLong
    (longopts : List LongOption)
    (body : CStr) : ScannedArg :=
  match findLong longopts (body.takeWhile (· ≠ '=')) with
  | none => ([.unknown], none)
  | some o =>
      match body.dropWhile (· ≠ '='), o.hasArg with
      | [], false => ([⟨o.val, none⟩], none)
      | [], true => ([], some o.val)
      | _ :: _, false => ([.unknown], none)
      | _ :: value, true => ([⟨o.val, some value⟩], none)

/- The options of one argument, if it has any. -/
def scanArg
    (optstring : CStr)
    (longopts : List LongOption) :
    CStr → Option ScannedArg
  | '-' :: '-' :: body => some (scanLong longopts body)
  | '-' :: c :: cs => some (scanShort optstring (c :: cs))
  | _ => none

/-
  All results of `getopt_long` for the arguments behind
  `argv[0]`, and the arguments that are no options, which it
  moves to the end.
-/
def getoptLong
    (optstring : CStr)
    (longopts : List LongOption) :
    List CStr → List GetoptResult × List CStr
  | [] => ([], [])
  | arg :: args =>
      if arg = ['-', '-'] then ([], args)
      else
        match scanArg optstring longopts arg, args with
        | none, args =>
            let (results, rest) :=
              getoptLong optstring longopts args
            (results, arg :: rest)
        | some (found, none), args =>
            let (results, rest) :=
              getoptLong optstring longopts args
            (found ++ results, rest)
        | some (found, some _), [] => (found ++ [.unknown], [])
        | some (found, some c), optarg :: args =>
            let (results, rest) :=
              getoptLong optstring longopts args
            (found ++ ⟨c, some optarg⟩ :: results, rest)

------------------------------------------------------------
-- Options without an Argument
------------------------------------------------------------

/- An option that may come back without an argument. -/
def TakesNoArg
    (optstring : CStr)
    (longopts : List LongOption)
    (opt : Char) : Prop :=
  opt = '?' ∨ findShort opt optstring = some false ∨
    ∃ o ∈ longopts, o.val = opt ∧ o.hasArg = false

/- All results without an argument are of such options. -/
def ArgsComplete
    (optstring : CStr)
    (longopts : List LongOption)
    (results : List GetoptResult) : Prop :=
  ∀ r ∈ results, r.optarg = none →
    TakesNoArg optstring longopts r.opt

theorem ArgsComplete.append
    {optstring : CStr}
    {longopts : List LongOption}
    {results results' : List GetoptResult}
    (hLeft : ArgsComplete optstring longopts results)
    (hRight : ArgsComplete optstring longopts results') :
    ArgsComplete optstring longopts (results ++ results') := by
  intro r hMem
  rcases List.mem_append.mp hMem with hIn | hIn
  · exact hLeft r hIn
  · exact hRight r hIn

theorem ArgsComplete.cons
    {optstring : CStr}
    {longopts : List LongOption}
    {r : GetoptResult}
    {results : List GetoptResult}
    (hHead :
      r.optarg = none → TakesNoArg optstring longopts r.opt)
    (hTail : ArgsComplete optstring longopts results) :
    ArgsComplete optstring longopts (r :: results) := by
  intro r' hMem
  rcases List.mem_cons.mp hMem with rfl | hIn
  · exact hHead
  · exact hTail r' hIn

theorem ArgsComplete.nil
    {optstring : CStr}
    {longopts : List LongOption} :
    ArgsComplete optstring longopts [] := by
  intro r hMem
  cases hMem

variable (optstring : CStr)
variable (longopts : List LongOption)

theorem argsComplete_scanShort
    (body : CStr) :
    ArgsComplete optstring longopts
      (scanShort optstring body).1 := by
  induction body with
  | nil => exact .nil
  | cons c rest ih =>
      unfold scanShort
      cases hFind : findShort c optstring with
      | none => exact .cons (fun _ => Or.inl rfl) ih
      | some takesArg =>
          cases takesArg with
          | false =>
              exact .cons
                (fun _ => Or.inr (Or.inl hFind)) ih
          | true =>
              dsimp only
              by_cases hRest : rest = []
              · rw [if_pos hRest]
                exact .nil
              · rw [if_neg hRest]
                refine .cons ?_ .nil
                intro hNone
                cases hNone

/- A long option that is found is one of the table. -/
theorem mem_of_findLong
    {name : CStr}
    {o : LongOption}
    (hFind : findLong longopts name = some o) :
    o ∈ longopts := by
  unfold findLong at hFind
  split at hFind
  case h_1 hExact =>
    cases hFind
    exact List.mem_of_find?_eq_some hExact
  case h_2 =>
    split at hFind
    case h_1 => cases hFind
    case h_2 _ others hAbbrev =>
      split at hFind
      · cases hFind
        have hMem :
            o ∈ longopts.filter
              (fun o => name.isPrefixOf o.name) := by
          rw [hAbbrev]
          exact List.mem_cons_self
        exact (List.mem_filter.mp hMem).1
      · cases hFind

theorem argsComplete_scanLong
    (body : CStr) :
    ArgsComplete optstring longopts
      (scanLong longopts body).1 := by
  unfold scanLong
  split
  case h_1 => exact .cons (fun _ => Or.inl rfl) .nil
  case h_2 o hFind =>
    split
    case h_1 hNoArg =>
      exact .cons
        (fun _ => Or.inr (Or.inr
          ⟨o, mem_of_findLong longopts hFind, rfl, hNoArg⟩))
        .nil
    case h_2 => exact .nil
    case h_3 => exact .cons (fun _ => Or.inl rfl) .nil
    case h_4 =>
      refine .cons ?_ .nil
      intro hNone
      cases hNone

theorem argsComplete_scanArg
    {arg : CStr}
    {found : List GetoptResult}
    {pending : Option Char}
    (hScan :
      scanArg optstring longopts arg =
        some (found, pending)) :
    ArgsComplete optstring longopts found := by
  unfold scanArg at hScan
  split at hScan
  case h_1 body =>
    have hFound := argsComplete_scanLong optstring longopts body
    rw [Option.some.inj hScan] at hFound
    exact hFound
  case h_2 c cs _ =>
    have hFound :=
      argsComplete_scanShort optstring longopts (c :: cs)
    rw [Option.some.inj hScan] at hFound
    exact hFound
  case h_3 => cases hScan

/- An option that takes an argument comes with one. -/
theorem argsComplete_getoptLong
    (args : List CStr) :
    ArgsComplete optstring longopts
      (getoptLong optstring longopts args).1 := by
  fun_induction getoptLong optstring longopts args with
  | case1 => exact .nil
  | case2 => exact .nil
  | case3 arg _ args _ results rest hRest ih =>
      rw [hRest] at ih
      exact ih
  | case4 arg _ args found hScan results rest hRest ih =>
      rw [hRest] at ih
      exact (argsComplete_scanArg optstring longopts
        hScan).append ih
  | case5 arg _ found c hScan =>
      exact (argsComplete_scanArg optstring longopts
        hScan).append (.cons (fun _ => Or.inl rfl) .nil)
  | case6 arg _ found c optarg args hScan results rest hRest
      ih =>
      rw [hRest] at ih
      refine (argsComplete_scanArg optstring longopts
        hScan).append (.cons ?_ ih)
      intro hNone
      cases hNone

end XdpDdos
