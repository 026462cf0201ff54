import XdpDdos.Lib.CArgs

/-
  Reading numbers from a file as the C library does: a line
  with `fgets`, and the `%u` conversion of `sscanf`, which
  goes through `strtoul` and a 64-bit `long`.

  Main declarations:
    * `CLib.fgets`
    * `CLib.strtoul`, `CLib.scanUnsigned`
    * `CLib.scanUnsigned_append`
-/

------------------------------------------------------------
-- Lines
------------------------------------------------------------

namespace XdpDdos

namespace CLib

/- Text up to its first line feed, which is included. -/
def firstLine : CStr → CStr
  | [] => []
  | c :: rest =>
      if c = '\n' then [c] else c :: firstLine rest

/- `fgets`: at most `size - 1` characters of one line. -/
def fgets
    (size : ℕ)
    (content : CStr) : Option CStr :=
  if content = [] then none
  else some ((firstLine content).take (size - 1))

theorem firstLine_append
    {line : CStr}
    (hPlain : '\n' ∉ line)
    (rest : CStr) :
    firstLine (line ++ rest) = line ++ firstLine rest := by
  induction line with
  | nil => rfl
  | cons c line ih =>
      have hHead : c ≠ '\n' := fun hEq =>
        hPlain (hEq ▸ List.mem_cons_self)
      rw [List.cons_append, firstLine, if_neg hHead,
        ih (fun hMem => hPlain (List.mem_cons_of_mem c hMem)),
        List.cons_append]

/- A line that fits the buffer is read as it is. -/
theorem fgets_of_line
    {size : ℕ}
    {line : CStr}
    (hPlain : '\n' ∉ line)
    (hSome : line ≠ [])
    (feed : Bool)
    (hFit : line.length + 1 < size) :
    fgets size (line ++ if feed then ['\n'] else []) =
      some (line ++ if feed then ['\n'] else []) := by
  have hLine :
      firstLine (line ++ if feed then ['\n'] else []) =
        line ++ if feed then ['\n'] else [] := by
    rw [firstLine_append hPlain]
    cases feed with
    | true => rfl
    | false => rfl
  rw [fgets, if_neg (by simp [hSome]), hLine,
    List.take_of_length_le]
  cases feed with
  | true =>
      simp only [if_true, List.length_append,
        List.length_singleton]
      omega
  | false =>
      simp only [Bool.false_eq_true, if_false,
        List.append_nil]
      omega

------------------------------------------------------------
-- Unsigned Numbers
------------------------------------------------------------

/- `strtoul`: too large a number becomes the largest one. -/
def strtoul
    (negative : Bool)
    (magnitude : ℕ) : ℕ :=
  if magnitude < 2 ^ 64 then
    if negative then (2 ^ 64 - magnitude) % 2 ^ 64
    else magnitude
  else 2 ^ 64 - 1

/-
  `%u`: white space, a sign, digits; the result is truncated
  to an `unsigned int`.  Also what follows is returned.
-/
def scanUnsigned
    (text : CStr) : Option (BitVec 32 × CStr) :=
  let (negative, rest) := scanSign (text.dropWhile isspace)
  let digits := rest.takeWhile Char.isDigit
  if digits = [] then none
  else
    some (BitVec.ofNat 32 (strtoul negative (decimal digits)),
      rest.dropWhile Char.isDigit)

/- A numeral is read up to the first character behind it. -/
theorem scanUnsigned_append
    {digits rest : CStr}
    (hSome : digits ≠ [])
    (hDigits : ∀ c ∈ digits, c.isDigit = true)
    (hRest : ∀ c ∈ rest.head?, c.isDigit = false) :
    scanUnsigned (digits ++ rest) =
      some (BitVec.ofNat 32 (strtoul false (decimal digits)),
        rest) := by
  have hTake :
      (digits ++ rest).takeWhile Char.isDigit = digits := by
    rw [List.takeWhile_append_of_pos hDigits]
    cases rest with
    | nil => simp
    | cons c rest =>
        rw [List.takeWhile_cons, hRest c rfl]
        simp
  have hDrop :
      (digits ++ rest).dropWhile Char.isDigit = rest := by
    rw [List.dropWhile_append_of_pos hDigits]
    cases rest with
    | nil => rfl
    | cons c rest =>
        rw [List.dropWhile_cons, hRest c rfl]
        rfl
  cases digits with
  | nil => exact absurd rfl hSome
  | cons c digits =>
      have hDigit := hDigits c List.mem_cons_self
      have hSign :
          scanSign ((c :: digits ++ rest).dropWhile isspace) =
            (false, c :: digits ++ rest) := by
        rw [List.cons_append, List.dropWhile_cons,
          isspace_of_isDigit hDigit]
        exact scanSign_of_isDigit hDigit _
      simp only [scanUnsigned, hSign, hTake, hDrop]
      rw [if_neg (List.cons_ne_nil c digits)]

end CLib

end XdpDdos
