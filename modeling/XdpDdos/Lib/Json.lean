import XdpDdos.Lib.ByteSeq
import Mathlib.Algebra.Ring.Nat
import Mathlib.Data.Option.Basic
import Mathlib.Data.List.TakeWhile
import Mathlib.Data.List.Perm.Basic
import Mathlib.Algebra.BigOperators.Group.List.Basic

/-
  JSON texts: a lexer, and the values that texts denote.

  A value is unfolded into its tokens, and a text denotes it
  when it is read as these.  White space between tokens is
  skipped; numbers and names are read as long as they go.

  Main declarations:
    * `Json`, `Json.tokens`
    * `Json.lex`, `Json.Denotes`
    * `Json.Spells`, `Json.Spells.append`
    * `separated`, `Json.length_tokens_object`
-/

------------------------------------------------------------
-- Separated Lists
------------------------------------------------------------

namespace XdpDdos

/- The lists one after the other, with `sep` in between. -/
def separated
    {α : Type}
    (sep : α) : List (List α) → List α
  | [] => []
  | x :: xs => x ++ xs.flatMap (sep :: ·)

namespace Separated

variable {α : Type}
variable (sep : α)

/- Nonempty lists are joined by one more separator. -/
theorem append
    (xs : List (List α))
    {ys : List (List α)}
    (hLeft : xs ≠ [])
    (hRight : ys ≠ []) :
    separated sep (xs ++ ys) =
      separated sep xs ++ sep :: separated sep ys := by
  obtain ⟨x, xs, rfl⟩ := List.exists_cons_of_ne_nil hLeft
  obtain ⟨y, ys, rfl⟩ := List.exists_cons_of_ne_nil hRight
  simp [separated]

theorem length_separated
    (xs : List (List α)) :
    (separated sep xs).length =
      (xs.map List.length).sum + (xs.length - 1) := by
  cases xs with
  | nil => rfl
  | cons x xs =>
      have hRest :
          (xs.flatMap (sep :: ·)).length =
            (xs.map List.length).sum + xs.length := by
        induction xs with
        | nil => rfl
        | cons y ys ih =>
            simp only [List.flatMap_cons, List.length_append,
              List.length_cons, List.map_cons, List.sum_cons,
              ih]
            omega
      simp only [separated, List.length_append, hRest,
        List.map_cons, List.sum_cons, List.length_cons]
      omega

/- The length does not depend on the order. -/
theorem length_separated_of_perm
    {xs ys : List (List α)}
    (hPerm : xs.Perm ys) :
    (separated sep xs).length = (separated sep ys).length := by
  rw [length_separated, length_separated,
    (hPerm.map List.length).sum_eq, hPerm.length_eq]

end Separated

------------------------------------------------------------
-- Values and Tokens
------------------------------------------------------------

/- Values; strings and numbers are kept as they are spelled. -/
inductive Json where
  | null
  | bool (value : Bool)
  | number (text : List Char)
  | string (body : List Char)
  | array (items : List Json)
  | object (members : List (List Char × Json))

namespace Json

inductive Token where
  | lbrace
  | rbrace
  | lbracket
  | rbracket
  | comma
  | colon
  | null
  | bool (value : Bool)
  | number (text : List Char)
  | string (body : List Char)
  deriving Repr, DecidableEq

mutual

/- The tokens of a value. -/
def tokens : Json → List Token
  | .null => [.null]
  | .bool value => [.bool value]
  | .number text => [.number text]
  | .string body => [.string body]
  | .array items =>
      .lbracket ::
        (separated .comma (itemTokens items) ++ [.rbracket])
  | .object members =>
      .lbrace ::
        (separated .comma (memberTokens members) ++ [.rbrace])

/- The tokens of each item of an array. -/
def itemTokens : List Json → List (List Token)
  | [] => []
  | item :: items => item.tokens :: itemTokens items

/- The tokens of each member of an object. -/
def memberTokens :
    List (List Char × Json) → List (List Token)
  | [] => []
  | (name, value) :: members =>
      (.string name :: .colon :: value.tokens) ::
        memberTokens members

end

theorem memberTokens_eq_map
    (members : List (List Char × Json)) :
    memberTokens members =
      members.map fun m =>
        .string m.1 :: .colon :: m.2.tokens := by
  induction members with
  | nil => rfl
  | cons m members ih =>
      rw [memberTokens, ih]
      rfl

/- Objects with the same members have as many tokens. -/
theorem length_tokens_object_of_perm
    {members members' : List (List Char × Json)}
    (hPerm : members.Perm members') :
    (Json.object members).tokens.length =
      (Json.object members').tokens.length := by
  simp only [tokens, List.length_cons, List.length_append,
    memberTokens_eq_map]
  rw [Separated.length_separated_of_perm Token.comma
    (hPerm.map fun m =>
      Token.string m.1 :: .colon :: m.2.tokens)]

/- An object does not begin with a comma. -/
theorem tokens_object_ne_comma
    (members : List (List Char × Json))
    (rest : List Token) :
    (Json.object members).tokens ≠ .lbrace :: .comma :: rest := by
  cases members with
  | nil => simp [tokens, memberTokens, separated]
  | cons m members =>
      simp [tokens, memberTokens, separated]

------------------------------------------------------------
-- Numbers
------------------------------------------------------------

/- One or more digits, and what follows them. -/
def scanDigits : List Char → Option (List Char)
  | [] => none
  | c :: cs =>
      if c.isDigit then some (cs.dropWhile Char.isDigit)
      else none

/- Digits without a leading zero, and what follows them. -/
def scanInt : List Char → Option (List Char)
  | '0' :: cs => some cs
  | cs => scanDigits cs

/- The fraction of a number, if it has one. -/
def scanFraction : List Char → Option (List Char)
  | '.' :: cs => scanDigits cs
  | cs => some cs

/- The exponent of a number, if it has one. -/
def scanExponent : List Char → Option (List Char)
  | [] => some []
  | e :: cs =>
      if e = 'e' ∨ e = 'E' then
        match cs with
        | '+' :: cs => scanDigits cs
        | '-' :: cs => scanDigits cs
        | cs => scanDigits cs
      else none

def isNumber (text : List Char) : Bool :=
  let unsigned :=
    match text with
    | '-' :: cs => cs
    | cs => cs
  ((scanInt unsigned).bind scanFraction).bind scanExponent =
    some []

/- What a word stands for. -/
def word? (text : List Char) : Option Token :=
  if text = "null".toList then some .null
  else if text = "true".toList then some (.bool true)
  else if text = "false".toList then some (.bool false)
  else if isNumber text then some (.number text)
  else none

/- Digits without a leading zero are a number. -/
theorem isNumber_of_digits
    {c : Char}
    {cs : List Char}
    (hHead : c.isDigit = true)
    (hTail : ∀ d ∈ cs, d.isDigit = true)
    (hZero : c ≠ '0') :
    isNumber (c :: cs) = true := by
  have hMinus : c ≠ '-' := by
    rintro rfl
    exact absurd hHead (by decide)
  have hRest : cs.dropWhile Char.isDigit = [] :=
    List.dropWhile_eq_nil_iff.mpr hTail
  simp [isNumber, scanInt, scanDigits, hMinus, hZero, hHead,
    hRest, scanFraction, scanExponent]

/- The decimal digits of a number begin with no zero. -/
theorem head?_toDigits_ne
    {n : ℕ}
    (hPos : 0 < n) :
    (Nat.toDigits 10 n).head? ≠ some '0' := by
  induction n using Nat.strongRecOn with
  | ind n ih =>
      rcases Nat.lt_or_ge n 10 with hSmall | hLarge
      · rw [Nat.toDigits_of_lt_base hSmall]
        simpa using Nat.ne_of_gt hPos
      · rw [Nat.toDigits_of_base_le (by decide) hLarge,
          List.head?_append_of_ne_nil _ Nat.toDigits_ne_nil]
        exact ih (n / 10) (by omega) (by omega)

theorem isNumber_toDigits
    (n : ℕ) :
    isNumber (Nat.toDigits 10 n) = true := by
  rcases Nat.eq_zero_or_pos n with rfl | hPos
  · rw [Nat.toDigits_zero]
    decide
  · have hHead := head?_toDigits_ne hPos
    have hDigit (d : Char)
        (hMem : d ∈ Nat.toDigits 10 n) :
        d.isDigit = true :=
      Nat.isDigit_of_mem_toDigits (by decide) (by decide) hMem
    obtain ⟨c, cs, hDigits⟩ :=
      List.exists_cons_of_ne_nil
        (Nat.toDigits_ne_nil : Nat.toDigits 10 n ≠ [])
    rw [hDigits] at hHead hDigit ⊢
    apply isNumber_of_digits
    · exact hDigit c List.mem_cons_self
    · exact fun d hMem =>
        hDigit d (List.mem_cons_of_mem c hMem)
    · rintro rfl
      exact hHead rfl

------------------------------------------------------------
-- The Lexer
------------------------------------------------------------

def isSpace (c : Char) : Bool :=
  c = ' ' || c = '\t' || c = '\n' || c = '\r'

def isWordChar (c : Char) : Bool :=
  c.isAlphanum || c = '-' || c = '+' || c = '.'

def punct? : Char → Option Token
  | '{' => some .lbrace
  | '}' => some .rbrace
  | '[' => some .lbracket
  | ']' => some .rbracket
  | ',' => some .comma
  | ':' => some .colon
  | _ => none

def isHexDigit (c : Char) : Bool :=
  c.isDigit || ('a' ≤ c && c ≤ 'f') || ('A' ≤ c && c ≤ 'F')

/-
  Where the lexer is: between tokens, in a word, in a string,
  behind its backslash, or in the digits of an escape.
-/
inductive Mode where
  | between
  | inWord (text : List Char)
  | inString (body : List Char)
  | escaped (body : List Char)
  | inHex (body : List Char) (missing : ℕ)
  deriving Repr, DecidableEq

/- A character between tokens. -/
def lexBetween (c : Char) : Option (List Token × Mode) :=
  if isSpace c then some ([], .between)
  else
    match punct? c with
    | some token => some ([token], .between)
    | none =>
        if c = '"' then some ([], .inString [])
        else if isWordChar c then some ([], .inWord [c])
        else none

/- One character, and the tokens that it ends. -/
def lexStep : Mode → Char → Option (List Token × Mode)
  | .between, c => lexBetween c
  | .inWord text, c =>
      if isWordChar c then some ([], .inWord (text ++ [c]))
      else
        match word? text with
        | none => none
        | some token =>
            (lexBetween c).map fun next =>
              (token :: next.1, next.2)
  | .inString body, c =>
      if c = '"' then some ([.string body], .between)
      else if c = '\\' then some ([], .escaped (body ++ [c]))
      else if c.toNat < 32 then none
      else some ([], .inString (body ++ [c]))
  | .escaped body, c =>
      if c ∈ "\"\\/bfnrt".toList then
        some ([], .inString (body ++ [c]))
      else if c = 'u' then some ([], .inHex (body ++ [c]) 4)
      else none
  | .inHex body missing, c =>
      if isHexDigit c then
        if missing ≤ 1 then some ([], .inString (body ++ [c]))
        else some ([], .inHex (body ++ [c]) (missing - 1))
      else none

/- Where a text may end. -/
def lexEnd : Mode → Option (List Token)
  | .between => some []
  | .inWord text => (word? text).map fun token => [token]
  | _ => none

def lexFrom : Mode → List Char → Option (List Token)
  | mode, [] => lexEnd mode
  | mode, c :: cs =>
      match lexStep mode c with
      | none => none
      | some (found, mode) =>
          (lexFrom mode cs).map (found ++ ·)

/- The tokens of a text. -/
def lex (text : List Char) : Option (List Token) :=
  lexFrom .between text

/- A text that is read as the tokens of a value. -/
def Denotes (text : List Char) (j : Json) : Prop :=
  lex text = some j.tokens

------------------------------------------------------------
-- Spelling Tokens
------------------------------------------------------------

/- A text that does not go on with a word. -/
def Fresh (text : List Char) : Prop :=
  ∀ c ∈ text.head?, isWordChar c = false

/- A text that is read as `toks`, whatever token follows. -/
def Spells
    (text : List Char)
    (toks : List Token) : Prop :=
  ∀ rest, Fresh rest →
    lex (text ++ rest) = (lex rest).map (toks ++ ·)

theorem fresh_nil : Fresh [] := by
  intro c hMem
  cases hMem

theorem fresh_cons
    {c : Char}
    (hChar : isWordChar c = false)
    (cs : List Char) :
    Fresh (c :: cs) := by
  intro c' hMem
  obtain rfl := Option.some.inj hMem
  exact hChar

theorem Fresh.append
    {text text' : List Char}
    (hLeft : Fresh text)
    (hRight : Fresh text') :
    Fresh (text ++ text') := by
  cases text with
  | nil => exact hRight
  | cons c cs => exact fun c' hMem => hLeft c' hMem

theorem lex_of_spells
    {text : List Char}
    {toks : List Token}
    (hSpells : Spells text toks) :
    lex text = some toks := by
  have hText := hSpells [] fresh_nil
  rw [List.append_nil] at hText
  rw [hText]
  simp [lex, lexFrom, lexEnd]

namespace Spells

variable {text text' : List Char}
variable {toks toks' : List Token}

theorem nil : Spells [] [] := by
  intro rest _
  simp

theorem append
    (hLeft : Spells text toks)
    (hRight : Spells text' toks')
    (hFresh : Fresh text') :
    Spells (text ++ text') (toks ++ toks') := by
  intro rest hRest
  rw [List.append_assoc, hLeft _ (hFresh.append hRest),
    hRight rest hRest, Option.map_map]
  congr 1
  funext toks''
  simp

/- White space and punctuation may precede any text. -/
theorem cons
    {c : Char}
    {found : List Token}
    (hChar : lexBetween c = some (found, .between))
    (hRest : Spells text toks) :
    Spells (c :: text) (found ++ toks) := by
  intro rest hFresh
  have hText := hRest rest hFresh
  unfold lex at hText ⊢
  simp only [List.cons_append, lexFrom, lexStep, hChar, hText]
  rw [Option.map_map]
  congr 1
  funext toks''
  simp

/- A string without escapes. -/
theorem string
    {body : List Char}
    (hPlain :
      ∀ c ∈ body, c ≠ '"' ∧ c ≠ '\\' ∧ ¬ c.toNat < 32) :
    Spells ('"' :: (body ++ ['"'])) [.string body] := by
  have hBody (read : List Char) (rest : List Char) :
      lexFrom (.inString read) (body ++ ('"' :: rest)) =
        (lex rest).map ([.string (read ++ body)] ++ ·) := by
    induction body generalizing read with
    | nil =>
        simp only [List.nil_append, lexFrom, lexStep, if_true,
          List.append_nil]
        rfl
    | cons c cs ih =>
        rcases hPlain c List.mem_cons_self with
          ⟨hQuote, hBackslash, hControl⟩
        have hTail :=
          ih (fun d hMem =>
            hPlain d (List.mem_cons_of_mem c hMem))
            (read ++ [c])
        simp only [List.cons_append, lexFrom, lexStep, hQuote,
          hBackslash, hControl, if_false, hTail,
          List.append_assoc, Option.map_map]
        congr 1
  intro rest _
  have hOpen : lexBetween '"' = some ([], .inString []) := rfl
  simp only [lex, List.cons_append, List.append_assoc,
    List.nil_append, lexFrom, lexStep, hOpen]
  rw [hBody [] rest]
  simp [lex, Function.comp_def]

end Spells

/- A character of a word is nothing else. -/
theorem lexBetween_of_isWordChar
    {c : Char}
    (hWord : isWordChar c = true) :
    lexBetween c = some ([], .inWord [c]) := by
  have hNot {d : Char} (hOther : isWordChar d = false) :
      c ≠ d := by
    rintro rfl
    rw [hWord] at hOther
    cases hOther
  have hSpace : isSpace c = false := by
    simp [isSpace, hNot (d := ' ') (by decide),
      hNot (d := '\t') (by decide),
      hNot (d := '\n') (by decide),
      hNot (d := '\r') (by decide)]
  have hPunct : punct? c = none := by
    unfold punct?
    split
    case h_7 => rfl
    all_goals exact absurd hWord (by decide)
  have hQuote : c ≠ '"' := hNot (by decide)
  simp [lexBetween, hSpace, hPunct, hQuote, hWord]

/- A word is read up to the next character of another kind. -/
theorem Spells.word
    {c : Char}
    {cs : List Char}
    {token : Token}
    (hChars : ∀ d ∈ c :: cs, isWordChar d = true)
    (hWord : word? (c :: cs) = some token) :
    Spells (c :: cs) [token] := by
  have hScan (read : List Char) (rest : List Char) :
      lexFrom (.inWord read) (cs ++ rest) =
        lexFrom (.inWord (read ++ cs)) rest := by
    have hTail : ∀ d ∈ cs, isWordChar d = true :=
      fun d hMem => hChars d (List.mem_cons_of_mem c hMem)
    clear hChars hWord
    induction cs generalizing read with
    | nil => simp
    | cons d ds ih =>
        have hHead := hTail d List.mem_cons_self
        simp only [List.cons_append, lexFrom, lexStep, hHead,
          if_true, List.nil_append]
        rw [ih (read ++ [d]) (fun e hMem =>
          hTail e (List.mem_cons_of_mem d hMem))]
        simp
  intro rest hFresh
  have hFirst := lexBetween_of_isWordChar
    (hChars c List.mem_cons_self)
  simp only [lex, List.cons_append, lexFrom, lexStep, hFirst]
  rw [hScan [c] rest]
  cases rest with
  | nil => simp [lexFrom, lexEnd, hWord]
  | cons d ds =>
      have hOther : isWordChar d = false := hFresh d rfl
      simp only [lexFrom, lexStep, hOther, List.cons_append,
        List.nil_append, hWord]
      cases lexBetween d with
      | none => rfl
      | some next =>
          simp [Option.map_map, Function.comp_def]

/- Decimal digits are read as a number. -/
theorem Spells.toDigits
    (n : ℕ) :
    Spells (Nat.toDigits 10 n)
      [.number (Nat.toDigits 10 n)] := by
  have hNumber := isNumber_toDigits n
  have hDigit (d : Char)
      (hMem : d ∈ Nat.toDigits 10 n) :
      d.isDigit = true :=
    Nat.isDigit_of_mem_toDigits (by decide) (by decide) hMem
  obtain ⟨c, cs, hDigits⟩ :=
    List.exists_cons_of_ne_nil
      (Nat.toDigits_ne_nil : Nat.toDigits 10 n ≠ [])
  rw [hDigits] at hNumber hDigit ⊢
  have hHead := hDigit c List.mem_cons_self
  apply Spells.word
  · intro d hMem
    simp [isWordChar, Char.isAlphanum, hDigit d hMem]
  · have hOther (d : Char)
        (ds : List Char)
        (hLetter : d.isDigit = false) :
        c :: cs ≠ d :: ds := by
      intro hSame
      obtain rfl := (List.cons.inj hSame).1
      rw [hHead] at hLetter
      cases hLetter
    simp only [word?, hNumber, if_true]
    have hNull : c :: cs ≠ "null".toList := hOther 'n' _ rfl
    have hTrue : c :: cs ≠ "true".toList := hOther 't' _ rfl
    have hFalse : c :: cs ≠ "false".toList := hOther 'f' _ rfl
    rw [if_neg hNull, if_neg hTrue, if_neg hFalse]

/- White space may precede any text. -/
theorem Spells.spaces
    {spaces text : List Char}
    {toks : List Token}
    (hSpaces : spaces.all isSpace = true)
    (hRest : Spells text toks) :
    Spells (spaces ++ text) toks := by
  induction spaces with
  | nil => exact hRest
  | cons c cs ih =>
      rw [List.all_cons, Bool.and_eq_true] at hSpaces
      have hChar : lexBetween c = some ([], .between) := by
        simp [lexBetween, hSpaces.1]
      exact Spells.cons hChar (ih hSpaces.2)

/- A name and a value are a member of an object. -/
theorem Spells.member
    {name text : List Char}
    {value : Json}
    (hPlain :
      ∀ c ∈ name, c ≠ '"' ∧ c ≠ '\\' ∧ ¬ c.toNat < 32)
    (hValue : Spells text value.tokens) :
    Spells
      ('"' :: (name ++ ['"']) ++ (" : ".toList ++ text))
      (.string name :: .colon :: value.tokens) := by
  have hSpace : lexBetween ' ' = some ([], .between) := rfl
  have hColon :
      lexBetween ':' = some ([.colon], .between) := rfl
  have hRest :
      Spells (" : ".toList ++ text)
        (.colon :: value.tokens) :=
    Spells.cons hSpace (Spells.cons hColon
      (Spells.cons hSpace hValue))
  exact (Spells.string hPlain).append hRest
    (fresh_cons (by decide) _)

section Separated

variable {α : Type}
variable {text : α → List Char}
variable {toks : α → List Token}

theorem spells_comma
    {text : List Char}
    {toks : List Token}
    (hRest : Spells text toks) :
    Spells (',' :: text) (.comma :: toks) := by
  have hComma :
      lexBetween ',' = some ([.comma], .between) := rfl
  exact Spells.cons hComma hRest

theorem fresh_flatMap_comma
    (xs : List α) :
    Fresh (xs.flatMap (',' :: text ·)) := by
  cases xs with
  | nil => exact fresh_nil
  | cons x xs => exact fresh_cons (by decide) _

/- Texts with a comma in front of each. -/
theorem spells_flatMap_comma
    {xs : List α}
    (hTexts : ∀ x ∈ xs, Spells (text x) (toks x)) :
    Spells (xs.flatMap (',' :: text ·))
      (xs.flatMap (.comma :: toks ·)) := by
  induction xs with
  | nil => exact Spells.nil
  | cons x xs ih =>
      rw [List.flatMap_cons, List.flatMap_cons]
      apply Spells.append
      · exact spells_comma (hTexts x List.mem_cons_self)
      · exact ih fun y hMem =>
          hTexts y (List.mem_cons_of_mem x hMem)
      · exact fresh_flatMap_comma xs

/- Texts with commas in between. -/
theorem spells_separated
    {xs : List α}
    (hTexts : ∀ x ∈ xs, Spells (text x) (toks x)) :
    Spells (separated ',' (xs.map text))
      (separated .comma (xs.map toks)) := by
  cases xs with
  | nil => exact Spells.nil
  | cons x xs =>
      simp only [separated, List.map_cons, List.flatMap_map]
      apply Spells.append
      · exact hTexts x List.mem_cons_self
      · exact spells_flatMap_comma fun y hMem =>
          hTexts y (List.mem_cons_of_mem x hMem)
      · exact fresh_flatMap_comma xs

theorem fresh_separated
    {xs : List α}
    (hTexts : ∀ x ∈ xs, Fresh (text x)) :
    Fresh (separated ',' (xs.map text)) := by
  cases xs with
  | nil => exact fresh_nil
  | cons x xs =>
      simp only [separated, List.map_cons, List.flatMap_map]
      exact (hTexts x List.mem_cons_self).append
        (fresh_flatMap_comma xs)

end Separated

end Json

end XdpDdos
