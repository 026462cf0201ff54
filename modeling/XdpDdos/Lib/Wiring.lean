import Mathlib.Data.Nat.Notation
import Mathlib.Tactic.SplitIfs

/-
  Parts of a record that are kept in shared objects.

  A store keeps the contents of objects, and a wiring says
  which object each part of a record lives in.  Records with
  different wirings share the parts in common objects.

  Main declarations:
    * `Store`, `Wiring`
    * `Store.view`, `Store.put`
    * `Store.renew`, `Store.renew_trans`
-/

------------------------------------------------------------
-- Views
------------------------------------------------------------

namespace XdpDdos

variable {κ : Type}
variable {C : κ → Type}

/- Numbered objects, with contents of every kind. -/
abbrev Store (C : κ → Type) :=
  ℕ → (part : κ) → C part

/- The object of each part that has one. -/
abbrev Wiring (κ : Type) :=
  κ → Option ℕ

namespace Store

/- The parts of a record; one without object has a default. -/
def view
    (st : Store C)
    (dflt : (part : κ) → C part)
    (w : Wiring κ)
    (part : κ) : C part :=
  match w part with
  | some o => st o part
  | none => dflt part

/- Write the parts of a record to their objects. -/
def put
    (st : Store C)
    (w : Wiring κ)
    (parts : (part : κ) → C part) : Store C :=
  fun o part =>
    if w part = some o then parts part else st o part

variable {st : Store C}
variable {dflt : (part : κ) → C part}
variable {w w' : Wiring κ}
variable {part : κ}
variable {o : ℕ}

theorem view_of_some
    (hPart : w part = some o) :
    st.view dflt w part = st o part := by
  simp only [view, hPart]

theorem view_of_none
    (hPart : w part = none) :
    st.view dflt w part = dflt part := by
  simp only [view, hPart]

theorem put_of_eq
    (parts : (part : κ) → C part)
    (hPart : w part = some o) :
    st.put w parts o part = parts part := by
  rw [put, if_pos hPart]

theorem put_of_ne
    (parts : (part : κ) → C part)
    (hPart : w part ≠ some o) :
    st.put w parts o part = st o part := by
  rw [put, if_neg hPart]

------------------------------------------------------------
-- New Objects
------------------------------------------------------------

/- The objects numbered from `n` to below `n'` are new. -/
def renew
    (st : Store C)
    (dflt : (part : κ) → C part)
    (n n' : ℕ) : Store C :=
  fun o part =>
    if n ≤ o ∧ o < n' then dflt part else st o part

@[simp] theorem renew_self
    (st : Store C)
    (dflt : (part : κ) → C part)
    (n : ℕ) :
    st.renew dflt n n = st := by
  funext o part
  rw [renew, if_neg]
  omega

theorem renew_of_new
    {n n' : ℕ}
    (hLe : n ≤ o)
    (hLt : o < n') :
    st.renew dflt n n' o part = dflt part := by
  rw [renew, if_pos ⟨hLe, hLt⟩]

theorem renew_of_lt
    {n : ℕ}
    (n' : ℕ)
    (hLt : o < n) :
    st.renew dflt n n' o part = st o part := by
  rw [renew, if_neg]
  omega

/- Objects that are made in two steps. -/
theorem renew_trans
    (st : Store C)
    (dflt : (part : κ) → C part)
    {n n₁ n₂ : ℕ}
    (hFirst : n ≤ n₁)
    (hSecond : n₁ ≤ n₂) :
    (st.renew dflt n n₁).renew dflt n₁ n₂ =
      st.renew dflt n n₂ := by
  funext o part
  simp only [renew]
  split_ifs
  · rfl
  · omega
  · rfl
  · omega
  · omega
  · rfl

end Store

end XdpDdos
