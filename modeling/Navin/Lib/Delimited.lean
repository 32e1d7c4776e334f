/-
# Codes that tell where they end

A code is a map from values to words. It is delimited on the values that satisfy `P` if
a coded value can be read off the front of a word: whatever follows, the value and the
rest are determined. Fixed-width codes are delimited, and so are words behind their lengths.
A record of such fields is read field by field, which is how its code is injective.

Key definitions:
- `Delimited P code`.

Key theorems:
- `Delimited.inj`: a delimited code is injective;
- `Delimited.of_length`, `Delimited.prefixed`, `Delimited.padded`, `Delimited.tagged`: the
  codes built from others.
-/
import Mathlib.Data.List.Basic
import Mathlib.Tactic.Common

namespace Navin

/-- Whatever comes after them, equal words begin with the code of the same value. -/
def Delimited {α β : Type} (P : α → Prop) (code : α → List β) : Prop :=
  ∀ ⦃a b : α⦄ ⦃r s : List β⦄, P a → P b → code a ++ r = code b ++ s → a = b ∧ r = s

namespace Delimited

variable {α β : Type} {P : α → Prop} {code : α → List β}

theorem inj (h : Delimited P code) {a b : α} (ha : P a) (hb : P b) (heq : code a = code b) : a = b :=
  (h ha hb (congrArg (· ++ []) heq)).1

/-- A code of fixed width. -/
theorem of_length {n : ℕ} (hlen : ∀ a, (code a).length = n)
    (hinj : ∀ a b, P a → P b → code a = code b → a = b) : Delimited P code := by
  intro a b r s ha hb heq
  obtain ⟨hcode, hrest⟩ := List.append_inj heq ((hlen a).trans (hlen b).symm)
  exact ⟨hinj a b ha hb hcode, hrest⟩

/-- A word behind its length. -/
theorem prefixed {Q : ℕ → Prop} {len : ℕ → List β} (h : Delimited Q len) :
    Delimited (fun l : List β => Q l.length) fun l => len l.length ++ l := by
  intro l k r s hl hk heq
  rw [List.append_assoc, List.append_assoc] at heq
  obtain ⟨hlen, heq⟩ := h hl hk heq
  exact List.append_inj heq hlen

/-- What only depends on the value may come after it. -/
theorem padded (h : Delimited P code) (pad : α → List β) :
    Delimited P fun a => code a ++ pad a := by
  intro a b r s ha hb heq
  rw [List.append_assoc, List.append_assoc] at heq
  obtain ⟨rfl, heq⟩ := h ha hb heq
  exact ⟨rfl, List.append_cancel_left heq⟩

/-- A tag before the value. -/
theorem tagged (h : Delimited P code) (tag : List β) : Delimited P fun a => tag ++ code a := by
  intro a b r s ha hb heq
  rw [List.append_assoc, List.append_assoc] at heq
  exact h ha hb (List.append_cancel_left heq)

end Delimited

end Navin
