/-
# Computations that come to a value

A postcondition holds of what a computation returns, if it returns. That it does is
shown here in the same order: the first part returns, and where it leads, the rest does.
The writes and reads between the checks always return, and are found by instance search.

Key definitions:
- `Tx.Succeeds m r s`: run from `s`, the computation returns;
- `Tx.Total`: it returns from every state.

Key theorems:
- `Tx.succeeds_bind`, `Tx.succeeds_step`: the rest succeeds wherever the first part leads;
- `Tx.succeeds_unit_bind` and those like it: exactly when, after a first part that is known.
-/
import Navin.Lib.Returns

namespace Navin

namespace Tx

variable {ρ σ ε α β : Type} {r : ρ} {s s' : σ} {a : α}

/-- Run from `s`, the computation returns. -/
def Succeeds (m : Tx ρ σ ε α) (r : ρ) (s : σ) : Prop := ∃ a s', m.Returns r s a s'

theorem Returns.succeeds {m : Tx ρ σ ε α} (h : m.Returns r s a s') : Succeeds m r s := ⟨a, s', h⟩

theorem succeeds_bind {m : Tx ρ σ ε α} {k : α → Tx ρ σ ε β} (hm : Succeeds m r s)
    (hk : wp m r s fun a s' => Succeeds (k a) r s') : Succeeds (m >>= k) r s := by
  obtain ⟨a, s₁, h₁⟩ := hm
  obtain ⟨b, s₂, h₂⟩ := hk.of_returns h₁
  exact (h₁.bind h₂).succeeds

theorem succeeds_pure (a : α) : Succeeds (pure a : Tx ρ σ ε α) r s := ⟨a, s, rfl⟩

theorem succeeds_okOr {o : Option α} {e : ε} (h : o = some a) :
    Succeeds (okOr o e : Tx ρ σ ε α) r s := (returns_okOr.mpr ⟨h, rfl⟩).succeeds

theorem succeeds_unwrap {o : Option α} (h : o = some a) :
    Succeeds (unwrap o : Tx ρ σ ε α) r s := (returns_unwrap.mpr ⟨h, rfl⟩).succeeds

theorem succeeds_rejectIf {c : Prop} [Decidable c] {e : ε} (h : ¬c) :
    Succeeds (rejectIf c e : Tx ρ σ ε Unit) r s :=
  (returns_rejectIf (u := ()).mpr ⟨h, rfl⟩).succeeds

/-- What returns does not meet the handler. -/
theorem returns_onErr {m : Tx ρ σ ε α} {h : ε → Tx ρ σ ε Unit} :
    (onErr m h).Returns r s a s' ↔ m.Returns r s a s' := by
  unfold Returns onErr
  cases m r s with
  | ok => exact Iff.rfl
  | err e s₁ => cases hx : h e r s₁ <;> simp [hx]
  | trap => simp

theorem succeeds_onErr {m : Tx ρ σ ε α} {h : ε → Tx ρ σ ε Unit} (hm : Succeeds m r s) :
    Succeeds (onErr m h) r s := by
  obtain ⟨a, s', hx⟩ := hm
  exact (returns_onErr.mpr hx).succeeds

/-! ### First parts that are known -/

section

variable {k : α → Tx ρ σ ε β} {n : Unit → Tx ρ σ ε β}

/-- A first part that returns. -/
theorem Returns.succeeds_iff {m : Tx ρ σ ε α} {t : σ} (hm : m.Returns r s a t) :
    Succeeds (m >>= k) r s ↔ Succeeds (k a) r t := by
  simp only [Succeeds, hm.bind_iff]

theorem succeeds_gets_bind {g : σ → α} : Succeeds (gets g >>= k) r s ↔ Succeeds (k (g s)) r s := by
  simp only [Succeeds, returns_gets_bind]

theorem succeeds_ask_bind {k : ρ → Tx ρ σ ε β} : Succeeds (ask >>= k) r s ↔ Succeeds (k r) r s := by
  simp only [Succeeds, returns_ask_bind]

theorem succeeds_modify_bind {g : σ → σ} :
    Succeeds (modify g >>= n) r s ↔ Succeeds (n ()) r (g s) := by
  simp only [Succeeds, returns_modify_bind]

/-- A first part that returns under a condition, to one state. -/
theorem succeeds_unit_bind {m : Tx ρ σ ε Unit} {P : Prop} {t : σ}
    (hm : ∀ u s₁, m.Returns r s u s₁ ↔ P ∧ s₁ = t) :
    Succeeds (m >>= n) r s ↔ P ∧ Succeeds (n ()) r t := by
  simp only [Succeeds, returns_unit_bind hm, exists_and_left]

theorem succeeds_rejectIf_bind {c : Prop} [Decidable c] {e : ε} :
    Succeeds (rejectIf c e >>= n) r s ↔ ¬c ∧ Succeeds (n ()) r s :=
  succeeds_unit_bind fun _ _ => returns_rejectIf

theorem succeeds_trapIf_bind {c : Prop} [Decidable c] :
    Succeeds (trapIf c >>= n) r s ↔ ¬c ∧ Succeeds (n ()) r s :=
  succeeds_unit_bind fun _ _ => returns_trapIf

theorem succeeds_okOr_bind {o : Option α} {e : ε} : Succeeds (okOr o e >>= k) r s ↔
    ∃ a, o = some a ∧ Succeeds (k a) r s := by
  simp only [Succeeds, returns_okOr_bind]
  constructor
  · rintro ⟨b, t, a, ho, h⟩
    exact ⟨a, ho, b, t, h⟩
  · rintro ⟨a, ho, b, t, h⟩
    exact ⟨b, t, a, ho, h⟩

end

/-! ### Computations that always return -/

class Total (m : Tx ρ σ ε α) : Prop where
  out : ∀ r s, Succeeds m r s

/-- A first part that always returns. -/
theorem succeeds_step {m : Tx ρ σ ε α} {k : α → Tx ρ σ ε β} [hm : Total m]
    (hk : wp m r s fun a s' => Succeeds (k a) r s') : Succeeds (m >>= k) r s :=
  succeeds_bind (hm.out r s) hk

namespace Total

instance pure (a : α) : Total (pure a : Tx ρ σ ε α) := ⟨fun _ _ => succeeds_pure a⟩

instance ask : Total (ask : Tx ρ σ ε ρ) := ⟨fun r s => ⟨r, s, rfl⟩⟩

instance gets (g : σ → α) : Total (gets g : Tx ρ σ ε α) := ⟨fun _ s => ⟨g s, s, rfl⟩⟩

instance modify (g : σ → σ) : Total (modify g : Tx ρ σ ε Unit) := ⟨fun _ s => ⟨(), g s, rfl⟩⟩

instance bind (m : Tx ρ σ ε α) (k : α → Tx ρ σ ε β) [Total m] [hk : ∀ a, Total (k a)] :
    Total (m >>= k) :=
  ⟨fun r _ => succeeds_step (.of_forall fun a s' => (hk a).out r s')⟩

end Total

end Tx

end Navin
