/-
# Postconditions that see traps

A weakest precondition says what holds if a computation returns, and nothing about one
that traps. `Tx.Settles` says both: `Q` of what it returns, and `T` if it traps. With `T`
false it says that no overflow check and no `unwrap` inside ever strikes.

Key definitions:
- `Tx.Settles m r s Q T`, with one rule for each combinator.

Key theorems:
- `Tx.settles_bind` and the rules beside it: symbolic execution by `simp only`;
- `Tx.settles_foldlM`: the invariant rule of a loop over a list;
- `Tx.Settles.returns`, `Tx.Settles.traps`: what follows for a computation that is known
  to end so.
-/
import Navin.Lib.Returns

namespace Navin

namespace Tx

variable {ρ σ ε α β : Type}

/-- From `s`, `m` returns with `Q`, or fails, or traps with `T`. -/
def Settles (m : Tx ρ σ ε α) (r : ρ) (s : σ) (Q : α → σ → Prop) (T : Prop) : Prop :=
  match m r s with
  | .ok a s' => Q a s'
  | .err .. => True
  | .trap => T

variable {r : ρ} {s s' : σ} {a : α} {Q : α → σ → Prop} {T : Prop}

theorem Settles.returns {m : Tx ρ σ ε α} (h : m.Settles r s Q T) (hm : m.Returns r s a s') :
    Q a s' := by
  unfold Settles at h
  rwa [show m r s = .ok a s' from hm] at h

theorem Settles.traps {m : Tx ρ σ ε α} (h : m.Settles r s Q T) (hm : m.Traps r s) : T := by
  unfold Settles at h
  rwa [show m r s = .trap from hm] at h

/-- What is known to return settles as what it returns. -/
theorem Returns.settles {m : Tx ρ σ ε α} (hm : m.Returns r s a s') :
    m.Settles r s Q T ↔ Q a s' := by
  unfold Settles
  rw [show m r s = .ok a s' from hm]

/-- What never traps settles as whatever it returns. -/
theorem settles_of_not_traps {m : Tx ρ σ ε α} (hm : ¬m.Traps r s)
    (hQ : ∀ a s', m.Returns r s a s' → Q a s') : m.Settles r s Q T := by
  unfold Settles
  cases hx : m r s with
  | ok a s' => exact hQ a s' hx
  | err e s' => trivial
  | trap => exact absurd hx hm

theorem Settles.mono {m : Tx ρ σ ε α} {Q' : α → σ → Prop} {T' : Prop} (h : m.Settles r s Q T)
    (hQ : ∀ a s', Q a s' → Q' a s') (hT : T → T') : m.Settles r s Q' T' := by
  unfold Settles at h ⊢
  revert h
  cases m r s with
  | ok a s' => exact hQ a s'
  | err e s' => exact id
  | trap => exact hT

/-! ### One rule for each combinator -/

theorem settles_bind (m : Tx ρ σ ε α) (k : α → Tx ρ σ ε β) {Q : β → σ → Prop} :
    (m >>= k).Settles r s Q T ↔ m.Settles r s (fun a s' => (k a).Settles r s' Q T) T := by
  unfold Settles
  change (match Tx.bind m k r s with
    | .ok b s' => Q b s'
    | .err .. => True
    | .trap => T) ↔ _
  unfold Tx.bind
  cases m r s <;> rfl

theorem settles_rejectIf (c : Prop) [Decidable c] (e : ε) {Q : Unit → σ → Prop} :
    (rejectIf c e : Tx ρ σ ε Unit).Settles r s Q T ↔ (¬c → Q () s) := by
  unfold Settles rejectIf
  by_cases hc : c <;> simp [hc]

theorem settles_trapIf (c : Prop) [Decidable c] {Q : Unit → σ → Prop} :
    (trapIf c : Tx ρ σ ε Unit).Settles r s Q T ↔ (c → T) ∧ (¬c → Q () s) := by
  unfold Settles trapIf
  by_cases hc : c <;> simp [hc]

theorem settles_okOr (o : Option α) (e : ε) :
    (okOr o e : Tx ρ σ ε α).Settles r s Q T ↔ ∀ a, o = some a → Q a s := by
  cases o <;> simp [Settles, okOr]

theorem settles_unwrap (o : Option α) :
    (unwrap o : Tx ρ σ ε α).Settles r s Q T ↔ (o = none → T) ∧ ∀ a, o = some a → Q a s := by
  cases o <;> simp [Settles, unwrap]

theorem settles_ask {Q : ρ → σ → Prop} : (ask : Tx ρ σ ε ρ).Settles r s Q T ↔ Q r s := Iff.rfl

theorem settles_gets (g : σ → α) : (gets g : Tx ρ σ ε α).Settles r s Q T ↔ Q (g s) s := Iff.rfl

/-- The invariant rule of a loop with an accumulator: `I` holds before each element, of
the elements that are left. -/
theorem settles_foldlM (k : β → α → Tx ρ σ ε β) (I : List α → β → σ → Prop)
    (step : ∀ a l b s, I (a :: l) b s → (k b a).Settles r s (fun b' s' => I l b' s') T)
    (l : List α) {b : β} (h : I l b s) :
    (l.foldlM k b).Settles r s (fun b' s' => I [] b' s') T := by
  induction l generalizing b s with
  | nil => exact h
  | cons a l ih =>
    rw [List.foldlM_cons, settles_bind]
    exact (step a l b s h).mono (fun _ _ h' => ih h') id

/-- A loop whose body never traps. -/
theorem not_traps_foldlM {k : β → α → Tx ρ σ ε β} (hk : ∀ b a s, ¬(k b a).Traps r s) (l : List α)
    (b : β) (s : σ) : ¬(l.foldlM k b).Traps r s :=
  (settles_foldlM (T := False) k (fun _ _ _ => True)
    (fun a _ b s _ => settles_of_not_traps (hk b a s) fun _ _ _ => trivial) l trivial).traps

end Tx

end Navin
