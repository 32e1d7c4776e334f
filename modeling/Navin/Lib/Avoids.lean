/-
# Errors that a run avoids

Whether a program can fail with an error may depend on what it has checked and read by
then. `Spares` does not see that: it speaks of all states at once. Here an error is avoided
from one state, and a first part hands on to the rest what its postcondition says, so that
what is known of the values read before a fallible operation can be used there.

Key definitions:
- `Tx.Avoids bad m r s`: run from `s`, the computation does not fail with a bad error.

Key theorems:
- `Tx.avoids_bind`, `Tx.avoids_step`: the rest avoids it wherever the first part leads;
- `Tx.avoids_foldlM`: the invariant rule of a loop.
-/
import Navin.Lib.Returns

namespace Navin

namespace Tx

variable {ρ σ ε α β : Type} {bad : ε → Bool} {r : ρ} {s : σ}

/-- Run from `s`, the computation does not fail with a bad error. -/
def Avoids (bad : ε → Bool) (m : Tx ρ σ ε α) (r : ρ) (s : σ) : Prop :=
  ∀ e s', m r s = .err e s' → bad e = false

/-- Nothing is said about the state. -/
abbrev Never (bad : ε → Bool) (m : Tx ρ σ ε α) : Prop := Spares (fun _ : σ => ()) bad m

theorem Never.avoids {m : Tx ρ σ ε α} (h : Never bad m) : Avoids bad m r s :=
  fun _ _ hx => (h.err hx).2

theorem Avoids.not_failsWith {m : Tx ρ σ ε α} {e : ε} (h : Avoids bad m r s) (he : bad e = true) :
    ¬m.FailsWith r s e := by
  rintro ⟨s', hx⟩
  rw [h e s' hx] at he
  cases he

theorem avoids_bind {m : Tx ρ σ ε α} {k : α → Tx ρ σ ε β} (hm : Avoids bad m r s)
    (hk : wp m r s fun a s' => Avoids bad (k a) r s') : Avoids bad (m >>= k) r s := by
  intro e s' hx
  change Tx.bind m k r s = _ at hx
  unfold Tx.bind at hx
  cases hy : m r s with
  | ok a s₁ =>
    rw [hy] at hx
    exact hk a s₁ hy e s' hx
  | err e₁ s₁ =>
    rw [hy] at hx
    cases hx
    exact hm e s' hy
  | trap =>
    rw [hy] at hx
    cases hx

/-- A first part that never fails so. -/
theorem avoids_step {m : Tx ρ σ ε α} {k : α → Tx ρ σ ε β} [hm : Never bad m]
    (hk : wp m r s fun a s' => Avoids bad (k a) r s') : Avoids bad (m >>= k) r s :=
  avoids_bind hm.avoids hk

theorem avoids_ensure {m : Tx ρ σ ε α} {g : σ → σ} (hm : Avoids bad m r s) :
    Avoids bad (ensure m g) r s := by
  intro e s' hx
  unfold ensure at hx
  cases hy : m r s with
  | ok a s₁ =>
    rw [hy] at hx
    cases hx
  | err e₁ s₁ =>
    rw [hy] at hx
    cases hx
    exact hm e _ hy
  | trap =>
    rw [hy] at hx
    cases hx

/-- The invariant rule of a loop with an accumulator: while `I` holds, an element does not
fail so, and leaves `I`. -/
theorem avoids_foldlM (k : β → α → Tx ρ σ ε β) (I : List α → β → σ → Prop)
    (hk : ∀ a l b s, I (a :: l) b s → Avoids bad (k b a) r s)
    (step : ∀ a l b s, I (a :: l) b s → wp (k b a) r s fun b' s' => I l b' s') (l : List α) (b : β)
    (s : σ) (h : I l b s) : Avoids bad (l.foldlM k b) r s := by
  induction l generalizing b s with
  | nil =>
    intro e s' hx
    cases hx
  | cons a l ih =>
    rw [List.foldlM_cons]
    exact avoids_bind (hk a l b s h) ((step a l b s h).mono fun b' s' h' => ih b' s' h')

end Tx

end Navin
