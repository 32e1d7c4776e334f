/-
# One system in terms of another

A system simulates another through a relation between their states when each step of the
one is a run of the other, a run of no step included. What holds of all the states the
other reaches is then known of the first.

A quantity that every step changes by what is read off it is, at the end of a run, what it
was at the start and what the run has gathered.

Key definitions:
- `Simulates step step' R`.

Key theorems:
- `Simulates.run`: whole runs;
- `Gathers.sum_eq`: a quantity along a run.
-/
import Navin.Lib.Runs
import Mathlib.Algebra.BigOperators.Group.List.Basic

namespace Navin

variable {σ τ ι κ : Type} {step : σ → ι → σ → Prop} {step' : τ → κ → τ → Prop} {R : σ → τ → Prop}

/-- From states that `R` ties, what one system does in a step the other does in a run. -/
def Simulates (step : σ → ι → σ → Prop) (step' : τ → κ → τ → Prop) (R : σ → τ → Prop) : Prop :=
  ∀ ⦃s l s' t⦄, R s t → step s l s' → ∃ ks t', Run step' t ks t' ∧ R s' t'

namespace Simulates

/-- A run is matched by a run. -/
theorem run (h : Simulates step step' R) {s s' : σ} {ls : List ι} {t : τ} (hR : R s t)
    (hr : Run step s ls s') : ∃ ks t', Run step' t ks t' ∧ R s' t' := by
  induction hr with
  | nil => exact ⟨[], t, .nil, hR⟩
  | snoc _ hl ih =>
    obtain ⟨ks, t', hr', hR'⟩ := ih
    obtain ⟨ks', t'', hr'', hR''⟩ := h hR' hl
    exact ⟨ks ++ ks', t'', hr'.append hr'', hR''⟩

end Simulates

namespace Gathers

variable {s t : σ} {ls : List ι}

/-- A quantity that each step changes by what is gathered from it, while `I` holds. -/
theorem sum_eq {M : Type} [AddMonoid M] {f : σ → ι → List M} {bs : List M} {I : σ → Prop} {φ : σ → M}
    (h : Gathers step f s ls t bs) (h₀ : I s)
    (hs : ∀ a l b, I a → step a l b → I b ∧ φ b = φ a + (f a l).sum) : I t ∧ φ t = φ s + bs.sum := by
  induction h with
  | nil => exact ⟨h₀, by simp⟩
  | snoc _ hl ih =>
    obtain ⟨hI, hφ⟩ := hs _ _ _ ih.1 hl
    exact ⟨hI, by rw [hφ, ih.2, List.sum_append, add_assoc]⟩

end Gathers

end Navin
