/-
# Leases

A lease is an entry with the last tick at which it is read. While it is read nobody takes
it out again, and who takes it out sets a new last tick. So under a key the last tick only
moves forward, and two takings of one key lie more than the length of the first apart.

The length of a lease is asked for in seconds and kept in ticks of `p` seconds, rounded up,
in a word of `M` values. A word that is too small makes the lease too short.

Key definitions:
- `Held t now k`: the entry of `k` is read at `now`;
- `Lasts t k n`: the entry of `k` ends no earlier than `n`;
- `Outlasts t t'`: no entry of `t'` ends earlier than in `t`;
- `leaseTicks p M W`: the ticks of a lease of `W` seconds.

Key theorems:
- `outlasts_renew`: taking out a lease that is not held;
- `le_mul_leaseTicks`, `lt_of_leaseTicks_wrap`: the ticks cover the seconds exactly if they
  fit into the word.
-/
import Mathlib.Logic.Function.Basic
import Mathlib.Tactic.Common

namespace Navin

section

variable {κ : Type}

/-- The entry of `k` is read at `now`. -/
def Held (t : κ → Option ℕ) (now : ℕ) (k : κ) : Bool := (t k).any (now ≤ ·)

/-- The entry of `k` ends no earlier than `n`. -/
def Lasts (t : κ → Option ℕ) (k : κ) (n : ℕ) : Prop := ∃ m, t k = some m ∧ n ≤ m

/-- No entry ends earlier than it did. -/
def Outlasts (t t' : κ → Option ℕ) : Prop := ∀ k n, Lasts t k n → Lasts t' k n

variable {t t' t'' : κ → Option ℕ} {k : κ} {n now : ℕ}

theorem Outlasts.refl (t : κ → Option ℕ) : Outlasts t t := fun _ _ h => h

theorem Outlasts.trans (h : Outlasts t t') (h' : Outlasts t' t'') : Outlasts t t'' :=
  fun k n hk => h' k n (h k n hk)

/-- A lease that is not held any more has ended. -/
theorem Lasts.lt_of_not_held (h : Lasts t k n) (hk : Held t now k = false) : n < now := by
  obtain ⟨m, hm, hle⟩ := h
  unfold Held at hk
  rw [hm] at hk
  have hlt : ¬now ≤ m := by simpa using hk
  omega

variable [DecidableEq κ]

theorem lasts_update (t : κ → Option ℕ) (k : κ) (n : ℕ) : Lasts (Function.update t k (some n)) k n := by
  refine ⟨n, ?_, Nat.le_refl n⟩
  rw [Function.update_self]

/-- Taking out a lease that is not held ends none earlier. -/
theorem outlasts_renew (hk : Held t now k = false) (hn : now ≤ n) :
    Outlasts t (Function.update t k (some n)) := by
  intro j m hj
  by_cases heq : j = k
  · rw [heq] at hj ⊢
    have hlt := hj.lt_of_not_held hk
    refine ⟨n, ?_, by omega⟩
    rw [Function.update_self]
  · obtain ⟨m', hm', hle⟩ := hj
    refine ⟨m', ?_, hle⟩
    rw [Function.update_of_ne heq]
    exact hm'

end

/-! ### Seconds and ticks -/

section

variable {p M W n : ℕ}

/-- The ticks of a lease of `W` seconds, at least one, in a word of `M` values. -/
def leaseTicks (p M W : ℕ) : ℕ := max ((W + (p - 1)) / p) 1 % M

theorem ceil_le_iff (hp : 0 < p) : (W + (p - 1)) / p ≤ n ↔ W ≤ p * n := by
  rw [← Nat.lt_succ_iff, Nat.div_lt_iff_lt_mul hp, Nat.succ_mul, Nat.mul_comm n p]
  omega

/-- The ticks of a lease cover its seconds if they fit into the word. -/
theorem le_mul_leaseTicks (hp : 0 < p) (hM : 1 < M) (h : W ≤ p * (M - 1)) :
    W ≤ p * leaseTicks p M W := by
  have hfit : (W + (p - 1)) / p ≤ M - 1 := (ceil_le_iff hp).mpr h
  have hcover : W ≤ p * ((W + (p - 1)) / p) := (ceil_le_iff hp).mp (Nat.le_refl _)
  unfold leaseTicks
  rw [Nat.mod_eq_of_lt (by omega)]
  calc W ≤ p * ((W + (p - 1)) / p) := hcover
    _ ≤ p * max ((W + (p - 1)) / p) 1 := Nat.mul_le_mul_left p (Nat.le_max_left _ _)

/-- Where they do not, the seconds are not over one tick after the end. -/
theorem lt_of_leaseTicks_wrap (hp : 0 < p) (hM : 1 < M) (h : p * (M - 1) < W) :
    p * (leaseTicks p M W + 1) < W := by
  have hwrap : M ≤ (W + (p - 1)) / p := by
    by_contra hlt
    have hfit : W ≤ p * (M - 1) := (ceil_le_iff hp).mp (by omega)
    omega
  have hticks : leaseTicks p M W = (W + (p - 1)) / p % M := by
    unfold leaseTicks
    rw [Nat.max_eq_left (by omega)]
  -- at least `M` ticks are lost
  have hlost : leaseTicks p M W + M ≤ (W + (p - 1)) / p := by
    have hdiv : 1 ≤ (W + (p - 1)) / p / M := (Nat.one_le_div_iff (by omega)).mpr hwrap
    have hsplit := Nat.div_add_mod ((W + (p - 1)) / p) M
    have hmul : M * 1 ≤ M * ((W + (p - 1)) / p / M) := Nat.mul_le_mul_left M hdiv
    omega
  by_contra hle
  have hceil := (ceil_le_iff hp).mpr (Nat.not_lt.mp hle)
  omega

end

end Navin
