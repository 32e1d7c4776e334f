/-
# Counting in windows

A counter that knows the start of its window and how many it has let in since. When the
window has run out it starts again at the next arrival, and what came before is forgotten.
Arrivals at one time come several at once. The windows of such a counter are fixed by its
starts, while a bound for every span of the window's length also looks at spans that lie
across two windows. It holds when every arrival leaves room for those that are forgotten
and still less than a window old.

Key definitions:
- `inSpan W t xs`: how many of the times `xs` lie in `[t, t + W)`;
- `forgotten W start now xs`: how many of them are forgotten, and less than a window old;
- `Spaced M W start k xs`: the counter has let in `xs`, `k` of them since `start`.

Key theorems:
- `Spaced.letIn`: arrivals in the window;
- `Spaced.restart`: a window starts.
-/
import Mathlib.Data.List.Count
import Mathlib.Tactic.Common

namespace Navin

/-- How many of the times lie in `[t, t + W)`. -/
def inSpan (W t : ℕ) (xs : List ℕ) : ℕ := xs.countP fun x => t ≤ x ∧ x < t + W

/-- How many of the times lie before the window, and less than its length back. -/
def forgotten (W start now : ℕ) (xs : List ℕ) : ℕ := xs.countP fun x => x < start ∧ now < x + W

theorem inSpan_append (W t : ℕ) (xs ys : List ℕ) :
    inSpan W t (xs ++ ys) = inSpan W t xs + inSpan W t ys := List.countP_append

theorem inSpan_replicate_le (W t n x : ℕ) : inSpan W t (List.replicate n x) ≤ n := by
  have hle : inSpan W t (List.replicate n x) ≤ (List.replicate n x).length := List.countP_le_length
  rw [List.length_replicate] at hle
  exact hle

/-- Times outside the span do not count. -/
theorem inSpan_eq_zero {W t : ℕ} {xs : List ℕ} (h : ∀ x ∈ xs, ¬(t ≤ x ∧ x < t + W)) :
    inSpan W t xs = 0 := by
  refine List.countP_eq_zero.mpr fun x hx => ?_
  simpa using h x hx

/-- What is in a span with `now` is forgotten, or came since the start of the window. -/
theorem inSpan_le_forgotten {W now t : ℕ} (start : ℕ) (xs : List ℕ) (hnow : now < t + W) :
    inSpan W t xs ≤ forgotten W start now xs + xs.countP (start ≤ ·) := by
  induction xs with
  | nil => exact Nat.zero_le _
  | cons x xs ih =>
    unfold inSpan forgotten at ih ⊢
    simp only [List.countP_cons, decide_eq_true_eq]
    by_cases hin : t ≤ x ∧ x < t + W
    · by_cases hsince : start ≤ x
      · rw [if_pos hin, if_pos hsince]
        omega
      · rw [if_pos hin, if_pos (by omega : x < start ∧ now < x + W)]
        omega
    · rw [if_neg hin]
      omega

/-- The times `xs` were let in, at most `M` in every span of length `W`, and at most `k` of
them since `start`. -/
structure Spaced (M W start k : ℕ) (xs : List ℕ) : Prop where
  within : ∀ x ∈ xs, x < start + W
  counted : xs.countP (start ≤ ·) ≤ k
  bounded : ∀ t, inSpan W t xs ≤ M

namespace Spaced

variable {M W start k n now : ℕ} {xs : List ℕ}

theorem nil (M W start k : ℕ) : Spaced M W start k [] where
  within _ h := by cases h
  counted := Nat.zero_le _
  bounded _ := Nat.zero_le _

/-- Arrivals in the window, as many as there is room for beside the forgotten. -/
theorem letIn (h : Spaced M W start k xs) (hnow : now < start + W)
    (hroom : forgotten W start now xs + k + n ≤ M) :
    Spaced M W start (k + n) (xs ++ List.replicate n now) where
  within x hx := by
    rcases List.mem_append.mp hx with hx | hx
    · exact h.within x hx
    · rw [List.eq_of_mem_replicate hx]
      exact hnow
  counted := by
    have hle : (List.replicate n now).countP (start ≤ ·) ≤ (List.replicate n now).length :=
      List.countP_le_length
    have hold := h.counted
    rw [List.length_replicate] at hle
    rw [List.countP_append]
    omega
  bounded t := by
    rw [inSpan_append]
    have hnew := inSpan_replicate_le W t n now
    by_cases hin : t ≤ now ∧ now < t + W
    · have hspan := inSpan_le_forgotten start xs hin.2
      have hold := h.counted
      omega
    · have hzero : inSpan W t (List.replicate n now) = 0 := by
        refine inSpan_eq_zero fun x hx => ?_
        rw [List.eq_of_mem_replicate hx]
        exact hin
      rw [hzero]
      exact h.bounded t

/-- A window starts once the last has run out. -/
theorem restart (h : Spaced M W start k xs) (hover : start + W ≤ now) : Spaced M W now 0 xs where
  within x hx := by
    have hx := h.within x hx
    omega
  counted := by
    refine Nat.le_of_eq (List.countP_eq_zero.mpr fun x hx hx' => ?_)
    have hle := of_decide_eq_true hx'
    have hx := h.within x hx
    omega
  bounded := h.bounded

end Spaced

end Navin
