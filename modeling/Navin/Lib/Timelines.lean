/-
# Lists in the order of time

A list whose items have times is a timeline when the times do not go back. What lies
between two times is then one stretch of it, which can be cut out from the ends.

Key definitions:
- `Timeline time now l`: the times of `l` do not go back, and are not after `now`.

Key theorems:
- `Timeline.snoc`, `Timeline.later`: a timeline grows at its end;
- `Timeline.filter_between`: what lies between two times is a stretch.
-/
import Mathlib.Data.List.Basic
import Mathlib.Tactic.Common

namespace Navin

variable {α : Type} {time : α → ℕ} {now now' : ℕ} {l : List α} {x : α}

/-- The times do not go back, and none is after `now`. -/
structure Timeline (time : α → ℕ) (now : ℕ) (l : List α) : Prop where
  ordered : l.Pairwise fun a b => time a ≤ time b
  past : ∀ a ∈ l, time a ≤ now

namespace Timeline

theorem nil : Timeline time now [] := ⟨.nil, fun _ h => by cases h⟩

theorem later (h : Timeline time now l) (hle : now ≤ now') : Timeline time now' l :=
  ⟨h.ordered, fun a ha => Nat.le_trans (h.past a ha) hle⟩

theorem snoc (h : Timeline time now l) (hle : now ≤ time x) : Timeline time (time x) (l ++ [x]) where
  ordered := by
    refine List.pairwise_append.mpr ⟨h.ordered, List.pairwise_singleton _ x, fun a ha b hb => ?_⟩
    rw [List.mem_singleton.mp hb]
    exact Nat.le_trans (h.past a ha) hle
  past a ha := by
    rcases List.mem_append.mp ha with ha | ha
    · exact Nat.le_trans (h.past a ha) hle
    · obtain rfl : a = x := List.mem_singleton.mp ha
      exact Nat.le_refl _

theorem tail (h : Timeline time now (x :: l)) : Timeline time now l :=
  ⟨(List.pairwise_cons.mp h.ordered).2, fun a ha => h.past a (List.mem_cons_of_mem x ha)⟩

/-- The first item is the earliest. -/
theorem head_le {a : α} (h : Timeline time now (x :: l)) (ha : a ∈ x :: l) : time x ≤ time a := by
  rcases List.mem_cons.mp ha with rfl | ha
  · exact Nat.le_refl _
  · exact (List.pairwise_cons.mp h.ordered).1 a ha

/-- What is not after `hi` comes first. -/
theorem filter_le (h : Timeline time now l) (hi : ℕ) :
    l.filter (fun a => time a ≤ hi) = l.takeWhile fun a => time a ≤ hi := by
  induction l with
  | nil => rfl
  | cons x l ih =>
    by_cases hx : time x ≤ hi
    · rw [List.filter_cons_of_pos (by simpa using hx), List.takeWhile_cons_of_pos (by simpa using hx),
        ih h.tail]
    · rw [List.takeWhile_cons_of_neg (by simpa using hx), List.filter_eq_nil_iff]
      intro a ha
      have hxa : time x ≤ time a := h.head_le ha
      simp only [decide_eq_true_eq]
      omega

/-- What lies between two times is a stretch. -/
theorem filter_between (h : Timeline time now l) (lo hi : ℕ) :
    l.filter (fun a => lo ≤ time a ∧ time a ≤ hi) =
      (l.dropWhile fun a => time a < lo).takeWhile fun a => time a ≤ hi := by
  induction l with
  | nil => rfl
  | cons x l ih =>
    by_cases hx : time x < lo
    · rw [List.dropWhile_cons_of_pos (by simpa using hx), ← ih h.tail]
      refine List.filter_cons_of_neg ?_
      simp only [decide_eq_true_eq]
      omega
    · rw [List.dropWhile_cons_of_neg (by simpa using hx), ← h.filter_le hi]
      refine List.filter_congr fun a ha => ?_
      have hxa : time x ≤ time a := h.head_le ha
      have hlo : lo ≤ time a := by omega
      simp only [hlo, true_and]

end Timeline

end Navin
