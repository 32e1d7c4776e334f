/-
# Shares of a sum

A whole is paid in parts of `d`, each rounded down, until the parts add up to `d`; the
part that makes them do so gets what is left. Rounding down leaves enough for every part,
so that what is paid is the whole, in whatever order the parts come.

Key definitions:
- `shares T d ms`: the parts `ms` of the sum `T`, each rounded down;
- `Apportioned T d ms ps e`: the parts `ms` were paid `ps`, and `e` is left.

Key theorems:
- `total_shares_le`: rounding down leaves enough;
- `Apportioned.pay`: one more part;
- `Apportioned.exact`: when all parts are paid, the whole is.
-/
import Mathlib.Algebra.Order.BigOperators.Group.List
import Mathlib.Algebra.Order.Ring.Int
import Mathlib.Tactic.Ring

namespace Navin

variable {κ : Type} {T : ℤ} {d : ℕ} {ms init : List (κ × ℕ)} {m : κ × ℕ} {ps : List (κ × ℤ)} {e : ℤ}

/-- What is paid in all. -/
def total (ps : List (κ × ℤ)) : ℤ := (ps.map (·.2)).sum

/-- The parts of a sum, in `d`-ths and rounded down. -/
def shares (T : ℤ) (d : ℕ) (ms : List (κ × ℕ)) : List (κ × ℤ) := ms.map fun m => (m.1, T * m.2 / d)

/-- How many `d`-ths the parts make up. -/
def parts (ms : List (κ × ℕ)) : ℕ := (ms.map (·.2)).sum

@[simp] theorem total_nil : total ([] : List (κ × ℤ)) = 0 := rfl

@[simp] theorem total_append (ps qs : List (κ × ℤ)) : total (ps ++ qs) = total ps + total qs := by
  simp [total]

@[simp] theorem total_singleton (p : κ × ℤ) : total [p] = p.2 := by simp [total]

@[simp] theorem parts_append (ms ns : List (κ × ℕ)) : parts (ms ++ ns) = parts ms + parts ns := by
  simp [parts]

@[simp] theorem parts_singleton (m : κ × ℕ) : parts [m] = m.2 := by simp [parts]

@[simp] theorem shares_append (T : ℤ) (d : ℕ) (ms ns : List (κ × ℕ)) :
    shares T d (ms ++ ns) = shares T d ms ++ shares T d ns := by
  simp [shares]

@[simp] theorem shares_singleton (T : ℤ) (d : ℕ) (m : κ × ℕ) :
    shares T d [m] = [(m.1, T * m.2 / d)] := rfl

/-- The shares as a sum of numbers. -/
theorem total_shares (T : ℤ) (d : ℕ) (ms : List (κ × ℕ)) :
    total (shares T d ms) = (ms.map fun m => T * m.2 / d).sum := by
  unfold total shares
  rw [List.map_map]
  rfl

/-- Each share was rounded down. -/
theorem total_shares_mul_le (hd : 0 < d) (ms : List (κ × ℕ)) :
    total (shares T d ms) * d ≤ T * parts ms := by
  induction ms with
  | nil => simp [shares, parts]
  | cons m ms ih =>
    have hfloor : T * m.2 / d * d ≤ T * m.2 := Int.ediv_mul_le _ (by omega)
    have hparts : parts (m :: ms) = m.2 + parts ms := by simp [parts]
    have htotal : total (shares T d (m :: ms)) = T * m.2 / d + total (shares T d ms) := by
      simp [total, shares]
    calc total (shares T d (m :: ms)) * d = T * m.2 / d * d + total (shares T d ms) * d := by
          rw [htotal, Int.add_mul]
      _ ≤ T * m.2 + T * parts ms := Int.add_le_add hfloor ih
      _ = T * (parts (m :: ms) : ℕ) := by
          rw [hparts, ← Int.mul_add, Int.natCast_add]

/-- The shares of parts that make up no more than the whole are no more than the sum. -/
theorem total_shares_le (hT : 0 ≤ T) (hd : 0 < d) (hms : parts ms ≤ d) : total (shares T d ms) ≤ T := by
  have hd' : (0 : ℤ) < d := by omega
  refine le_of_mul_le_mul_right ?_ hd'
  calc total (shares T d ms) * d ≤ T * parts ms := total_shares_mul_le hd ms
    _ ≤ T * d := Int.mul_le_mul_of_nonneg_left (by omega) hT

/-! ### Paying part after part -/

/-- The parts `ms` of `T` were paid `ps`, in order, and `e` is left: each was paid its
share, and the one that made up the whole what was left. -/
inductive Apportioned (T : ℤ) (d : ℕ) (ms : List (κ × ℕ)) : List (κ × ℤ) → ℤ → Prop
  | some : parts ms ≠ d → Apportioned T d ms (shares T d ms) (T - total (shares T d ms))
  | all {init : List (κ × ℕ)} {m : κ × ℕ} : ms = init ++ [m] → parts ms = d →
      Apportioned T d ms (shares T d init ++ [(m.1, T - total (shares T d init))]) 0

namespace Apportioned

/-- Nothing is paid, and all is left. -/
theorem nil (hd : 0 < d) : Apportioned T d ([] : List (κ × ℕ)) [] T := by
  have hparts : parts ([] : List (κ × ℕ)) ≠ d := hd.ne
  have h : Apportioned T d [] _ _ := .some hparts
  simpa [shares] using h

/-- Each part has its payment. -/
theorem names (h : Apportioned T d ms ps e) : ps.map (·.1) = ms.map (·.1) := by
  cases h with
  | some => simp [shares]
  | all heq => simp [heq, shares]

/-- What is paid and what is left make up the sum. -/
theorem total_add (h : Apportioned T d ms ps e) : total ps + e = T := by
  cases h with
  | some => omega
  | all =>
    rw [total_append, total_singleton]
    omega

/-- The next part is paid its share, or what is left if it makes up the whole. There is
enough left for it. -/
theorem pay (h : Apportioned T d ms ps e) (hT : 0 ≤ T) (hd : 0 < d) (hpos : 0 < m.2)
    (hle : parts ms + m.2 ≤ d) {x : ℤ}
    (hx : x = max 0 (min (if parts ms + m.2 = d then e else T * m.2 / d) e)) :
    Apportioned T d (ms ++ [m]) (ps ++ [(m.1, x)]) (e - x) := by
  cases h with
  | all _ hall => omega
  | some hsome =>
    have hnext : total (shares T d (ms ++ [m])) ≤ T := total_shares_le hT hd (by simpa using hle)
    have hshare : 0 ≤ T * m.2 / d :=
      Int.ediv_nonneg (Int.mul_nonneg hT (Int.natCast_nonneg m.2)) (Int.natCast_nonneg d)
    rw [shares_append, shares_singleton, total_append, total_singleton] at hnext
    by_cases hlast : parts ms + m.2 = d
    · rw [if_pos hlast, min_self, max_eq_right (by omega)] at hx
      subst hx
      rw [sub_self]
      exact .all rfl (by simpa using hlast)
    · rw [if_neg hlast, min_eq_left (by omega), max_eq_right hshare] at hx
      subst hx
      have hs : Apportioned T d (ms ++ [m]) _ _ := .some (by simpa using hlast)
      rw [shares_append, shares_singleton, total_append, total_singleton, ← sub_sub] at hs
      exact hs

/-- When the parts make up the whole, all is paid: each part but the last its share. -/
theorem exact (h : Apportioned T d (init ++ [m]) ps e) (hall : parts (init ++ [m]) = d) :
    ps = shares T d init ++ [(m.1, T - total (shares T d init))] ∧ total ps = T ∧ e = 0 := by
  have htotal := h.total_add
  cases h with
  | some hsome => exact absurd hall hsome
  | all heq =>
    obtain ⟨rfl, hm⟩ := List.append_inj' heq rfl
    obtain rfl : m = _ := by simpa using hm
    exact ⟨rfl, by omega, rfl⟩

end Apportioned

end Navin
