/-
# Serial numbers

A counter hands out its next value and keeps it. The numbers it hands out between two
of its values go up and lie between them, so that none comes twice while the counter is
not set back.

Key definitions:
- `Serial k ns k'`: the counter went from `k` to `k'` and handed out `ns`.

Key theorems:
- `Serial.append`: one piece after another;
- `Serial.nodup`.
-/
import Mathlib.Data.List.Nodup
import Mathlib.Order.Nat
import Mathlib.Tactic.Common

namespace Navin

/-- The counter goes from `k` to `k'` and hands out the numbers `ns`, in order. -/
structure Serial (k : ℕ) (ns : List ℕ) (k' : ℕ) : Prop where
  le : k ≤ k'
  sorted : ns.Pairwise (· < ·)
  within : ∀ n ∈ ns, k < n ∧ n ≤ k'

namespace Serial

variable {k k' k'' : ℕ} {ns ms : List ℕ}

theorem nil (h : k ≤ k') : Serial k [] k' := ⟨h, .nil, fun _ hn => by cases hn⟩

/-- The next number. -/
theorem next (k : ℕ) : Serial k [k + 1] (k + 1) := by
  refine ⟨Nat.le_succ k, List.pairwise_singleton _ _, fun n hn => ?_⟩
  rw [List.mem_singleton.mp hn]
  exact ⟨Nat.lt_succ_self k, le_rfl⟩

/-- One piece after another. -/
theorem append (h : Serial k ns k') (h' : Serial k' ms k'') : Serial k (ns ++ ms) k'' where
  le := h.le.trans h'.le
  sorted := by
    refine List.pairwise_append.mpr ⟨h.sorted, h'.sorted, fun n hn m hm => ?_⟩
    exact (h.within n hn).2.trans_lt (h'.within m hm).1
  within n hn := by
    rcases List.mem_append.mp hn with hn | hn
    · exact ⟨(h.within n hn).1, (h.within n hn).2.trans h'.le⟩
    · exact ⟨h.le.trans_lt (h'.within n hn).1, (h'.within n hn).2⟩

/-- A counter that stays where it is hands out nothing. -/
theorem eq_nil (h : Serial k ns k) : ns = [] := by
  refine List.eq_nil_iff_forall_not_mem.mpr fun n hn => ?_
  have hn := h.within n hn
  omega

theorem nodup (h : Serial k ns k') : ns.Nodup := h.sorted.imp fun hlt => hlt.ne

end Serial

end Navin
