/-
# A log kept as a count and numbered entries

Stores without lists keep a log as a count and one entry for each number below it. The
count and the entries show a list; appending under the count and removing what is below
it are appending to the list and emptying it.

Key definition:
- `Shows count entry log`: the count and the entries are those of the list.

Key theorems:
- `Shows.append`, `Shows.clear`: the two operations;
- `Shows.readAll`: reading number after number gives the list.
-/
import Mathlib.Data.List.Basic
import Mathlib.Data.List.Induction
import Mathlib.Tactic.Common

namespace Navin

variable {α : Type} {count : Option ℕ} {entry : ℕ → Option α} {log : List α}

/-- The entries are the elements of the list by their places, and the count is their
number; an empty log may have no count. -/
structure Shows (count : Option ℕ) (entry : ℕ → Option α) (log : List α) : Prop where
  count_eq : count.getD 0 = log.length
  entry_eq : ∀ k, entry k = log[k]?

namespace Shows

theorem empty : Shows none (fun _ => none : ℕ → Option α) [] := ⟨rfl, fun _ => rfl⟩

/-- One more entry, under the count. -/
theorem append (h : Shows count entry log) (x : α) :
    Shows (some (count.getD 0 + 1)) (Function.update entry (count.getD 0) (some x)) (log ++ [x]) := by
  refine ⟨?_, fun k => ?_⟩
  · rw [Option.getD_some, h.count_eq, List.length_append, List.length_singleton]
  · rw [h.count_eq]
    by_cases hk : k = log.length
    · rw [hk, Function.update_self, List.getElem?_concat_length]
    · rw [Function.update_of_ne hk, h.entry_eq]
      by_cases hlt : k < log.length
      · rw [List.getElem?_append_left hlt]
      · rw [List.getElem?_eq_none (by omega), List.getElem?_eq_none]
        rw [List.length_append, List.length_singleton]
        omega

/-- What is below the count is all there is. -/
theorem entry_eq_none (h : Shows count entry log) {k : ℕ} (hk : count.getD 0 ≤ k) : entry k = none := by
  rw [h.entry_eq, List.getElem?_eq_none]
  rw [← h.count_eq]
  exact hk

/-- Everything below the count is removed, and the count with it. -/
theorem clear (h : Shows count entry log) {count' : Option ℕ} {entry' : ℕ → Option α}
    (hcount : count'.getD 0 = 0) (hbelow : ∀ k < count.getD 0, entry' k = none)
    (habove : ∀ k, count.getD 0 ≤ k → entry' k = entry k) : Shows count' entry' [] := by
  refine ⟨hcount, fun k => ?_⟩
  rw [List.getElem?_nil]
  by_cases hk : k < count.getD 0
  · exact hbelow k hk
  · rw [habove k (by omega), h.entry_eq_none (by omega)]

/-- Reading the entries from the first to the last. -/
theorem readAll (h : Shows count entry log) : (List.range (count.getD 0)).filterMap entry = log := by
  have hentry : entry = fun k => log[k]? := funext h.entry_eq
  rw [h.count_eq, hentry]
  clear h hentry
  induction log using List.reverseRecOn with
  | nil => rfl
  | append_singleton log x ih =>
    have hfirst : (List.range log.length).filterMap (fun k => (log ++ [x])[k]?) =
        (List.range log.length).filterMap fun k => log[k]? := by
      refine List.filterMap_congr fun k hk => ?_
      rw [List.getElem?_append_left (List.mem_range.mp hk)]
    rw [List.length_append, List.length_singleton, List.range_succ, List.filterMap_append, hfirst, ih]
    simp

end Shows

end Navin
