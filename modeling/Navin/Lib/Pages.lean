/-
# Pages of a range

The ids from one to some last id, read in pages of a fixed size: the pages start at `1`,
`1 + limit`, `1 + 2 * limit`, and so on, and each ends before the next starts or with the
last id.

Key definitions:
- `pageStarts`, `page`.

Key theorems:
- `flatMap_pages`: the pages, one after the other, are the range;
- `sum_map_countP_pages`, `flatMap_flatMap_pages`: what is counted and what is found in pages.
-/
import Mathlib.Data.List.Basic
import Mathlib.Algebra.BigOperators.Group.List.Basic
import Mathlib.Algebra.GroupWithZero.Nat
import Mathlib.Tactic.Common

namespace Navin

/-- The first ids of the pages. -/
def pageStarts (total limit : ℕ) : List ℕ :=
  (List.range ((total + limit - 1) / limit)).map fun k => 1 + k * limit

/-- The ids of the page from `start` on. -/
def page (last limit start : ℕ) : List ℕ :=
  List.range' start (min (start + limit - 1) last + 1 - start)

variable {total limit last start : ℕ}

theorem mem_page (hpos : 0 < limit) {id : ℕ} :
    id ∈ page last limit start ↔ start ≤ id ∧ id < start + limit ∧ id ≤ last := by
  unfold page
  rw [List.mem_range'_1]
  omega

theorem lt_pageCount_iff (hpos : 0 < limit) {k : ℕ} :
    k < (total + limit - 1) / limit ↔ 1 + k * limit ≤ total := by
  rw [← Nat.succ_le_iff, Nat.le_div_iff_mul_le hpos, Nat.succ_mul]
  omega

theorem mem_pageStarts (hpos : 0 < limit) :
    start ∈ pageStarts total limit ↔ start ≤ total ∧ ∃ k, start = 1 + k * limit := by
  unfold pageStarts
  simp only [List.mem_map, List.mem_range, lt_pageCount_iff hpos]
  constructor
  · rintro ⟨k, hk, rfl⟩
    exact ⟨hk, k, rfl⟩
  · rintro ⟨hle, k, rfl⟩
    exact ⟨k, hle, rfl⟩

/-- The first pages reach as far as their number says, or to the end. -/
theorem flatMap_pages_range (last limit n : ℕ) :
    ((List.range n).map fun k => 1 + k * limit).flatMap (page last limit) =
      List.range' 1 (min (n * limit) last) := by
  induction n with
  | zero => simp
  | succ n ih =>
    rw [List.range_succ, List.map_append, List.flatMap_append, ih, List.map_singleton,
      List.flatMap_singleton, page, Nat.succ_mul]
    by_cases hle : n * limit ≤ last
    · have hlen : min (1 + n * limit + limit - 1) last + 1 - (1 + n * limit) =
          min (n * limit + limit) last - n * limit := by omega
      rw [Nat.min_eq_left hle, hlen, List.range'_append_1]
      congr 1
      omega
    · have hlen : min (1 + n * limit + limit - 1) last + 1 - (1 + n * limit) = 0 := by omega
      rw [hlen, List.range'_zero, List.append_nil]
      congr 1
      omega

/-- **The pages are the range.** -/
theorem flatMap_pages (hpos : 0 < limit) (hle : last ≤ total) :
    (pageStarts total limit).flatMap (page last limit) = List.range' 1 last := by
  unfold pageStarts
  have hcover : total ≤ (total + limit - 1) / limit * limit := by
    by_contra hlt
    have hnext : 1 + (total + limit - 1) / limit * limit ≤ total := by omega
    exact absurd ((lt_pageCount_iff hpos).mpr hnext) (Nat.lt_irrefl _)
  rw [flatMap_pages_range, Nat.min_eq_right (Nat.le_trans hle hcover)]

/-- What the pages count adds up. -/
theorem sum_map_countP_pages (hpos : 0 < limit) (hle : last ≤ total) (p : ℕ → Bool) :
    ((pageStarts total limit).map fun start => (page last limit start).countP p).sum =
      (List.range' 1 last).countP p := by
  rw [← flatMap_pages hpos hle, List.countP_flatMap]
  rfl

/-- What the pages find. -/
theorem flatMap_flatMap_pages {α : Type} (hpos : 0 < limit) (hle : last ≤ total) (f : ℕ → List α) :
    ((pageStarts total limit).flatMap fun start => (page last limit start).flatMap f) =
      (List.range' 1 last).flatMap f := by
  rw [← flatMap_pages hpos hle, List.flatMap_assoc]

end Navin
