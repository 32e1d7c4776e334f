/-
# Listings in pages

A listing is asked for page by page: each answer brings some entries and, unless it is the
last, the cursor to ask for the next one with. Here a page is filled from what is left of
a list with the entries that match, and the cursor stands for the rest.

Key definitions:
- `Browses ask next c pages`: the pages that are found by following the cursors from `c`;
- `fill p n l`: the first `n` entries of `l` that match, and what is left of `l`;
- `Paged`: a view whose answers are pages of a list.

Key theorems:
- `Browses.exists_of_decreasing`, `Browses.unique`: there is an end, and one only;
- `Browses.flatMap_eq`, `Browses.sum_eq`: what a cursor stands for is what its page brings
  and what the next cursor stands for;
- `fill_fst`, `filter_fill`, `fill_suffix`: nothing is lost and nothing comes twice;
- `Paged.exists_pages`, `Paged.flatMap_items`, `Paged.sum_scanned`.
-/
import Mathlib.Data.List.Basic
import Mathlib.Algebra.BigOperators.Group.List.Basic
import Mathlib.Algebra.GroupWithZero.Nat
import Mathlib.Tactic.Common

namespace Navin

/-- Asking from `c` on, and with the next cursor as long as there is one, brings `pages`. -/
inductive Browses {κ π : Type} (ask : κ → π → Prop) (next : π → Option κ) : κ → List π → Prop
  | last {c : κ} {page : π} : ask c page → next page = none → Browses ask next c [page]
  | more {c c' : κ} {page : π} {pages : List π} : ask c page → next page = some c' →
      Browses ask next c' pages → Browses ask next c (page :: pages)

namespace Browses

variable {κ π β : Type} {ask : κ → π → Prop} {next : π → Option κ} {c : κ} {pages pages' : List π}

/-- If every cursor has its page, and each leads to a smaller one, the last is reached. -/
theorem exists_of_decreasing (μ : κ → ℕ) (hask : ∀ c, ∃ page, ask c page)
    (hdec : ∀ c page c', ask c page → next page = some c' → μ c' < μ c) (c : κ) :
    ∃ pages, Browses ask next c pages := by
  induction hn : μ c using Nat.strongRecOn generalizing c with
  | ind n ih =>
    obtain ⟨page, hpage⟩ := hask c
    cases hnext : next page with
    | none => exact ⟨[page], .last hpage hnext⟩
    | some c' =>
      obtain ⟨pages, hpages⟩ := ih (μ c') (hn ▸ hdec c page c' hpage hnext) c' rfl
      exact ⟨page :: pages, .more hpage hnext hpages⟩

theorem unique (hask : ∀ c page page', ask c page → ask c page' → page' = page)
    (h : Browses ask next c pages) (h' : Browses ask next c pages') : pages' = pages := by
  induction h generalizing pages' with
  | last hpage hnext =>
    cases h' with
    | last hpage' => rw [hask _ _ _ hpage hpage']
    | more hpage' hnext' =>
      rw [hask _ _ _ hpage hpage', hnext] at hnext'
      cases hnext'
  | more hpage hnext _ ih =>
    cases h' with
    | last hpage' hnext' =>
      rw [hask _ _ _ hpage hpage', hnext] at hnext'
      cases hnext'
    | more hpage' hnext' hrest' =>
      rw [hask _ _ _ hpage hpage', hnext] at hnext'
      cases hnext'
      rw [hask _ _ _ hpage hpage', ih hrest']

/-- What all answers satisfy, the pages do. -/
theorem forall_mem {Q : π → Prop} (hask : ∀ c page, ask c page → Q page)
    (h : Browses ask next c pages) : ∀ page ∈ pages, Q page := by
  induction h with
  | last hpage =>
    rw [List.forall_mem_singleton]
    exact hask _ _ hpage
  | more hpage _ _ ih =>
    rw [List.forall_mem_cons]
    exact ⟨hask _ _ hpage, ih⟩

/-- The entries of the pages, one page after the other. -/
theorem flatMap_eq {f : κ → List β} {items : π → List β}
    (hlast : ∀ c page, ask c page → next page = none → f c = items page)
    (hmore : ∀ c page c', ask c page → next page = some c' → f c = items page ++ f c')
    (h : Browses ask next c pages) : pages.flatMap items = f c := by
  induction h with
  | last hpage hnext => simp [hlast _ _ hpage hnext]
  | more hpage hnext _ ih => rw [List.flatMap_cons, ih, ← hmore _ _ _ hpage hnext]

/-- A number that the pages share out. -/
theorem sum_eq {f : κ → ℕ} {amount : π → ℕ}
    (hlast : ∀ c page, ask c page → next page = none → f c = amount page)
    (hmore : ∀ c page c', ask c page → next page = some c' → f c = amount page + f c')
    (h : Browses ask next c pages) : (pages.map amount).sum = f c := by
  induction h with
  | last hpage hnext => simp [hlast _ _ hpage hnext]
  | more hpage hnext _ ih => rw [List.map_cons, List.sum_cons, ih, ← hmore _ _ _ hpage hnext]

end Browses

/-! ### Filling one page -/

/-- The first `n` entries that match, and what is left after the last of them. -/
def fill {α : Type} (p : α → Bool) : ℕ → List α → List α × List α
  | 0, l => ([], l)
  | _ + 1, [] => ([], [])
  | n + 1, a :: l => if p a then (a :: (fill p n l).1, (fill p n l).2) else fill p (n + 1) l

variable {α : Type} {p : α → Bool} {n : ℕ} {l : List α}

theorem fill_cons_of_pos {a : α} (h : p a = true) :
    fill p (n + 1) (a :: l) = (a :: (fill p n l).1, (fill p n l).2) := by
  rw [fill, if_pos h]

theorem fill_cons_of_neg {a : α} (h : p a = false) : fill p (n + 1) (a :: l) = fill p (n + 1) l := by
  rw [fill, if_neg (by simp [h])]

theorem fill_nil : fill p n [] = ([], []) := by
  cases n <;> rfl

theorem fill_fst (p : α → Bool) (n : ℕ) (l : List α) : (fill p n l).1 = (l.filter p).take n := by
  induction l generalizing n with
  | nil => simp [fill_nil]
  | cons a l ih =>
    cases n with
    | zero => simp [fill]
    | succ n =>
      by_cases ha : p a = true
      · rw [fill_cons_of_pos ha, List.filter_cons_of_pos ha, List.take_succ_cons, ih]
      · rw [fill_cons_of_neg (by simpa using ha), List.filter_cons_of_neg ha, ih]

/-- The matching entries are those on the page and those left. -/
theorem filter_fill (p : α → Bool) (n : ℕ) (l : List α) :
    l.filter p = (fill p n l).1 ++ (fill p n l).2.filter p := by
  induction l generalizing n with
  | nil => simp [fill_nil]
  | cons a l ih =>
    cases n with
    | zero => simp [fill]
    | succ n =>
      by_cases ha : p a = true
      · rw [fill_cons_of_pos ha, List.filter_cons_of_pos ha, List.cons_append, ← ih n]
      · rw [fill_cons_of_neg (by simpa using ha), List.filter_cons_of_neg ha, ← ih (n + 1)]

theorem length_fill_le (p : α → Bool) (n : ℕ) (l : List α) : (fill p n l).1.length ≤ n := by
  rw [fill_fst]
  exact List.length_take_le n _

/-- What is left is an end of the list. -/
theorem fill_suffix (p : α → Bool) (n : ℕ) (l : List α) : (fill p n l).2 <:+ l := by
  induction l generalizing n with
  | nil => simp [fill_nil]
  | cons a l ih =>
    cases n with
    | zero => exact List.suffix_rfl
    | succ n =>
      by_cases ha : p a = true
      · rw [fill_cons_of_pos ha]
        exact (ih n).trans (List.suffix_cons a l)
      · rw [fill_cons_of_neg (by simpa using ha)]
        exact (ih (n + 1)).trans (List.suffix_cons a l)

/-- A page that may hold an entry takes something off a list that is not empty. -/
theorem length_fill_lt (hn : 0 < n) (hl : l ≠ []) : (fill p n l).2.length < l.length := by
  obtain ⟨a, k, rfl⟩ := List.exists_cons_of_ne_nil hl
  obtain ⟨m, rfl⟩ := Nat.exists_eq_add_one.mpr hn
  by_cases ha : p a = true
  · rw [fill_cons_of_pos ha, List.length_cons]
    exact Nat.lt_succ_of_le (fill_suffix p m k).length_le
  · rw [fill_cons_of_neg (by simpa using ha), List.length_cons]
    exact Nat.lt_succ_of_le (fill_suffix p (m + 1) k).length_le

/-- What is left of a list, by its length. -/
theorem drop_of_suffix {k : List α} (h : k <:+ l) : l.drop (l.length - k.length) = k := by
  obtain ⟨t, rfl⟩ := h
  rw [List.length_append, Nat.add_sub_cancel]
  exact List.drop_left

/-! ### Pages of a list -/

/-- The cursor after the page from `c` on: where the rest of the list starts. -/
def fillNext (p : α → Bool) (n : ℕ) (l : List α) (c : ℕ) : Option ℕ :=
  if (fill p n (l.drop c)).2 = [] then none else some (l.length - (fill p n (l.drop c)).2.length)

variable {c c' : ℕ}

theorem fill_of_last (h : fillNext p n l c = none) : (fill p n (l.drop c)).2 = [] := by
  by_contra hne
  rw [fillNext, if_neg hne] at h
  cases h

/-- The next cursor stands for what is left. -/
theorem drop_of_next (h : fillNext p n l c = some c') : l.drop c' = (fill p n (l.drop c)).2 := by
  unfold fillNext at h
  split at h
  · cases h
  · cases h
    exact drop_of_suffix ((fill_suffix p n _).trans (List.drop_suffix c l))

theorem length_drop_next (hn : 0 < n) (h : fillNext p n l c = some c') :
    (l.drop c').length < (l.drop c).length := by
  rw [drop_of_next h]
  apply length_fill_lt hn
  intro hnil
  rw [fillNext, hnil, fill_nil, if_pos rfl] at h
  cases h

/-- A view whose answers are pages of a list: `pos` says where a cursor stands. -/
structure Paged {κ π : Type} (ask : κ → π → Prop) (next : π → Option κ) (pos : κ → ℕ)
    (items : π → List α) (p : α → Bool) (n : ℕ) (l : List α) : Prop where
  total : ∀ c, ∃ page, ask c page
  unique : ∀ c page page', ask c page → ask c page' → page' = page
  items_eq : ∀ c page, ask c page → items page = (fill p n (l.drop (pos c))).1
  next_eq : ∀ c page, ask c page → (next page).map pos = fillNext p n l (pos c)

namespace Paged

variable {κ π : Type} {ask : κ → π → Prop} {next : π → Option κ} {pos : κ → ℕ} {items : π → List α}
  {c c' : κ} {page : π} {pages : List π}

theorem last (h : Paged ask next pos items p n l) (hpage : ask c page) (hnext : next page = none) :
    (fill p n (l.drop (pos c))).2 = [] := by
  refine fill_of_last ?_
  rw [← h.next_eq c page hpage, hnext]
  rfl

theorem more (h : Paged ask next pos items p n l) (hpage : ask c page)
    (hnext : next page = some c') : fillNext p n l (pos c) = some (pos c') := by
  rw [← h.next_eq c page hpage, hnext]
  rfl

/-- The cursors lead to the end. -/
theorem exists_pages (h : Paged ask next pos items p n l) (hn : 0 < n) (c : κ) :
    ∃ pages, Browses ask next c pages ∧ ∀ pages', Browses ask next c pages' → pages' = pages := by
  obtain ⟨pages, hpages⟩ := Browses.exists_of_decreasing (fun c => (l.drop (pos c)).length) h.total
    (fun c page c' hpage hnext => length_drop_next hn (h.more hpage hnext)) c
  exact ⟨pages, hpages, fun pages' => hpages.unique h.unique⟩

/-- The pages bring what matches, in order, and each once. -/
theorem flatMap_items (h : Paged ask next pos items p n l) (hf : Browses ask next c pages) :
    pages.flatMap items = (l.drop (pos c)).filter p := by
  refine hf.flatMap_eq (f := fun c => (l.drop (pos c)).filter p) ?_ ?_
  · intro c page hpage hnext
    rw [h.items_eq c page hpage, filter_fill p n, h.last hpage hnext, List.filter_nil, List.append_nil]
  · intro c page c' hpage hnext
    rw [drop_of_next (h.more hpage hnext), h.items_eq c page hpage, ← filter_fill]

theorem length_items_le (h : Paged ask next pos items p n l) (hf : Browses ask next c pages) :
    ∀ page ∈ pages, (items page).length ≤ n := by
  refine hf.forall_mem fun c page hpage => ?_
  rw [h.items_eq c page hpage]
  exact length_fill_le p n _

/-- The entries looked at add up to the length of the list. -/
theorem sum_scanned (h : Paged ask next pos items p n l) {scanned : π → ℕ}
    (hscanned : ∀ c page, ask c page →
      scanned page = (l.drop (pos c)).length - (fill p n (l.drop (pos c))).2.length)
    (hf : Browses ask next c pages) : (pages.map scanned).sum = (l.drop (pos c)).length := by
  refine hf.sum_eq (f := fun c => (l.drop (pos c)).length) ?_ ?_
  · intro c page hpage hnext
    rw [hscanned c page hpage, h.last hpage hnext, List.length_nil, Nat.sub_zero]
  · intro c page c' hpage hnext
    rw [hscanned c page hpage, drop_of_next (h.more hpage hnext)]
    exact (Nat.sub_add_cancel (fill_suffix p n _).length_le).symm

end Paged

end Navin
