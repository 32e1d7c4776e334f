/-
# Journals

A journal is a list of entries, each to one account, and an account holds what its entries
are worth together. A system keeps a journal when every step of it can be entered: the
accounts after the step are the accounts before it with the entries added, and the entries
show what the step shows. Then a whole run can be entered, and every entry of it goes back
to the step it was made in.

Key definitions:
- `balance worth k es`: what the entries `es` leave in the account `k`;
- `Enters`: the entries of a step.

Key theorems:
- `balance_append`, `balance_map_mk`;
- `Run.journal`: the journal of a run.
-/
import Navin.Lib.Runs
import Mathlib.Algebra.BigOperators.Group.List.Basic

namespace Navin

variable {σ ι κ α β M : Type} [DecidableEq κ] [AddCommMonoid M] {worth : α → M} {k : κ}

/-- What the entries leave in the account. -/
def balance (worth : α → M) (k : κ) (es : List (κ × α)) : M :=
  (es.map fun e => if e.1 = k then worth e.2 else 0).sum

@[simp] theorem balance_nil : balance worth k [] = 0 := rfl

@[simp] theorem balance_append (es fs : List (κ × α)) :
    balance worth k (es ++ fs) = balance worth k es + balance worth k fs := by
  simp [balance]

/-- Entries to one account. -/
theorem balance_map_mk (j : κ) (xs : List α) :
    balance worth k (xs.map (Prod.mk j)) = if j = k then (xs.map worth).sum else 0 := by
  unfold balance
  rw [List.map_map]
  by_cases hj : j = k
  · rw [if_pos hj]
    refine congrArg List.sum (List.map_congr_left fun x _ => ?_)
    exact if_pos hj
  · rw [if_neg hj]
    refine List.sum_eq_zero fun y hy => ?_
    obtain ⟨x, -, rfl⟩ := List.mem_map.mp hy
    exact if_neg hj

/-- The entries take the accounts of one state to those of the next, and show what the
step shows. -/
structure Enters (worth : α → M) (value : σ → κ → M) (told : κ × α → Option β) (shown : List β) (a b : σ)
    (es : List (κ × α)) : Prop where
  value_eq : ∀ k, value b k = value a k + balance worth k es
  shown_eq : es.filterMap told = shown

/-- A step that touches no account has no entries. -/
theorem Enters.nil {value : σ → κ → M} {told : κ × α → Option β} {a b : σ} (h : ∀ k, value b k = value a k) :
    Enters worth value told [] a b [] where
  value_eq k := by rw [h k, balance_nil, add_zero]
  shown_eq := rfl

/-- When every step can be entered, the run can, and each entry was made in a step. -/
theorem Run.journal {step : σ → ι → σ → Prop} {s t : σ} {ls : List ι} (value : σ → κ → M)
    {told : κ × α → Option β} {shows : ι → List β} {P : σ → ι → κ × α → Prop} (h : Run step s ls t)
    (hs : ∀ ks a l b, Run step s ks a → step a l b →
      ∃ es, Enters worth value told (shows l) a b es ∧ ∀ e ∈ es, P a l e) :
    ∃ es, Enters worth value told (ls.flatMap shows) s t es ∧
      ∀ e ∈ es, Past step (fun a l _ => P a l e) s ls t := by
  induction h with
  | nil => exact ⟨[], .nil fun _ => rfl, fun e he => by cases he⟩
  | @snoc ks l a b hr hl ih =>
    obtain ⟨es, hes, hpast⟩ := ih
    obtain ⟨fs, hfs, hP⟩ := hs _ _ _ _ hr hl
    refine ⟨es ++ fs, ⟨fun k => ?_, ?_⟩, fun e he => ?_⟩
    · rw [hfs.value_eq, hes.value_eq, balance_append, add_assoc]
    · rw [List.filterMap_append, hes.shown_eq, hfs.shown_eq, List.flatMap_append, List.flatMap_singleton]
    · rcases List.mem_append.mp he with he | he
      · exact (hpast e he).snoc hl fun _ _ _ hP => hP
      · exact .last hr hl (hP e he)

end Navin
