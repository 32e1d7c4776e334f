/-
# Holdings

Amounts of one good in the hands of finitely many holders, none below zero. What is
issued, retired and moved changes the total by exactly the amount, a holder never has
more than the total, and moving from one holder to several others, one after the other,
is the same as retiring the sum of the amounts once and issuing each of them.

Key definitions:
- `Holdings`, with the amount of each holder and `Holdings.total`;
- `issue?`, `retire?`, `move?`: refused when the amount is negative or not covered;
- `issues?`, `moves?`: several of them, one after the other.

Key theorems:
- `total_of_issue?`, `total_of_retire?`, `total_of_move?`, `total_of_moves?`;
- `le_total`: a holder has at most the total;
- `moves?_eq`: moves one by one, and all at once.
-/
import Mathlib.Algebra.BigOperators.Finprod
import Mathlib.Algebra.Order.BigOperators.Group.List
import Mathlib.Data.Finsupp.Order
import Mathlib.Data.Finsupp.Weight
import Mathlib.Tactic.Abel

namespace Navin

/-- What each holder has: finitely many have something, and none has less than nothing. -/
@[ext] structure Holdings (ι M : Type) [AddCommGroup M] [LinearOrder M] where
  of : ι →₀ M
  nonneg : 0 ≤ of

namespace Holdings

variable {ι M : Type} [AddCommGroup M] [LinearOrder M]

instance : CoeFun (Holdings ι M) fun _ => ι → M := ⟨fun h => h.of⟩

/-- Nobody has anything. -/
noncomputable def empty : Holdings ι M := ⟨0, le_rfl⟩

/-- What all holders have together. -/
noncomputable def total (h : Holdings ι M) : M := h.of.degree

theorem total_empty : (empty : Holdings ι M).total = 0 := map_zero _

theorem zero_le (h : Holdings ι M) (a : ι) : 0 ≤ h a := h.nonneg a

/-- The total is the sum over everyone. -/
theorem finsum_eq_total (h : Holdings ι M) : ∑ᶠ a, h a = h.total := by
  rw [finsum_eq_sum_of_support_subset (s := h.of.support) _ (by simp)]
  exact (Finsupp.degree_apply h.of).symm

variable [IsOrderedAddMonoid M] {h g : Holdings ι M} {a b : ι} {x : M}

/-- A holder has at most the total. -/
theorem le_total (h : Holdings ι M) (a : ι) : h a ≤ h.total := by
  by_cases ha : a ∈ h.of.support
  · exact Finset.single_le_sum (fun b _ => h.zero_le b) ha
  · rw [Finsupp.notMem_support_iff.mp ha]
    exact Finset.sum_nonneg fun b _ => h.zero_le b

/-! ### Issuing and retiring -/

/-- `x` more for `a`. -/
noncomputable def issue? (h : Holdings ι M) (a : ι) (x : M) : Option (Holdings ι M) :=
  if hx : 0 ≤ x then some ⟨h.of + Finsupp.single a x, add_nonneg h.nonneg (by simpa using hx)⟩
  else none

theorem retire_nonneg (h : Holdings ι M) (hx : x ≤ h a) : 0 ≤ h.of - Finsupp.single a x := by
  intro b
  rw [Finsupp.sub_apply, Finsupp.coe_zero, Pi.zero_apply, sub_nonneg]
  by_cases hb : a = b
  · subst hb
    simpa using hx
  · rw [Finsupp.single_eq_of_ne' hb]
    exact h.zero_le b

/-- `x` less for `a`, who must have it. -/
noncomputable def retire? (h : Holdings ι M) (a : ι) (x : M) : Option (Holdings ι M) :=
  if hx : 0 ≤ x ∧ x ≤ h a then some ⟨h.of - Finsupp.single a x, h.retire_nonneg hx.2⟩
  else none

theorem issue?_eq_some : h.issue? a x = some g ↔ 0 ≤ x ∧ g.of = h.of + Finsupp.single a x := by
  unfold issue?
  split
  · rename_i hx
    simp only [Option.some.injEq, Holdings.ext_iff, hx, true_and]
    exact eq_comm
  · rename_i hx
    simp [hx]

theorem retire?_eq_some :
    h.retire? a x = some g ↔ 0 ≤ x ∧ x ≤ h a ∧ g.of = h.of - Finsupp.single a x := by
  unfold retire?
  split
  · rename_i hx
    simp only [Option.some.injEq, Holdings.ext_iff, hx, true_and]
    exact eq_comm
  · rename_i hx
    simp only [reduceCtorEq, false_iff, ← and_assoc, not_and]
    exact fun h => absurd h hx

theorem total_of_issue? (hi : h.issue? a x = some g) : g.total = h.total + x := by
  rw [total, (issue?_eq_some.mp hi).2, map_add, Finsupp.degree_single]
  rfl

theorem total_of_retire? (hr : h.retire? a x = some g) : g.total = h.total - x := by
  rw [total, (retire?_eq_some.mp hr).2.2, map_sub, Finsupp.degree_single]
  rfl

/-- What is retired is room for anyone below the total. -/
theorem add_le_total (hr : h.retire? a x = some g) (b : ι) : g b + x ≤ h.total := by
  have hle := g.le_total b
  rw [total_of_retire? hr] at hle
  exact le_sub_iff_add_le.mp hle

/-- Each of the amounts for its holder. -/
noncomputable def issues? (h : Holdings ι M) (l : List (ι × M)) : Option (Holdings ι M) :=
  l.foldlM (fun g p => g.issue? p.1 p.2) h

variable {l : List (ι × M)}

theorem sum_nonneg (hl : ∀ p ∈ l, 0 ≤ p.2) : 0 ≤ (l.map Prod.snd).sum := by
  refine List.sum_nonneg fun x hx => ?_
  obtain ⟨p, hp, rfl⟩ := List.mem_map.mp hx
  exact hl p hp

theorem issues?_cons (p : ι × M) :
    h.issues? (p :: l) = (h.issue? p.1 p.2).bind fun g => g.issues? l := rfl

theorem issues?_eq_some : h.issues? l = some g ↔
    (∀ p ∈ l, 0 ≤ p.2) ∧ g.of = h.of + (l.map fun p => Finsupp.single p.1 p.2).sum := by
  induction l generalizing h with
  | nil =>
    simp only [issues?, List.foldlM_nil, Option.pure_def, Option.some.injEq, Holdings.ext_iff,
      List.not_mem_nil, false_imp_iff, implies_true, List.map_nil, List.sum_nil, add_zero, true_and]
    exact eq_comm
  | cons p l ih =>
    simp only [issues?_cons, Option.bind_eq_some_iff, issue?_eq_some, ih, List.forall_mem_cons,
      List.map_cons, List.sum_cons]
    constructor
    · rintro ⟨k, ⟨hp, hk⟩, hl, hg⟩
      exact ⟨⟨hp, hl⟩, by rw [hg, hk, add_assoc]⟩
    · rintro ⟨⟨hp, hl⟩, hg⟩
      exact ⟨⟨_, add_nonneg h.nonneg (Finsupp.single_nonneg.mpr hp)⟩, ⟨hp, rfl⟩, hl,
        by rw [hg, add_assoc]⟩

/-! ### Moving -/

variable [DecidableEq ι]

/-- `x` from `a` to `b`, who are not the same. -/
noncomputable def move? (h : Holdings ι M) (a b : ι) (x : M) : Option (Holdings ι M) :=
  if a = b then none else (h.retire? a x).bind fun g => g.issue? b x

theorem move?_of_ne (hab : a ≠ b) : h.move? a b x = (h.retire? a x).bind fun g => g.issue? b x :=
  if_neg hab

theorem move?_eq_some : h.move? a b x = some g ↔
    a ≠ b ∧ 0 ≤ x ∧ x ≤ h a ∧ g.of = h.of - Finsupp.single a x + Finsupp.single b x := by
  unfold move?
  split
  · rename_i hab
    simp [hab]
  · rename_i hab
    simp only [Option.bind_eq_some_iff, retire?_eq_some, issue?_eq_some, ne_eq, hab,
      not_false_eq_true, true_and]
    constructor
    · rintro ⟨k, ⟨hx, hle, hk⟩, -, hg⟩
      exact ⟨hx, hle, by rw [hg, hk]⟩
    · rintro ⟨hx, hle, hg⟩
      exact ⟨⟨_, h.retire_nonneg hle⟩, ⟨hx, hle, rfl⟩, hx, hg⟩

theorem total_of_move? (hm : h.move? a b x = some g) : g.total = h.total := by
  rw [total, (move?_eq_some.mp hm).2.2.2, map_add, map_sub, Finsupp.degree_single,
    Finsupp.degree_single, sub_add_cancel]
  rfl

/-- Each of the amounts from `a` to its holder. -/
noncomputable def moves? (h : Holdings ι M) (a : ι) (l : List (ι × M)) : Option (Holdings ι M) :=
  l.foldlM (fun g p => g.move? a p.1 p.2) h

theorem moves?_cons (p : ι × M) :
    h.moves? a (p :: l) = (h.move? a p.1 p.2).bind fun g => g.moves? a l := rfl

theorem moves?_eq_some : h.moves? a l = some g ↔
    (∀ p ∈ l, a ≠ p.1 ∧ 0 ≤ p.2) ∧ (l.map Prod.snd).sum ≤ h a ∧
      g.of = h.of - Finsupp.single a (l.map Prod.snd).sum +
        (l.map fun p => Finsupp.single p.1 p.2).sum := by
  induction l generalizing h with
  | nil =>
    simp only [moves?, List.foldlM_nil, Option.pure_def, Option.some.injEq, Holdings.ext_iff,
      List.not_mem_nil, false_imp_iff, implies_true, List.map_nil, List.sum_nil, h.zero_le a,
      Finsupp.single_zero, sub_zero, add_zero, true_and]
    exact eq_comm
  | cons p l ih =>
    simp only [moves?_cons, Option.bind_eq_some_iff, move?_eq_some, ih, List.forall_mem_cons,
      List.map_cons, List.sum_cons]
    -- what is left to `a` after the first move
    have hleft : ∀ k : Holdings ι M, a ≠ p.1 →
        k.of = h.of - Finsupp.single a p.2 + Finsupp.single p.1 p.2 → k a = h a - p.2 := by
      intro k hap hk
      rw [hk]
      simp [Finsupp.single_eq_of_ne hap]
    constructor
    · rintro ⟨k, ⟨hap, hp, hle, hk⟩, hl, hsum, hg⟩
      rw [hleft k hap hk, le_sub_iff_add_le'] at hsum
      refine ⟨⟨⟨hap, hp⟩, hl⟩, hsum, ?_⟩
      rw [hg, hk, Finsupp.single_add]
      abel
    · rintro ⟨⟨⟨hap, hp⟩, hl⟩, hsum, hg⟩
      have hle : p.2 ≤ h a := (le_add_of_nonneg_right (sum_nonneg fun q hq => (hl q hq).2)).trans hsum
      obtain ⟨k, hk⟩ : ∃ k, h.move? a p.1 p.2 = some k :=
        ⟨⟨_, add_nonneg (h.retire_nonneg hle) (Finsupp.single_nonneg.mpr hp)⟩,
          move?_eq_some.mpr ⟨hap, hp, hle, rfl⟩⟩
      have hk' := (move?_eq_some.mp hk).2.2.2
      refine ⟨k, ⟨hap, hp, hle, hk'⟩, hl, ?_, ?_⟩
      · rw [hleft k hap hk', le_sub_iff_add_le']
        exact hsum
      · rw [hg, hk', Finsupp.single_add]
        abel

theorem total_of_moves? (hm : h.moves? a l = some g) : g.total = h.total := by
  induction l generalizing h with
  | nil =>
    cases hm
    rfl
  | cons p l ih =>
    obtain ⟨k, hk, hm⟩ := Option.bind_eq_some_iff.mp hm
    rw [ih hm, total_of_move? hk]

/-- Moves one after the other, and all at once. -/
theorem moves?_eq (hl : ∀ p ∈ l, a ≠ p.1 ∧ 0 ≤ p.2) :
    h.moves? a l = (h.retire? a (l.map Prod.snd).sum).bind fun g => g.issues? l := by
  have hpos : 0 ≤ (l.map Prod.snd).sum := sum_nonneg fun p hp => (hl p hp).2
  ext g
  simp only [moves?_eq_some, Option.bind_eq_some_iff, retire?_eq_some, issues?_eq_some]
  constructor
  · rintro ⟨-, hsum, hg⟩
    exact ⟨⟨_, h.retire_nonneg hsum⟩, ⟨hpos, hsum, rfl⟩, fun p hp => (hl p hp).2, hg⟩
  · rintro ⟨k, ⟨-, hsum, hk⟩, -, hg⟩
    exact ⟨hl, hsum, by rw [hg, hk]⟩

end Holdings

end Navin
