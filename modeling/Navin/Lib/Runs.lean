/-
# Runs of a labelled transition system

A run is a finite sequence of labelled steps. The rules here carry an invariant
along it: a property of the state, possibly together with the labels seen so
far, that every step keeps.

Key definitions:
- `Run step s ls t`: the steps labelled `ls` lead from `s` to `t`;
- `Visits step s ls t a`: such a run passes through `a`;
- `Under step P`: the steps that meet the condition `P` on the state before;
- `Past step P s ls t`: some step of the run from `s` to `t` satisfies `P`;
- `Gathers step f s ls t bs`: a run whose steps yield `bs`, in order.

Key theorems:
- `Run.inv`, `Run.inv_of`: induction over a run, the second one under a
  condition on the labels;
- `Run.inv_hist`: the same for a property that looks at the labels so far;
- `Run.exists_step`: what holds at the end and not at the start came about by a
  step;
- `Run.cons`, `Run.append`, `Run.split`: runs put together and taken apart;
- `Run.of_under`: a run of steps under a condition is a run.
-/
import Mathlib.Data.List.Basic
import Mathlib.Tactic.Common

namespace Navin

/-- `Run step s ls t`: the labels `ls`, in order, lead from `s` to `t`. -/
inductive Run {σ ι : Type} (step : σ → ι → σ → Prop) (s : σ) : List ι → σ → Prop
  | nil : Run step s [] s
  | snoc {ls : List ι} {l : ι} {t u : σ} : Run step s ls t → step t l u → Run step s (ls ++ [l]) u

/-- `a` is one of the states a run from `s` to `t` passes through. -/
def Visits {σ ι : Type} (step : σ → ι → σ → Prop) (s : σ) (ls : List ι) (t a : σ) : Prop :=
  ∃ ks ks', ls = ks ++ ks' ∧ Run step s ks a ∧ Run step a ks' t

/-- The steps that meet the condition `P` on the state before and the label. -/
def Under {σ ι : Type} (step : σ → ι → σ → Prop) (P : σ → ι → Prop) (s : σ) (l : ι) (t : σ) : Prop :=
  step s l t ∧ P s l

/-- Some step of the run from `s` to `t` satisfies `P`, which looks at the state
before it, its label and the labels since. -/
def Past {σ ι : Type} (step : σ → ι → σ → Prop) (P : σ → ι → List ι → Prop) (s : σ) (ls : List ι)
    (t : σ) : Prop :=
  ∃ ks k ks' a b, ls = ks ++ k :: ks' ∧ Run step s ks a ∧ step a k b ∧ Run step b ks' t ∧ P a k ks'

/-- The run from `s` to `t` together with what `f` reads off its steps. -/
inductive Gathers {σ ι β : Type} (step : σ → ι → σ → Prop) (f : σ → ι → List β) (s : σ) :
    List ι → σ → List β → Prop
  | nil : Gathers step f s [] s []
  | snoc {ls : List ι} {l : ι} {t u : σ} {bs : List β} : Gathers step f s ls t bs → step t l u →
      Gathers step f s (ls ++ [l]) u (bs ++ f t l)

namespace Run

variable {σ ι : Type} {step : σ → ι → σ → Prop} {s t : σ} {ls : List ι}

/-- What every step keeps holds along the run, labels so far included. -/
theorem inv_hist {I : List ι → σ → Prop} (h : Run step s ls t) (h₀ : I [] s)
    (hs : ∀ ks x l y, Run step s ks x → I ks x → step x l y → I (ks ++ [l]) y) : I ls t := by
  induction h with
  | nil => exact h₀
  | snoc hr hl ih => exact hs _ _ _ _ hr ih hl

/-- What every step with an allowed label keeps holds along a run of such steps. -/
theorem inv_of {P : ι → Prop} {I : σ → Prop} (h : Run step s ls t) (hP : ∀ l ∈ ls, P l)
    (h₀ : I s) (hs : ∀ x l y, P l → I x → step x l y → I y) : I t := by
  have key : (∀ l ∈ ls, P l) → I t := by
    refine inv_hist (I := fun ks x => (∀ l ∈ ks, P l) → I x) h (fun _ => h₀) ?_
    intro ks x l y _ ih hl hP
    refine hs x l y (hP l (by simp)) (ih fun k hk => hP k (by simp [hk])) hl
  exact key hP

/-- What every step keeps holds along the run. -/
theorem inv {I : σ → Prop} (h : Run step s ls t) (h₀ : I s)
    (hs : ∀ x l y, I x → step x l y → I y) : I t :=
  h.inv_of (P := fun _ => True) (fun _ _ => trivial) h₀ fun x l y _ => hs x l y

/-- What holds at the end and not at the start came about by a step. -/
theorem exists_step {P : σ → Prop} (h : Run step s ls t) (hs : ¬P s) (ht : P t) :
    ∃ ks l ks' a b, ls = ks ++ l :: ks' ∧ Run step s ks a ∧ step a l b ∧ Run step b ks' t ∧
      ¬P a ∧ P b := by
  induction h with
  | nil => exact absurd ht hs
  | @snoc ls l a b hr hl ih =>
    by_cases ha : P a
    · obtain ⟨ks, k, ks', x, y, rfl, hx, hk, hy, hnx, hpy⟩ := ih ha
      exact ⟨ks, k, ks' ++ [l], x, y, by simp, hx, hk, .snoc hy hl, hnx, hpy⟩
    · exact ⟨ls, l, [], a, b, rfl, hr, hl, .nil, ha, ht⟩

/-- A step in front of a run. -/
theorem cons {l : ι} {u : σ} (hl : step s l t) (h : Run step t ls u) : Run step s (l :: ls) u := by
  induction h with
  | nil => exact .snoc .nil hl
  | snoc _ hk ih => exact .snoc ih hk

theorem append {ks : List ι} {u : σ} (h : Run step s ls t) (h' : Run step t ks u) :
    Run step s (ls ++ ks) u := by
  induction h' with
  | nil => rwa [List.append_nil]
  | snoc _ hk ih =>
    rw [← List.append_assoc]
    exact .snoc ih hk

theorem eq_of_nil (h : Run step s [] t) : t = s := by
  generalize hk : [] = ks at h
  cases h with
  | nil => rfl
  | snoc => simp at hk

/-- The first step of a run. -/
theorem uncons {l : ι} (h : Run step s (l :: ls) t) : ∃ b, step s l b ∧ Run step b ls t := by
  generalize hk : l :: ls = ks at h
  induction h generalizing l ls with
  | nil => cases hk
  | @snoc ks k a b hr hstep ih =>
    cases ks with
    | nil =>
      obtain rfl := hr.eq_of_nil
      cases hk
      exact ⟨b, hstep, .nil⟩
    | cons k' ks =>
      cases hk
      obtain ⟨c, hc, hrest⟩ := ih rfl
      exact ⟨c, hc, .snoc hrest hstep⟩

/-- A run over an appended list stops in between. -/
theorem split {ks ks' : List ι} (h : Run step s (ks ++ ks') t) :
    ∃ a, Run step s ks a ∧ Run step a ks' t := by
  induction ks generalizing s with
  | nil => exact ⟨s, .nil, h⟩
  | cons k ks ih =>
    obtain ⟨b, hb, hrest⟩ := h.uncons
    obtain ⟨a, ha, ha'⟩ := ih hrest
    exact ⟨a, .cons hb ha, ha'⟩

/-- The states before and after a step of the run. -/
theorem at_step {l : ι} (h : Run step s ls t) (hl : l ∈ ls) :
    ∃ ks ks' a b, ls = ks ++ l :: ks' ∧ Run step s ks a ∧ step a l b ∧ Run step b ks' t := by
  obtain ⟨ks, ks', rfl⟩ := List.append_of_mem hl
  obtain ⟨a, ha, ha'⟩ := h.split
  obtain ⟨b, hb, hb'⟩ := ha'.uncons
  exact ⟨ks, ks', a, b, rfl, ha, hb, hb'⟩

/-- Every run gathers something. -/
theorem gathers {β : Type} (f : σ → ι → List β) (h : Run step s ls t) :
    ∃ bs, Gathers step f s ls t bs := by
  induction h with
  | nil => exact ⟨[], .nil⟩
  | snoc _ hl ih =>
    obtain ⟨bs, hbs⟩ := ih
    exact ⟨_, .snoc hbs hl⟩

/-! ### Steps under a condition -/

theorem of_under {P : σ → ι → Prop} (h : Run (Under step P) s ls t) : Run step s ls t := by
  induction h with
  | nil => exact .nil
  | snoc _ hl ih => exact .snoc ih hl.1

/-- A condition that the labels alone decide. -/
theorem under {P : σ → ι → Prop} {Q : ι → Prop} (h : Run step s ls t) (hls : ∀ l ∈ ls, Q l)
    (hP : ∀ a l, Q l → P a l) : Run (Under step P) s ls t := by
  induction h with
  | nil => exact .nil
  | @snoc ls l a b _ hl ih =>
    exact .snoc (ih fun k hk => hls k (by simp [hk])) ⟨hl, hP a l (hls l (by simp))⟩

end Run

namespace Past

variable {σ ι : Type} {step : σ → ι → σ → Prop} {P : σ → ι → List ι → Prop} {s t u : σ} {ls : List ι}
  {l : ι}

/-- The last step. -/
theorem last (hr : Run step s ls t) (hl : step t l u) (hP : P t l []) :
    Past step P s (ls ++ [l]) u :=
  ⟨ls, l, [], t, u, rfl, hr, hl, .nil, hP⟩

/-- A step before the last one. -/
theorem snoc (h : Past step P s ls t) (hl : step t l u)
    (hP : ∀ a k ks, P a k ks → P a k (ks ++ [l])) : Past step P s (ls ++ [l]) u := by
  obtain ⟨ks, k, ks', a, b, rfl, hr, hk, hr', h⟩ := h
  exact ⟨ks, k, ks' ++ [l], a, b, by simp, hr, hk, .snoc hr' hl, hP a k ks' h⟩

end Past

end Navin
