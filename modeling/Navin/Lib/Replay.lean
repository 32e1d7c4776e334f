/-
# Logs that retell a run

A system tells what it does in a log of entries, each about one key. Somebody who keeps a
row for each key and enters what he is told has, at every point of a run, the rows of the
system, when each step tells what it does to them.

Key definitions:
- `replayAt enter k log r`: the row of the key `k` after the log;
- `Leads enter rows rows' log`: the log leads from one family of rows to another.

Key theorems:
- `Leads.trans`: logs are read one after the other;
- `Run.leads`: what the steps tell leads from the rows at the start of a run to those at
  its end;
- `Run.past_of_end`: what holds at the end and not at the start came about by a step, and
  none since undid it.
-/
import Navin.Lib.Runs

namespace Navin

variable {κ δ ρ : Type} [DecidableEq κ] {enter : δ → ρ → ρ}

/-- The row of the key `k` after the log. -/
def replayAt (enter : δ → ρ → ρ) (k : κ) (log : List (κ × δ)) (r : ρ) : ρ :=
  log.foldl (fun r x => if x.1 = k then enter x.2 r else r) r

theorem replayAt_append (k : κ) (xs ys : List (κ × δ)) (r : ρ) :
    replayAt enter k (xs ++ ys) r = replayAt enter k ys (replayAt enter k xs r) := List.foldl_append

theorem replayAt_cons_self (k : κ) (d : δ) (log : List (κ × δ)) (r : ρ) :
    replayAt enter k ((k, d) :: log) r = replayAt enter k log (enter d r) := by
  unfold replayAt
  rw [List.foldl_cons, if_pos rfl]

/-- A log about other keys. -/
theorem replayAt_of_ne {k : κ} {log : List (κ × δ)} (h : ∀ x ∈ log, x.1 ≠ k) (r : ρ) :
    replayAt enter k log r = r := by
  unfold replayAt
  induction log generalizing r with
  | nil => rfl
  | cons x log ih =>
    rw [List.foldl_cons, if_neg (h x List.mem_cons_self)]
    exact ih (fun y hy => h y (List.mem_cons_of_mem x hy)) r

/-- The log leads from the rows before to the rows after. -/
def Leads (enter : δ → ρ → ρ) (rows rows' : κ → ρ) (log : List (κ × δ)) : Prop :=
  ∀ k, replayAt enter k log (rows k) = rows' k

namespace Leads

variable {rows rows' rows'' : κ → ρ} {xs ys : List (κ × δ)}

theorem refl (rows : κ → ρ) : Leads enter rows rows [] := fun _ => rfl

theorem trans (h : Leads enter rows rows' xs) (h' : Leads enter rows' rows'' ys) :
    Leads enter rows rows'' (xs ++ ys) := by
  intro k
  rw [replayAt_append, h k, h' k]

/-- One entry, about the one key whose row is another. -/
theorem single {k : κ} {d : δ} (hk : enter d (rows k) = rows' k) (hne : ∀ j, j ≠ k → rows' j = rows j) :
    Leads enter rows rows' [(k, d)] := by
  intro j
  by_cases hj : j = k
  · subst hj
    rw [replayAt_cons_self]
    exact hk
  · rw [hne j hj]
    exact replayAt_of_ne (fun x hx => by rw [List.mem_singleton.mp hx]; exact Ne.symm hj) _

end Leads

variable {σ ι : Type} {step : σ → ι → σ → Prop} {s t : σ} {ls : List ι}

/-- A run is retold by what its steps tell. -/
theorem Run.leads {v : σ → κ → ρ} {told : ι → List (κ × δ)} {I : σ → Prop} (hr : Run step s ls t)
    (h₀ : I s) (hI : ∀ a l b, I a → step a l b → I b)
    (hs : ∀ a l b, I a → step a l b → Leads enter (v a) (v b) (told l)) :
    Leads enter (v s) (v t) (ls.flatMap told) := by
  refine (hr.inv_hist (I := fun ks x => I x ∧ Leads enter (v s) (v x) (ks.flatMap told))
    ⟨h₀, .refl _⟩ ?_).2
  intro ks x l y _ hx hstep
  refine ⟨hI x l y hx.1 hstep, ?_⟩
  rw [List.flatMap_append, List.flatMap_cons, List.flatMap_nil, List.append_nil]
  exact hx.2.trans (hs x l y hx.1 hstep)

/-- What holds at the end and not at the start came about by a step, and none since undid it. -/
theorem Run.past_of_end {P : σ → Prop} {Q : σ → ι → Prop} {U : ι → Prop} (hr : Run step s ls t)
    (h₀ : ¬P s) (hs : ∀ a l b, step a l b → P b → Q a l ∨ P a ∧ ¬U l) (ht : P t) :
    Past step (fun a l ks => Q a l ∧ ∀ k ∈ ks, ¬U k) s ls t := by
  have key : P t → Past step (fun a l ks => Q a l ∧ ∀ k ∈ ks, ¬U k) s ls t := by
    refine hr.inv_hist (I := fun ks x => P x → Past step (fun a l ks => Q a l ∧ ∀ k ∈ ks, ¬U k) s ks x)
      (fun h => absurd h h₀) ?_
    intro ks x l y hx ih hstep hy
    rcases hs x l y hstep hy with hq | ⟨hp, hu⟩
    · exact .last hx hstep ⟨hq, fun k hk => by cases hk⟩
    · refine (ih hp).snoc hstep fun a k ks hk => ⟨hk.1, fun j hj => ?_⟩
      rcases List.mem_append.mp hj with hj | hj
      · exact hk.2 j hj
      · rwa [List.mem_singleton.mp hj]
  exact key ht

end Navin
