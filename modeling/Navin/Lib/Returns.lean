/-
# When a computation returns

The weakest preconditions say what holds if a computation returns. Here is when it
does: one equivalence for each combinator, so that a computation is taken apart, and
put together again, at its binds.

Key definitions:
- `Tx.Returns`: the computation ends with this value and this state;
- `Tx.FailsWith`: the computation ends with this error;
- `Tx.Traps`: the computation traps.
-/
import Navin.Lib.Ends

namespace Navin

namespace Tx

variable {ρ σ ε α β γ : Type}

/-- From `s`, the computation returns `a` and leaves `s'`. -/
def Returns (m : Tx ρ σ ε α) (r : ρ) (s : σ) (a : α) (s' : σ) : Prop := m r s = .ok a s'

/-- What a computation returns, if it does, found by evaluation. -/
def result? (m : Tx ρ σ ε α) (r : ρ) (s : σ) : Option (α × σ) :=
  match m r s with
  | .ok a s' => some (a, s')
  | _ => none

variable {r : ρ} {s s' s₁ s₂ : σ} {a : α} {b : β}

theorem result?_eq_some {m : Tx ρ σ ε α} : m.result? r s = some (a, s') ↔ m.Returns r s a s' := by
  unfold result? Returns
  cases m r s <;> simp

/-- What a computation returns satisfies its postcondition. -/
theorem wp.of_returns {m : Tx ρ σ ε α} {Q : α → σ → Prop} (h : wp m r s Q)
    (hr : m.Returns r s a s') : Q a s' := h a s' hr

/-- A computation returns at most one value and state. -/
theorem Returns.unique {m : Tx ρ σ ε α} {a₁ a₂ : α} (h₁ : m.Returns r s a₁ s₁)
    (h₂ : m.Returns r s a₂ s₂) : a₁ = a₂ ∧ s₁ = s₂ := by
  unfold Returns at h₁ h₂
  rw [h₁] at h₂
  cases h₂
  exact ⟨rfl, rfl⟩

@[simp] theorem returns_pure {a' : α} : (pure a : Tx ρ σ ε α).Returns r s a' s' ↔ a' = a ∧ s' = s := by
  constructor
  · intro h
    cases h
    exact ⟨rfl, rfl⟩
  · rintro ⟨rfl, rfl⟩
    rfl

/-- A computation returns through its first part. -/
theorem returns_bind {m : Tx ρ σ ε α} {k : α → Tx ρ σ ε β} :
    (m >>= k).Returns r s b s' ↔ ∃ a s₁, m.Returns r s a s₁ ∧ (k a).Returns r s₁ b s' := by
  unfold Returns
  change Tx.bind m k r s = _ ↔ _
  unfold Tx.bind
  cases m r s with
  | ok a s₁ => simp
  | err e s₁ => simp
  | trap => simp

theorem Returns.bind {m : Tx ρ σ ε α} {k : α → Tx ρ σ ε β} (hm : m.Returns r s a s₁)
    (hk : (k a).Returns r s₁ b s') : (m >>= k).Returns r s b s' := returns_bind.mpr ⟨a, s₁, hm, hk⟩

/-- Once the first part is known, the rest decides. -/
theorem Returns.bind_iff {m : Tx ρ σ ε α} {k : α → Tx ρ σ ε β} (hm : m.Returns r s a s₁) :
    (m >>= k).Returns r s b s' ↔ (k a).Returns r s₁ b s' := by
  refine ⟨fun h => ?_, hm.bind⟩
  obtain ⟨a₁, s₂, hm', hk⟩ := returns_bind.mp h
  obtain ⟨rfl, rfl⟩ := hm'.unique hm
  exact hk

@[simp] theorem returns_gets {g : σ → α} : (gets g : Tx ρ σ ε α).Returns r s a s' ↔
    a = g s ∧ s' = s := by
  constructor
  · intro h
    cases h
    exact ⟨rfl, rfl⟩
  · rintro ⟨rfl, rfl⟩
    rfl

@[simp] theorem returns_ask {r' : ρ} : (ask : Tx ρ σ ε ρ).Returns r s r' s' ↔ r' = r ∧ s' = s := by
  constructor
  · intro h
    cases h
    exact ⟨rfl, rfl⟩
  · rintro ⟨rfl, rfl⟩
    rfl

@[simp] theorem returns_modify {g : σ → σ} {u : Unit} :
    (modify g : Tx ρ σ ε Unit).Returns r s u s' ↔ s' = g s := by
  constructor
  · intro h
    cases h
    rfl
  · rintro rfl
    rfl

@[simp] theorem returns_rejectIf {c : Prop} [Decidable c] {e : ε} {u : Unit} :
    (rejectIf c e : Tx ρ σ ε Unit).Returns r s u s' ↔ ¬c ∧ s' = s := by
  unfold Returns rejectIf
  by_cases hc : c <;> simp [hc, eq_comm]

@[simp] theorem returns_trapIf {c : Prop} [Decidable c] {u : Unit} :
    (trapIf c : Tx ρ σ ε Unit).Returns r s u s' ↔ ¬c ∧ s' = s := by
  unfold Returns trapIf
  by_cases hc : c <;> simp [hc, eq_comm]

@[simp] theorem returns_okOr {o : Option α} {e : ε} : (okOr o e : Tx ρ σ ε α).Returns r s a s' ↔
    o = some a ∧ s' = s := by
  unfold Returns okOr
  cases o <;> simp [eq_comm]

@[simp] theorem returns_unwrap {o : Option α} : (unwrap o : Tx ρ σ ε α).Returns r s a s' ↔
    o = some a ∧ s' = s := by
  unfold Returns unwrap
  cases o <;> simp [eq_comm]

@[simp] theorem returns_liftResult {x : Except ε α} :
    (liftResult x : Tx ρ σ ε α).Returns r s a s' ↔ x = .ok a ∧ s' = s := by
  unfold Returns liftResult
  cases x <;> simp [eq_comm]

@[simp] theorem returns_ite {c : Prop} [Decidable c] {m n : Tx ρ σ ε α} :
    (if c then m else n).Returns r s a s' ↔ (c → m.Returns r s a s') ∧ (¬c → n.Returns r s a s') := by
  by_cases hc : c <;> simp [hc]

@[simp] theorem returns_when {c : Prop} [Decidable c] {m : Tx ρ σ ε Unit} {u : Unit} :
    (when c m).Returns r s u s' ↔ (c → m.Returns r s u s') ∧ (¬c → s' = s) := by
  unfold when
  rw [returns_ite, returns_pure]
  simp

/-- A check under a condition. -/
theorem returns_whenCheck {c P : Prop} [Decidable c] {m : Tx ρ σ ε Unit}
    (hm : ∀ u s₁, m.Returns r s u s₁ ↔ P ∧ s₁ = s) (u : Unit) (s₁ : σ) :
    (when c m).Returns r s u s₁ ↔ (c → P) ∧ s₁ = s := by
  by_cases hc : c
  · rw [returns_when]
    simp [hc, hm]
  · rw [returns_when]
    simp [hc]

/-- A result that is not used. -/
theorem returns_discard {m : Tx ρ σ ε α} {u : Unit} :
    (m >>= fun _ => pure ()).Returns r s u s' ↔ ∃ a, m.Returns r s a s' := by
  simp only [returns_bind, returns_pure]
  constructor
  · rintro ⟨a, _, hm, -, rfl⟩
    exact ⟨a, hm⟩
  · rintro ⟨a, hm⟩
    exact ⟨a, s', hm, trivial, rfl⟩

/-! ### First parts that are known -/

variable {k : α → Tx ρ σ ε β} {n : Unit → Tx ρ σ ε β}

theorem returns_pure_bind : (pure a >>= k).Returns r s b s' ↔ (k a).Returns r s b s' :=
  (returns_pure.mpr ⟨rfl, rfl⟩).bind_iff

theorem returns_gets_bind {g : σ → α} : (gets g >>= k).Returns r s b s' ↔ (k (g s)).Returns r s b s' :=
  (returns_gets.mpr ⟨rfl, rfl⟩).bind_iff

theorem returns_ask_bind {k : ρ → Tx ρ σ ε β} : (ask >>= k).Returns r s b s' ↔ (k r).Returns r s b s' :=
  (returns_ask.mpr ⟨rfl, rfl⟩).bind_iff

theorem returns_modify_bind {g : σ → σ} : (modify g >>= n).Returns r s b s' ↔
    (n ()).Returns r (g s) b s' := (returns_modify.mpr rfl).bind_iff

/-- A first part that returns under a condition, to one state. -/
theorem returns_unit_bind {m : Tx ρ σ ε Unit} {P : Prop} {t : σ}
    (hm : ∀ u s₁, m.Returns r s u s₁ ↔ P ∧ s₁ = t) :
    (m >>= n).Returns r s b s' ↔ P ∧ (n ()).Returns r t b s' := by
  rw [returns_bind]
  simp only [hm]
  constructor
  · rintro ⟨_, _, ⟨hp, rfl⟩, hn⟩
    exact ⟨hp, hn⟩
  · rintro ⟨hp, hn⟩
    exact ⟨(), t, ⟨hp, rfl⟩, hn⟩

theorem returns_rejectIf_bind {c : Prop} [Decidable c] {e : ε} :
    (rejectIf c e >>= n).Returns r s b s' ↔ ¬c ∧ (n ()).Returns r s b s' :=
  returns_unit_bind fun _ _ => returns_rejectIf

theorem returns_trapIf_bind {c : Prop} [Decidable c] :
    (trapIf c >>= n).Returns r s b s' ↔ ¬c ∧ (n ()).Returns r s b s' :=
  returns_unit_bind fun _ _ => returns_trapIf

theorem returns_okOr_bind {o : Option α} {e : ε} : (okOr o e >>= k).Returns r s b s' ↔
    ∃ a, o = some a ∧ (k a).Returns r s b s' := by
  rw [returns_bind]
  simp only [returns_okOr]
  constructor
  · rintro ⟨a, _, ⟨ho, rfl⟩, hk⟩
    exact ⟨a, ho, hk⟩
  · rintro ⟨a, ho, hk⟩
    exact ⟨a, s, ⟨ho, rfl⟩, hk⟩

theorem returns_unwrap_bind {o : Option α} : (unwrap o >>= k).Returns r s b s' ↔
    ∃ a, o = some a ∧ (k a).Returns r s b s' := by
  rw [returns_bind]
  simp only [returns_unwrap]
  constructor
  · rintro ⟨a, _, ⟨ho, rfl⟩, hk⟩
    exact ⟨a, ho, hk⟩
  · rintro ⟨a, ho, hk⟩
    exact ⟨a, s, ⟨ho, rfl⟩, hk⟩

/-! ### Loops -/

/-- A loop of checks that change nothing: each of them is passed. -/
theorem returns_checks {f : α → Tx ρ σ ε Unit} {P : σ → α → Prop}
    (hf : ∀ a s u s', (f a).Returns r s u s' ↔ P s a ∧ s' = s) (l : List α) {u : Unit} :
    (l.foldlM (fun _ a => f a) ()).Returns r s u s' ↔ (∀ a ∈ l, P s a) ∧ s' = s := by
  induction l generalizing s with
  | nil => simp [List.foldlM_nil, returns_pure]
  | cons a l ih =>
    rw [List.foldlM_cons, returns_bind]
    simp only [hf, ih, List.forall_mem_cons]
    constructor
    · rintro ⟨_, _, ⟨ha, rfl⟩, hl, rfl⟩
      exact ⟨⟨ha, hl⟩, rfl⟩
    · rintro ⟨⟨ha, hl⟩, rfl⟩
      exact ⟨(), s', ⟨ha, rfl⟩, hl, rfl⟩

/-! ### Checks with one error -/

theorem rejectIf_congr {c d : Prop} [Decidable c] [Decidable d] (h : c ↔ d) (e : ε) :
    (rejectIf c e : Tx ρ σ ε Unit) = rejectIf d e := by
  funext r s
  unfold rejectIf
  by_cases hd : d
  · rw [if_pos hd, if_pos (h.mpr hd)]
  · rw [if_neg hd, if_neg fun hc => hd (h.mp hc)]

/-- Two checks with the same error are one. -/
theorem rejectIf_bind_rejectIf (c d : Prop) [Decidable c] [Decidable d] (e : ε) :
    (rejectIf c e >>= fun _ => rejectIf d e : Tx ρ σ ε Unit) = rejectIf (c ∨ d) e := by
  funext r s
  change Tx.bind (rejectIf c e) _ r s = _
  unfold Tx.bind rejectIf
  by_cases hc : c <;> simp [hc]

/-- A loop of checks with the same error is one check. -/
theorem foldlM_rejectIf (p : α → Prop) [DecidablePred p] (e : ε) (l : List α) :
    l.foldlM (fun _ a => (rejectIf (p a) e : Tx ρ σ ε Unit)) () = rejectIf (∃ a ∈ l, p a) e := by
  induction l with
  | nil =>
    funext r s
    simp [rejectIf]
    rfl
  | cons a l ih =>
    rw [List.foldlM_cons]
    show (rejectIf (p a) e >>= fun _ => l.foldlM (fun _ a => rejectIf (p a) e) ()) = _
    rw [ih, rejectIf_bind_rejectIf]
    exact rejectIf_congr (by simp) e

/-! ### Failing with an error -/

/-- From `s`, the computation fails with `e`. -/
def FailsWith (m : Tx ρ σ ε α) (r : ρ) (s : σ) (e : ε) : Prop := ∃ s', m r s = .err e s'

variable {e : ε}

instance [DecidableEq ε] (m : Tx ρ σ ε α) (r : ρ) (s : σ) (e : ε) : Decidable (m.FailsWith r s e) :=
  match h : m r s with
  | .ok .. => .isFalse (by simp [FailsWith, h])
  | .err e' s' => decidable_of_iff (e' = e) (by simp [FailsWith, h])
  | .trap => .isFalse (by simp [FailsWith, h])

/-- A computation fails in its first part, or after it. -/
theorem failsWith_bind {m : Tx ρ σ ε α} {k : α → Tx ρ σ ε β} :
    (m >>= k).FailsWith r s e ↔
      m.FailsWith r s e ∨ ∃ a s₁, m.Returns r s a s₁ ∧ (k a).FailsWith r s₁ e := by
  unfold FailsWith Returns
  change (∃ s', Tx.bind m k r s = _) ↔ _
  unfold Tx.bind
  cases m r s with
  | ok a s₁ => simp
  | err e₁ s₁ => simp
  | trap => simp

theorem failsWith_rejectIf {c : Prop} [Decidable c] {e' : ε} :
    (rejectIf c e' : Tx ρ σ ε Unit).FailsWith r s e ↔ c ∧ e' = e := by
  unfold FailsWith rejectIf
  by_cases hc : c <;> simp [hc]

theorem failsWith_pure_bind : (pure a >>= k).FailsWith r s e ↔ (k a).FailsWith r s e := Iff.rfl

theorem failsWith_gets_bind {g : σ → α} : (gets g >>= k).FailsWith r s e ↔ (k (g s)).FailsWith r s e :=
  Iff.rfl

theorem failsWith_ask_bind {k : ρ → Tx ρ σ ε β} : (ask >>= k).FailsWith r s e ↔ (k r).FailsWith r s e :=
  Iff.rfl

theorem failsWith_discard {m : Tx ρ σ ε α} :
    (m >>= fun _ => pure () : Tx ρ σ ε Unit).FailsWith r s e ↔ m.FailsWith r s e := by
  rw [failsWith_bind]
  constructor
  · rintro (h | ⟨_, _, _, _, h⟩)
    · exact h
    · cases h
  · exact .inl

/-- A computation does not fail with an error it spares. -/
theorem Spares.not_failsWith {f : σ → γ} {bad : ε → Bool} {m : Tx ρ σ ε α} (hm : Spares f bad m)
    (he : bad e = true) : ¬m.FailsWith r s e := by
  rintro ⟨s', h⟩
  rw [(hm.err h).2] at he
  cases he

/-- A first part that returns under a condition, and does not fail so. -/
theorem failsWith_unit_bind {m : Tx ρ σ ε Unit} {P : Prop} {t : σ} (he : ¬m.FailsWith r s e)
    (hm : ∀ u s₁, m.Returns r s u s₁ ↔ P ∧ s₁ = t) :
    (m >>= n).FailsWith r s e ↔ P ∧ (n ()).FailsWith r t e := by
  rw [failsWith_bind]
  simp only [he, hm, false_or]
  constructor
  · rintro ⟨_, _, ⟨hp, rfl⟩, hn⟩
    exact ⟨hp, hn⟩
  · rintro ⟨hp, hn⟩
    exact ⟨(), t, ⟨hp, rfl⟩, hn⟩

/-- A check that refuses with another error. -/
theorem failsWith_rejectIf_bind {c : Prop} [Decidable c] {e' : ε} (he : e' ≠ e) :
    (rejectIf c e' >>= n).FailsWith r s e ↔ ¬c ∧ (n ()).FailsWith r s e :=
  failsWith_unit_bind (fun h => he (failsWith_rejectIf.mp h).2) fun _ _ => returns_rejectIf

/-- The check that refuses with the error, and nothing after it does. -/
theorem failsWith_rejectIf_last {c : Prop} [Decidable c] (hn : ¬(n ()).FailsWith r s e) :
    (rejectIf c e >>= n).FailsWith r s e ↔ c := by
  rw [failsWith_bind, failsWith_rejectIf]
  simp only [returns_rejectIf, and_true, or_iff_left_iff_imp]
  rintro ⟨_, _, ⟨-, rfl⟩, h⟩
  exact absurd h hn

/-! ### Trapping -/

/-- From `s`, the computation traps. -/
def Traps (m : Tx ρ σ ε α) (r : ρ) (s : σ) : Prop := m r s = .trap

/-- A computation traps in its first part, or after it. -/
theorem traps_bind {m : Tx ρ σ ε α} {k : α → Tx ρ σ ε β} :
    (m >>= k).Traps r s ↔ m.Traps r s ∨ ∃ a s₁, m.Returns r s a s₁ ∧ (k a).Traps r s₁ := by
  unfold Traps Returns
  change Tx.bind m k r s = _ ↔ _
  unfold Tx.bind
  cases m r s with
  | ok a s₁ => simp
  | err e s₁ => simp
  | trap => simp

theorem traps_gets_bind {g : σ → α} : (gets g >>= k).Traps r s ↔ (k (g s)).Traps r s := Iff.rfl

@[simp] theorem not_traps_pure : ¬(pure a : Tx ρ σ ε α).Traps r s := by
  intro h
  cases h

@[simp] theorem not_traps_modify {g : σ → σ} : ¬(modify g : Tx ρ σ ε Unit).Traps r s := by
  intro h
  cases h

@[simp] theorem not_traps_rejectIf {c : Prop} [Decidable c] {e : ε} :
    ¬(rejectIf c e : Tx ρ σ ε Unit).Traps r s := by
  unfold Traps rejectIf
  split <;> simp

@[simp] theorem not_traps_okOr {o : Option α} {e : ε} : ¬(okOr o e : Tx ρ σ ε α).Traps r s := by
  cases o <;> simp [Traps, okOr]

@[simp] theorem traps_unwrap {o : Option α} : (unwrap o : Tx ρ σ ε α).Traps r s ↔ o = none := by
  cases o <;> simp [Traps, unwrap]

end Tx

end Navin
