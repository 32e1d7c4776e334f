/-
# Transactions: computations that commit, fail with an error, or trap

A smart-contract entry point reads an environment, threads a state and ends in
one of three ways: it returns a value, it returns an error (its writes are
still there for a handler of the error inside the same call), or the virtual
machine traps. `Tx` is the monad of such computations; what the host does with
the state of a failed call is not decided here.

Key definitions:
- `Tx`, and the combinators contracts are written in (`rejectIf`, `okOr`,
  `unwrap`, `onErr`, `ensure`, ...);
- `Tx.wp`: the weakest precondition of a committed result, with one rule for
  each combinator;
- `Tx.Preserves f`: no committed run changes `f`. It is a class, so that the
  frame facts of a program are found by instance search on its text;
- `Tx.Writes f g`: every committed run applies `g` to `f`, a class as well.

Key theorems:
- `Tx.wp_bind` and the rules beside it: symbolic execution by `simp`;
- `Tx.Preserves.wp`: a call that preserves `f` is passed over by its frame;
- `Tx.wp_foldlM`: the invariant rule of a loop over a list.
-/
import Mathlib.Data.List.Basic
import Mathlib.Tactic.Common

namespace Navin

/-- How a computation over the state `σ` ends. -/
inductive Outcome (ε σ α : Type) where
  | ok (a : α) (s : σ)
  | err (e : ε) (s : σ)
  | trap

/-- A computation reading `ρ`, threading `σ`, failing with `ε`, returning `α`. -/
def Tx (ρ σ ε α : Type) := ρ → σ → Outcome ε σ α

namespace Tx

variable {ρ σ ε α β γ : Type}

protected def bind (m : Tx ρ σ ε α) (k : α → Tx ρ σ ε β) : Tx ρ σ ε β := fun r s =>
  match m r s with
  | .ok a s' => k a r s'
  | .err e s' => .err e s'
  | .trap => .trap

instance : Monad (Tx ρ σ ε) where
  pure a := fun _ s => .ok a s
  bind := Tx.bind

/-! ### Combinators -/

/-- `if c { return Err(e) }`. -/
def rejectIf (c : Prop) [Decidable c] (e : ε) : Tx ρ σ ε Unit := fun _ s =>
  if c then .err e s else .ok () s

/-- `if c { panic!() }`: an overflow check, a refused authorisation. -/
def trapIf (c : Prop) [Decidable c] : Tx ρ σ ε Unit := fun _ s =>
  if c then .trap else .ok () s

/-- `o.ok_or(e)?`. -/
def okOr (o : Option α) (e : ε) : Tx ρ σ ε α := fun _ s =>
  match o with
  | some a => .ok a s
  | none => .err e s

/-- `o.unwrap()`. -/
def unwrap (o : Option α) : Tx ρ σ ε α := fun _ s =>
  match o with
  | some a => .ok a s
  | none => .trap

/-- A pure function returning a `Result`, followed by `?`. -/
def liftResult (x : Except ε α) : Tx ρ σ ε α := fun _ s =>
  match x with
  | .ok a => .ok a s
  | .error e => .err e s

def ask : Tx ρ σ ε ρ := fun r s => .ok r s

def gets (g : σ → α) : Tx ρ σ ε α := fun _ s => .ok (g s) s

def modify (g : σ → σ) : Tx ρ σ ε Unit := fun _ s => .ok () (g s)

/-- A conditional statement without an `else`. -/
def when (c : Prop) [Decidable c] (m : Tx ρ σ ε Unit) : Tx ρ σ ε Unit :=
  if c then m else pure ()

/-- `if let Some(a) = o { m a }`. -/
def whenSome (o : Option α) (m : α → Tx ρ σ ε Unit) : Tx ρ σ ε Unit :=
  match o with
  | some a => m a
  | none => pure ()

/-- `match m { Ok(a) => Ok(a), Err(e) => { h e; Err(e) } }`: the handler runs on
the state the failure left, and the error goes on. -/
def onErr (m : Tx ρ σ ε α) (h : ε → Tx ρ σ ε Unit) : Tx ρ σ ε α := fun r s =>
  match m r s with
  | .ok a s' => .ok a s'
  | .err e s' =>
    match h e r s' with
    | .ok _ s'' => .err e s''
    | .err e' s'' => .err e' s''
    | .trap => .trap
  | .trap => .trap

/-- `let result = m; g; result`: `g` is applied whether `m` succeeded or failed. -/
def ensure (m : Tx ρ σ ε α) (g : σ → σ) : Tx ρ σ ε α := fun r s =>
  match m r s with
  | .ok a s' => .ok a (g s')
  | .err e s' => .err e (g s')
  | .trap => .trap

/-! ### Weakest preconditions of a committed result -/

/-- Every committed result of `m` satisfies `Q`. Errors and traps satisfy any
postcondition: the host throws their writes away. -/
def wp (m : Tx ρ σ ε α) (r : ρ) (s : σ) (Q : α → σ → Prop) : Prop :=
  ∀ a s', m r s = .ok a s' → Q a s'

variable {Q : α → σ → Prop} {r : ρ} {s : σ}

theorem wp.mono {m : Tx ρ σ ε α} {Q' : α → σ → Prop} (h : wp m r s Q)
    (hQ : ∀ a s', Q a s' → Q' a s') : wp m r s Q' :=
  fun a s' hm => hQ a s' (h a s' hm)

theorem wp.and {m : Tx ρ σ ε α} {Q' : α → σ → Prop} (h : wp m r s Q) (h' : wp m r s Q') :
    wp m r s fun a s' => Q a s' ∧ Q' a s' :=
  fun a s' hm => ⟨h a s' hm, h' a s' hm⟩

theorem wp.of_forall {m : Tx ρ σ ε α} (h : ∀ a s', Q a s') : wp m r s Q := fun a s' _ => h a s'

@[simp] theorem wp_pure (a : α) : wp (pure a : Tx ρ σ ε α) r s Q ↔ Q a s := by
  constructor
  · intro h
    exact h a s rfl
  · intro h b s' hb
    cases hb
    exact h

@[simp] theorem wp_bind (m : Tx ρ σ ε α) (k : α → Tx ρ σ ε β) (Q : β → σ → Prop) :
    wp (m >>= k) r s Q ↔ wp m r s fun a s' => wp (k a) r s' Q := by
  have hb : (m >>= k) r s = Tx.bind m k r s := rfl
  simp only [wp, hb, Tx.bind]
  constructor
  · intro h a s₁ h₁ b s₂ h₂
    refine h b s₂ ?_
    rw [h₁]
    exact h₂
  · intro h b s₂ h₂
    cases hm : m r s with
    | ok a s₁ =>
      rw [hm] at h₂
      exact h a s₁ hm b s₂ h₂
    | err e s₁ => rw [hm] at h₂; cases h₂
    | trap => rw [hm] at h₂; cases h₂

@[simp] theorem wp_rejectIf (c : Prop) [Decidable c] (e : ε) {Q : Unit → σ → Prop} :
    wp (rejectIf c e : Tx ρ σ ε Unit) r s Q ↔ (¬c → Q () s) := by
  unfold wp rejectIf
  by_cases hc : c
  · simp [hc]
  · simp only [hc, if_false, Outcome.ok.injEq, true_and, not_false_eq_true, forall_const]
    exact ⟨fun h => h () s rfl, fun h a s' hs => hs ▸ h⟩

@[simp] theorem wp_trapIf (c : Prop) [Decidable c] {Q : Unit → σ → Prop} :
    wp (trapIf c : Tx ρ σ ε Unit) r s Q ↔ (¬c → Q () s) := by
  unfold wp trapIf
  by_cases hc : c
  · simp [hc]
  · simp only [hc, if_false, Outcome.ok.injEq, true_and, not_false_eq_true, forall_const]
    exact ⟨fun h => h () s rfl, fun h a s' hs => hs ▸ h⟩

@[simp] theorem wp_okOr (o : Option α) (e : ε) :
    wp (okOr o e : Tx ρ σ ε α) r s Q ↔ ∀ a, o = some a → Q a s := by
  unfold wp okOr
  cases o <;> simp

@[simp] theorem wp_unwrap (o : Option α) :
    wp (unwrap o : Tx ρ σ ε α) r s Q ↔ ∀ a, o = some a → Q a s := by
  unfold wp unwrap
  cases o <;> simp

@[simp] theorem wp_liftResult (x : Except ε α) :
    wp (liftResult x : Tx ρ σ ε α) r s Q ↔ ∀ a, x = .ok a → Q a s := by
  unfold wp liftResult
  cases x <;> simp

@[simp] theorem wp_ask {Q : ρ → σ → Prop} : wp (ask : Tx ρ σ ε ρ) r s Q ↔ Q r s := by
  unfold wp ask
  simp

@[simp] theorem wp_gets (g : σ → α) : wp (gets g : Tx ρ σ ε α) r s Q ↔ Q (g s) s := by
  unfold wp gets
  simp

@[simp] theorem wp_modify (g : σ → σ) {Q : Unit → σ → Prop} :
    wp (modify g : Tx ρ σ ε Unit) r s Q ↔ Q () (g s) := by
  unfold wp modify
  simp only [Outcome.ok.injEq, true_and]
  exact ⟨fun h => h () _ rfl, fun h a s' hs => hs ▸ h⟩

theorem wp_when (c : Prop) [Decidable c] (m : Tx ρ σ ε Unit) {Q : Unit → σ → Prop} :
    wp (when c m) r s Q ↔ (c → wp m r s Q) ∧ (¬c → Q () s) := by
  unfold when
  by_cases hc : c <;> simp [hc]

theorem wp_ite (c : Prop) [Decidable c] (m n : Tx ρ σ ε α) :
    wp (if c then m else n) r s Q ↔ (c → wp m r s Q) ∧ (¬c → wp n r s Q) := by
  by_cases hc : c <;> simp [hc]

@[simp] theorem wp_onErr (m : Tx ρ σ ε α) (h : ε → Tx ρ σ ε Unit) :
    wp (onErr m h) r s Q ↔ wp m r s Q := by
  unfold wp onErr
  cases m r s with
  | ok a s' => simp
  | err e s' =>
    dsimp only
    cases h e r s' <;> simp
  | trap => simp

@[simp] theorem wp_ensure (m : Tx ρ σ ε α) (g : σ → σ) :
    wp (ensure m g) r s Q ↔ wp m r s fun a s' => Q a (g s') := by
  unfold wp ensure
  cases m r s <;> simp

/-- The invariant rule of a loop with an accumulator: `I` holds before each
element and the remaining list is known. -/
theorem wp_foldlM {β : Type} (k : β → α → Tx ρ σ ε β) (I : List α → β → σ → Prop) :
    ∀ (l : List α) (b : β) (s : σ), I l b s →
      (∀ a l b s, I (a :: l) b s → wp (k b a) r s fun b' s' => I l b' s') →
      wp (l.foldlM k b) r s fun b' s' => I [] b' s'
  | [], b, s, h, _ => by simpa using h
  | a :: l, b, s, h, step => by
    rw [List.foldlM_cons, wp_bind]
    refine (step a l b s h).mono fun b' s' h' => ?_
    exact wp_foldlM k I l b' s' h' step

/-! ### What a computation leaves alone -/

/-- No committed run of `m` changes `f`. -/
class Preserves (f : σ → γ) (m : Tx ρ σ ε α) : Prop where
  out : ∀ r s, wp m r s fun _ s' => f s' = f s

/-- A computation that preserves `f` is passed over by its frame. -/
theorem Preserves.wp {m : Tx ρ σ ε α} (f : σ → γ) [hm : Preserves f m]
    (h : ∀ a s', f s' = f s → Q a s') : wp m r s Q :=
  (hm.out r s).mono h

namespace Preserves

variable {f : σ → γ}

instance pure (a : α) : Preserves f (pure a : Tx ρ σ ε α) := ⟨fun _ _ => by simp⟩

instance rejectIf (c : Prop) [Decidable c] (e : ε) :
    Preserves f (rejectIf c e : Tx ρ σ ε Unit) := ⟨fun _ _ => by simp⟩

instance trapIf (c : Prop) [Decidable c] : Preserves f (trapIf c : Tx ρ σ ε Unit) :=
  ⟨fun _ _ => by simp⟩

instance okOr (o : Option α) (e : ε) : Preserves f (okOr o e : Tx ρ σ ε α) :=
  ⟨fun _ _ => by simp⟩

instance unwrap (o : Option α) : Preserves f (unwrap o : Tx ρ σ ε α) := ⟨fun _ _ => by simp⟩

instance liftResult (x : Except ε α) : Preserves f (liftResult x : Tx ρ σ ε α) :=
  ⟨fun _ _ => by simp⟩

instance ask : Preserves f (ask : Tx ρ σ ε ρ) := ⟨fun _ _ => by simp⟩

instance gets (g : σ → α) : Preserves f (gets g : Tx ρ σ ε α) := ⟨fun _ _ => by simp⟩

/-- The only rule with a proof obligation: a write preserves `f`. -/
theorem modify {g : σ → σ} (h : ∀ s, f (g s) = f s) :
    Preserves f (modify g : Tx ρ σ ε Unit) := ⟨fun _ s => by simp [h s]⟩

instance bind (m : Tx ρ σ ε α) (k : α → Tx ρ σ ε β) [hm : Preserves f m]
    [hk : ∀ a, Preserves f (k a)] : Preserves f (m >>= k) where
  out r s := by
    rw [wp_bind]
    refine (hm.out r s).mono fun a s₁ h₁ => ?_
    refine ((hk a).out r s₁).mono fun b s₂ h₂ => ?_
    rw [h₂, h₁]

-- A statement whose result is not used is by far the most common step; with a
-- rule of its own the search does not carry the unused binder along.
instance (priority := high) seq (m : Tx ρ σ ε α) (n : Tx ρ σ ε β) [Preserves f m]
    [Preserves f n] : Preserves f (m >>= fun _ => n) := bind m fun _ => n

instance ite (c : Prop) [Decidable c] (m n : Tx ρ σ ε α) [hm : Preserves f m]
    [hn : Preserves f n] : Preserves f (if c then m else n) := by
  split
  · exact hm
  · exact hn

instance when (c : Prop) [Decidable c] (m : Tx ρ σ ε Unit) [Preserves f m] :
    Preserves f (when c m) := by
  unfold Tx.when
  infer_instance

instance whenSome (o : Option α) (m : α → Tx ρ σ ε Unit) [hm : ∀ a, Preserves f (m a)] :
    Preserves f (whenSome o m) := by
  cases o with
  | none => exact pure ()
  | some a => exact hm a

instance onErr (m : Tx ρ σ ε α) (h : ε → Tx ρ σ ε Unit) [hm : Preserves f m] :
    Preserves f (onErr m h) := ⟨fun r s => by simpa using hm.out r s⟩

theorem ensure {m : Tx ρ σ ε α} {g : σ → σ} (hg : ∀ s, f (g s) = f s) [hm : Preserves f m] :
    Preserves f (ensure m g) where
  out r s := by
    rw [wp_ensure]
    refine (hm.out r s).mono fun a s' h => ?_
    rw [hg, h]

theorem foldlM_aux {β : Type} (k : β → α → Tx ρ σ ε β) (hk : ∀ b a, Preserves f (k b a)) :
    ∀ (l : List α) (b : β), Preserves f (l.foldlM k b)
  | [], b => by
    rw [List.foldlM_nil]
    infer_instance
  | a :: l, b => by
    have := foldlM_aux k hk l
    rw [List.foldlM_cons]
    infer_instance

instance foldlM {β : Type} (k : β → α → Tx ρ σ ε β) [hk : ∀ b a, Preserves f (k b a)]
    (l : List α) (b : β) : Preserves f (l.foldlM k b) := foldlM_aux k hk l b

end Preserves

/-! ### What a computation does to a part of the state -/

/-- Every committed run of `m` applies `g` to `f`. -/
class Writes (f : σ → γ) (g : γ → γ) (m : Tx ρ σ ε α) : Prop where
  out : ∀ r s, wp m r s fun _ s' => f s' = g (f s)

/-- A computation that writes `f` is passed over by what it writes. -/
theorem Writes.wp {m : Tx ρ σ ε α} (f : σ → γ) {g : γ → γ} [hm : Writes f g m]
    (h : ∀ a s', f s' = g (f s) → Q a s') : wp m r s Q :=
  (hm.out r s).mono h

namespace Writes

variable {f : σ → γ} {g : γ → γ}

theorem modify {h : σ → σ} (hg : ∀ s, f (h s) = g (f s)) :
    Writes f g (modify h : Tx ρ σ ε Unit) := ⟨fun _ s => by simp [hg s]⟩

/-- The write is in the first part. -/
instance bindLeft (m : Tx ρ σ ε α) (k : α → Tx ρ σ ε β) [hm : Writes f g m]
    [hk : ∀ a, Preserves f (k a)] : Writes f g (m >>= k) where
  out r s := by
    rw [wp_bind]
    refine (hm.out r s).mono fun a s₁ h₁ => ?_
    refine ((hk a).out r s₁).mono fun b s₂ h₂ => ?_
    rw [h₂, h₁]

/-- The write is in what follows. -/
instance bindRight (m : Tx ρ σ ε α) (k : α → Tx ρ σ ε β) [hm : Preserves f m]
    [hk : ∀ a, Writes f g (k a)] : Writes f g (m >>= k) where
  out r s := by
    rw [wp_bind]
    refine (hm.out r s).mono fun a s₁ h₁ => ?_
    refine ((hk a).out r s₁).mono fun b s₂ h₂ => ?_
    rw [h₂, h₁]

-- As with `Preserves.seq`: without these two the cost of the search doubles with every
-- statement before the write.
instance (priority := high) seqLeft (m : Tx ρ σ ε α) (n : Tx ρ σ ε β) [Writes f g m] [Preserves f n] :
    Writes f g (m >>= fun _ => n) := bindLeft m fun _ => n

instance (priority := high) seqRight (m : Tx ρ σ ε α) (n : Tx ρ σ ε β) [Preserves f m] [Writes f g n] :
    Writes f g (m >>= fun _ => n) := bindRight m fun _ => n

instance when (c : Prop) [Decidable c] (m : Tx ρ σ ε Unit) [hm : Writes f g m] :
    Writes f (if c then g else id) (when c m) where
  out r s := by
    rw [wp_when]
    constructor
    · intro hc
      rw [if_pos hc]
      exact hm.out r s
    · intro hc
      rw [if_neg hc]
      rfl

end Writes

end Tx

end Navin
