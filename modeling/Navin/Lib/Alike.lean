/-
# Computations that end alike

Two computations run from states that a relation ties together. They end alike when
both return the same value, both fail with the same error, or both trap, and the
relation ties the states they leave. What a computation does not look at can be put into
the relation; that it ends alike with itself is then found by instance search on its
text.

Key definitions:
- `Outcome.Alike`, `Tx.Alike`;
- `Tx.Reads`: what is read is the same on both sides.

Key theorems:
- `Tx.Alike.returns`, `Tx.Alike.returns_of`: one returns exactly when the other does.
-/
import Navin.Lib.Returns

namespace Navin

variable {ρ σ ε α β γ : Type}

/-- Ends of the same kind, with the same value or error, in states that `R` ties. -/
inductive Outcome.Alike (R : σ → σ → Prop) : Outcome ε σ α → Outcome ε σ α → Prop
  | ok {a : α} {s t : σ} : R s t → Alike R (.ok a s) (.ok a t)
  | err {e : ε} {s t : σ} : R s t → Alike R (.err e s) (.err e t)
  | trap : Alike R .trap .trap

namespace Tx

theorem pure_bind (a : α) (k : α → Tx ρ σ ε β) : (pure a >>= k : Tx ρ σ ε β) = k a := rfl

/-- A guard that lets pass. -/
theorem rejectIf_of_not {c : Prop} [Decidable c] (hc : ¬c) (e : ε) :
    (rejectIf c e : Tx ρ σ ε Unit) = pure () := by
  funext r s
  exact if_neg hc

theorem trapIf_of_not {c : Prop} [Decidable c] (hc : ¬c) :
    (trapIf c : Tx ρ σ ε Unit) = pure () := by
  funext r s
  exact if_neg hc

/-- From states that `R` ties, `m` and `n` end alike. -/
class Alike (R : σ → σ → Prop) (m n : Tx ρ σ ε α) : Prop where
  out : ∀ {r s t}, R s t → (m r s).Alike R (n r t)

/-- `g` reads the same from states that `R` ties. -/
class Reads (R : σ → σ → Prop) (g : σ → α) : Prop where
  out : ∀ {s t}, R s t → g s = g t

namespace Alike

variable {R : σ → σ → Prop} {m n : Tx ρ σ ε α} {r : ρ} {s t s' t' : σ} {a : α}

/-- What the first returns, the second returns. -/
theorem returns (h : Alike R m n) (hR : R s t) (hm : m.Returns r s a s') :
    ∃ t', n.Returns r t a t' ∧ R s' t' := by
  have hout := h.out hR (r := r)
  unfold Returns at hm ⊢
  rw [hm] at hout
  generalize n r t = o at hout
  cases hout with
  | @ok _ _ t' hR' => exact ⟨t', rfl, hR'⟩

/-- What the second returns, the first returns. -/
theorem returns_of (h : Alike R m n) (hR : R s t) (hn : n.Returns r t a t') :
    ∃ s', m.Returns r s a s' ∧ R s' t' := by
  have hout := h.out hR (r := r)
  unfold Returns at hn ⊢
  rw [hn] at hout
  generalize m r s = o at hout
  cases hout with
  | @ok _ s' _ hR' => exact ⟨s', rfl, hR'⟩

instance pure (a : α) : Alike R (pure a : Tx ρ σ ε α) (pure a) := ⟨fun h => .ok h⟩

instance rejectIf (c : Prop) [Decidable c] (e : ε) :
    Alike R (rejectIf c e : Tx ρ σ ε Unit) (rejectIf c e) := ⟨fun h => by
  unfold Tx.rejectIf
  split
  · exact .err h
  · exact .ok h⟩

instance okOr (o : Option α) (e : ε) : Alike R (okOr o e : Tx ρ σ ε α) (okOr o e) := ⟨fun h => by
  cases o with
  | none => exact .err h
  | some a => exact .ok h⟩

instance unwrap (o : Option α) : Alike R (unwrap o : Tx ρ σ ε α) (unwrap o) := ⟨fun h => by
  cases o with
  | none => exact .trap
  | some a => exact .ok h⟩

instance liftResult (x : Except ε α) : Alike R (liftResult x : Tx ρ σ ε α) (liftResult x) :=
  ⟨fun h => by
    cases x with
    | ok a => exact .ok h
    | error e => exact .err h⟩

instance ask : Alike R (ask : Tx ρ σ ε ρ) ask := ⟨fun h => .ok h⟩

instance gets (g : σ → α) [hg : Reads R g] : Alike R (gets g : Tx ρ σ ε α) (gets g) := ⟨fun h => by
  unfold Tx.gets
  rw [hg.out h]
  exact .ok h⟩

/-- Two writes that the relation survives. -/
theorem modify {g g' : σ → σ} (hg : ∀ s t, R s t → R (g s) (g' t)) :
    Alike R (modify g : Tx ρ σ ε Unit) (modify g') := ⟨fun h => .ok (hg _ _ h)⟩

instance bind (m n : Tx ρ σ ε α) (k k' : α → Tx ρ σ ε β) [hm : Alike R m n]
    [hk : ∀ a, Alike R (k a) (k' a)] : Alike R (m >>= k) (n >>= k') where
  out {r s t} h := by
    change (Tx.bind m k r s).Alike R (Tx.bind n k' r t)
    unfold Tx.bind
    have hout := hm.out h (r := r)
    generalize m r s = o at hout
    generalize n r t = o' at hout
    cases hout with
    | ok h' => exact (hk _).out h'
    | err h' => exact .err h'
    | trap => exact .trap

instance ite (c : Prop) [Decidable c] (m m' n n' : Tx ρ σ ε α) [hm : Alike R m n]
    [hn : Alike R m' n'] : Alike R (if c then m else m') (if c then n else n') := by
  split
  · exact hm
  · exact hn

instance when (c : Prop) [Decidable c] (m n : Tx ρ σ ε Unit) [Alike R m n] :
    Alike R (when c m) (when c n) := by
  unfold Tx.when
  infer_instance

instance onErr (m n : Tx ρ σ ε α) (h h' : ε → Tx ρ σ ε Unit) [hm : Alike R m n]
    [hh : ∀ e, Alike R (h e) (h' e)] : Alike R (onErr m h) (onErr n h') where
  out {r s t} hR := by
    unfold Tx.onErr
    have hout := hm.out hR (r := r)
    generalize m r s = o at hout
    generalize n r t = o' at hout
    cases hout with
    | ok h' => exact .ok h'
    | @err e s₁ t₁ h₁ =>
      dsimp only
      have hout := (hh e).out h₁ (r := r)
      generalize h e r s₁ = o at hout
      generalize h' e r t₁ = o' at hout
      cases hout with
      | ok h₂ => exact .err h₂
      | err h₂ => exact .err h₂
      | trap => exact .trap
    | trap => exact .trap

end Alike

end Tx

end Navin
