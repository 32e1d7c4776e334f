/-
# Laws

A law says how a computation may move the state: where it may lead when the
computation returns, and with which errors it may fail from where. Frames are laws, and
so are counters that only grow and states that are never left. The combinators obey
every law, so that a law is checked at the writes and the refusals alone.

Key definitions:
- `Law`: a preorder on states, and the failures it allows;
- `Tx.Obeys L m`: a class, found by instance search;
- `Law.Refuses L e`, `Law.Lenient L`: the error `e` may be raised anywhere; any error may.
-/
import Navin.Lib.Ends

namespace Navin

/-- Where a computation may lead from `s`, and how it may fail. -/
structure Law (σ ε : Type) where
  keeps : σ → σ → Prop
  fails : σ → ε → σ → Prop
  refl : ∀ s, keeps s s
  trans : ∀ {s t u}, keeps s t → keeps t u → keeps s u
  after : ∀ {s t e u}, keeps s t → fails t e u → fails s e u

/-- The error may be raised in any state. -/
class Law.Refuses {σ ε : Type} (L : Law σ ε) (e : ε) : Prop where
  out : ∀ s, L.fails s e s

/-- Every failure is allowed. -/
class Law.Lenient {σ ε : Type} (L : Law σ ε) : Prop where
  out : ∀ s e s', L.fails s e s'

instance {σ ε : Type} (L : Law σ ε) [h : L.Lenient] (e : ε) : L.Refuses e := ⟨fun s => h.out s e s⟩

/-- A frame as a law: `f` stays as it was, and no error is `bad`. -/
def Law.frame {σ ε γ : Type} (f : σ → γ) (bad : ε → Bool) : Law σ ε where
  keeps s s' := f s' = f s
  fails s e s' := f s' = f s ∧ bad e = false
  refl _ := rfl
  trans h h' := h'.trans h
  after h h' := ⟨h'.1.trans h, h'.2⟩

namespace Tx

variable {ρ σ ε α β γ : Type}

/-- However `m` ends but in a trap, it keeps to the law. -/
class Obeys (L : Law σ ε) (m : Tx ρ σ ε α) : Prop where
  ok : ∀ {r s a s'}, m r s = .ok a s' → L.keeps s s'
  err : ∀ {r s e s'}, m r s = .err e s' → L.fails s e s'

theorem Obeys.spares {f : σ → γ} {bad : ε → Bool} {m : Tx ρ σ ε α} (h : Obeys (Law.frame f bad) m) :
    Spares f bad m := ⟨h.ok, h.err⟩

theorem Spares.obeys {f : σ → γ} {bad : ε → Bool} {m : Tx ρ σ ε α} (h : Spares f bad m) :
    Obeys (Law.frame f bad) m := ⟨h.ok, h.err⟩

namespace Obeys

variable {L : Law σ ε}

instance pure (a : α) : Obeys L (pure a : Tx ρ σ ε α) where
  ok h := by cases h; exact L.refl _
  err h := by cases h

instance rejectIf (c : Prop) [Decidable c] (e : ε) [he : L.Refuses e] :
    Obeys L (rejectIf c e : Tx ρ σ ε Unit) where
  ok h := by
    unfold Tx.rejectIf at h
    split at h
    · cases h
    · cases h
      exact L.refl _
  err h := by
    unfold Tx.rejectIf at h
    split at h
    · cases h
      exact he.out _
    · cases h

instance trapIf (c : Prop) [Decidable c] : Obeys L (trapIf c : Tx ρ σ ε Unit) where
  ok h := by
    unfold Tx.trapIf at h
    split at h
    · cases h
    · cases h
      exact L.refl _
  err h := by
    unfold Tx.trapIf at h
    split at h <;> cases h

instance okOr (o : Option α) (e : ε) [he : L.Refuses e] : Obeys L (okOr o e : Tx ρ σ ε α) where
  ok h := by
    cases o with
    | none => cases h
    | some a => cases h; exact L.refl _
  err h := by
    cases o with
    | none => cases h; exact he.out _
    | some a => cases h

instance unwrap (o : Option α) : Obeys L (unwrap o : Tx ρ σ ε α) where
  ok h := by
    cases o with
    | none => cases h
    | some a => cases h; exact L.refl _
  err h := by cases o <;> cases h

instance ask : Obeys L (ask : Tx ρ σ ε ρ) where
  ok h := by cases h; exact L.refl _
  err h := by cases h

instance gets (g : σ → α) : Obeys L (gets g : Tx ρ σ ε α) where
  ok h := by cases h; exact L.refl _
  err h := by cases h

/-- A write within the law. -/
theorem modify {g : σ → σ} (h : ∀ s, L.keeps s (g s)) : Obeys L (modify g : Tx ρ σ ε Unit) where
  ok hx := by cases hx; exact h _
  err hx := by cases hx

/-- A pure function whose errors may be raised anywhere. -/
theorem liftResult {x : Except ε α} (h : ∀ e, x = .error e → ∀ s, L.fails s e s) :
    Obeys L (liftResult x : Tx ρ σ ε α) where
  ok hx := by
    cases x with
    | ok a => cases hx; exact L.refl _
    | error e => cases hx
  err hx := by
    cases x with
    | ok a => cases hx
    | error e => cases hx; exact h _ rfl _

instance bind (m : Tx ρ σ ε α) (k : α → Tx ρ σ ε β) [hm : Obeys L m] [hk : ∀ a, Obeys L (k a)] :
    Obeys L (m >>= k) where
  ok {r s b s'} h := by
    change Tx.bind m k r s = _ at h
    unfold Tx.bind at h
    cases hx : m r s with
    | ok a s₁ =>
      rw [hx] at h
      exact L.trans (hm.ok hx) ((hk a).ok h)
    | err e s₁ => rw [hx] at h; cases h
    | trap => rw [hx] at h; cases h
  err {r s e s'} h := by
    change Tx.bind m k r s = _ at h
    unfold Tx.bind at h
    cases hx : m r s with
    | ok a s₁ =>
      rw [hx] at h
      exact L.after (hm.ok hx) ((hk a).err h)
    | err e₁ s₁ =>
      rw [hx] at h
      cases h
      exact hm.err hx
    | trap => rw [hx] at h; cases h

instance (priority := high) seq (m : Tx ρ σ ε α) (n : Tx ρ σ ε β) [Obeys L m] [Obeys L n] :
    Obeys L (m >>= fun _ => n) := bind m fun _ => n

instance ite (c : Prop) [Decidable c] (m n : Tx ρ σ ε α) [hm : Obeys L m] [hn : Obeys L n] :
    Obeys L (if c then m else n) := by
  split
  · exact hm
  · exact hn

instance when (c : Prop) [Decidable c] (m : Tx ρ σ ε Unit) [Obeys L m] : Obeys L (when c m) := by
  unfold Tx.when
  infer_instance

instance whenSome (o : Option α) (m : α → Tx ρ σ ε Unit) [hm : ∀ a, Obeys L (m a)] :
    Obeys L (whenSome o m) := by
  cases o with
  | none => exact pure ()
  | some a => exact hm a

theorem foldlM_aux (k : β → α → Tx ρ σ ε β) (hk : ∀ b a, Obeys L (k b a)) :
    ∀ (l : List α) (b : β), Obeys L (l.foldlM k b)
  | [], b => by
    rw [List.foldlM_nil]
    infer_instance
  | a :: l, b => by
    have := foldlM_aux k hk l
    rw [List.foldlM_cons]
    infer_instance

instance foldlM (k : β → α → Tx ρ σ ε β) [hk : ∀ b a, Obeys L (k b a)] (l : List α) (b : β) :
    Obeys L (l.foldlM k b) := foldlM_aux k hk l b

/-- A handler runs on the state a failure left, and its own errors take the place of the
failure. -/
theorem onErr {m : Tx ρ σ ε α} {h : ε → Tx ρ σ ε Unit} (hm : Obeys L m)
    (hok : ∀ {r s e s' u s''}, L.fails s e s' → h e r s' = .ok u s'' → L.fails s e s'')
    (herr : ∀ {r s e s' e' s''}, L.fails s e s' → h e r s' = .err e' s'' → L.fails s e' s'') :
    Obeys L (onErr m h) where
  ok {r s a s'} hx := by
    unfold Tx.onErr at hx
    cases hy : m r s with
    | ok a₁ s₁ =>
      rw [hy] at hx
      cases hx
      exact hm.ok hy
    | err e₁ s₁ =>
      rw [hy] at hx
      dsimp only at hx
      cases hz : h e₁ r s₁ <;> rw [hz] at hx <;> cases hx
    | trap => rw [hy] at hx; cases hx
  err {r s e s'} hx := by
    unfold Tx.onErr at hx
    cases hy : m r s with
    | ok a₁ s₁ => rw [hy] at hx; cases hx
    | err e₁ s₁ =>
      rw [hy] at hx
      dsimp only at hx
      cases hz : h e₁ r s₁ with
      | ok u s₂ =>
        rw [hz] at hx
        cases hx
        exact hok (hm.err hy) hz
      | err e₂ s₂ =>
        rw [hz] at hx
        cases hx
        exact herr (hm.err hy) hz
      | trap => rw [hz] at hx; cases hx
    | trap => rw [hy] at hx; cases hx

/-- What is done to the state however the computation ends. -/
theorem ensure {m : Tx ρ σ ε α} {g : σ → σ} (hm : Obeys L m) (hok : ∀ {s s'}, L.keeps s s' → L.keeps s (g s'))
    (herr : ∀ {s e s'}, L.fails s e s' → L.fails s e (g s')) : Obeys L (ensure m g) where
  ok {r s a s'} hx := by
    unfold Tx.ensure at hx
    cases hy : m r s with
    | ok a₁ s₁ =>
      rw [hy] at hx
      cases hx
      exact hok (hm.ok hy)
    | err e₁ s₁ => rw [hy] at hx; cases hx
    | trap => rw [hy] at hx; cases hx
  err {r s e s'} hx := by
    unfold Tx.ensure at hx
    cases hy : m r s with
    | ok a₁ s₁ => rw [hy] at hx; cases hx
    | err e₁ s₁ =>
      rw [hy] at hx
      cases hx
      exact herr (hm.err hy)
    | trap => rw [hy] at hx; cases hx

section

variable [hL : L.Lenient]

theorem of_ok {m : Tx ρ σ ε α} (h : ∀ {r s a s'}, m r s = .ok a s' → L.keeps s s') : Obeys L m :=
  ⟨h, fun _ => hL.out _ _ _⟩

instance liftResult_of_lenient (x : Except ε α) : Obeys L (Tx.liftResult x : Tx ρ σ ε α) :=
  .liftResult fun e _ s => hL.out s e s

instance onErr_of_lenient (m : Tx ρ σ ε α) (h : ε → Tx ρ σ ε Unit) [hm : Obeys L m] :
    Obeys L (Tx.onErr m h) := .onErr hm (fun _ _ => hL.out _ _ _) fun _ _ => hL.out _ _ _

end

end Obeys

end Tx

end Navin
