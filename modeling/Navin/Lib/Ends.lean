/-
# How a computation ends

A frame for every way a computation can end but a trap: what it leaves alone when
it returns and when it fails, and which errors it does not fail with. The error
matters where a caller goes on after a failure, or where the failure itself is
what a result is about.

Key definitions:
- `Tx.Spares f bad m`: however `m` ends, `f` is as it was and the error is not one
  of the `bad` ones. It is a class, found by instance search like `Tx.Preserves`.
-/
import Navin.Lib.Tx

namespace Navin

namespace Tx

variable {ρ σ ε α β γ : Type}

theorem bind_assoc (m : Tx ρ σ ε α) (k : α → Tx ρ σ ε β) (n : β → Tx ρ σ ε γ) :
    m >>= k >>= n = m >>= fun a => k a >>= n := by
  funext r s
  change Tx.bind (Tx.bind m k) n r s = Tx.bind m (fun a => Tx.bind (k a) n) r s
  unfold Tx.bind
  cases m r s <;> rfl

/-- A condition that computes to `false`, found by instance search. -/
class IsFalse (b : Bool) : Prop where
  out : b = false

instance IsFalse.false : IsFalse false := ⟨rfl⟩

/-- However `m` ends, `f` is as it was, and no error is `bad`. -/
class Spares (f : σ → γ) (bad : ε → Bool) (m : Tx ρ σ ε α) : Prop where
  ok : ∀ {r s a s'}, m r s = .ok a s' → f s' = f s
  err : ∀ {r s e s'}, m r s = .err e s' → f s' = f s ∧ bad e = false

namespace Spares

variable {f : σ → γ} {bad : ε → Bool}

instance pure (a : α) : Spares f bad (pure a : Tx ρ σ ε α) where
  ok h := by cases h; rfl
  err h := by cases h

instance rejectIf (c : Prop) [Decidable c] (e : ε) [he : IsFalse (bad e)] :
    Spares f bad (rejectIf c e : Tx ρ σ ε Unit) where
  ok h := by
    unfold Tx.rejectIf at h
    split at h
    · cases h
    · cases h
      rfl
  err h := by
    unfold Tx.rejectIf at h
    split at h
    · cases h
      exact ⟨rfl, he.out⟩
    · cases h

instance trapIf (c : Prop) [Decidable c] : Spares f bad (trapIf c : Tx ρ σ ε Unit) where
  ok h := by
    unfold Tx.trapIf at h
    split at h
    · cases h
    · cases h
      rfl
  err h := by
    unfold Tx.trapIf at h
    split at h <;> cases h

instance okOr (o : Option α) (e : ε) [he : IsFalse (bad e)] :
    Spares f bad (okOr o e : Tx ρ σ ε α) where
  ok h := by
    cases o with
    | none => cases h
    | some a => cases h; rfl
  err h := by
    cases o with
    | none => cases h; exact ⟨rfl, he.out⟩
    | some a => cases h

instance unwrap (o : Option α) : Spares f bad (unwrap o : Tx ρ σ ε α) where
  ok h := by
    cases o with
    | none => cases h
    | some a => cases h; rfl
  err h := by cases o <;> cases h

instance ask : Spares f bad (ask : Tx ρ σ ε ρ) where
  ok h := by cases h; rfl
  err h := by cases h

instance gets (g : σ → α) : Spares f bad (gets g : Tx ρ σ ε α) where
  ok h := by cases h; rfl
  err h := by cases h

/-- A write leaves `f` alone. -/
theorem modify {g : σ → σ} (h : ∀ s, f (g s) = f s) : Spares f bad (modify g : Tx ρ σ ε Unit) where
  ok hx := by cases hx; exact h _
  err hx := by cases hx

/-- A pure function whose errors are not bad. -/
theorem liftResult {x : Except ε α} (h : ∀ e, x = .error e → bad e = false) :
    Spares f bad (liftResult x : Tx ρ σ ε α) where
  ok hx := by
    cases x with
    | ok a => cases hx; rfl
    | error e => cases hx
  err hx := by
    cases x with
    | ok a => cases hx
    | error e => cases hx; exact ⟨rfl, h _ rfl⟩

instance bind (m : Tx ρ σ ε α) (k : α → Tx ρ σ ε β) [hm : Spares f bad m]
    [hk : ∀ a, Spares f bad (k a)] : Spares f bad (m >>= k) where
  ok {r s b s'} h := by
    change Tx.bind m k r s = _ at h
    unfold Tx.bind at h
    cases hx : m r s with
    | ok a s₁ =>
      rw [hx] at h
      exact ((hk a).ok h).trans (hm.ok hx)
    | err e s₁ => rw [hx] at h; cases h
    | trap => rw [hx] at h; cases h
  err {r s e s'} h := by
    change Tx.bind m k r s = _ at h
    unfold Tx.bind at h
    cases hx : m r s with
    | ok a s₁ =>
      rw [hx] at h
      exact ⟨((hk a).err h).1.trans (hm.ok hx), ((hk a).err h).2⟩
    | err e₁ s₁ =>
      rw [hx] at h
      cases h
      exact hm.err hx
    | trap => rw [hx] at h; cases h

/-- What follows an `unwrap` is run on the value that was there. -/
theorem unwrap_bind {o : Option α} {k : α → Tx ρ σ ε β} (h : ∀ a, o = some a → Spares f bad (k a)) :
    Spares f bad (Tx.unwrap o >>= k) := by
  cases o with
  | none => exact ⟨fun hx => (by cases hx), fun hx => (by cases hx)⟩
  | some a => exact h a rfl

instance (priority := high) seq (m : Tx ρ σ ε α) (n : Tx ρ σ ε β) [Spares f bad m]
    [Spares f bad n] : Spares f bad (m >>= fun _ => n) := bind m fun _ => n

instance ite (c : Prop) [Decidable c] (m n : Tx ρ σ ε α) [hm : Spares f bad m]
    [hn : Spares f bad n] : Spares f bad (if c then m else n) := by
  split
  · exact hm
  · exact hn

instance when (c : Prop) [Decidable c] (m : Tx ρ σ ε Unit) [Spares f bad m] :
    Spares f bad (when c m) := by
  unfold Tx.when
  infer_instance

instance onErr (m : Tx ρ σ ε α) (h : ε → Tx ρ σ ε Unit) [hm : Spares f bad m]
    [hh : ∀ e, Spares f bad (h e)] : Spares f bad (onErr m h) where
  ok {r s a s'} hx := by
    unfold Tx.onErr at hx
    cases hy : m r s with
    | ok a₁ s₁ =>
      rw [hy] at hx
      cases hx
      exact hm.ok hy
    | err e₁ s₁ =>
      rw [hy] at hx
      dsimp only at hx
      cases hz : h e₁ r s₁ <;> rw [hz] at hx <;> cases hx
    | trap => rw [hy] at hx; cases hx
  err {r s e s'} hx := by
    unfold Tx.onErr at hx
    cases hy : m r s with
    | ok a₁ s₁ => rw [hy] at hx; cases hx
    | err e₁ s₁ =>
      have h₁ := hm.err hy
      rw [hy] at hx
      dsimp only at hx
      cases hz : h e₁ r s₁ with
      | ok u s₂ =>
        rw [hz] at hx
        cases hx
        exact ⟨((hh _).ok hz).trans h₁.1, h₁.2⟩
      | err e₂ s₂ =>
        rw [hz] at hx
        cases hx
        exact ⟨((hh _).err hz).1.trans h₁.1, ((hh _).err hz).2⟩
      | trap => rw [hz] at hx; cases hx
    | trap => rw [hy] at hx; cases hx

theorem foldlM_aux {β : Type} (k : β → α → Tx ρ σ ε β) (hk : ∀ b a, Spares f bad (k b a)) :
    ∀ (l : List α) (b : β), Spares f bad (l.foldlM k b)
  | [], b => by
    rw [List.foldlM_nil]
    infer_instance
  | a :: l, b => by
    have := foldlM_aux k hk l
    rw [List.foldlM_cons]
    infer_instance

instance foldlM {β : Type} (k : β → α → Tx ρ σ ε β) [hk : ∀ b a, Spares f bad (k b a)]
    (l : List α) (b : β) : Spares f bad (l.foldlM k b) := foldlM_aux k hk l b

end Spares

end Tx

end Navin
