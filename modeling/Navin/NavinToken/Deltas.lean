/-
# Raising and lowering an allowance

An increase and a decrease start from the allowance as it reads at the current ledger and
keep the last ledger of the entry. A decrease goes through only while the entry is alive,
and takes effect. An increase goes through on an entry that has expired and where there is
none, which counts as one that expired at ledger zero; what it stores is then read as zero.

Key theorems:
- `getAllowance_of_entry`: what is read of an entry that was put;
- `deltas_effective_iff`.
-/
import Navin.NavinToken.Allowances

namespace Navin

namespace NavinToken

open Tx

variable {s s' : State} {env : Env} {o p : Address} {x : I128} {sequence e : ℕ}

theorem returns_allowance : (allowance o p).Returns env s x s' ↔
    s.isInitialized = true ∧ x = s.getAllowance env.sequence o p ∧ s' = s := by
  unfold allowance requireInitialized getAllowance
  simp only [bind_assoc, returns_gets_bind, returns_rejectIf_bind, returns_ask_bind, returns_gets,
    Bool.not_eq_false]

/-- An entry is read until its last ledger. -/
theorem getAllowance_of_entry (h : s'.allowance = update₂ s.allowance o p (some ⟨x, e⟩)) :
    s'.getAllowance sequence o p = if sequence ≤ e then x else 0 := by
  unfold State.getAllowance
  rw [h, update₂_self]

/-- What has expired is read as zero, and so is what was never put. -/
theorem getAllowance_of_expired (h : s.getExpirationLedger o p < sequence) :
    s.getAllowance sequence o p = 0 := by
  unfold State.getExpirationLedger at h
  unfold State.getAllowance
  cases hv : s.allowance o p with
  | none => rfl
  | some v =>
    rw [hv] at h
    have hlt : v.expirationLedger < sequence := h
    exact if_neg (by omega)

/-- What is read as more than zero has not expired. -/
theorem sequence_le_of_pos (h : 0 < (s.getAllowance sequence o p : ℤ)) :
    sequence ≤ s.getExpirationLedger o p := by
  by_contra hlt
  rw [getAllowance_of_expired (by omega)] at h
  exact absurd h (by simp)

theorem initialized_increaseAllowance (h : (increaseAllowance o p x).Returns env s () s') :
    s.isInitialized = true ∧ s'.isInitialized = true := by
  simp only [increaseAllowance, guarded, requireInitialized, requireAuth, getAllowance,
    getExpirationLedger, setAllowance, publish, bind_assoc, returns_rejectIf_bind,
    returns_gets_bind, returns_ask_bind, returns_trapIf_bind, returns_okOr_bind,
    returns_modify_bind, returns_modify, Bool.not_eq_false] at h
  obtain ⟨hi, -, -, -, _, -, rfl⟩ := h
  exact ⟨hi, hi⟩

theorem initialized_decreaseAllowance (h : (decreaseAllowance o p x).Returns env s () s') :
    s.isInitialized = true ∧ s'.isInitialized = true := by
  simp only [decreaseAllowance, guarded, requireInitialized, requireAuth, getAllowance,
    getExpirationLedger, setAllowance, publish, bind_assoc, returns_rejectIf_bind,
    returns_gets_bind, returns_ask_bind, returns_trapIf_bind, returns_okOr_bind,
    returns_modify_bind, returns_modify, Bool.not_eq_false] at h
  obtain ⟨hi, -, -, -, -, _, -, rfl⟩ := h
  exact ⟨hi, hi⟩

/-- A decrease that goes through lowers the allowance that is read by the delta. An increase
that goes through raises it by the delta if and only if the ledger has not passed the last
ledger of the entry, which is zero where there is no entry. -/
theorem deltas_effective_iff (s : State) (env : Env) (owner spender : Address) (delta : I128) :
    (∀ s', (increaseAllowance owner spender delta).Returns env s () s' →
      ∃ before after, (allowance owner spender).Returns env s before s ∧
        (allowance owner spender).Returns env s' after s' ∧
        ((after : ℤ) = before + delta ↔ env.sequence ≤ s.getExpirationLedger owner spender)) ∧
    ∀ s', (decreaseAllowance owner spender delta).Returns env s () s' →
      ∃ before after, (allowance owner spender).Returns env s before s ∧
        (allowance owner spender).Returns env s' after s' ∧ (after : ℤ) = before - delta := by
  constructor
  · intro s' h
    obtain ⟨hi, hi'⟩ := initialized_increaseAllowance h
    obtain ⟨hpos, sum, hsum, hs'⟩ := adds_increaseAllowance h
    refine ⟨_, _, returns_allowance.mpr ⟨hi, rfl, rfl⟩, returns_allowance.mpr ⟨hi', rfl, rfl⟩, ?_⟩
    rw [getAllowance_of_entry hs']
    by_cases he : env.sequence ≤ s.getExpirationLedger owner spender
    · rw [if_pos he]
      exact ⟨fun _ => he, fun _ => hsum⟩
    · -- nothing was read before, and nothing is read after
      have hdelta : 0 < (delta : ℤ) := hpos
      rw [if_neg he, getAllowance_of_expired (by omega)]
      refine ⟨fun heq => ?_, fun h => absurd h he⟩
      rw [I128.val_zero] at heq
      omega
  · intro s' h
    obtain ⟨hi, hi'⟩ := initialized_decreaseAllowance h
    obtain ⟨hpos, hle, rest, hrest, hs'⟩ := cuts_decreaseAllowance h
    have hdelta : 0 < (delta : ℤ) := hpos
    have hcovered : (delta : ℤ) ≤ s.getAllowance env.sequence owner spender := hle
    have he := sequence_le_of_pos (hdelta.trans_le hcovered)
    refine ⟨_, _, returns_allowance.mpr ⟨hi, rfl, rfl⟩, returns_allowance.mpr ⟨hi', rfl, rfl⟩, ?_⟩
    rw [getAllowance_of_entry hs', if_pos he]
    exact hrest

open Deployment in
/-- An approval of 200 up to the ledger 9, raised by 50 at 4, or lowered by 20 at 9. -/
theorem deltas_effective_iff_approved : ∃ s s₁ s₂ : State, ∃ x x' y y' : I128, Reachable s ∧
    (increaseAllowance company carrier ⟨50, by decide, by decide⟩).Returns (signedBy company 4) s ()
      s₁ ∧ (allowance company carrier).Returns (signedBy company 4) s x s ∧
    (allowance company carrier).Returns (signedBy company 4) s₁ x' s₁ ∧ (x' : ℤ) = x + 50 ∧
    (decreaseAllowance company carrier ⟨20, by decide, by decide⟩).Returns (signedBy company 9) s ()
      s₂ ∧ (allowance company carrier).Returns (signedBy company 9) s y s ∧
    (allowance company carrier).Returns (signedBy company 9) s₂ y' s₂ ∧ (y' : ℤ) = y - 20 := by
  have hplay : (playFrom admin ⟨1000, by decide, by decide⟩ (signedBy admin 1)
      [(.approve company carrier ⟨200, by decide, by decide⟩ 9, signedBy company 3)]).any (fun s =>
        decide (4 ≤ s.getExpirationLedger company carrier) &&
        ((increaseAllowance company carrier ⟨50, by decide, by decide⟩).result? (signedBy company 4)
          s).isSome &&
        ((decreaseAllowance company carrier ⟨20, by decide, by decide⟩).result? (signedBy company 9)
          s).isSome) = true := by decide +kernel
  obtain ⟨s, hs, h⟩ := (Option.any_eq_true _ _).mp hplay
  simp only [Bool.and_eq_true, decide_eq_true_eq, Option.isSome_iff_exists] at h
  obtain ⟨⟨he, ⟨_, s₁⟩, h₁⟩, ⟨_, s₂⟩, h₂⟩ := h
  have h₁ := result?_eq_some.mp h₁
  have h₂ := result?_eq_some.mp h₂
  obtain ⟨x, x', hx, hx', hiff⟩ := (deltas_effective_iff s _ _ _ _).1 s₁ h₁
  obtain ⟨y, y', hy, hy', heq⟩ := (deltas_effective_iff s _ _ _ _).2 s₂ h₂
  exact ⟨s, s₁, s₂, x, x', y, y', reachable_of_playFrom hs, h₁, hx, hx', hiff.mpr he, h₂, hy, hy', heq⟩

open Deployment in
/-- An increase for a pair without an entry goes through, and is read as nothing. -/
theorem increase_without_effect : ∃ s s' : State, Reachable s ∧
    (increaseAllowance company carrier ⟨50, by decide, by decide⟩).Returns (signedBy company 2) s ()
      s' ∧ ∃ zero : I128, (zero : ℤ) = 0 ∧
    (allowance company carrier).Returns (signedBy company 2) s zero s ∧
    (allowance company carrier).Returns (signedBy company 2) s' zero s' := by
  have hplay : (playFrom admin ⟨1000, by decide, by decide⟩ (signedBy admin 1) []).any (fun s =>
      decide (s.getAllowance 2 company carrier = 0) &&
      ((increaseAllowance company carrier ⟨50, by decide, by decide⟩).result? (signedBy company 2)
        s).any fun r => decide (r.2.getAllowance 2 company carrier = 0)) = true := by decide +kernel
  obtain ⟨s, hs, h⟩ := (Option.any_eq_true _ _).mp hplay
  rw [Bool.and_eq_true, decide_eq_true_eq, Option.any_eq_true] at h
  obtain ⟨hzero, ⟨_, s'⟩, h', hzero'⟩ := h
  have h' := result?_eq_some.mp h'
  obtain ⟨hi, hi'⟩ := initialized_increaseAllowance h'
  exact ⟨s, s', reachable_of_playFrom hs, h', 0, rfl, returns_allowance.mpr ⟨hi, hzero.symm, rfl⟩,
    returns_allowance.mpr ⟨hi', (of_decide_eq_true hzero').symm, rfl⟩⟩

end NavinToken

end Navin
