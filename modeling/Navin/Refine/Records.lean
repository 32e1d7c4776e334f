/-
# Calls that edit a record and move no money

Metadata, evidence, handoff, status updates, disputes raised by a party or by a
breach report, and the recovery operations.

Key theorems:
- `effects_updateStatus`, `effects_raiseDispute`, `effects_reportConditionBreach`;
- `wp_recoveryEdit`: what the four recovery operations have in common.
-/
import Navin.Refine.Setup

namespace Navin

open Tx

set_option synthInstance.maxSize 1000

variable {H : Host} {env : Env} {w : World H}

/-! ### Beside the lifecycle -/

theorem effects_setShipmentMetadata {caller : Address} {id : ℕ} {key value : Symbol}
    (hk : w.ledger.Keyed) : wp (setShipmentMetadata caller id key value) env w fun _ w' =>
      Effects env w (.setShipmentMetadata caller id key value) w'.book := by
  unfold setShipmentMetadata
  simp only [wp_bind, wp_gets, wp_timestamp]
  refine wp_openCall fun _ _ => ?_
  refine wp_guard fun _ => ?_
  refine wp_guard fun _ => ?_
  refine wp_guard fun _ => ?_
  refine wp_getAdmin fun admin hadm => ?_
  refine wp_load hk ?_
  rintro s rfl hs
  refine wp_requireNotFinalized fun hf => ?_
  refine wp_requireEither hadm fun hc => ?_
  refine wp_guard fun _ => ?_
  rw [wp_rejectIf]
  intro _
  refine wp_persistShipment fun hv w₁ h₁ => ?_
  have hr : Rule env w (.setShipmentMetadata caller s.id key value) _ := .setShipmentMetadata hf hc
  refine hr.effects hs (fun _ => hv) ?_
  rw [h₁, signed_book]
  exact .idle

theorem effects_addDisputeEvidenceHash {reporter : Address} {id : ℕ} {hash : BytesN32}
    (hk : w.ledger.Keyed) : wp (addDisputeEvidenceHash reporter id hash) env w fun _ w' =>
      Effects env w (.addDisputeEvidenceHash reporter id hash) w'.book := by
  unfold addDisputeEvidenceHash
  simp only [wp_bind, wp_gets, wp_rejectIf]
  refine wp_openCall fun _ _ => ?_
  refine wp_guard fun _ => ?_
  refine wp_load hk ?_
  rintro s rfl hs
  refine wp_requireNotFinalized fun hf => ?_
  refine wp_guard fun _ hd => ?_
  refine wp_guard fun _ _ => ?_
  refine wp_quiet fun _ w₁ h₁ => ?_
  refine wp_quiet fun _ w₂ h₂ => ?_
  refine wp_modifyLedger fun w₃ h₃ => ?_
  refine wp_quiet fun _ w₄ h₄ => ?_
  have hr : Rule env w (.addDisputeEvidenceHash reporter s.id hash) _ :=
    .addDisputeEvidenceHash hf (not_not.mp hd)
  refine hr.effects hs (fun h => absurd rfl h) ?_
  rw [h₄, h₃, h₂, h₁, signed_book]
  exact .idle

theorem effects_handoffShipment {current new : Address} {id : ℕ} {hash : BytesN32}
    (hk : w.ledger.Keyed) : wp (handoffShipment current new id hash) env w fun _ w' =>
      Effects env w (.handoffShipment current new id hash) w'.book := by
  unfold handoffShipment
  simp only [wp_bind, wp_rejectIf, wp_timestamp]
  refine wp_guard fun _ => ?_
  refine wp_requireAuth fun _ => ?_
  refine wp_guard fun _ => ?_
  refine wp_guard fun _ => ?_
  refine wp_load hk ?_
  rintro s rfl hs
  refine wp_requireNotFinalized fun hf => ?_
  refine wp_guard fun _ hc hst => ?_
  obtain rfl := not_not.mp hc
  refine wp_persistShipment fun hv w₁ h₁ => ?_
  refine wp_quiet fun _ w₂ h₂ => ?_
  refine wp_quiet fun _ w₃ h₃ => ?_
  refine wp_quiet fun _ w₄ h₄ => ?_
  refine wp_quiet fun _ w₅ h₅ => ?_
  have hr : Rule env w (.handoffShipment s.carrier new s.id hash) _ :=
    .handoffShipment hf (fun h => hst (.inl h)) (fun h => hst (.inr h))
  refine hr.effects hs (fun _ => hv) ?_
  rw [h₅, h₄, h₃, h₂, h₁, signed_book]
  exact .idle

/-! ### Status -/

theorem effects_updateStatus {caller : Address} {id : ℕ} {status : ShipmentStatus} {hash : BytesN32}
    (hk : w.ledger.Keyed) : wp (updateStatus caller id status hash) env w fun _ w' =>
      Effects env w (.updateStatus caller id status hash) w'.book := by
  unfold updateStatus
  simp only [wp_bind]
  refine wp_openCall fun _ _ => ?_
  refine wp_guard fun _ => ?_
  refine wp_getAdmin fun admin hadm => ?_
  refine wp_load hk ?_
  rintro s rfl hs
  refine wp_requireEither hadm fun hc => ?_
  refine wp_requireNotFinalized fun hf => ?_
  refine wp_guard fun _ => ?_
  refine wp_quiet fun _ w₁ h₁ => ?_
  refine wp_guard fun _ => ?_
  refine wp_validateShipmentTransition fun ht => ?_
  refine wp_guard fun _ => ?_
  rw [wp_timestamp]
  refine wp_moveStatusCount fun w₂ h₂ => ?_
  refine wp_persistShipment fun hv w₃ h₃ => ?_
  refine wp_quiet fun _ w₄ h₄ => ?_
  refine wp_quiet fun _ w₅ h₅ => ?_
  refine wp_quiet fun _ w₆ h₆ => ?_
  refine wp_quiet fun _ w₇ h₇ => ?_
  refine wp_quiet fun _ w₈ h₈ => ?_
  refine wp_quiet fun _ w₉ h₉ => ?_
  refine wp_quiet fun _ w₁₀ h₁₀ => ?_
  have hr : Rule env w (.updateStatus caller s.id status hash) _ := .updateStatus hf hc ht
  refine hr.effects hs (fun _ => hv) ?_
  rw [h₁₀, h₉, h₈, h₇, h₆, h₅, h₄, h₃, h₂, h₁, signed_book]
  exact .idle

theorem effects_raiseDispute {caller : Address} {id : ℕ} {hash : BytesN32} (hk : w.ledger.Keyed) :
    wp (raiseDispute caller id hash) env w fun _ w' =>
      Effects env w (.raiseDispute caller id hash) w'.book := by
  unfold raiseDispute
  simp only [wp_bind, wp_rejectIf, wp_timestamp]
  refine wp_openCall fun _ _ => ?_
  refine wp_guard fun _ => ?_
  refine wp_load hk ?_
  rintro s rfl hs
  refine wp_requireNotFinalized fun hf hc => ?_
  refine wp_guard fun _ hst => ?_
  refine wp_persistShipment fun hv w₁ h₁ => ?_
  refine wp_moveStatusCount fun w₂ h₂ => ?_
  refine wp_quiet fun _ w₃ h₃ => ?_
  refine wp_quiet fun _ w₄ h₄ => ?_
  refine wp_quiet fun _ w₅ h₅ => ?_
  refine wp_quiet fun _ w₆ h₆ => ?_
  refine wp_quiet fun _ w₇ h₇ => ?_
  refine wp_quiet fun _ w₈ h₈ => ?_
  refine wp_quiet fun _ w₉ h₉ => ?_
  refine wp_quiet fun _ w₁₀ h₁₀ => ?_
  have hc' : caller = s.sender ∨ caller = s.receiver ∨ caller = s.carrier := by
    by_contra hn
    exact hc ⟨fun h => hn (.inl h), fun h => hn (.inr (.inl h)), fun h => hn (.inr (.inr h))⟩
  have hr : Rule env w (.raiseDispute caller s.id hash) _ :=
    .raiseDispute hf hc' (fun h => hst (.inl h)) (fun h => hst (.inr h))
  refine hr.effects hs (fun _ => hv) ?_
  rw [h₁₀, h₉, h₈, h₇, h₆, h₅, h₄, h₃, h₂, h₁, signed_book]
  exact .idle

theorem effects_reportConditionBreach {carrier : Address} {id : ℕ} {breach : BreachType}
    {severity : Severity} {hash : BytesN32} (hk : w.ledger.Keyed) :
    wp (reportConditionBreach carrier id breach severity hash) env w fun _ w' =>
      Effects env w (.reportConditionBreach carrier id breach severity hash) w'.book := by
  unfold reportConditionBreach
  simp only [wp_bind, wp_gets, wp_rejectIf, wp_timestamp, wp_when]
  refine wp_guard fun _ => ?_
  refine wp_requireAuth fun _ => ?_
  refine wp_guard fun _ => ?_
  refine wp_guard fun _ => ?_
  refine wp_load hk ?_
  rintro s rfl hs
  refine wp_requireNotFinalized fun hf => ?_
  refine wp_guard fun _ hc _ => ?_
  obtain rfl := not_not.mp hc
  refine wp_quiet fun _ w₁ h₁ => ?_
  refine wp_quiet fun _ w₂ h₂ => ?_
  refine wp_quiet fun _ w₃ h₃ => ?_
  constructor
  · rintro ⟨_, rfl, hst, hst'⟩
    refine wp_modifyLedger fun w₄ h₄ => ?_
    refine wp_moveStatusCount fun w₅ h₅ => ?_
    refine wp_quiet fun _ w₆ h₆ => ?_
    refine wp_quiet fun _ w₇ h₇ => ?_
    refine wp_quiet fun _ w₈ h₈ => ?_
    refine wp_quiet fun _ w₉ h₉ => ?_
    refine wp_quiet fun _ w₁₀ h₁₀ => ?_
    refine wp_quiet fun _ w₁₁ h₁₁ => ?_
    have hr : Rule env w (.reportConditionBreach s.carrier s.id breach .critical hash) _ :=
      .reportConditionBreach hf hst hst'
    refine hr.effects hs (fun h => absurd rfl h) ?_
    rw [h₁₁, h₁₀, h₉, h₈, h₇, h₆, h₅, h₄, h₃, h₂, h₁, signed_book]
    exact .idle
  · intro _
    rw [h₃, h₂, h₁, signed_book]
    exact .quiet rfl

/-! ### Recovery -/

/-- A recovery operation stores the edited record and nothing else. -/
theorem wp_recoveryEdit {actionType : RecoveryActionType} {admin : Address} {id : ℕ}
    {hash : BytesN32} {edit : Shipment → ℕ → Contract H Shipment} {event : Shipment → ℕ → Event}
    {call : Call} (hevent : ∀ s n, Effect.payment? (.event (event s n)) = none)
    (hk : w.ledger.Keyed)
    (h : ∀ s, s.id = id → w.ledger.admin = some admin →
      wp (edit s env.timestamp) env (w.signed admin) fun s' w' => w' = w.signed admin ∧
        Rule env w call ⟨s, s', .kept, false, []⟩) :
    wp (recoveryEdit actionType admin id hash edit event) env w fun _ w' =>
      Effects env w call w'.book := by
  unfold recoveryEdit
  simp only [wp_bind, wp_timestamp]
  refine wp_guard fun _ => ?_
  refine wp_requireAuth fun _ => ?_
  refine wp_requireAdmin fun hadm => ?_
  refine wp_guard fun _ => ?_
  refine wp_load hk ?_
  intro s hid hs
  refine (h s hid hadm).mono fun s' w₁ h₁ => ?_
  obtain ⟨rfl, hr⟩ := h₁
  refine wp_modifyLedger fun w₂ h₂ => ?_
  refine wp_quiet fun _ w₃ h₃ => ?_
  have hev : IsNone (Effect.payment? (.event (event s env.timestamp))) := ⟨hevent _ _⟩
  refine wp_quiet fun _ w₄ h₄ => ?_
  refine wp_quiet fun _ w₅ h₅ => ?_
  refine hr.effects hs (fun h => absurd rfl h) ?_
  rw [h₅, h₄, h₃, h₂, signed_book]
  exact .idle

theorem effects_recoverShipment {admin : Address} {id : ℕ} {status : ShipmentStatus}
    {hash : BytesN32} (hk : w.ledger.Keyed) :
    wp (recoverShipment admin id status hash) env w fun _ w' =>
      Effects env w (.recoverShipment admin id status hash) w'.book := by
  unfold recoverShipment
  refine wp_recoveryEdit (fun _ _ => rfl) hk ?_
  rintro s rfl hadm
  simp only [wp_bind, wp_rejectIf, wp_pure]
  intro hne ht
  refine wp_guard fun _ => ⟨rfl, ?_⟩
  exact .recoverShipment hadm hne (by simpa using ht)

theorem effects_unlockEscrow {admin : Address} {id : ℕ} {hash : BytesN32} (hk : w.ledger.Keyed) :
    wp (unlockEscrow admin id hash) env w fun _ w' =>
      Effects env w (.unlockEscrow admin id hash) w'.book := by
  unfold unlockEscrow
  refine wp_recoveryEdit (fun _ _ => rfl) hk ?_
  rintro s rfl hadm
  simp only [wp_bind, wp_rejectIf, wp_pure]
  exact fun he => ⟨trivial, .unlockEscrow hadm he⟩

theorem effects_clearFinalization {admin : Address} {id : ℕ} {hash : BytesN32}
    (hk : w.ledger.Keyed) : wp (clearFinalization admin id hash) env w fun _ w' =>
      Effects env w (.clearFinalization admin id hash) w'.book := by
  unfold clearFinalization
  refine wp_recoveryEdit (fun _ _ => rfl) hk ?_
  rintro s rfl hadm
  simp only [wp_bind, wp_rejectIf, wp_pure, Bool.not_eq_false]
  exact fun hf => ⟨trivial, .clearFinalization hadm hf⟩

theorem effects_rollbackOnExternalFailure {admin : Address} {id : ℕ} {status : ShipmentStatus}
    {hash : BytesN32} (hk : w.ledger.Keyed) :
    wp (rollbackOnExternalFailure admin id status hash) env w fun _ w' =>
      Effects env w (.rollbackOnExternalFailure admin id status hash) w'.book := by
  unfold rollbackOnExternalFailure
  refine wp_recoveryEdit (fun _ _ => rfl) hk ?_
  rintro s rfl hadm
  rw [wp_pure]
  exact ⟨rfl, .rollbackOnExternalFailure hadm⟩

end Navin
