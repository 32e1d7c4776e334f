/-
# Calls that leave shipments as they are

Most entry points are not seen in the book at all, by the frames of the helpers
they are made of. The others of this file set up or hand over the contract, enrol
shipments, or archive one.

Key theorems:
- `effects_initializeContract`, `effects_acceptAdminTransfer`;
- `effects_createShipment`, `effects_createShipmentsBatch`;
- `effects_archiveShipment`.
-/
import Navin.Rules
import Navin.Calls

namespace Navin

open Tx

set_option synthInstance.maxSize 1000

variable {H : Host} {env : Env} {w : World H}

/-! ### Quiet calls -/

/-- A call that is not seen in the book. -/
theorem effects_quiet {call : Call} {m : Contract H Unit} [Preserves World.book m]
    (hc : call.posts = false) : wp m env w fun _ w' => Effects env w call w'.book :=
  wp_quiet fun _ w' h => by
    rw [h]
    exact .quiet hc

/-! ### Set-up and hand-over -/

theorem effects_initializeContract {admin tokenContract : Address} :
    wp (initializeContract admin tokenContract) env w fun _ w' =>
      Effects env w (.initializeContract admin tokenContract) w'.book := by
  unfold initializeContract
  simp only [wp_bind, wp_gets, wp_rejectIf]
  intro hi _
  refine wp_modifyLedger fun w₁ h₁ => ?_
  refine wp_modifyLedger fun w₂ h₂ => ?_
  refine wp_modifyLedger fun w₃ h₃ => ?_
  refine wp_quiet fun _ w₄ h₄ => ?_
  refine wp_quiet fun _ w₅ h₅ => ?_
  refine wp_quiet fun _ w₆ h₆ => ?_
  refine wp_quiet fun _ w₇ h₇ => ?_
  refine wp_quiet fun _ w₈ h₈ => ?_
  rw [h₈, h₇, h₆, h₅, h₄, h₃, h₂, h₁]
  exact .initialized rfl (by simpa [World.isInitialized] using hi)

theorem effects_acceptAdminTransfer {newAdmin : Address} :
    wp (acceptAdminTransfer newAdmin) env w fun _ w' =>
      Effects env w (.acceptAdminTransfer newAdmin) w'.book := by
  unfold acceptAdminTransfer
  simp only [wp_bind, wp_gets, wp_okOr, wp_rejectIf]
  refine wp_guard fun _ => ?_
  refine wp_quiet fun _ w₁ h₁ proposed _ _ => ?_
  refine wp_guard fun _ => ?_
  refine wp_modifyLedger fun w₂ h₂ => ?_
  refine wp_quiet fun _ w₃ h₃ => ?_
  refine wp_quiet fun _ w₄ h₄ => ?_
  refine wp_quiet fun _ w₅ h₅ => ?_
  refine wp_quiet fun _ w₆ h₆ => ?_
  rw [h₆, h₅, h₄, h₃, h₂, h₁]
  exact .handedOver rfl

/-! ### Enrolment -/

/-- The common end of both creations enrols one record. -/
theorem wp_storeNewShipment {sender : Address} {input : ShipmentInput} {now : ℕ}
    {config : ContractConfig} {Q : ℕ → World H → Prop}
    (h : ∀ n w', w.book.ledger.shipmentCount + 1 ≤ u64Max →
      w'.book = w.book.map (·.enrol (Shipment.new (w.book.ledger.shipmentCount + 1) sender input now)) →
      Q n w') :
    wp (storeNewShipment sender input now config) env w Q := by
  unfold storeNewShipment
  simp only [wp_bind, wp_gets, wp_okOr, wp_pure]
  intro n hn
  obtain ⟨hn, hmax⟩ := checkedAddU64_eq_some hn
  subst hn
  refine wp_persistShipment fun _ w₁ h₁ => ?_
  refine wp_modifyLedger fun w₂ h₂ => ?_
  unfold incrementStatusCount
  simp only [wp_bind, wp_gets, wp_trapIf]
  intro _
  refine wp_modifyLedger fun w₃ h₃ => ?_
  refine wp_quiet fun _ w₄ h₄ => ?_
  refine wp_quiet fun _ w₅ h₅ => ?_
  refine wp_quiet fun _ w₆ h₆ => ?_
  refine wp_quiet fun _ w₇ h₇ => ?_
  refine wp_quiet fun _ w₈ h₈ => ?_
  refine h _ w₈ hmax ?_
  have hl : w₂.ledger = _ := congrArg Book.ledger h₂
  rw [h₈, h₇, h₆, h₅, h₄, h₃, hl, h₂, h₁]
  rfl

theorem effects_createShipment {sender : Address} {input : ShipmentInput} :
    wp (createShipment sender input) env w fun _ w' =>
      Effects env w (.createShipment sender input) w'.book := by
  unfold createShipment
  simp only [wp_bind, wp_gets, wp_rejectIf]
  refine wp_openCall fun hi ha => ?_
  refine wp_guard fun _ => ?_
  refine wp_guard fun _ => ?_
  refine wp_guard fun _ _ => ?_
  refine wp_quiet fun _ w₁ h₁ => ?_
  rw [wp_timestamp]
  intro hd _
  refine wp_quiet fun _ w₂ h₂ => ?_
  refine wp_storeNewShipment fun n w' hmax h' => ?_
  rw [h₂, h₁, signed_book] at hmax h'
  rw [h']
  exact .enrolled rfl ha hi (.snoc .nil hmax (by omega))

theorem effects_createShipmentsBatch {sender : Address} {shipments : List ShipmentInput} :
    wp (createShipmentsBatch sender shipments) env w fun _ w' =>
      Effects env w (.createShipmentsBatch sender shipments) w'.book := by
  unfold createShipmentsBatch
  simp only [wp_bind, wp_gets, wp_rejectIf]
  refine wp_openCall fun hi ha => ?_
  refine wp_guard fun _ _ => ?_
  rw [wp_timestamp]
  intro _
  refine wp_quiet fun _ w₁ h₁ => ?_
  -- after each item the ledger is the old one with some shipments enrolled
  refine (wp_foldlM _ (fun _ _ w' => w.ledger.Enrolled sender env.timestamp w'.book.ledger ∧
    w'.book.pays = w.book.pays) shipments [] w₁ ?_ ?_).mono ?_
  · rw [h₁, signed_book]
    exact ⟨.nil, rfl⟩
  · rintro input _ ids w₂ ⟨he, hp⟩
    unfold createBatchItem
    simp only [wp_bind, wp_rejectIf, wp_pure]
    intro _
    refine wp_guard fun _ => ?_
    refine wp_guard fun _ hd => ?_
    refine wp_storeNewShipment fun n w₃ hmax h₃ => ?_
    rw [h₃]
    exact ⟨he.snoc hmax (by omega), hp⟩
  · rintro _ w' ⟨he, hp⟩
    have hb : w'.book = ⟨w'.book.ledger, w.book.pays⟩ := by rw [← hp]
    rw [hb]
    exact .enrolled rfl ha hi he

/-! ### The archive -/

/-- The record of a delivered or cancelled shipment is put away. -/
theorem wp_archiveShipment {admin : Address} {id : ℕ} :
    wp (archiveShipment admin id) env w fun _ w' => ∃ s, w.ledger.shipment id = some s ∧
      (s.status = .delivered ∨ s.status = .cancelled) ∧ w'.book = w.book.map (·.putAway id s) := by
  unfold archiveShipment storageArchiveShipment
  simp only [wp_bind, wp_gets, wp_okOr, wp_rejectIf]
  refine wp_guard fun _ => ?_
  refine wp_requireAuth fun _ => ?_
  refine wp_guard fun _ s hs hst => ?_
  refine wp_modifyLedger fun w₁ h₁ => ?_
  refine wp_modifyLedger fun w₂ h₂ => ?_
  refine wp_quiet fun _ w₃ h₃ => ?_
  refine wp_modifyLedger fun w₄ h₄ => ?_
  refine wp_quiet fun _ w₅ h₅ => ?_
  rw [wp_timestamp]
  refine wp_quiet fun _ w₆ h₆ => ⟨s, hs, ?_, ?_⟩
  · by_contra hn
    exact hst ⟨fun h => hn (.inl h), fun h => hn (.inr h)⟩
  · rw [h₆, h₅, h₄, h₃, h₂, h₁, signed_book]
    rfl

theorem effects_archiveShipment {admin : Address} {id : ℕ} :
    wp (archiveShipment admin id) env w fun _ w' =>
      Effects env w (.archiveShipment admin id) w'.book := by
  refine wp_archiveShipment.mono fun _ w' ⟨s, hs, hst, hb⟩ => ?_
  rw [hb]
  exact .archived rfl hs hst

end Navin
