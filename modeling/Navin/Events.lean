/-
# Events

The emitters of `events.rs`. An indexed event carries the shipment's next event
counter and the key hashed from it; the counter is then stored. An emitter of a
plain event publishes its payload, and a few of those advance the counter too.

Key definitions:
- `idempotencyPayload`, the bytes behind a key;
- `emitKeyed`, the common shape of the indexed emitters.
-/
import Navin.Storage

namespace Navin

open Tx

variable {H : Host}

def eventSchemaVersion : ℕ := 2

/-! ### Topics and hash domains (`event_topics.rs`) -/

namespace Topic

def shipmentCreated := "shipment_created"
def statusUpdated := "status_updated"
def milestoneRecorded := "milestone_recorded"
def escrowDeposited := "escrow_deposited"
def escrowReleased := "escrow_released"
def escrowRefunded := "escrow_refunded"
def milestonePaymentReleased := "milestone_payment_released"
def platformFeeCollected := "platform_fee_collected"
def shipmentCancelled := "shipment_cancelled"
def shipmentExpired := "shipment_expired"
def deliverySuccess := "delivery_success"
def disputeRaised := "dispute_raised"
def disputeResolved := "dispute_resolved"
def conditionBreach := "condition_breach"
def carrierBreach := "carrier_breach"
def carrierDisputeLoss := "carrier_dispute_loss"
def carrierLateDelivery := "carrier_late_delivery"
def carrierOnTimeDelivery := "carrier_on_time_delivery"
def carrierHandoffCompleted := "carrier_handoff_completed"
def carrierMilestoneRate := "carrier_milestone_rate"
def adminProposed := "admin_proposed"
def adminTransferred := "admin_transferred"
def contractUpgraded := "contract_upgraded"
def migrationReported := "migration_reported"
def contractPaused := "contract_paused"
def contractUnpaused := "contract_unpaused"
def forceCancelled := "force_cancelled"
def feeConfigUpdated := "fee_config_updated"
def roleRevoked := "role_revoked"
def roleChanged := "role_changed"
def carrierHandoff := "carrier_handoff"
def notification := "notification"
def noteAppended := "note_appended"
def evidenceAdded := "evidence_added"
def escrowFrozen := "escrow_frozen"
def contractInitialized := "init"
def shipmentLimitUpdated := "set_limit"
def companyLimitUpdated := "set_cmp_limit"
def carrierSuspended := "carrier_suspended"
def carrierReactivated := "carrier_reactivated"
def deliveryConfirmed := "delivery_confirmed"
def geofenceEvent := "geofence_event"
def etaUpdated := "eta_updated"
def proposalDigest := "proposal_digest"
def configUpdated := "config_updated"
def quotaSet := "quota_set"

end Topic

namespace HashDomain

def shipment : ℕ := 0x01
def escrow : ℕ := 0x02
def dispute : ℕ := 0x03
def condition : ℕ := 0x04
def carrier : ℕ := 0x05
def admin : ℕ := 0x06
def rbac : ℕ := 0x07
def notification : ℕ := 0x08
def note : ℕ := 0x09
def platform : ℕ := 0x0B

end HashDomain

/-- `NON_DEFAULT_HASH_DOMAINS`: the topics outside the shipment domain. -/
def nonDefaultHashDomains : List (String × ℕ) := [
  (Topic.escrowDeposited, HashDomain.escrow),
  (Topic.escrowReleased, HashDomain.escrow),
  (Topic.escrowRefunded, HashDomain.escrow),
  (Topic.milestonePaymentReleased, HashDomain.escrow),
  (Topic.escrowFrozen, HashDomain.escrow),
  (Topic.disputeRaised, HashDomain.dispute),
  (Topic.disputeResolved, HashDomain.dispute),
  (Topic.evidenceAdded, HashDomain.dispute),
  (Topic.conditionBreach, HashDomain.condition),
  (Topic.carrierBreach, HashDomain.condition),
  (Topic.geofenceEvent, HashDomain.condition),
  (Topic.carrierDisputeLoss, HashDomain.carrier),
  (Topic.carrierLateDelivery, HashDomain.carrier),
  (Topic.carrierOnTimeDelivery, HashDomain.carrier),
  (Topic.carrierHandoff, HashDomain.carrier),
  (Topic.carrierHandoffCompleted, HashDomain.carrier),
  (Topic.carrierMilestoneRate, HashDomain.carrier),
  (Topic.carrierSuspended, HashDomain.carrier),
  (Topic.carrierReactivated, HashDomain.carrier),
  (Topic.adminProposed, HashDomain.admin),
  (Topic.adminTransferred, HashDomain.admin),
  (Topic.contractUpgraded, HashDomain.admin),
  (Topic.migrationReported, HashDomain.admin),
  (Topic.contractPaused, HashDomain.admin),
  (Topic.contractUnpaused, HashDomain.admin),
  (Topic.forceCancelled, HashDomain.admin),
  (Topic.contractInitialized, HashDomain.admin),
  (Topic.shipmentLimitUpdated, HashDomain.admin),
  (Topic.companyLimitUpdated, HashDomain.admin),
  (Topic.proposalDigest, HashDomain.admin),
  (Topic.configUpdated, HashDomain.admin),
  (Topic.quotaSet, HashDomain.admin),
  (Topic.roleRevoked, HashDomain.rbac),
  (Topic.roleChanged, HashDomain.rbac),
  (Topic.notification, HashDomain.notification),
  (Topic.noteAppended, HashDomain.note),
  (Topic.platformFeeCollected, HashDomain.platform),
  (Topic.feeConfigUpdated, HashDomain.platform)]

/-- `hash_domain_for_event`, of the bytes of the topic: the first entry of the table. -/
def hashDomainForEvent (eventType : List UInt8) : ℕ :=
  match nonDefaultHashDomains.find? fun entry => entry.1.toUTF8.toList = eventType with
  | some entry => entry.2
  | none => HashDomain.shipment

/-- `hash_domain_for_symbol`. -/
def hashDomainForSymbol (eventType : Symbol) : ℕ := hashDomainForEvent eventType.bytes

/-! ### Keys -/

/-- The bytes `generate_idempotency_key` hashes: the domain and the event type
are length-prefixed, the id and the counter have a fixed width. -/
def idempotencyPayload (domain id : ℕ) (eventType : List UInt8) (eventCounter : ℕ) : List UInt8 :=
  beBytes 4 1 ++ beBytes 1 domain ++ beBytes 8 id ++ beBytes 4 eventType.length ++ eventType ++
    beBytes 4 eventCounter

/-- `next_event_counter`. -/
def World.nextEventCounter (w : World H) (id : ℕ) : ℕ := saturatingAddU32 (w.getEventCount id) 1

/-- The common body of the indexed emitters. -/
def emitKeyed (domain : ℕ) (topic : String) (id : ℕ) (event : EventKey → Event) :
    Contract H Unit := do
  let eventCounter ← gets (·.nextEventCounter id)
  let key := H.sha256 (idempotencyPayload domain id topic.toUTF8.toList eventCounter)
  publish (event ⟨eventSchemaVersion, eventCounter, key⟩)
  incrementEventCount id

/-- The indexed emitters that name the token: the token contract must be set. -/
def emitKeyedWithToken (domain : ℕ) (topic : String) (id : ℕ)
    (event : Address → EventKey → Event) : Contract H Unit := do
  let token ← unwrap (← gets (·.ledger.tokenContract))
  emitKeyed domain topic id (event token)

/-! ### Indexed emitters -/

def emitShipmentCreated (id : ℕ) (sender receiver : Address) (dataHash : BytesN32) :
    Contract H Unit :=
  emitKeyedWithToken HashDomain.shipment Topic.shipmentCreated id fun token =>
    .shipmentCreated id sender receiver token dataHash

def emitStatusUpdated (id : ℕ) (oldStatus newStatus : ShipmentStatus) (dataHash : BytesN32) :
    Contract H Unit :=
  emitKeyedWithToken HashDomain.shipment Topic.statusUpdated id fun token =>
    .statusUpdated id oldStatus newStatus token dataHash

/-- `emit_milestone_recorded` also advances the milestone counter. -/
def emitMilestoneRecorded (id : ℕ) (checkpoint : Symbol) (dataHash : BytesN32)
    (reporter : Address) : Contract H Unit := do
  emitKeyed HashDomain.shipment Topic.milestoneRecorded id
    (.milestoneRecorded id checkpoint dataHash reporter)
  incrementMilestoneEventCount id

def emitEscrowDeposited (id : ℕ) (source : Address) (amount : ℤ) : Contract H Unit :=
  emitKeyedWithToken HashDomain.escrow Topic.escrowDeposited id fun token =>
    .escrowDeposited id source token amount

def emitEscrowReleased (id : ℕ) (recipient : Address) (amount : ℤ) : Contract H Unit :=
  emitKeyedWithToken HashDomain.escrow Topic.escrowReleased id fun token =>
    .escrowReleased id recipient token amount

def emitEscrowRefunded (id : ℕ) (recipient : Address) (amount : ℤ) : Contract H Unit :=
  emitKeyedWithToken HashDomain.escrow Topic.escrowRefunded id fun token =>
    .escrowRefunded id recipient token amount

def emitMilestonePaymentReleased (id : ℕ) (milestone : Symbol) (amount : ℤ)
    (recipient : Address) : Contract H Unit :=
  emitKeyed HashDomain.escrow Topic.milestonePaymentReleased id
    (.milestonePaymentReleased id milestone amount recipient)

def emitPlatformFeeCollected (id : ℕ) (treasury : Address) (amount : ℤ) : Contract H Unit :=
  emitKeyed HashDomain.platform Topic.platformFeeCollected id
    (.platformFeeCollected id treasury amount)

def emitShipmentCancelled (id : ℕ) (caller : Address) (reasonHash : BytesN32) : Contract H Unit :=
  emitKeyed HashDomain.shipment Topic.shipmentCancelled id (.shipmentCancelled id caller reasonHash)

def emitShipmentExpired (id : ℕ) : Contract H Unit :=
  emitKeyed HashDomain.shipment Topic.shipmentExpired id (.shipmentExpired id)

def emitDeliverySuccess (carrier : Address) (id deliveryTime : ℕ) : Contract H Unit :=
  emitKeyed HashDomain.shipment Topic.deliverySuccess id (.deliverySuccess carrier id deliveryTime)

def emitDisputeResolved (id : ℕ) (resolution : DisputeResolution) (reasonHash : BytesN32)
    (admin : Address) : Contract H Unit :=
  emitKeyed HashDomain.dispute Topic.disputeResolved id
    (.disputeResolved id resolution reasonHash admin)

def emitDeliveryConfirmed (id : ℕ) (receiver : Address) (dataHash : BytesN32) : Contract H Unit :=
  emitKeyed HashDomain.shipment Topic.deliveryConfirmed id (.deliveryConfirmed id receiver dataHash)

def emitGeofenceEvent (id : ℕ) (zoneType : GeofenceEvent) (dataHash : BytesN32) :
    Contract H Unit :=
  emitKeyed HashDomain.shipment Topic.geofenceEvent id (.geofenceEvent id zoneType dataHash)

def emitEtaUpdated (id newEta : ℕ) (dataHash : BytesN32) : Contract H Unit :=
  emitKeyed HashDomain.shipment Topic.etaUpdated id (.etaUpdated id newEta dataHash)

/-! ### Plain emitters that do more than publish -/

def emitRoleChanged (action : RoleChangeAction) (admin target : Address) (role : Role) :
    Contract H Unit := do
  let now ← timestamp
  publish (.roleChanged action admin target role now)

/-- `emit_force_cancelled` advances the counter and carries no key. -/
def emitForceCancelled (id : ℕ) (admin : Address) (reasonHash : BytesN32) (escrowRefunded : ℤ) :
    Contract H Unit := do
  publish (.forceCancelled id admin reasonHash escrowRefunded)
  incrementEventCount id

def emitNoteAppended (id noteIndex : ℕ) (noteHash : BytesN32) (reporter : Address) :
    Contract H Unit := do
  publish (.noteAppended id noteIndex noteHash reporter)
  incrementEventCount id

def emitEvidenceAdded (id evidenceIndex : ℕ) (evidenceHash : BytesN32) (reporter : Address) :
    Contract H Unit := do
  publish (.evidenceAdded id evidenceIndex evidenceHash reporter)
  incrementEventCount id

def emitEscrowFrozen (id : ℕ) (reason : EscrowFreezeReason) (caller : Address) :
    Contract H Unit := do
  let now ← timestamp
  publish (.escrowFrozen id reason caller now)

end Navin
