/-
# Status updates, delivery and milestones

The carrier moves a shipment along the lifecycle and records milestones, the
receiver confirms deliveries; both release escrow to the carrier on the way.

Key definitions:
- `updateStatus`;
- `confirmDelivery`, `confirmPartialDelivery`;
- `recordMilestone`, `recordMilestonesBatch`, `releaseMilestonePayment`.
-/
import Navin.Entry.Shipments

namespace Navin

open Tx

variable {H : Host}

/-! ### Status -/

/-- Every prerequisite must be delivered before a shipment goes into transit. -/
def requirePrerequisitesDelivered (id : ℕ) : Contract H Unit := do
  let prereqs ← gets (·.dossier.shipmentDependents id)
  prereqs.foldlM (fun _ prereqId => do
    let prereq ← loadShipment prereqId
    rejectIf (prereq.status ≠ .delivered) .dependenciesNotMet) ()

/-- The update interval holds back everyone but the admin. -/
def requireUpdateInterval (id : ℕ) : Contract H Unit := do
  let last ← gets (·.dossier.lastStatusUpdate id)
  whenSome last fun last => do
    let now ← timestamp
    let config ← gets (·.getConfig)
    rejectIf (now - last < config.minStatusUpdateInterval) .rateLimitExceeded

/-- `update_status`: the carrier or the admin, to any status the table allows. -/
def updateStatus (caller : Address) (id : ℕ) (newStatus : ShipmentStatus) (dataHash : BytesN32) :
    Contract H Unit := do
  openCall caller
  validateHash dataHash
  let admin ← getAdmin
  let shipment ← loadShipment id
  rejectIf (caller ≠ shipment.carrier ∧ caller ≠ admin) .unauthorized
  requireNotFinalized shipment
  when (caller = shipment.carrier) do
    requireActiveCarrier caller
  checkIdempotency (beBytes 8 id ++ newStatus.toXdr ++ beBytes 32 dataHash.toNat)
  when (caller ≠ admin) do
    requireUpdateInterval id
  validateShipmentTransition shipment.status newStatus
  when (newStatus = .inTransit) do
    requirePrerequisitesDelivered id
  let now ← timestamp
  moveStatusCount shipment.status newStatus
  persistShipment
    (((shipment.withStatus newStatus).withDataHash dataHash).touch now).finalizeIfSettled
  when (newStatus = .disputed) do
    incrementTotalDisputes
  setLastStatusUpdate id now
  extendShipmentTtl id
  setStatusHash id newStatus dataHash
  emitStatusUpdated id shipment.status newStatus dataHash
  publish (.notification shipment.sender .statusChanged id dataHash)
  publish (.notification shipment.receiver .statusChanged id dataHash)

/-! ### Delivery -/

/-- `confirm_delivery`: the receiver alone; all that is left in escrow is paid. -/
def confirmDelivery (receiver : Address) (id : ℕ) (confirmationHash : BytesN32) :
    Contract H Unit := do
  openCall receiver
  validateHash confirmationHash
  let shipment ← loadShipment id
  rejectIf (shipment.receiver ≠ receiver) .unauthorized
  requireNotFinalized shipment
  validateShipmentTransition shipment.status .delivered
  let now ← timestamp
  moveStatusCount shipment.status .delivered
  setConfirmationHash id confirmationHash
  decrementActiveShipmentCount shipment.sender
  extendShipmentTtl id
  let shipment ← internalReleaseEscrow ((shipment.withStatus .delivered).withUpdatedAt now)
    shipment.escrowAmount
  persistShipment shipment.finalizeIfSettled
  emitDeliveryConfirmed id receiver confirmationHash
  emitDeliverySuccess shipment.carrier id now
  publish (.carrierMilestoneRate shipment.carrier id shipment.paidMilestones.length
    shipment.paymentMilestones.length)
  (if shipment.deadline < now then
    publish (.carrierLateDelivery shipment.carrier id shipment.deadline now)
  else publish (.carrierOnTimeDelivery shipment.carrier id))
  publish (.notification shipment.sender .deliveryConfirmed id confirmationHash)
  publish (.notification shipment.carrier .deliveryConfirmed id confirmationHash)

/-- `confirm_partial_delivery`: a share of the deposit is paid, and the shipment
is delivered when the shares paid so far make up the whole of it. -/
def confirmPartialDelivery (receiver : Address) (id : ℕ) (confirmationHash : BytesN32)
    (releasePercent : ℕ) : Contract H Unit := do
  openCall receiver
  validateHash confirmationHash
  rejectIf (releasePercent = 0 ∨ 100 < releasePercent) .invalidAmount
  let shipment ← loadShipment id
  rejectIf (shipment.receiver ≠ receiver) .unauthorized
  requireNotFinalized shipment
  rejectIf (shipment.status ≠ .inTransit ∧ shipment.status ≠ .atCheckpoint ∧
    shipment.status ≠ .partiallyDelivered) .invalidStatus
  let releaseAmount ← checkedMulDiv shipment.totalEscrow releasePercent 100
  rejectIf (releaseAmount ≤ 0) .invalidAmount
  let releasedSoFar ←
    okOr (checkedI128 (shipment.totalEscrow - shipment.escrowAmount)) .arithmeticError
  let newTotalReleased ← okOr (checkedI128 (releasedSoFar + releaseAmount)) .arithmeticError
  rejectIf (shipment.totalEscrow < newTotalReleased) .invalidAmount
  let newStatus : ShipmentStatus :=
    if newTotalReleased = shipment.totalEscrow then .delivered else .partiallyDelivered
  let now ← timestamp
  moveStatusCount shipment.status newStatus
  setConfirmationHash id confirmationHash
  when (newStatus = .delivered) do
    decrementActiveShipmentCount shipment.sender
  let released ← internalReleaseEscrow ((shipment.withStatus newStatus).withUpdatedAt now)
    releaseAmount
  persistShipment released.finalizeIfSettled
  extendShipmentTtl id
  emitStatusUpdated id shipment.status newStatus confirmationHash

/-! ### Milestones -/

/-- The schedule's shares of the named milestones, as a `u32` sum. -/
def scheduledShare (schedule : List (Symbol × ℕ)) (names : List Symbol) : ℕ :=
  ((schedule.filter fun m => m.1 ∈ names).map (·.2)).sum

/-- What a milestone is paid: all that is left once every share is accounted
for, otherwise its share of the deposit. -/
def milestoneRelease (shipment : Shipment) (names : List Symbol) (share : ℕ) : Contract H ℤ := do
  let totalPctPaid := scheduledShare shipment.paymentMilestones names
  trapIf (u32Max < totalPctPaid)
  (if totalPctPaid = 100 then return shipment.escrowAmount
  else checkedMulDiv shipment.totalEscrow share 100)

namespace Shipment

/-- The schedule's entry of a milestone. -/
def findMilestone (s : Shipment) (name : Symbol) : Option (Symbol × ℕ) :=
  s.paymentMilestones.find? (·.1 = name)

/-- The milestone is completed and, unless it is there already, paid. -/
@[simps]
def markPaid (s : Shipment) (name : Symbol) : Shipment :=
  { s with
    milestonesCompleted := s.milestonesCompleted ++ [name]
    paidMilestones := if name ∈ s.paidMilestones then s.paidMilestones
      else s.paidMilestones ++ [name] }

end Shipment

/-- The opening of the two recording entry points. -/
def openCarrierCall (carrier : Address) : Contract H Unit := do
  openCall carrier
  requireRole carrier .carrier
  requireActiveCarrier carrier

/-- The payment inside `record_milestone`; a name outside the schedule pays nothing. -/
def payRecordedMilestone (id : ℕ) (shipment : Shipment) (checkpoint : Symbol) :
    Contract H Shipment :=
  match shipment.findMilestone checkpoint with
  | none => return shipment
  | some milestone => do
    rejectIf (checkpoint ∈ shipment.paidMilestones) .milestoneAlreadyPaid
    let marked := shipment.markPaid checkpoint
    let releaseAmount ← milestoneRelease marked marked.paidMilestones milestone.2
    emitMilestonePaymentReleased id checkpoint releaseAmount shipment.carrier
    internalReleaseEscrow marked releaseAmount

/-- `record_milestone`. -/
def recordMilestone (carrier : Address) (id : ℕ) (checkpoint : Symbol) (dataHash : BytesN32) :
    Contract H Unit := do
  openCarrierCall carrier
  let shipment ← loadShipment id
  requireNotFinalized shipment
  validateCheckpointSymbol checkpoint
  validateHash dataHash
  rejectIf (shipment.carrier ≠ carrier) .unauthorized
  rejectIf (shipment.status ≠ .inTransit) .invalidStatus
  let config ← gets (·.getConfig)
  let count ← gets (·.getMilestoneEventCount id)
  rejectIf (config.maxMilestonesPerShipment ≤ count) .milestoneLimitExceeded
  emitMilestoneRecorded id checkpoint dataHash carrier
  let shipment ← payRecordedMilestone id shipment checkpoint
  setShipment shipment.finalizeIfSettled

/-- One item of `record_milestones_batch`: a paid milestone is passed over, and
the last share is not rounded up to what is left. -/
def recordBatchItem (carrier : Address) (id : ℕ) (shipment : Shipment)
    (item : Symbol × BytesN32) : Contract H Shipment := do
  emitMilestoneRecorded id item.1 item.2 carrier
  (match shipment.findMilestone item.1 with
  | none => return shipment
  | some milestone =>
    if item.1 ∈ shipment.paidMilestones then return shipment else do
      let releaseAmount ← checkedMulDiv shipment.totalEscrow milestone.2 100
      emitMilestonePaymentReleased id item.1 releaseAmount shipment.carrier
      internalReleaseEscrow (shipment.markPaid item.1) releaseAmount)

/-- `record_milestones_batch`: the names are not validated as checkpoints. -/
def recordMilestonesBatch (carrier : Address) (id : ℕ) (milestones : List (Symbol × BytesN32)) :
    Contract H Unit := do
  openCarrierCall carrier
  let config ← gets (·.getConfig)
  rejectIf (config.batchOperationLimit < milestones.length) .batchTooLarge
  milestones.foldlM (fun _ m => validateHash m.2) ()
  let shipment ← loadShipment id
  requireNotFinalized shipment
  rejectIf (shipment.carrier ≠ carrier) .unauthorized
  rejectIf (shipment.status ≠ .inTransit) .invalidStatus
  let count ← gets (·.getMilestoneEventCount id)
  let total ← okOr (checkedAddU32 count milestones.length) .arithmeticError
  rejectIf (config.maxMilestonesPerShipment < total) .milestoneLimitExceeded
  let shipment ← milestones.foldlM (recordBatchItem carrier id) shipment
  setShipment shipment.finalizeIfSettled

/-- `release_milestone_payment`: the carrier or the admin, in the order of the
schedule, whatever the status of the shipment. -/
def releaseMilestonePayment (caller : Address) (id : ℕ) (milestoneName : Symbol) :
    Contract H Unit := do
  openCall caller
  let shipment ← loadShipment id
  requireNotFinalized shipment
  let admin ← getAdmin
  rejectIf (caller ≠ shipment.carrier ∧ caller ≠ admin) .unauthorized
  when (caller = shipment.carrier) do
    requireActiveCarrier caller
  let milestone ← okOr (shipment.findMilestone milestoneName) .invalidShipmentInput
  let idx := shipment.paymentMilestones.findIdx (·.1 = milestoneName)
  rejectIf (milestoneName ∈ shipment.milestonesCompleted) .milestoneAlreadyPaid
  rejectIf (0 < idx ∧ shipment.milestonesCompleted.length < idx) .invalidStatus
  let releaseAmount ←
    milestoneRelease shipment (shipment.milestonesCompleted ++ [milestoneName]) milestone.2
  let shipment ← (if 0 < releaseAmount then do
      emitMilestonePaymentReleased id milestoneName releaseAmount shipment.carrier
      internalReleaseEscrow (shipment.markPaid milestoneName) releaseAmount
    else return shipment)
  setShipment shipment.finalizeIfSettled

end Navin
