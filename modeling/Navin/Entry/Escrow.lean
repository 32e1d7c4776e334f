/-
# Escrow and disputes

Deposits, the ways an escrow is given back or paid out, and disputes. Each of
these entry points rewrites the record, the mirrored `Escrow` entry, the status
counters and the token on its own; the differences between them are kept.

Key definitions:
- `depositEscrow`, with the platform fee;
- `cancelShipment`, `forceCancelShipment`, `checkDeadline`;
- `releaseEscrow`, `refundEscrow`;
- `raiseDispute`, `resolveDispute`.
-/
import Navin.Entry.Delivery

namespace Navin

open Tx

variable {H : Host}

/-! ### Deposit -/

/-- The platform fee of a deposit, paid to the treasury: the amount left. -/
def collectPlatformFee (id : ℕ) (tokenContract : Address) (amount : ℤ) : Contract H ℤ := do
  let feeConfig ← gets (·.governance.feeConfig)
  (match feeConfig with
  | none => return amount
  | some feeConfig =>
    if 0 < feeConfig.feeBps then do
      let feeAmount ← checkedMulDiv amount feeConfig.feeBps 10000
      (if 0 < feeAmount then do
        invokeTokenTransfer tokenContract H.currentContractAddress feeConfig.treasury feeAmount
        let netAmount ← okOr (checkedI128 (amount - feeAmount)) .arithmeticError
        emitPlatformFeeCollected id feeConfig.treasury feeAmount
        return netAmount
      else return amount)
    else return amount)

/-- `shipment.escrow_amount = net_amount; shipment.total_escrow = net_amount`. -/
@[simps]
def Shipment.fund (s : Shipment) (netAmount : ℤ) : Shipment :=
  { s with escrowAmount := netAmount, totalEscrow := netAmount }

/-- `deposit_escrow`: any company may pay in for any shipment. -/
def depositEscrow (source : Address) (id : ℕ) (amount : ℤ) : Contract H Unit := do
  openCall source
  requireRole source .company
  withReentrancyLock do
    validatePositiveAmount amount
    let shipment ← loadShipment id
    requireNotFinalized shipment
    rejectIf (shipment.status ≠ .created) .invalidStatus
    rejectIf (0 < shipment.escrowAmount) .escrowLocked
    let tokenContract ← okOr (← gets (·.ledger.tokenContract)) .notInitialized
    validateTokenDecimals tokenContract
    let contractAddress := H.currentContractAddress
    let settlementId ← createSettlement id .deposit amount source contractAddress
    onErr (invokeTokenTransfer tokenContract source contractAddress amount) fun e =>
      failSettlement settlementId id e.code
    completeSettlement settlementId id
    let netAmount ← collectPlatformFee id tokenContract amount
    let now ← timestamp
    persistShipment ((shipment.fund netAmount).touch now)
    setEscrow id netAmount
    addTotalEscrowVolume amount
    extendShipmentTtl id
    emitEscrowDeposited id source netAmount

/-! ### Cancellation -/

/-- `cancel_shipment`: the record's escrow becomes zero and an event says it was
released to the sender; the token is not called. -/
def cancelShipment (caller : Address) (id : ℕ) (reasonHash : BytesN32) : Contract H Unit := do
  openCall caller
  validateHash reasonHash
  let admin ← getAdmin
  let shipment ← loadShipment id
  requireNotFinalized shipment
  rejectIf (caller ≠ shipment.sender ∧ caller ≠ admin) .unauthorized
  when (caller = shipment.sender) do
    requireActiveCompany caller
  rejectIf (shipment.status = .delivered ∨ shipment.status = .disputed) .shipmentAlreadyCompleted
  let now ← timestamp
  let cancelled := ((shipment.withStatus .cancelled).withEscrow 0).touch now
  persistShipment cancelled
  moveStatusCount shipment.status .cancelled
  when (shipment.status ≠ .cancelled) do
    decrementActiveShipmentCount shipment.sender
  when (0 < shipment.escrowAmount) do
    removeEscrow id
    emitEscrowReleased id shipment.sender shipment.escrowAmount
  persistShipment cancelled.finalizeIfSettled
  removeEscrow id
  extendShipmentTtl id
  emitShipmentCancelled id caller reasonHash

/-- `force_cancel_shipment`: the admin; the escrow goes back to the sender. -/
def forceCancelShipment (admin : Address) (id : ℕ) (reasonHash : BytesN32) :
    Contract H Unit := do
  openCall admin
  requireAdmin admin
  validateHash reasonHash
  let shipment ← loadShipment id
  requireNotFinalized shipment
  rejectIf (shipment.status = .delivered ∨ shipment.status = .cancelled) .shipmentAlreadyCompleted
  let escrowLeft ← (if 0 < shipment.escrowAmount then do
      let tokenContract ← okOr (← gets (·.ledger.tokenContract)) .notInitialized
      invokeTokenTransfer tokenContract H.currentContractAddress shipment.sender
        shipment.escrowAmount
      emitEscrowRefunded id shipment.sender shipment.escrowAmount
      return 0
    else return shipment.escrowAmount)
  let now ← timestamp
  moveStatusCount shipment.status .cancelled
  decrementActiveShipmentCount shipment.sender
  persistShipment
    (((shipment.withStatus .cancelled).withEscrow escrowLeft).touch now).finalizeIfSettled
  extendShipmentTtl id
  emitForceCancelled id admin reasonHash shipment.escrowAmount

/-- `check_deadline`: anyone, once the deadline and the grace period are over. -/
def checkDeadline (id : ℕ) : Contract H Unit := do
  requireInitialized
  let shipment ← loadShipment id
  let config ← gets (·.getConfig)
  let now ← timestamp
  rejectIf (now < saturatingAddU64 shipment.deadline config.deadlineGraceSeconds) .notExpired
  rejectIf (shipment.status = .delivered ∨ shipment.status = .disputed ∨
    shipment.status = .cancelled) .shipmentAlreadyCompleted
  persistShipment (((shipment.withStatus .cancelled).withEscrow 0).touch now)
  moveStatusCount shipment.status .cancelled
  decrementActiveShipmentCount shipment.sender
  when (0 < shipment.escrowAmount) do
    removeEscrow id
    let tokenContract ← okOr (← gets (·.ledger.tokenContract)) .notInitialized
    invokeTokenTransfer tokenContract H.currentContractAddress shipment.sender shipment.escrowAmount
    emitEscrowRefunded id shipment.sender shipment.escrowAmount
  extendShipmentTtl id
  emitShipmentExpired id

/-! ### Release and refund -/

/-- `release_escrow`: the receiver or the admin, after delivery. -/
def releaseEscrow (caller : Address) (id : ℕ) : Contract H Unit := do
  openCall caller
  withReentrancyLock do
    let admin ← getAdmin
    let shipment ← loadShipment id
    requireNotFinalized shipment
    rejectIf (caller ≠ shipment.receiver ∧ caller ≠ admin) .unauthorized
    rejectIf (shipment.status ≠ .delivered) .invalidStatus
    rejectIf (shipment.escrowAmount = 0) .insufficientFunds
    let shipment ← internalReleaseEscrow shipment shipment.escrowAmount
    persistShipment shipment.finalizeIfSettled
    publish (.notification shipment.sender .escrowReleased id 0)
    publish (.notification shipment.carrier .escrowReleased id 0)

/-- `refund_escrow`: the sender or the admin, before transit or after a
cancellation; a failed transfer returns early, with the settlement pending. -/
def refundEscrow (caller : Address) (id : ℕ) : Contract H Unit := do
  openCall caller
  withReentrancyLock do
    let admin ← getAdmin
    let shipment ← loadShipment id
    rejectIf (caller ≠ shipment.sender ∧ caller ≠ admin) .unauthorized
    requireNotFinalized shipment
    when (caller = shipment.sender) do
      requireActiveCompany caller
    rejectIf (shipment.status ≠ .created ∧ shipment.status ≠ .cancelled) .invalidStatus
    rejectIf (shipment.escrowAmount = 0) .insufficientFunds
    let tokenContract ← okOr (← gets (·.ledger.tokenContract)) .notInitialized
    let contractAddress := H.currentContractAddress
    let settlementId ←
      createSettlement id .refund shipment.escrowAmount contractAddress shipment.sender
    invokeTokenTransfer tokenContract contractAddress shipment.sender shipment.escrowAmount
    completeSettlement settlementId id
    let now ← timestamp
    persistShipment
      (((shipment.withEscrow 0).withStatus .cancelled).touch now).finalizeIfSettled
    moveStatusCount shipment.status .cancelled
    when (shipment.status ≠ .cancelled) do
      decrementActiveShipmentCount shipment.sender
    extendShipmentTtl id
    emitEscrowRefunded id shipment.sender shipment.escrowAmount

/-! ### Disputes -/

/-- `raise_dispute`: any of the three parties; cancelled and disputed shipments
are excluded, delivered ones are not. -/
def raiseDispute (caller : Address) (id : ℕ) (reasonHash : BytesN32) : Contract H Unit := do
  openCall caller
  validateHash reasonHash
  let shipment ← loadShipment id
  requireNotFinalized shipment
  rejectIf (caller ≠ shipment.sender ∧ caller ≠ shipment.receiver ∧ caller ≠ shipment.carrier)
    .unauthorized
  when (caller = shipment.sender) do
    requireActiveCompany caller
  rejectIf (shipment.status = .cancelled ∨ shipment.status = .disputed) .shipmentAlreadyCompleted
  let now ← timestamp
  persistShipment ((shipment.withStatus .disputed).touch now)
  moveStatusCount shipment.status .disputed
  incrementTotalDisputes
  setEscrowFreezeReason id .disputeRaised
  extendShipmentTtl id
  publish (.disputeRaised id caller reasonHash)
  emitEscrowFrozen id .disputeRaised caller
  publish (.notification shipment.sender .disputeRaised id reasonHash)
  publish (.notification shipment.receiver .disputeRaised id reasonHash)
  publish (.notification shipment.carrier .disputeRaised id reasonHash)

namespace DisputeResolution

/-- The status a resolution ends in. -/
def status : DisputeResolution → ShipmentStatus
  | .releaseToCarrier => .delivered
  | .refundToCompany => .cancelled

/-- Who is paid. -/
def recipient (r : DisputeResolution) (s : Shipment) : Address :=
  match r with
  | .releaseToCarrier => s.carrier
  | .refundToCompany => s.sender

def operation : DisputeResolution → SettlementOperation
  | .releaseToCarrier => .release
  | .refundToCompany => .refund

end DisputeResolution

/-- The payment events of a resolution. -/
def emitResolutionPaid (resolution : DisputeResolution) (id : ℕ) (shipment : Shipment)
    (amount : ℤ) : Contract H Unit :=
  match resolution with
  | .releaseToCarrier => emitEscrowReleased id shipment.carrier amount
  | .refundToCompany => do
    emitEscrowRefunded id shipment.sender amount
    publish (.carrierDisputeLoss shipment.carrier id)

/-- `resolve_dispute`: the admin or an unsuspended guardian; the whole escrow
goes to one side. -/
def resolveDispute (admin : Address) (id : ℕ) (resolution : DisputeResolution)
    (reasonHash : BytesN32) : Contract H Unit := do
  openCall admin
  requireAdminOrGuardian admin
  rejectIf (reasonHash = 0) .disputeReasonHashMissing
  checkIdempotency (beBytes 8 id ++ resolution.toXdr ++ beBytes 32 reasonHash.toNat)
  let shipment ← loadShipment id
  requireNotFinalized shipment
  rejectIf (shipment.status ≠ .disputed) .invalidStatus
  rejectIf (shipment.escrowAmount = 0) .insufficientFunds
  let now ← timestamp
  let tokenContract ← okOr (← gets (·.ledger.tokenContract)) .notInitialized
  let contractAddress := H.currentContractAddress
  let recipient := resolution.recipient shipment
  let settlementId ← createSettlement id resolution.operation shipment.escrowAmount contractAddress
    recipient
  invokeTokenTransfer tokenContract contractAddress recipient shipment.escrowAmount
  completeSettlement settlementId id
  moveStatusCount .disputed resolution.status
  decrementActiveShipmentCount shipment.sender
  persistShipment
    (((shipment.withEscrow 0).touch now).withStatus resolution.status).finalizeIfSettled
  removeEscrow id
  extendShipmentTtl id
  emitResolutionPaid resolution id shipment shipment.escrowAmount
  emitDisputeResolved id resolution reasonHash admin
  publish (.notification shipment.sender .disputeResolved id reasonHash)
  publish (.notification shipment.receiver .disputeResolved id reasonHash)
  publish (.notification shipment.carrier .disputeResolved id reasonHash)

end Navin
