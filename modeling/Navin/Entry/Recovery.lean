/-
# Recovery operations

The admin's emergency edits of a record (`recovery.rs`). They store the record
directly: neither the status counters nor the `Escrow` entry nor the token is
touched.

Key definitions:
- `recoverShipment`, `unlockEscrow`, `clearFinalization`,
  `rollbackOnExternalFailure`;
- `recoveryEdit`, what the four have in common.
-/
import Navin.Entry.Multisig

namespace Navin

open Tx

variable {H : Host}

/-- `is_valid_recovery_transition`, arm by arm. -/
def isValidRecoveryTransition : ShipmentStatus → ShipmentStatus → Bool
  | _, .cancelled => true
  | .created, .disputed | .inTransit, .disputed | .atCheckpoint, .disputed => true
  | .disputed, .delivered | .inTransit, .delivered | .atCheckpoint, .delivered => true
  | .created, .inTransit => true
  | .inTransit, .atCheckpoint => true
  | .atCheckpoint, .inTransit => true
  | _, _ => false

/-- `verify_escrow_consistency`. -/
def verifyEscrowConsistency (s : Shipment) : Contract H Unit := do
  rejectIf (s.escrowAmount < 0) .invalidAmount
  rejectIf (s.totalEscrow < s.escrowAmount) .invalidAmount

/-- The frame of a recovery operation: the admin's signature, the reason, the
record (live or archived), and after the edit the event and the recovery log. -/
def recoveryEdit (actionType : RecoveryActionType) (admin : Address) (id : ℕ)
    (reasonHash : BytesN32) (edit : Shipment → ℕ → Contract H Shipment)
    (event : Shipment → ℕ → Event) : Contract H Unit := do
  requireInitialized
  requireAuth admin
  requireAdmin admin
  validateHash reasonHash
  let shipment ← loadShipment id
  let now ← timestamp
  let edited ← edit shipment now
  setShipment edited
  extendShipmentTtl id
  publish (event shipment now)
  appendRecoveryRecord id ⟨actionType, admin, reasonHash, now⟩

/-- `recover_shipment`. -/
def recoverShipment (admin : Address) (id : ℕ) (targetStatus : ShipmentStatus)
    (reasonHash : BytesN32) : Contract H Unit :=
  recoveryEdit .recoverShipment admin id reasonHash
    (fun shipment now => do
      rejectIf (shipment.status = targetStatus) .invalidStatus
      rejectIf (isValidRecoveryTransition shipment.status targetStatus = false) .invalidStatus
      let edited := (shipment.withStatus targetStatus).withUpdatedAt now
      verifyEscrowConsistency edited
      return edited)
    (fun shipment now => .recoveryEvent id admin shipment.status targetStatus reasonHash now)

/-- `unlock_escrow`. -/
def unlockEscrow (admin : Address) (id : ℕ) (reasonHash : BytesN32) : Contract H Unit :=
  recoveryEdit .unlockEscrow admin id reasonHash
    (fun shipment now => do
      rejectIf (shipment.escrowAmount = 0) .escrowLocked
      return (shipment.withEscrow 0).withUpdatedAt now)
    (fun shipment now => .escrowUnlockEvent id admin shipment.escrowAmount reasonHash now)

/-- `clear_finalization`. -/
def clearFinalization (admin : Address) (id : ℕ) (reasonHash : BytesN32) : Contract H Unit :=
  recoveryEdit .clearFinalization admin id reasonHash
    (fun shipment now => do
      rejectIf (shipment.finalized = false) .invalidStatus
      return (shipment.withFinalized false).withUpdatedAt now)
    (fun _ now => .finalizationClearEvent id admin reasonHash now)

/-- `rollback_on_external_failure`: any status, and the finalization is undone. -/
def rollbackOnExternalFailure (admin : Address) (id : ℕ) (previousStatus : ShipmentStatus)
    (reasonHash : BytesN32) : Contract H Unit :=
  recoveryEdit .rollbackOnExternalFailure admin id reasonHash
    (fun shipment now =>
      return ((shipment.withFinalized false).withStatus previousStatus).touch now)
    (fun shipment now => .recoveryEvent id admin shipment.status previousStatus reasonHash now)

end Navin
