/-
# The helpers of the entry points

The private functions of `lib.rs`: guards on roles, the reentrancy lock, the
token call behind the circuit breaker, settlements, and `internalReleaseEscrow`,
through which every payment to a carrier but the multi-signature one goes.

Key definitions:
- `requireRole`, `requireAdminOrGuardian`, `requireAdminOrOperator`;
- `invokeTokenTransfer`: breaker check, token call, breaker record;
- `createSettlement`, `completeSettlement`, `failSettlement`;
- `persistShipment`, `finalizeIfSettled`, `internalReleaseEscrow`.
-/
import Navin.Events
import Navin.Validation
import Mathlib.Tactic.Simps.Basic

namespace Navin

open Tx

variable {H : Host}

/-! ### Guards -/

def requireInitialized : Contract H Unit := do
  let w ← gets fun w => w
  rejectIf (w.isInitialized = false) .notInitialized

def requireNotPaused : Contract H Unit := do
  let paused ← gets (·.governance.isPaused)
  rejectIf (paused = true) .contractPaused

/-- `require_admin`. -/
def requireAdmin (caller : Address) : Contract H Unit := do
  let admin ← getAdmin
  rejectIf (admin ≠ caller) .unauthorized

/-- The role and not suspended in it. -/
def World.hasActiveRole (w : World H) (a : Address) (role : Role) : Bool :=
  w.hasRole a role && !w.isRoleSuspended a role

/-- The shared body of `require_admin_or_guardian` and `require_admin_or_operator`. -/
def requireAdminOr (role : Role) (a : Address) : Contract H Unit := do
  requireInitialized
  let admin ← getAdmin
  let active ← gets (·.hasActiveRole a role)
  rejectIf (admin ≠ a ∧ active = false) .unauthorized

def requireAdminOrGuardian (a : Address) : Contract H Unit := requireAdminOr .guardian a

def requireAdminOrOperator (a : Address) : Contract H Unit := requireAdminOr .operator a

/-- `require_role`: companies and carriers have a suspension flag of their own
besides that of the role. -/
def requireRole (a : Address) (role : Role) : Contract H Unit := do
  requireInitialized
  let w ← gets fun w => w
  rejectIf (role = .unassigned) .unauthorized
  rejectIf (w.hasRole a role = false) .unauthorized
  rejectIf (w.isRoleSuspended a role = true) .unauthorized
  rejectIf (role = .company ∧ w.isCompanySuspended a = true) .companySuspended
  rejectIf (role = .carrier ∧ w.isCarrierSuspended a = true) .carrierSuspended

def requireActiveCompany (company : Address) : Contract H Unit := do
  let w ← gets fun w => w
  rejectIf (w.isCompanySuspended company = true) .companySuspended
  rejectIf (w.isRoleSuspended company .company = true) .unauthorized

def requireActiveCarrier (carrier : Address) : Contract H Unit := do
  let w ← gets fun w => w
  rejectIf (w.isCarrierSuspended carrier = true) .carrierSuspended
  rejectIf (w.isRoleSuspended carrier .carrier = true) .unauthorized

def requireNotFinalized (s : Shipment) : Contract H Unit :=
  rejectIf (s.finalized = true) .shipmentFinalized

/-- `storage::get_shipment(..).ok_or(ShipmentNotFound)?`. -/
def loadShipment (id : ℕ) : Contract H Shipment := do
  okOr (← gets (·.getShipment id)) .shipmentNotFound

/-- The lock is set around the operation and cleared whatever its result. -/
def withReentrancyLock {α : Type} (operation : Contract H α) : Contract H α := do
  let locked ← gets (·.governance.reentrancyLock)
  rejectIf (locked = true) .reentrancyDetected
  modifyGovernance fun g => { g with reentrancyLock := true }
  ensure operation fun w => { w with governance := { w.governance with reentrancyLock := false } }

/-- `check_idempotency`. -/
def checkIdempotency (payload : List UInt8) : Contract H Unit := do
  let actionHash := H.sha256 payload
  let present ← hasIdempotencyWindow actionHash
  rejectIf (present = true) .duplicateAction
  let config ← gets (·.getConfig)
  setIdempotencyWindow actionHash config.idempotencyWindowSeconds

def extendShipmentTtl (id : ℕ) : Contract H Unit := do
  let config ← gets (·.getConfig)
  storageExtendShipmentTtl id config.shipmentTtlThreshold config.shipmentTtlExtension

/-! ### The token behind the breaker -/

/-- `check_transfer_allowed`: the tracker is stored only when it allows. -/
def checkTransferAllowed (config : CircuitBreakerConfig) : Contract H Unit := do
  let now ← timestamp
  let breaker ← getBreaker
  let verdict ← unwrap (breaker.shouldAllowRequest config now)
  let breaker ← liftResult verdict
  setBreaker breaker

def recordTransferSuccess : Contract H Unit := do
  let breaker ← getBreaker
  setBreaker breaker.recordSuccess

def recordTransferFailure (config : CircuitBreakerConfig) : Contract H Unit := do
  let now ← timestamp
  let breaker ← getBreaker
  let breaker ← unwrap (breaker.recordFailure config now)
  when (breaker.state = .opened) do
    publish (.circuitBreakerOpened breaker.failureCount now)
  setBreaker breaker

/-- `validate_token_decimals`. -/
def validateTokenDecimals (tokenContract : Address) : Contract H Unit := do
  let token ← gets (·.ledger.token)
  rejectIf (H.decimals token tokenContract ≠ some expectedTokenDecimals) .invalidTokenDecimals

/-- `invoke_token_operation` for `transfer`. The contract vouches for itself. -/
def invokeTokenOperation (tokenContract source target : Address) (amount : ℤ) :
    Contract H Unit := do
  let env ← ask
  let token ← gets (·.ledger.token)
  let auth := fun a => env.auth a || a = H.currentContractAddress
  let token ← okOr (H.transfer token auth tokenContract source target amount) .tokenTransferFailed
  modifyLedger fun l => { l with token := token }
  log (.transfer tokenContract source target amount)

/-- `invoke_token_transfer`. -/
def invokeTokenTransfer (tokenContract source target : Address) (amount : ℤ) :
    Contract H Unit := do
  let config ← getBreakerConfig
  checkTransferAllowed config
  onErr (invokeTokenOperation tokenContract source target amount) fun _ =>
    recordTransferFailure config
  recordTransferSuccess

/-! ### Settlements -/

/-- `create_settlement`: a pending record under the next number. -/
def createSettlement (shipmentId : ℕ) (operation : SettlementOperation) (amount : ℤ)
    (source target : Address) : Contract H ℕ := do
  let settlementId ← incrementSettlementCounter
  let now ← timestamp
  setSettlement {
    settlementId, shipmentId, operation, amount, source, target
    state := .pending
    initiatedAt := now
    completedAt := none
    errorCode := none }
  setActiveSettlement shipmentId settlementId
  return settlementId

/-- `complete_settlement`. -/
def completeSettlement (settlementId shipmentId : ℕ) : Contract H Unit := do
  let settlement ← okOr (← gets (·.ledger.settlement settlementId)) .shipmentNotFound
  let now ← timestamp
  setSettlement { settlement with state := .completed, completedAt := some now }
  clearActiveSettlement shipmentId

/-- `fail_settlement`. -/
def failSettlement (settlementId shipmentId errorCode : ℕ) : Contract H Unit := do
  let settlement ← okOr (← gets (·.ledger.settlement settlementId)) .shipmentNotFound
  let now ← timestamp
  setSettlement { settlement with
    state := .failed, completedAt := some now, errorCode := some errorCode }
  clearActiveSettlement shipmentId

/-! ### Records -/

/-- `persist_shipment`: checked, stored, and mirrored in the `Escrow` entry. -/
def persistShipment (s : Shipment) : Contract H Unit := do
  liftResult (validateShipmentInvariants s)
  setShipment s
  setEscrow s.id s.escrowAmount

namespace Shipment

@[simps]
def withStatus (s : Shipment) (status : ShipmentStatus) : Shipment := { s with status := status }

@[simps]
def withEscrow (s : Shipment) (amount : ℤ) : Shipment := { s with escrowAmount := amount }

@[simps]
def withUpdatedAt (s : Shipment) (now : ℕ) : Shipment := { s with updatedAt := now }

@[simps]
def withFinalized (s : Shipment) (b : Bool) : Shipment := { s with finalized := b }

@[simps]
def withCarrier (s : Shipment) (carrier : Address) : Shipment := { s with carrier := carrier }

@[simps]
def withDataHash (s : Shipment) (hash : BytesN32) : Shipment := { s with dataHash := hash }

@[simps]
def withMetadata (s : Shipment) (metadata : List (Symbol × Symbol)) : Shipment :=
  { s with metadata := some metadata }

/-- `shipment.integration_nonce.saturating_add(1)`. -/
@[simps]
def bumpNonce (s : Shipment) : Shipment :=
  { s with integrationNonce := saturatingAddU32 s.integrationNonce 1 }

/-- The new update time and the next nonce, written together by most entry points. -/
@[simps]
def touch (s : Shipment) (now : ℕ) : Shipment :=
  { s with updatedAt := now, integrationNonce := saturatingAddU32 s.integrationNonce 1 }

/-- `finalize_if_settled`: the flag is set, or left as it is. -/
@[simps]
def finalizeIfSettled (s : Shipment) : Shipment :=
  { s with
    finalized :=
      if (s.status = .delivered ∨ s.status = .cancelled) ∧ s.escrowAmount = 0 then true
      else s.finalized }

end Shipment

/-- `internal_release_escrow`: pays the carrier at most what is left in escrow
and returns the record as the caller's `&mut` sees it afterwards. -/
def internalReleaseEscrow (shipment : Shipment) (amount : ℤ) : Contract H Shipment :=
  if amount ≤ 0 then return shipment else
  let actualRelease := if shipment.escrowAmount < amount then shipment.escrowAmount else amount
  if 0 < actualRelease then do
    let tokenContract ← okOr (← gets (·.ledger.tokenContract)) .notInitialized
    let contractAddress := H.currentContractAddress
    let settlementId ←
      createSettlement shipment.id .release actualRelease contractAddress shipment.carrier
    onErr (invokeTokenTransfer tokenContract contractAddress shipment.carrier actualRelease)
      fun e => failSettlement settlementId shipment.id e.code
    completeSettlement settlementId shipment.id
    let escrowAmount ← checkedSubEscrow shipment.escrowAmount actualRelease
    let now ← timestamp
    let shipment := (shipment.withEscrow escrowAmount).touch now
    persistShipment shipment
    emitEscrowReleased shipment.id shipment.carrier actualRelease
    return shipment
  else return shipment

/-! ### Dependencies -/

/-- The loop of `would_create_cycle`: a depth-first search along the stored
prerequisites with a list of visited ids. `none` is a search that goes on for
ever, which takes infinitely many ids. -/
def Dossier.wouldCreateCycleLoop (d : Dossier) (dependentId : ℕ) (visited : List ℕ) :
    List ℕ → Option Bool
  | [] => some false
  | current :: stack =>
    if current = dependentId then some true
    else if current ∈ visited then d |>.wouldCreateCycleLoop dependentId visited stack
    else d |>.wouldCreateCycleLoop dependentId (visited ++ [current])
      ((d.shipmentDependents current).reverse ++ stack)
partial_fixpoint

/-- `would_create_cycle`. -/
def World.wouldCreateCycle (w : World H) (dependentId proposedPrereqId : ℕ) : Option Bool :=
  w.dossier.wouldCreateCycleLoop dependentId [] [proposedPrereqId]

end Navin
