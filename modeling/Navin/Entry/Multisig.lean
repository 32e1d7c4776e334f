/-
# Multi-signature proposals

A list of admins proposes, approves and executes actions; two of the actions
settle a shipment whatever its status.

Key definitions:
- `initMultisig`, `proposeAction`, `approveAction`, `executeProposal`;
- `forceSettle`, the common body of the two forced settlements.
-/
import Navin.Entry.Escrow

namespace Navin

open Tx

variable {H : Host}

/-- `init_multisig`: may be called again; the proposal counter starts over. -/
def initMultisig (admin : Address) (admins : List Address) (threshold : ℕ) :
    Contract H Unit := do
  requireInitialized
  requireAuth admin
  requireAdmin admin
  let config ← gets (·.getConfig)
  rejectIf (admins.length < config.multisigMinAdmins ∨ config.multisigMaxAdmins < admins.length)
    .invalidMultiSigConfig
  rejectIf (¬admins.Nodup) .invalidConfig
  rejectIf (threshold = 0) .invalidMultiSigConfig
  rejectIf (admins.length < threshold) .invalidConfig
  modifyGovernance fun g => { g with
    adminList := some admins, multisigThreshold := some threshold, proposalCounter := 0 }
  publish (.multisigInitialized admins.length threshold)

/-- The bytes `compute_action_digest` hashes. -/
def actionDigestPayload (proposalId : ℕ) (action : AdminAction) : List UInt8 :=
  beBytes 8 proposalId ++ action.toXdr

/-- `propose_action`. -/
def proposeAction (proposer : Address) (action : AdminAction) : Contract H ℕ := do
  requireInitialized
  requireAuth proposer
  let listed ← gets (·.isAdmin proposer)
  rejectIf (listed = false) .notAnAdmin
  rejectIf (action = .upgrade 0) .invalidHash
  let counter ← gets (·.governance.proposalCounter)
  let proposalId ← okOr (checkedAddU64 counter 1) .counterOverflow
  let now ← timestamp
  let config ← gets (·.getConfig)
  rejectIf (config.proposalExpirySeconds = 0) .invalidConfig
  let expiresAt ← unwrap (checkedAddU64 now config.proposalExpirySeconds)
  setProposal ⟨proposalId, proposer, action, [proposer], now, expiresAt, false⟩
  modifyGovernance fun g => { g with proposalCounter := proposalId }
  let digest := H.sha256 (actionDigestPayload proposalId action)
  setProposalDigest proposalId ⟨proposalId, digest, now⟩
  publish (.proposalDigest proposalId digest now)
  return proposalId

/-- `propose_action_with_salt`. -/
def proposeActionWithSalt (proposer : Address) (action : AdminAction) (salt : BytesN32) :
    Contract H ℕ := do
  requireInitialized
  let listed ← gets (·.isAdmin proposer)
  rejectIf (listed = false) .notAnAdmin
  let used ← gets (·.governance.proposalSalt salt)
  rejectIf (used = true) .proposalSaltReused
  setProposalSaltUsed salt
  proposeAction proposer action

/-- A payment without a settlement, skipped when no token is set. -/
def payIfTokenSet (recipient : Address) (amount : ℤ) : Contract H Unit := do
  let tokenContract ← gets (·.ledger.tokenContract)
  whenSome tokenContract fun tokenContract =>
    invokeTokenTransfer tokenContract H.currentContractAddress recipient amount

/-- The common body of `ForceRelease` and `ForceRefund`: the escrow goes to the
recipient and the shipment to the given status. The status before may be any but
`Delivered` and `Cancelled`; a finalized record is not looked for. -/
def forceSettle (id : ℕ) (status : ShipmentStatus) (recipient : Shipment → Address)
    (emitPaid : ℕ → Address → ℤ → Contract H Unit) : Contract H Unit := do
  let shipment ← loadShipment id
  rejectIf (shipment.status = .delivered ∨ shipment.status = .cancelled) .shipmentAlreadyCompleted
  let escrowLeft ← (if 0 < shipment.escrowAmount then do
      payIfTokenSet (recipient shipment) shipment.escrowAmount
      emitPaid id (recipient shipment) shipment.escrowAmount
      return 0
    else return shipment.escrowAmount)
  let now ← timestamp
  moveStatusCount shipment.status status
  decrementActiveShipmentCount shipment.sender
  persistShipment
    (((shipment.withEscrow escrowLeft).withStatus status).touch now).finalizeIfSettled

def forceRelease (id : ℕ) : Contract H Unit :=
  forceSettle id .delivered (·.carrier) emitEscrowReleased

def forceRefund (id : ℕ) : Contract H Unit :=
  forceSettle id .cancelled (·.sender) emitEscrowRefunded

/-- The action of a proposal takes effect. -/
def performAction (proposer : Address) : AdminAction → Contract H Unit
  | .upgrade wasmHash => do
    let version ← gets (·.getVersion)
    let newVersion ← okOr (checkedAddU32 version 1) .counterOverflow
    setVersion newVersion
    publish (.contractUpgraded proposer wasmHash newVersion)
    updateCurrentContractWasm wasmHash
  | .transferAdmin newAdmin => do
    let oldAdmin ← getAdmin
    setAdmin newAdmin
    setRole newAdmin .company
    publish (.adminTransferred oldAdmin newAdmin)
  | .forceRelease id => forceRelease id
  | .forceRefund id => forceRefund id

/-- `execute_proposal_internal`. -/
def executeProposalInternal (proposalId : ℕ) : Contract H Unit := do
  let proposal ← okOr (← gets (·.governance.proposal proposalId)) .proposalNotFound
  let now ← timestamp
  rejectIf (proposal.expiresAt < now) .proposalExpired
  rejectIf (proposal.executed = true) .proposalAlreadyExecuted
  let threshold ← gets (·.governance.multisigThreshold)
  rejectIf (proposal.approvals.length < threshold.getD 2) .insufficientApprovals
  setProposal { proposal with executed := true }
  performAction proposal.proposer proposal.action
  publish (.proposalExecuted proposalId proposal.action)

/-- `approve_action`: the approval that reaches the threshold executes. -/
def approveAction (approver : Address) (proposalId : ℕ) : Contract H Unit := do
  requireInitialized
  requireAuth approver
  let listed ← gets (·.isAdmin approver)
  rejectIf (listed = false) .notAnAdmin
  let proposal ← okOr (← gets (·.governance.proposal proposalId)) .proposalNotFound
  let now ← timestamp
  rejectIf (proposal.expiresAt < now) .proposalExpired
  rejectIf (proposal.executed = true) .proposalAlreadyExecuted
  rejectIf (approver ∈ proposal.approvals) .alreadyApproved
  let approvals := proposal.approvals ++ [approver]
  setProposal { proposal with approvals := approvals }
  publish (.actionApproved proposalId approver approvals.length)
  let threshold ← gets (·.governance.multisigThreshold)
  when (threshold.getD 2 ≤ approvals.length) do
    executeProposalInternal proposalId

/-- `execute_proposal`: anyone, once the approvals are there. -/
def executeProposal (proposalId : ℕ) : Contract H Unit := do
  requireInitialized
  executeProposalInternal proposalId

end Navin
