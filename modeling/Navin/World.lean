/-
# What a call reads and writes

The host the contract runs on, the invocation a call sees, and the storage it
changes. The storage entries of `types.rs` (`DataKey`) are grouped by what they
are for: the ledger of shipments, escrow and settlements; the registry of roles
and quotas; the dossier kept beside each shipment; governance. The trace is the
call's visible behaviour in the order it happens: the authorisations it demands,
the token transfers it makes, the events it publishes.

Key definitions:
- `Host`: the hash function and the token contract, which are not part of this
  program;
- `Env`: ledger time, ledger number and the addresses that signed the call;
- `World`, `Contract` (the monad of the entry points) and the trace effects.
-/
import Navin.Lib.Tx
import Navin.Config

namespace Navin

/-! ### Host and invocation -/

/-- The environment outside the program: the contract's own address, the hash
function, and the token contracts with their joint state. -/
structure Host where
  currentContractAddress : Address
  sha256 : List UInt8 → BytesN32
  Token : Type
  /-- The balance of a holder at a token contract. -/
  balance : Token → Address → Address → ℤ
  /-- `transfer(from, to, amount)` of a token contract, given who authorised it;
  `none` when the token refuses. -/
  transfer : Token → (Address → Bool) → Address → Address → Address → ℤ → Option Token
  /-- `decimals()` of a token contract; `none` when the call fails. -/
  decimals : Token → Address → Option ℕ

/-- What the host tells a call: `auth` holds of the addresses that signed it. -/
structure Env where
  timestamp : ℕ
  sequence : ℕ
  auth : Address → Bool
  /-- The executables uploaded to the network. -/
  wasmUploaded : BytesN32 → Bool

/-! ### Events -/

/-- The common tail of an indexed event: schema version, the shipment's event
counter and the key derived from it. -/
structure EventKey where
  schemaVersion : ℕ
  eventCounter : ℕ
  idempotencyKey : BytesN32
  deriving DecidableEq

inductive AuditEventType where
  | roleAssigned | roleRevoked | roleSuspended | roleReactivated | adminTransferred
  | carrierWhitelisted | carrierUnwhitelisted | companySuspended | companyReactivated
  | carrierSuspended | carrierReactivated
  deriving DecidableEq, Repr

structure AuditLogEntry where
  entryId : ℕ
  eventType : AuditEventType
  actor : Address
  target : Address
  timestamp : ℕ
  deriving DecidableEq

/-- The published events, each with the fields of its payload. -/
inductive Event where
  | shipmentCreated (id : ℕ) (sender receiver token : Address) (dataHash : BytesN32) (key : EventKey)
  | statusUpdated (id : ℕ) (oldStatus newStatus : ShipmentStatus) (token : Address)
      (dataHash : BytesN32) (key : EventKey)
  | milestoneRecorded (id : ℕ) (checkpoint : Symbol) (dataHash : BytesN32) (reporter : Address)
      (key : EventKey)
  | escrowDeposited (id : ℕ) (source token : Address) (amount : ℤ) (key : EventKey)
  | escrowReleased (id : ℕ) (recipient token : Address) (amount : ℤ) (key : EventKey)
  | escrowRefunded (id : ℕ) (recipient token : Address) (amount : ℤ) (key : EventKey)
  | milestonePaymentReleased (id : ℕ) (milestone : Symbol) (amount : ℤ) (recipient : Address)
      (key : EventKey)
  | disputeRaised (id : ℕ) (raisedBy : Address) (reasonHash : BytesN32)
  | shipmentCancelled (id : ℕ) (caller : Address) (reasonHash : BytesN32) (key : EventKey)
  | contractUpgraded (admin : Address) (newWasmHash : BytesN32) (version : ℕ)
  | migrationReported (report : MigrationReport)
  | carrierHandoff (id : ℕ) (fromCarrier toCarrier : Address) (handoffHash : BytesN32)
  | conditionBreach (id : ℕ) (carrier : Address) (breachType : BreachType) (severity : Severity)
      (dataHash : BytesN32)
  | adminProposed (currentAdmin proposedAdmin : Address)
  | adminTransferred (oldAdmin newAdmin : Address)
  | shipmentExpired (id : ℕ) (key : EventKey)
  | deliverySuccess (carrier : Address) (id deliveryTime : ℕ) (key : EventKey)
  | carrierBreach (carrier : Address) (id : ℕ) (breachType : BreachType) (severity : Severity)
  | carrierDisputeLoss (carrier : Address) (id : ℕ)
  | notification (recipient : Address) (notificationType : NotificationType) (id : ℕ) (dataHash : BytesN32)
  | shipmentArchived (id timestamp : ℕ)
  | carrierLateDelivery (carrier : Address) (id deadline actualDeliveryTime : ℕ)
  | carrierOnTimeDelivery (carrier : Address) (id : ℕ)
  | carrierHandoffCompleted (fromCarrier toCarrier : Address) (id : ℕ)
  | roleRevoked (admin target : Address) (role : Role)
  | roleChanged (action : RoleChangeAction) (admin target : Address) (role : Role) (timestamp : ℕ)
  | carrierMilestoneRate (carrier : Address) (id milestonesHit totalMilestones : ℕ)
  | forceCancelled (id : ℕ) (admin : Address) (reasonHash : BytesN32) (escrowRefunded : ℤ)
  | noteAppended (id noteIndex : ℕ) (noteHash : BytesN32) (reporter : Address)
  | evidenceAdded (id evidenceIndex : ℕ) (evidenceHash : BytesN32) (reporter : Address)
  | disputeResolved (id : ℕ) (resolution : DisputeResolution) (reasonHash : BytesN32)
      (admin : Address) (key : EventKey)
  | contractPaused (admin : Address) (timestamp : ℕ)
  | contractUnpaused (admin : Address) (timestamp : ℕ)
  | recoveryEvent (id : ℕ) (admin : Address) (oldStatus newStatus : ShipmentStatus)
      (reasonHash : BytesN32) (timestamp : ℕ)
  | escrowUnlockEvent (id : ℕ) (admin : Address) (oldAmount : ℤ) (reasonHash : BytesN32)
      (timestamp : ℕ)
  | finalizationClearEvent (id : ℕ) (admin : Address) (reasonHash : BytesN32) (timestamp : ℕ)
  | escrowFrozen (id : ℕ) (reason : EscrowFreezeReason) (caller : Address) (timestamp : ℕ)
  | platformFeeCollected (id : ℕ) (treasury : Address) (amount : ℤ) (key : EventKey)
  | feeConfigUpdated (admin : Address) (feeBps : ℕ) (treasury : Address) (schemaVersion : ℕ)
  | contractInitialized (admin tokenContract : Address)
  | shipmentLimitUpdated (admin : Address) (limit : ℕ)
  | companyLimitUpdated (admin company : Address) (limit : ℕ)
  | carrierSuspended (admin carrier : Address)
  | carrierReactivated (admin carrier : Address)
  | deliveryConfirmed (id : ℕ) (receiver : Address) (dataHash : BytesN32) (key : EventKey)
  | geofenceEvent (id : ℕ) (zoneType : GeofenceEvent) (dataHash : BytesN32) (key : EventKey)
  | etaUpdated (id newEta : ℕ) (dataHash : BytesN32) (key : EventKey)
  | proposalDigest (proposalId : ℕ) (digest : BytesN32) (computedAt : ℕ)
  | configUpdated (admin : Address) (config : ContractConfig)
  | quotaSet (company : Address) (count windowStart : ℕ)
  | circuitBreakerOpened (failureCount timestamp : ℕ)
  | circuitBreakerReset (admin : Address) (timestamp : ℕ)
  | circuitBreakerConfigSet (failureThreshold recoveryTimeout halfOpenMax : ℕ)
  | audit (entry : AuditLogEntry)
  | carrierWhitelisted (company carrier : Address)
  | carrierUnwhitelisted (company carrier : Address)
  | multisigInitialized (adminCount threshold : ℕ)
  | actionApproved (proposalId : ℕ) (approver : Address) (approvals : ℕ)
  | proposalExecuted (proposalId : ℕ) (action : AdminAction)
  deriving DecidableEq

/-- One step of a call's visible behaviour. -/
inductive Effect where
  | auth (a : Address)
  | transfer (token source target : Address) (amount : ℤ)
  | event (e : Event)
  deriving DecidableEq

/-! ### Storage -/

/-- Shipments, their escrow, the status counters, the settlements, the token. -/
structure Ledger (Token : Type) where
  admin : Option Address
  tokenContract : Option Address
  shipmentCount : ℕ
  shipment : ℕ → Option Shipment
  /-- A temporary entry of the host; that the host drops it in the end is left out. -/
  archivedShipment : ℕ → Option Shipment
  escrow : ℕ → Option ℤ
  statusCount : ShipmentStatus → ℕ
  settlementCounter : ℕ
  settlement : ℕ → Option SettlementRecord
  activeSettlement : ℕ → Option ℕ
  token : Token

/-- Roles, suspensions, whitelists, limits and quotas. -/
structure Registry where
  userRole : Address → Role → Bool
  role : Address → Option Role
  roleSuspended : Address → Role → Bool
  carrierSuspended : Address → Bool
  companySuspended : Address → Bool
  carrierWhitelist : Address → Address → Bool
  shipmentLimit : Option ℕ
  companyShipmentLimit : Address → Option ℕ
  activeShipmentCount : Address → ℕ
  companyCreationQuota : Address → Option CreationQuotaTracker

/-- The entries kept beside each shipment. -/
structure Dossier where
  confirmationHash : ℕ → Option BytesN32
  lastStatusUpdate : ℕ → Option ℕ
  statusHash : ℕ → ShipmentStatus → Option BytesN32
  escrowFreezeReason : ℕ → Option EscrowFreezeReason
  eventCount : ℕ → Option ℕ
  milestoneEventCount : ℕ → Option ℕ
  breachEventCount : ℕ → Option ℕ
  noteCount : ℕ → Option ℕ
  note : ℕ → ℕ → Option BytesN32
  evidenceCount : ℕ → Option ℕ
  evidence : ℕ → ℕ → Option BytesN32
  recoveryRecordCount : ℕ → Option ℕ
  recoveryRecord : ℕ → ℕ → Option RecoveryRecord
  shipmentDependents : ℕ → List ℕ

/-- Administration, the multi-signature proposals, configuration, the audit log. -/
structure Governance where
  version : Option ℕ
  proposedAdmin : Option Address
  adminList : Option (List Address)
  multisigThreshold : Option ℕ
  proposalCounter : ℕ
  proposal : ℕ → Option Proposal
  proposalDigest : ℕ → Option ProposalActionDigest
  proposalSalt : BytesN32 → Bool
  config : Option ContractConfig
  configChecksum : Option BytesN32
  feeConfig : Option FeeConfig
  treasury : Option Address
  isPaused : Bool
  reentrancyLock : Bool
  breaker : Option CircuitBreakerTracker
  breakerConfig : Option CircuitBreakerConfig
  auditEntryCount : ℕ
  auditEntry : ℕ → Option AuditLogEntry
  totalEscrowVolume : ℤ
  totalDisputes : ℕ
  /-- An idempotency window is a temporary entry: the ledger it lives until. -/
  idempotencyWindow : BytesN32 → Option ℕ
  wasm : Option BytesN32

/-- The contract's storage, the token's state and the trace of the current call. -/
structure World (H : Host) where
  ledger : Ledger H.Token
  registry : Registry
  dossier : Dossier
  governance : Governance
  trace : List Effect

/-- The monad of the contract's functions. -/
abbrev Contract (H : Host) (α : Type) := Tx Env (World H) NavinError α

/-! ### Deployed, not yet initialised -/

def Ledger.empty {Token : Type} (token : Token) : Ledger Token where
  admin := none
  tokenContract := none
  shipmentCount := 0
  shipment _ := none
  archivedShipment _ := none
  escrow _ := none
  statusCount _ := 0
  settlementCounter := 0
  settlement _ := none
  activeSettlement _ := none
  token := token

def Registry.empty : Registry where
  userRole _ _ := false
  role _ := none
  roleSuspended _ _ := false
  carrierSuspended _ := false
  companySuspended _ := false
  carrierWhitelist _ _ := false
  shipmentLimit := none
  companyShipmentLimit _ := none
  activeShipmentCount _ := 0
  companyCreationQuota _ := none

def Dossier.empty : Dossier where
  confirmationHash _ := none
  lastStatusUpdate _ := none
  statusHash _ _ := none
  escrowFreezeReason _ := none
  eventCount _ := none
  milestoneEventCount _ := none
  breachEventCount _ := none
  noteCount _ := none
  note _ _ := none
  evidenceCount _ := none
  evidence _ _ := none
  recoveryRecordCount _ := none
  recoveryRecord _ _ := none
  shipmentDependents _ := []

def Governance.empty : Governance where
  version := none
  proposedAdmin := none
  adminList := none
  multisigThreshold := none
  proposalCounter := 0
  proposal _ := none
  proposalDigest _ := none
  proposalSalt _ := false
  config := none
  configChecksum := none
  feeConfig := none
  treasury := none
  isPaused := false
  reentrancyLock := false
  breaker := none
  breakerConfig := none
  auditEntryCount := 0
  auditEntry _ := none
  totalEscrowVolume := 0
  totalDisputes := 0
  idempotencyWindow _ := none
  wasm := none

/-- The storage of a contract that was deployed and not called yet. -/
def World.deployed {H : Host} (token : H.Token) : World H :=
  ⟨Ledger.empty token, Registry.empty, Dossier.empty, Governance.empty, []⟩

end Navin
