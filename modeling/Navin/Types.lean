/-
# The data of the shipment contract

The contract's value types (`types.rs`, `errors.rs`, `config.rs`), under the
source's names. Hashes are 256-bit words, ledger times and counters are natural
numbers whose width is checked where the code computes with them, token amounts
are integers in the range of `i128`.

Key definitions:
- `ShipmentStatus.isValidTransition`, the lifecycle relation;
- `Shipment`, `SettlementRecord`, `Proposal`, `ContractConfig`;
- `NavinError` with the codes the contract returns;
- the checked arithmetic of the machine integers.
-/
import Mathlib.Data.BitVec
import Mathlib.Data.List.Basic
import Mathlib.Tactic.Common

namespace Navin

/-! ### Machine integers -/

def u32Max : ℕ := 2 ^ 32 - 1

def u64Max : ℕ := 2 ^ 64 - 1

def i128Max : ℤ := 2 ^ 127 - 1

def i128Min : ℤ := -2 ^ 127

/-- `u64::checked_add`. -/
def checkedAddU64 (a b : ℕ) : Option ℕ := if a + b ≤ u64Max then some (a + b) else none

/-- `u32::checked_add`. -/
def checkedAddU32 (a b : ℕ) : Option ℕ := if a + b ≤ u32Max then some (a + b) else none

def saturatingAddU64 (a b : ℕ) : ℕ := min (a + b) u64Max

def saturatingAddU32 (a b : ℕ) : ℕ := min (a + b) u32Max

/-- The result of an `i128` operation, when it is representable. -/
def checkedI128 (x : ℤ) : Option ℤ := if i128Min ≤ x ∧ x ≤ i128Max then some x else none

theorem checkedI128_eq_some {x y : ℤ} (h : checkedI128 x = some y) : y = x := by
  unfold checkedI128 at h
  split at h
  · exact (Option.some.inj h).symm
  · cases h

theorem checkedAddU64_eq_some {a b c : ℕ} (h : checkedAddU64 a b = some c) :
    c = a + b ∧ a + b ≤ u64Max := by
  unfold checkedAddU64 at h
  split at h
  · rename_i hle
    exact ⟨(Option.some.inj h).symm, hle⟩
  · cases h

theorem checkedAddU32_eq_some {a b c : ℕ} (h : checkedAddU32 a b = some c) : c = a + b := by
  unfold checkedAddU32 at h
  split at h
  · exact (Option.some.inj h).symm
  · cases h

/-! ### Bytes, symbols and addresses -/

/-- A 32-byte hash. -/
abbrev BytesN32 := BitVec 256

/-- The `n` low bytes of a number, most significant first (`to_be_bytes`). -/
def beBytes : ℕ → ℕ → List UInt8
  | 0, _ => []
  | n + 1, x => UInt8.ofNat (x / 256 ^ n) :: beBytes n x

/-- `u32::from_be_bytes`. -/
def fromBeBytes (bytes : List UInt8) : ℕ := bytes.foldl (fun x b => x * 256 + b.toNat) 0

/-- A byte of a host symbol: `[A-Za-z0-9_]`. -/
def isSymbolByte (b : UInt8) : Bool :=
  (48 ≤ b && b ≤ 57) || (65 ≤ b && b ≤ 90) || (97 ≤ b && b ≤ 122) || b = 95

/-- A host symbol: at most 32 bytes, each of them legal. -/
structure Symbol where
  bytes : List UInt8
  length_le : bytes.length ≤ 32
  legal : bytes.all isSymbolByte = true
  deriving DecidableEq

/-- The encoding of a symbol value: its tag, the length, the bytes padded with
zeros to a multiple of four. -/
def xdrSymbol (bytes : List UInt8) : List UInt8 :=
  beBytes 4 15 ++ beBytes 4 bytes.length ++ bytes ++
    List.replicate ((4 - bytes.length % 4) % 4) 0

/-- `Symbol::to_xdr`. -/
def Symbol.toXdr (s : Symbol) : List UInt8 := xdrSymbol s.bytes

/-- The address of an account or of a contract. -/
inductive Address where
  | account (id : BytesN32)
  | contract (id : BytesN32)
  deriving DecidableEq

/-- `Address::to_xdr`. -/
def Address.toXdr : Address → List UInt8
  | .account id => beBytes 4 18 ++ beBytes 4 0 ++ beBytes 4 0 ++ beBytes 32 id.toNat
  | .contract id => beBytes 4 18 ++ beBytes 4 1 ++ beBytes 32 id.toNat

/-! ### Errors -/

/-- `errors.rs`, in the order of the codes. -/
inductive NavinError where
  | alreadyInitialized | notInitialized | unauthorized | shipmentNotFound | invalidStatus
  | invalidHash | escrowLocked | insufficientFunds | shipmentAlreadyCompleted | invalidTimestamp
  | counterOverflow | invalidAmount | reentrancyDetected | batchTooLarge | invalidShipmentInput
  | milestoneSumInvalid | milestoneAlreadyPaid | metadataLimitExceeded | rateLimitExceeded
  | proposalNotFound | proposalAlreadyExecuted | proposalExpired | alreadyApproved
  | insufficientApprovals | notAnAdmin | invalidMultiSigConfig | notExpired
  | shipmentLimitReached | invalidConfig | cannotSelfRevoke | carrierSuspended
  | forceCancelReasonHashMissing | arithmeticError | disputeReasonHashMissing | companySuspended
  | shipmentFinalized | tokenTransferFailed | tokenMintFailed | duplicateAction
  | shipmentUnavailable | contractPaused | statusHashNotFound | dataHashMismatch
  | circuitBreakerOpen | invalidMigrationEdge | milestoneLimitExceeded | noteLimitExceeded
  | evidenceLimitExceeded | breachLimitExceeded | invalidTokenDecimals | creationQuotaExceeded
  | dependenciesNotMet | circularDependency | proposalSaltReused | invalidShipmentParticipants
  | invalidShipmentDeadline | invalidPaymentMilestones | duplicatePaymentMilestone
  | invalidTokenAddress | invalidPaymentMilestoneName | metadataSymbolCollision
  | externalIntegrationFailed | invalidSymbol | noteNotFound | evidenceNotFound
  | roleAlreadyAssigned | carrierAlreadyWhitelisted | invalidAddress | recoveryLimitExceeded
  deriving DecidableEq, Repr

/-- The numeric code; 12 and 13 are not used by the source. -/
def NavinError.code (e : NavinError) : ℕ := if e.ctorIdx < 11 then e.ctorIdx + 1 else e.ctorIdx + 3

example : NavinError.counterOverflow.code = 11 ∧ NavinError.invalidAmount.code = 14 ∧
    NavinError.recoveryLimitExceeded.code = 71 := by decide

/-! ### Enumerations -/

inductive Role where
  | company | carrier | guardian | operator | unassigned
  deriving DecidableEq, Repr

inductive RoleChangeAction where
  | assigned | revoked | suspended | reactivated
  deriving DecidableEq, Repr

inductive ShipmentStatus where
  | created | inTransit | atCheckpoint | partiallyDelivered | delivered | disputed | cancelled
  | partiallyRefunded
  deriving DecidableEq, Repr

inductive EscrowFreezeReason where
  | disputeRaised | carrierSuspended | companySuspended | contractPaused | circuitBreakerOpen
  deriving DecidableEq, Repr

inductive BreachType where
  | temperatureHigh | temperatureLow | humidityHigh | impact | tamperDetected
  deriving DecidableEq, Repr

inductive Severity where
  | low | medium | high | critical
  deriving DecidableEq, Repr

inductive SettlementState where
  | none | pending | completed | failed
  deriving DecidableEq, Repr

inductive SettlementOperation where
  | deposit | release | refund | milestonePayment
  deriving DecidableEq, Repr

inductive GeofenceEvent where
  | zoneEntry | zoneExit | routeDeviation
  deriving DecidableEq, Repr

inductive DisputeResolution where
  | releaseToCarrier | refundToCompany
  deriving DecidableEq, Repr

inductive RecoveryActionType where
  | recoverShipment | unlockEscrow | clearFinalization | rollbackOnExternalFailure
  deriving DecidableEq, Repr

inductive NotificationType where
  | shipmentCreated | statusChanged | deliveryConfirmed | escrowReleased | disputeRaised
  | disputeResolved | deadlineApproaching
  deriving DecidableEq, Repr

/-- The encoding of a variant without fields: a vector of its name. -/
def xdrVariant (name : String) : List UInt8 :=
  beBytes 4 16 ++ beBytes 4 1 ++ beBytes 4 1 ++ xdrSymbol name.toUTF8.toList

/-- `DisputeResolution::to_xdr`. -/
def DisputeResolution.toXdr : DisputeResolution → List UInt8
  | .releaseToCarrier => xdrVariant "ReleaseToCarrier"
  | .refundToCompany => xdrVariant "RefundToCompany"

namespace ShipmentStatus

/-- `ShipmentStatus::is_valid_transition`, arm by arm. -/
def isValidTransition : ShipmentStatus → ShipmentStatus → Bool
  | created, inTransit => true
  | created, cancelled => true
  | created, disputed => true
  | inTransit, atCheckpoint => true
  | inTransit, partiallyDelivered => true
  | inTransit, delivered => true
  | inTransit, disputed => true
  | inTransit, cancelled => true
  | atCheckpoint, atCheckpoint => false
  | atCheckpoint, inTransit => true
  | atCheckpoint, partiallyDelivered => true
  | atCheckpoint, delivered => true
  | partiallyDelivered, partiallyDelivered => true
  | partiallyDelivered, delivered => true
  | partiallyDelivered, disputed => true
  | partiallyDelivered, cancelled => true
  | atCheckpoint, disputed => true
  | atCheckpoint, cancelled => true
  | disputed, cancelled => true
  | disputed, delivered => true
  | partiallyRefunded, _ => false
  | disputed, partiallyRefunded => true
  | s, t =>
    if t = cancelled ∧ s ≠ delivered ∧ s ≠ cancelled then true
    else if t = disputed ∧ s ≠ cancelled ∧ s ≠ delivered ∧ s ≠ disputed then true
    else false

/-- The name of the variant, by which the host encodes it. -/
def name : ShipmentStatus → String
  | created => "Created"
  | inTransit => "InTransit"
  | atCheckpoint => "AtCheckpoint"
  | partiallyDelivered => "PartiallyDelivered"
  | delivered => "Delivered"
  | disputed => "Disputed"
  | cancelled => "Cancelled"
  | partiallyRefunded => "PartiallyRefunded"

/-- `ShipmentStatus::to_xdr`. -/
def toXdr (s : ShipmentStatus) : List UInt8 := xdrVariant s.name

/-- The eight statuses, in the order of the source. -/
def all : List ShipmentStatus :=
  [created, inTransit, atCheckpoint, partiallyDelivered, delivered, disputed, cancelled,
    partiallyRefunded]

end ShipmentStatus

/-! ### Records -/

structure Shipment where
  id : ℕ
  sender : Address
  receiver : Address
  carrier : Address
  status : ShipmentStatus
  dataHash : BytesN32
  createdAt : ℕ
  updatedAt : ℕ
  escrowAmount : ℤ
  totalEscrow : ℤ
  /-- `Option<Map<Symbol, Symbol>>`: the entries of the map, one for each key. -/
  metadata : Option (List (Symbol × Symbol))
  paymentMilestones : List (Symbol × ℕ)
  paidMilestones : List Symbol
  milestonesCompleted : List Symbol
  deadline : ℕ
  integrationNonce : ℕ
  finalized : Bool
  deriving DecidableEq

structure SettlementRecord where
  settlementId : ℕ
  shipmentId : ℕ
  operation : SettlementOperation
  state : SettlementState
  amount : ℤ
  source : Address
  target : Address
  initiatedAt : ℕ
  completedAt : Option ℕ
  errorCode : Option ℕ
  deriving DecidableEq

structure ShipmentInput where
  receiver : Address
  carrier : Address
  dataHash : BytesN32
  paymentMilestones : List (Symbol × ℕ)
  deadline : ℕ
  deriving DecidableEq

structure RecoveryRecord where
  actionType : RecoveryActionType
  admin : Address
  reasonHash : BytesN32
  timestamp : ℕ
  deriving DecidableEq

structure MigrationReport where
  currentVersion : ℕ
  targetVersion : ℕ
  affectedShipments : ℕ
  deriving DecidableEq

inductive AdminAction where
  | upgrade (wasmHash : BytesN32)
  | transferAdmin (newAdmin : Address)
  | forceRelease (shipmentId : ℕ)
  | forceRefund (shipmentId : ℕ)
  deriving DecidableEq

/-- `AdminAction::to_xdr`: a vector of the variant's name and its argument. -/
def AdminAction.toXdr (action : AdminAction) : List UInt8 :=
  let variant (name : String) (argument : List UInt8) :=
    beBytes 4 16 ++ beBytes 4 1 ++ beBytes 4 2 ++ xdrSymbol name.toUTF8.toList ++ argument
  match action with
  | .upgrade wasmHash =>
    variant "Upgrade" (beBytes 4 13 ++ beBytes 4 32 ++ beBytes 32 wasmHash.toNat)
  | .transferAdmin newAdmin => variant "TransferAdmin" newAdmin.toXdr
  | .forceRelease id => variant "ForceRelease" (beBytes 4 5 ++ beBytes 8 id)
  | .forceRefund id => variant "ForceRefund" (beBytes 4 5 ++ beBytes 8 id)

structure Proposal where
  id : ℕ
  proposer : Address
  action : AdminAction
  approvals : List Address
  createdAt : ℕ
  expiresAt : ℕ
  executed : Bool
  deriving DecidableEq

structure ProposalActionDigest where
  proposalId : ℕ
  digest : BytesN32
  computedAt : ℕ
  deriving DecidableEq

structure CreationQuotaTracker where
  count : ℕ
  windowStart : ℕ
  deriving DecidableEq

structure FeeConfig where
  feeBps : ℕ
  treasury : Address
  deriving DecidableEq

/-- Where the record of a shipment is found. -/
inductive StoragePresenceState where
  | activePersistent | archivedExpected | missing | inconsistentDualPresence
  deriving DecidableEq, Repr

structure PersistentRestoreDiagnostics where
  shipmentId : ℕ
  state : StoragePresenceState
  persistentShipmentPresent : Bool
  archivedShipmentPresent : Bool
  escrowPresent : Bool
  confirmationHashPresent : Bool
  lastStatusUpdatePresent : Bool
  eventCountPresent : Bool
  deriving DecidableEq

def maxRecoveryRecordsPerShipment : ℕ := 20

def expectedTokenDecimals : ℕ := 7

end Navin
