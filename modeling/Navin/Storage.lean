/-
# Storage access

The functions of `storage.rs` (with the stored parts of `config.rs`,
`circuit_breaker.rs` and `audit.rs`): reads are functions of the world, writes
are contract actions. A write touches one of the four storage groups, so what it
leaves alone is seen from its definition.

Key definitions:
- `World.getShipment`: the persistent record, else the archived one;
- `World.getConfig`, `World.hasRole` and the other reads with their defaults;
- `modifyLedger`, `modifyRegistry`, `modifyDossier`, `modifyGovernance`, `log`:
  the only actions that change the world.
-/
import Navin.World
import Mathlib.Logic.Function.Basic
import Mathlib.Tactic.Simps.Basic

namespace Navin

open Tx

variable {H : Host}

/-! ### Primitive writes -/

def modifyLedger (g : Ledger H.Token → Ledger H.Token) : Contract H Unit :=
  modify fun w => { w with ledger := g w.ledger }

def modifyRegistry (g : Registry → Registry) : Contract H Unit :=
  modify fun w => { w with registry := g w.registry }

def modifyDossier (g : Dossier → Dossier) : Contract H Unit :=
  modify fun w => { w with dossier := g w.dossier }

def modifyGovernance (g : Governance → Governance) : Contract H Unit :=
  modify fun w => { w with governance := g w.governance }

def log (e : Effect) : Contract H Unit := modify fun w => { w with trace := w.trace ++ [e] }

/-- `env.events().publish(..)`. -/
abbrev publish (e : Event) : Contract H Unit := log (.event e)

/-- `address.require_auth()`: the host traps unless the address signed the call. -/
def requireAuth (a : Address) : Contract H Unit := do
  let env ← ask
  trapIf (env.auth a = false)
  log (.auth a)

/-- `env.ledger().timestamp()`. -/
def timestamp : Contract H ℕ := do return (← ask).timestamp

/-- Writing one entry of a table with two keys. -/
def update₂ {α β γ : Type} [DecidableEq α] [DecidableEq β] (f : α → β → γ) (a : α) (b : β)
    (c : γ) : α → β → γ := Function.update f a (Function.update (f a) b c)

/-! ### Administration -/

namespace World

variable (w : World H)

def isInitialized : Bool := w.ledger.admin.isSome

def getVersion : ℕ := w.governance.version.getD 1

def getConfig : ContractConfig := w.governance.config.getD ContractConfig.default

/-- `storage::is_admin`: membership in the multi-signature list. -/
def isAdmin (a : Address) : Bool := (w.governance.adminList.getD []).contains a

/-! ### Roles -/

def isCarrierWhitelisted (company carrier : Address) : Bool :=
  w.registry.carrierWhitelist company carrier

def hasRole (a : Address) (role : Role) : Bool := w.registry.userRole a role

def isRoleSuspended (a : Address) (role : Role) : Bool := w.registry.roleSuspended a role

def isCarrierSuspended (carrier : Address) : Bool := w.registry.carrierSuspended carrier

def isCompanySuspended (company : Address) : Bool := w.registry.companySuspended company

def getShipmentLimit : ℕ := w.registry.shipmentLimit.getD 100

def getEffectiveShipmentLimit (company : Address) : ℕ :=
  (w.registry.companyShipmentLimit company).getD w.getShipmentLimit

/-! ### Shipments -/

/-- `storage::get_shipment`: the persistent record, else the archived one, which is taken to
have a temporary entry that has not expired. -/
def getShipment (id : ℕ) : Option Shipment :=
  match w.ledger.shipment id with
  | some s => some s
  | none => w.ledger.archivedShipment id

def getEscrow (id : ℕ) : ℤ := (w.ledger.escrow id).getD 0

def getEventCount (id : ℕ) : ℕ := (w.dossier.eventCount id).getD 0

def getMilestoneEventCount (id : ℕ) : ℕ := (w.dossier.milestoneEventCount id).getD 0

def getBreachEventCount (id : ℕ) : ℕ := (w.dossier.breachEventCount id).getD 0

def getNoteCount (id : ℕ) : ℕ := (w.dossier.noteCount id).getD 0

def getEvidenceCount (id : ℕ) : ℕ := (w.dossier.evidenceCount id).getD 0

def getRecoveryRecordCount (id : ℕ) : ℕ := (w.dossier.recoveryRecordCount id).getD 0

end World

def getAdmin : Contract H Address := do unwrap (← gets (·.ledger.admin))

abbrev setAdmin (a : Address) : Contract H Unit := modifyLedger fun l => { l with admin := some a }

abbrev setTokenContract (a : Address) : Contract H Unit :=
  modifyLedger fun l => { l with tokenContract := some a }

abbrev setProposedAdmin (a : Option Address) : Contract H Unit :=
  modifyGovernance fun g => { g with proposedAdmin := a }

abbrev setVersion (n : ℕ) : Contract H Unit :=
  modifyGovernance fun g => { g with version := some n }

abbrev setPaused (b : Bool) : Contract H Unit := modifyGovernance fun g => { g with isPaused := b }

abbrev setFeeConfig (c : FeeConfig) : Contract H Unit :=
  modifyGovernance fun g => { g with feeConfig := some c }

abbrev setTreasury (a : Address) : Contract H Unit :=
  modifyGovernance fun g => { g with treasury := some a }

abbrev setWhitelisted (company carrier : Address) (b : Bool) : Contract H Unit :=
  modifyRegistry fun r => { r with carrierWhitelist := update₂ r.carrierWhitelist company carrier b }

/-- `storage::set_role`. -/
abbrev setRole (a : Address) (role : Role) : Contract H Unit := modifyRegistry fun r =>
  { r with
    userRole := update₂ r.userRole a role true
    role := Function.update r.role a (some role) }

/-- `storage::revoke_role`: the current role becomes `Unassigned` whatever it was. -/
abbrev storageRevokeRole (a : Address) (role : Role) : Contract H Unit := modifyRegistry fun r =>
  { r with
    userRole := update₂ r.userRole a role false
    role := Function.update r.role a (some .unassigned) }

abbrev setRoleSuspended (a : Address) (role : Role) (b : Bool) : Contract H Unit :=
  modifyRegistry fun r => { r with roleSuspended := update₂ r.roleSuspended a role b }

abbrev setCarrierSuspended (a : Address) (b : Bool) : Contract H Unit :=
  modifyRegistry fun r => { r with carrierSuspended := Function.update r.carrierSuspended a b }

abbrev setCompanySuspended (a : Address) (b : Bool) : Contract H Unit :=
  modifyRegistry fun r => { r with companySuspended := Function.update r.companySuspended a b }

abbrev storageSetShipmentLimit (n : ℕ) : Contract H Unit :=
  modifyRegistry fun r => { r with shipmentLimit := some n }

abbrev storageSetCompanyShipmentLimit (a : Address) (n : ℕ) : Contract H Unit :=
  modifyRegistry fun r =>
    { r with companyShipmentLimit := Function.update r.companyShipmentLimit a (some n) }

abbrev setActiveShipmentCount (a : Address) (n : ℕ) : Contract H Unit := modifyRegistry fun r =>
  { r with activeShipmentCount := Function.update r.activeShipmentCount a n }

def incrementActiveShipmentCount (a : Address) : Contract H Unit := do
  let current ← gets (·.registry.activeShipmentCount a)
  setActiveShipmentCount a (saturatingAddU32 current 1)

def decrementActiveShipmentCount (a : Address) : Contract H Unit := do
  let current ← gets (·.registry.activeShipmentCount a)
  setActiveShipmentCount a (current - 1)

abbrev storageSetCreationQuota (a : Address) (t : CreationQuotaTracker) : Contract H Unit :=
  modifyRegistry fun r =>
    { r with companyCreationQuota := Function.update r.companyCreationQuota a (some t) }

/-! ### The ledger -/

namespace Ledger

variable {Token : Type} (l : Ledger Token)

/-- `storage::set_shipment`: the record is stored under its own id. -/
@[simps -fullyApplied]
def setShipment (s : Shipment) : Ledger Token :=
  { l with shipment := Function.update l.shipment s.id (some s) }

@[simps -fullyApplied]
def setEscrow (id : ℕ) (amount : ℤ) : Ledger Token :=
  { l with escrow := Function.update l.escrow id (some amount) }

@[simps -fullyApplied]
def removeEscrow (id : ℕ) : Ledger Token :=
  { l with escrow := Function.update l.escrow id none }

@[simps -fullyApplied]
def setStatusCount (s : ShipmentStatus) (n : ℕ) : Ledger Token :=
  { l with statusCount := Function.update l.statusCount s n }

@[simps -fullyApplied]
def setSettlement (r : SettlementRecord) : Ledger Token :=
  { l with settlement := Function.update l.settlement r.settlementId (some r) }

@[simps -fullyApplied]
def setActiveSettlement (id : ℕ) (settlementId : Option ℕ) : Ledger Token :=
  { l with activeSettlement := Function.update l.activeSettlement id settlementId }

/-- The archived record replaces the persistent one. -/
@[simps -fullyApplied]
def archive (id : ℕ) (s : Shipment) : Ledger Token :=
  { l with
    archivedShipment := Function.update l.archivedShipment id (some s)
    shipment := Function.update l.shipment id none }

end Ledger

abbrev setShipment (s : Shipment) : Contract H Unit := modifyLedger (·.setShipment s)

abbrev setEscrow (id : ℕ) (amount : ℤ) : Contract H Unit := modifyLedger (·.setEscrow id amount)

abbrev removeEscrow (id : ℕ) : Contract H Unit := modifyLedger (·.removeEscrow id)

abbrev setShipmentCounter (n : ℕ) : Contract H Unit :=
  modifyLedger fun l => { l with shipmentCount := n }

/-- `increment_status_count`: the `u64` addition is checked. -/
def incrementStatusCount (s : ShipmentStatus) : Contract H Unit := do
  let current ← gets (·.ledger.statusCount s)
  trapIf (u64Max < current + 1)
  modifyLedger (·.setStatusCount s (current + 1))

def decrementStatusCount (s : ShipmentStatus) : Contract H Unit := do
  let current ← gets (·.ledger.statusCount s)
  when (0 < current) do
    modifyLedger (·.setStatusCount s (current - 1))

/-- `increment_settlement_counter`: stays where it is at the last `u64`. -/
def incrementSettlementCounter : Contract H ℕ := do
  let cur ← gets (·.ledger.settlementCounter)
  let next := (checkedAddU64 cur 1).getD cur
  modifyLedger fun l => { l with settlementCounter := next }
  return next

abbrev setSettlement (r : SettlementRecord) : Contract H Unit := modifyLedger (·.setSettlement r)

abbrev setActiveSettlement (id settlementId : ℕ) : Contract H Unit :=
  modifyLedger (·.setActiveSettlement id (some settlementId))

abbrev clearActiveSettlement (id : ℕ) : Contract H Unit :=
  modifyLedger (·.setActiveSettlement id none)

/-! ### Beside the shipment -/

abbrev setEscrowFreezeReason (id : ℕ) (r : EscrowFreezeReason) : Contract H Unit :=
  modifyDossier fun d => { d with escrowFreezeReason := Function.update d.escrowFreezeReason id (some r) }

abbrev setConfirmationHash (id : ℕ) (h : BytesN32) : Contract H Unit :=
  modifyDossier fun d => { d with confirmationHash := Function.update d.confirmationHash id (some h) }

abbrev setLastStatusUpdate (id t : ℕ) : Contract H Unit :=
  modifyDossier fun d => { d with lastStatusUpdate := Function.update d.lastStatusUpdate id (some t) }

abbrev setStatusHash (id : ℕ) (s : ShipmentStatus) (h : BytesN32) : Contract H Unit :=
  modifyDossier fun d => { d with statusHash := update₂ d.statusHash id s (some h) }

def incrementEventCount (id : ℕ) : Contract H Unit := do
  let current ← gets (·.getEventCount id)
  modifyDossier fun d =>
    { d with eventCount := Function.update d.eventCount id (some (saturatingAddU32 current 1)) }

def incrementMilestoneEventCount (id : ℕ) : Contract H Unit := do
  let current ← gets (·.getMilestoneEventCount id)
  modifyDossier fun d => { d with
    milestoneEventCount := Function.update d.milestoneEventCount id (some (saturatingAddU32 current 1)) }

def incrementBreachEventCount (id : ℕ) : Contract H Unit := do
  let current ← gets (·.getBreachEventCount id)
  modifyDossier fun d => { d with
    breachEventCount := Function.update d.breachEventCount id (some (saturatingAddU32 current 1)) }

/-- `increment_note_count`: returns the index for the new note. -/
def incrementNoteCount (id : ℕ) : Contract H ℕ := do
  let current ← gets (·.getNoteCount id)
  let next ← unwrap (checkedAddU32 current 1)
  modifyDossier fun d => { d with noteCount := Function.update d.noteCount id (some next) }
  return current

abbrev setNoteHash (id index : ℕ) (h : BytesN32) : Contract H Unit :=
  modifyDossier fun d => { d with note := update₂ d.note id index (some h) }

/-- `increment_evidence_count`: returns the index for the new evidence. -/
def incrementEvidenceCount (id : ℕ) : Contract H ℕ := do
  let current ← gets (·.getEvidenceCount id)
  let next ← unwrap (checkedAddU32 current 1)
  modifyDossier fun d => { d with evidenceCount := Function.update d.evidenceCount id (some next) }
  return current

abbrev setEvidenceHash (id index : ℕ) (h : BytesN32) : Contract H Unit :=
  modifyDossier fun d => { d with evidence := update₂ d.evidence id index (some h) }

/-- `append_recovery_record`. -/
def appendRecoveryRecord (id : ℕ) (r : RecoveryRecord) : Contract H Unit := do
  let count ← gets (·.getRecoveryRecordCount id)
  rejectIf (maxRecoveryRecordsPerShipment ≤ count) .recoveryLimitExceeded
  modifyDossier fun d => { d with
    recoveryRecord := update₂ d.recoveryRecord id count (some r)
    recoveryRecordCount := Function.update d.recoveryRecordCount id (some (count + 1)) }

/-- `set_shipment_dependency`: the prerequisite goes to the end of the list. -/
abbrev setShipmentDependency (dependentId prereqId : ℕ) : Contract H Unit :=
  modifyDossier fun d => { d with
    shipmentDependents :=
      Function.update d.shipmentDependents dependentId (d.shipmentDependents dependentId ++ [prereqId]) }

/-- Removing the entries `(id, 0), …, (id, count - 1)`. -/
def purgeBelow {γ : Type} (f : ℕ → ℕ → Option γ) (id count : ℕ) : ℕ → ℕ → Option γ :=
  fun j i => if j = id ∧ i < count then none else f j i

/-- Removing the count entry, when there is one to remove. -/
def purgeCount (f : ℕ → Option ℕ) (id count : ℕ) : ℕ → Option ℕ :=
  if 0 < count then Function.update f id none else f

/-- `purge_status_hashes`: the source's list, without `PartiallyRefunded`. -/
def purgeStatusHashes (f : ℕ → ShipmentStatus → Option BytesN32) (id : ℕ) :
    ℕ → ShipmentStatus → Option BytesN32 :=
  fun j s => if j = id ∧ s ∈ [.created, .inTransit, .atCheckpoint, .partiallyDelivered, .delivered,
    .disputed, .cancelled] then none else f j s

/-- `storage::archive_shipment`: the entries removed with the persistent record. -/
def storageArchiveShipment (id : ℕ) (s : Shipment) : Contract H Unit := do
  modifyLedger (·.archive id s)
  removeEscrow id
  modifyDossier fun d => { d with
    confirmationHash := Function.update d.confirmationHash id none
    lastStatusUpdate := Function.update d.lastStatusUpdate id none
    eventCount := Function.update d.eventCount id none
    milestoneEventCount := Function.update d.milestoneEventCount id none
    breachEventCount := Function.update d.breachEventCount id none
    escrowFreezeReason := Function.update d.escrowFreezeReason id none }
  clearActiveSettlement id
  let notes ← gets (·.getNoteCount id)
  let evidence ← gets (·.getEvidenceCount id)
  let records ← gets (·.getRecoveryRecordCount id)
  modifyDossier fun d => { d with
    note := purgeBelow d.note id notes
    noteCount := purgeCount d.noteCount id notes
    evidence := purgeBelow d.evidence id evidence
    evidenceCount := purgeCount d.evidenceCount id evidence
    recoveryRecord := purgeBelow d.recoveryRecord id records
    recoveryRecordCount := purgeCount d.recoveryRecordCount id records
    statusHash := purgeStatusHashes d.statusHash id }

/-- `storage::extend_shipment_ttl`: the host refuses a threshold above the
extension when one of the four entries is present. -/
def storageExtendShipmentTtl (id threshold extendTo : ℕ) : Contract H Unit := do
  let w ← gets fun w => w
  trapIf (extendTo < threshold ∧ ((w.ledger.shipment id).isSome ∨ (w.ledger.escrow id).isSome ∨
    (w.dossier.confirmationHash id).isSome ∨ (w.dossier.escrowFreezeReason id).isSome))

/-! ### Analytics and idempotency windows -/

/-- `add_total_escrow_volume`. -/
def addTotalEscrowVolume (amount : ℤ) : Contract H Unit := do
  rejectIf (amount < 0) .arithmeticError
  let current ← gets (·.governance.totalEscrowVolume)
  let updated ← okOr (checkedI128 (current + amount)) .arithmeticError
  rejectIf (updated < 0) .arithmeticError
  modifyGovernance fun g => { g with totalEscrowVolume := updated }

def incrementTotalDisputes : Contract H Unit := do
  let current ← gets (·.governance.totalDisputes)
  trapIf (u64Max < current + 1)
  modifyGovernance fun g => { g with totalDisputes := current + 1 }

/-- `has_idempotency_window`: a temporary entry is there until its last ledger. -/
def hasIdempotencyWindow (actionHash : BytesN32) : Contract H Bool := do
  let env ← ask
  let liveUntil ← gets (·.governance.idempotencyWindow actionHash)
  return liveUntil.any (env.sequence ≤ ·)

/-- `set_idempotency_window`: five seconds a ledger, rounded up, as a `u32`. -/
def setIdempotencyWindow (actionHash : BytesN32) (windowSeconds : ℕ) : Contract H Unit := do
  let env ← ask
  let ledgers := max ((windowSeconds + 4) / 5) 1 % 2 ^ 32
  modifyGovernance fun g => { g with
    idempotencyWindow := Function.update g.idempotencyWindow actionHash (some (env.sequence + ledgers)) }

/-! ### Proposals, configuration, the breaker -/

abbrev setProposal (p : Proposal) : Contract H Unit :=
  modifyGovernance fun g => { g with proposal := Function.update g.proposal p.id (some p) }

abbrev setProposalDigest (id : ℕ) (d : ProposalActionDigest) : Contract H Unit :=
  modifyGovernance fun g => { g with proposalDigest := Function.update g.proposalDigest id (some d) }

abbrev setProposalSaltUsed (salt : BytesN32) : Contract H Unit :=
  modifyGovernance fun g => { g with proposalSalt := Function.update g.proposalSalt salt true }

/-- `config::set_config`: a checksum of zeros is refused after the write. -/
def setConfig (c : ContractConfig) : Contract H Unit := do
  modifyGovernance fun g => { g with config := some c }
  let checksum := H.sha256 c.checksumBytes
  rejectIf (checksum = 0) .invalidConfig
  modifyGovernance fun g => { g with configChecksum := some checksum }

abbrev setBreaker (t : CircuitBreakerTracker) : Contract H Unit :=
  modifyGovernance fun g => { g with breaker := some t }

abbrev getBreaker : Contract H CircuitBreakerTracker :=
  gets fun w => w.governance.breaker.getD CircuitBreakerTracker.new

abbrev getBreakerConfig : Contract H CircuitBreakerConfig :=
  gets fun w => w.governance.breakerConfig.getD CircuitBreakerConfig.default

/-- The audit log entry of `audit.rs`: stored under the running count, which
saturates, and published. -/
def logAudit (eventType : AuditEventType) (actor target : Address) : Contract H Unit := do
  let now ← timestamp
  let count ← gets (·.governance.auditEntryCount)
  let entry : AuditLogEntry := ⟨count, eventType, actor, target, now⟩
  modifyGovernance fun g => { g with
    auditEntry := Function.update g.auditEntry count (some entry)
    auditEntryCount := saturatingAddU32 count 1 }
  publish (.audit entry)

end Navin
