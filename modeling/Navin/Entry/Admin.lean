/-
# Administration

Initialisation, limits, roles and suspensions, configuration, pausing, the
circuit breaker and the upgrade: the entry points of `lib.rs` that do not touch
a shipment.

Key definitions:
- `initializeContract`;
- `addPartyRole`, `addStaffRole`, `suspendRole`, `revokeRole` and their relatives;
- `checkAndUpdateCreationQuotaBy`, the quota shared by single and batch creation.
-/
import Navin.Helpers

namespace Navin

open Tx

variable {H : Host}

/-! ### Initialisation -/

/-- `initialize`: no signature is demanded of the caller. -/
def initializeContract (admin tokenContract : Address) : Contract H Unit := do
  let w ← gets fun w => w
  rejectIf (w.isInitialized = true) .alreadyInitialized
  rejectIf (tokenContract = admin ∨ tokenContract = H.currentContractAddress) .invalidTokenAddress
  setAdmin admin
  setTokenContract tokenContract
  setShipmentCounter 0
  setVersion 1
  setRole admin .company
  setConfig ContractConfig.default
  storageSetShipmentLimit ContractConfig.default.defaultShipmentLimit
  publish (.contractInitialized admin tokenContract)

/-- The opening of almost every entry point. -/
def openCall (caller : Address) : Contract H Unit := do
  requireInitialized
  requireNotPaused
  requireAuth caller

/-! ### Limits and quotas -/

def setShipmentLimit (admin : Address) (limit : ℕ) : Contract H Unit := do
  openCall admin
  requireAdmin admin
  storageSetShipmentLimit limit
  publish (.shipmentLimitUpdated admin limit)

def setCompanyShipmentLimit (admin company : Address) (limit : ℕ) : Contract H Unit := do
  openCall admin
  requireAdmin admin
  storageSetCompanyShipmentLimit company limit
  publish (.companyLimitUpdated admin company limit)

/-- `set_creation_quota`: not stopped by a pause. -/
def setCreationQuota (admin : Address) (maxPerWindow windowSeconds : ℕ) : Contract H Unit := do
  requireInitialized
  requireAuth admin
  requireAdmin admin
  rejectIf (0 < maxPerWindow ∧ windowSeconds = 0) .invalidConfig
  let cfg ← gets (·.getConfig)
  setConfig { cfg with
    creationQuotaMax := maxPerWindow, creationQuotaWindowSeconds := windowSeconds }
  publish (.quotaSet admin maxPerWindow windowSeconds)

/-- `check_and_update_creation_quota_by`. -/
def checkAndUpdateCreationQuotaBy (company : Address) (requested : ℕ) : Contract H Unit := do
  let cfg ← gets (·.getConfig)
  when (¬(cfg.creationQuotaMax = 0 ∨ requested = 0)) do
    let now ← timestamp
    let stored ← gets (·.registry.companyCreationQuota company)
    let tracker := stored.getD ⟨0, now⟩
    let windowEnd ← unwrap (checkedAddU64 tracker.windowStart cfg.creationQuotaWindowSeconds)
    let tracker := if windowEnd ≤ now then ⟨0, now⟩ else tracker
    let newCount ← okOr (checkedAddU32 tracker.count requested) .counterOverflow
    rejectIf (cfg.creationQuotaMax < newCount) .creationQuotaExceeded
    storageSetCreationQuota company { tracker with count := newCount }

/-- `get_creation_quota_status`: what the company has used of its quota, and what is left. -/
def getCreationQuotaStatus (company : Address) : Contract H (ℕ × ℕ) := do
  requireInitialized
  let cfg ← gets (·.getConfig)
  if cfg.creationQuotaMax = 0 then
    pure (0, u32Max)
  else
    let now ← timestamp
    let stored ← gets (·.registry.companyCreationQuota company)
    match stored with
    | none => pure (0, cfg.creationQuotaMax)
    | some t =>
      let windowEnd ← unwrap (checkedAddU64 t.windowStart cfg.creationQuotaWindowSeconds)
      if windowEnd ≤ now then
        pure (0, cfg.creationQuotaMax)
      else
        pure (t.count, cfg.creationQuotaMax - t.count)

/-! ### Whitelist -/

def addCarrierToWhitelist (company carrier : Address) : Contract H Unit := do
  openCall company
  requireRole company .company
  let listed ← gets (·.isCarrierWhitelisted company carrier)
  rejectIf (listed = true) .carrierAlreadyWhitelisted
  setWhitelisted company carrier true
  publish (.carrierWhitelisted company carrier)
  logAudit .carrierWhitelisted company carrier

/-- `remove_carrier_from_whitelist` leaves no audit entry. -/
def removeCarrierFromWhitelist (company carrier : Address) : Contract H Unit := do
  openCall company
  requireRole company .company
  setWhitelisted company carrier false
  publish (.carrierUnwhitelisted company carrier)

/-! ### Roles -/

/-- The shared body of `add_company` and `add_carrier`. -/
def addPartyRole (role : Role) (admin target : Address) : Contract H Unit := do
  openCall admin
  requireAdminOrOperator admin
  let assigned ← gets (·.hasRole target role)
  rejectIf (assigned = true) .roleAlreadyAssigned
  setRole target role
  emitRoleChanged .assigned admin target role
  logAudit .roleAssigned admin target

def addCompany (admin company : Address) : Contract H Unit := addPartyRole .company admin company

def addCarrier (admin carrier : Address) : Contract H Unit := addPartyRole .carrier admin carrier

/-- The shared body of `add_guardian` and `add_operator`: the admin alone, and
no check that the role is new. -/
def addStaffRole (role : Role) (admin target : Address) : Contract H Unit := do
  openCall admin
  requireAdmin admin
  setRole target role
  emitRoleChanged .assigned admin target role
  logAudit .roleAssigned admin target

def addGuardian (admin guardian : Address) : Contract H Unit := addStaffRole .guardian admin guardian

def addOperator (admin operator : Address) : Contract H Unit := addStaffRole .operator admin operator

/-- `revoke_role`: the role given last is the one revoked. -/
def revokeRole (admin target : Address) : Contract H Unit := do
  openCall admin
  requireAdmin admin
  rejectIf (admin = target) .cannotSelfRevoke
  let current ← gets (·.registry.role target)
  let currentRole := current.getD .unassigned
  when (currentRole ≠ .unassigned) do
    storageRevokeRole target currentRole
  publish (.roleRevoked admin target currentRole)
  emitRoleChanged .revoked admin target currentRole
  logAudit .roleRevoked admin target

def removeGuardian (admin guardian : Address) : Contract H Unit := revokeRole admin guardian

def removeOperator (admin operator : Address) : Contract H Unit := revokeRole admin operator

def suspendRole (admin target : Address) : Contract H Unit := do
  openCall admin
  requireAdmin admin
  rejectIf (admin = target) .cannotSelfRevoke
  let current ← gets (·.registry.role target)
  let currentRole := current.getD .unassigned
  rejectIf (currentRole = .unassigned) .unauthorized
  setRoleSuspended target currentRole true
  emitRoleChanged .suspended admin target currentRole
  logAudit .roleSuspended admin target

def reactivateRole (admin target : Address) : Contract H Unit := do
  openCall admin
  requireAdmin admin
  let current ← gets (·.registry.role target)
  let currentRole := current.getD .unassigned
  rejectIf (currentRole = .unassigned) .unauthorized
  setRoleSuspended target currentRole false
  emitRoleChanged .reactivated admin target currentRole
  logAudit .roleReactivated admin target

def suspendCarrier (admin carrier : Address) : Contract H Unit := do
  openCall admin
  requireAdminOrOperator admin
  setCarrierSuspended carrier true
  publish (.carrierSuspended admin carrier)

def reactivateCarrier (admin carrier : Address) : Contract H Unit := do
  openCall admin
  requireAdminOrOperator admin
  setCarrierSuspended carrier false
  publish (.carrierReactivated admin carrier)

def suspendCompany (admin company : Address) : Contract H Unit := do
  openCall admin
  requireAdminOrOperator admin
  let assigned ← gets (·.hasRole company .company)
  rejectIf (assigned = false) .unauthorized
  setCompanySuspended company true
  emitRoleChanged .suspended admin company .company

def reactivateCompany (admin company : Address) : Contract H Unit := do
  openCall admin
  requireAdminOrOperator admin
  setCompanySuspended company false
  emitRoleChanged .reactivated admin company .company

/-! ### The admin -/

def transferAdmin (admin newAdmin : Address) : Contract H Unit := do
  requireInitialized
  requireAuth admin
  requireAdmin admin
  setProposedAdmin (some newAdmin)
  publish (.adminProposed admin newAdmin)

def acceptAdminTransfer (newAdmin : Address) : Contract H Unit := do
  requireInitialized
  requireAuth newAdmin
  let proposed ← okOr (← gets (·.governance.proposedAdmin)) .unauthorized
  rejectIf (proposed ≠ newAdmin) .unauthorized
  let oldAdmin ← getAdmin
  setAdmin newAdmin
  setProposedAdmin none
  setRole newAdmin .company
  publish (.adminTransferred oldAdmin newAdmin)
  logAudit .adminTransferred oldAdmin newAdmin

/-! ### The audit trail -/

/-- `audit::query_audit_history_for_target`: the entries below the count, in order. -/
def World.auditHistoryForTarget (w : World H) (target : Address) : List AuditLogEntry :=
  (List.range w.governance.auditEntryCount).filterMap fun i =>
    (w.governance.auditEntry i).filter fun entry => entry.target = target

/-- `query_audit_history_for_target`. -/
def queryAuditHistoryForTarget (target : Address) : Contract H (List AuditLogEntry) := do
  requireInitialized
  gets (·.auditHistoryForTarget target)

/-! ### Configuration -/

def updateConfig (admin : Address) (newConfig : ContractConfig) : Contract H Unit := do
  openCall admin
  requireAdmin admin
  rejectIf (newConfig.validate.toOption = none) .invalidConfig
  setConfig newConfig
  publish (.configUpdated admin newConfig)

def setPlatformFee (admin : Address) (feeBps : ℕ) (treasury : Address) : Contract H Unit := do
  openCall admin
  requireAdmin admin
  rejectIf (1000 < feeBps) .invalidAmount
  rejectIf (isZeroAddress treasury = true) .invalidAddress
  setFeeConfig ⟨feeBps, treasury⟩
  setTreasury treasury
  publish (.feeConfigUpdated admin feeBps treasury eventSchemaVersion)

/-- `pause`. -/
def pause (admin : Address) : Contract H Unit := do
  requireInitialized
  requireAuth admin
  requireAdminOrGuardian admin
  setPaused true
  let now ← timestamp
  publish (.contractPaused admin now)

/-- `unpause`. -/
def unpause (admin : Address) : Contract H Unit := do
  requireInitialized
  requireAuth admin
  requireAdminOrGuardian admin
  setPaused false
  let now ← timestamp
  publish (.contractUnpaused admin now)

/-- `reset_circuit_breaker`: the caller must be in the multi-signature list. -/
def resetCircuitBreaker (admin : Address) : Contract H Unit := do
  requireInitialized
  requireAuth admin
  let listed ← gets (·.isAdmin admin)
  rejectIf (listed = false) .unauthorized
  setBreaker CircuitBreakerTracker.new
  let now ← timestamp
  publish (.circuitBreakerReset admin now)

def setCircuitBreakerConfig (admin : Address) (preset : CircuitBreakerPreset) :
    Contract H Unit := do
  requireInitialized
  requireAuth admin
  requireAdmin admin
  let config ← liftResult preset.resolve
  modifyGovernance fun g => { g with breakerConfig := some config }
  publish (.circuitBreakerConfigSet config.failureThreshold config.recoveryTimeout
    config.halfOpenMaxRequests)

/-! ### Upgrade -/

/-- `env.deployer().update_current_contract_wasm(..)`. -/
def updateCurrentContractWasm (hash : BytesN32) : Contract H Unit := do
  let env ← ask
  trapIf (env.wasmUploaded hash = false)
  modifyGovernance fun g => { g with wasm := some hash }

/-- `upgrade`: the only migration edge is to the next version. -/
def upgrade (admin : Address) (newWasmHash : BytesN32) (targetVersion : ℕ) : Contract H Unit := do
  requireInitialized
  requireAuth admin
  validateHash newWasmHash
  requireAdmin admin
  let currentVersion ← gets (·.getVersion)
  let next ← unwrap (checkedAddU32 currentVersion 1)
  rejectIf (targetVersion ≠ next) .invalidMigrationEdge
  let affectedShipments ← gets (·.ledger.shipmentCount)
  setVersion targetVersion
  publish (.contractUpgraded admin newWasmHash targetVersion)
  publish (.migrationReported ⟨currentVersion, targetVersion, affectedShipments⟩)
  updateCurrentContractWasm newWasmHash

end Navin
