/-
# Configuration and the circuit breaker

The contract's tunable parameters (`config.rs`) and the tracker that stops token
transfers after repeated failures (`circuit_breaker.rs`), as pure functions; the
entry points that store them are in `Navin/Entry`.

Key definitions:
- `ContractConfig`, its default and `ContractConfig.validate`;
- `CircuitBreakerTracker` and its three operations.
-/
import Navin.Types

namespace Navin

structure ContractConfig where
  shipmentTtlThreshold : ℕ
  shipmentTtlExtension : ℕ
  minStatusUpdateInterval : ℕ
  batchOperationLimit : ℕ
  maxMetadataEntries : ℕ
  defaultShipmentLimit : ℕ
  multisigMinAdmins : ℕ
  multisigMaxAdmins : ℕ
  proposalExpirySeconds : ℕ
  deadlineGraceSeconds : ℕ
  idempotencyWindowSeconds : ℕ
  autoDisputeBreach : Bool
  maxMilestonesPerShipment : ℕ
  maxNotesPerShipment : ℕ
  maxEvidencePerDispute : ℕ
  maxBreachesPerShipment : ℕ
  creationQuotaMax : ℕ
  creationQuotaWindowSeconds : ℕ
  deriving DecidableEq

namespace ContractConfig

def default : ContractConfig where
  shipmentTtlThreshold := 17280
  shipmentTtlExtension := 518400
  minStatusUpdateInterval := 60
  batchOperationLimit := 10
  maxMetadataEntries := 5
  defaultShipmentLimit := 100
  multisigMinAdmins := 2
  multisigMaxAdmins := 10
  proposalExpirySeconds := 604800
  deadlineGraceSeconds := 0
  idempotencyWindowSeconds := 300
  autoDisputeBreach := false
  maxMilestonesPerShipment := 255
  maxNotesPerShipment := 255
  maxEvidencePerDispute := 255
  maxBreachesPerShipment := 255
  creationQuotaMax := 0
  creationQuotaWindowSeconds := 3600

/-- One range check of `validate_config`. -/
def inRange (x lo hi : ℕ) (message : String) : Except String Unit :=
  if x < lo ∨ hi < x then .error message else .ok ()

/-- `validate_config`: the checks in the source's order, with its messages. -/
def validate (c : ContractConfig) : Except String Unit := do
  inRange c.shipmentTtlThreshold 1 1000000 "shipment_ttl_threshold must be > 0 and <= 1,000,000"
  inRange c.shipmentTtlExtension 1 10000000 "shipment_ttl_extension must be > 0 and <= 10,000,000"
  inRange c.minStatusUpdateInterval 10 86400
    "min_status_update_interval must be >= 10 and <= 86,400"
  inRange c.batchOperationLimit 1 100 "batch_operation_limit must be >= 1 and <= 100"
  inRange c.maxMetadataEntries 1 50 "max_metadata_entries must be >= 1 and <= 50"
  inRange c.maxMilestonesPerShipment 1 1000 "max_milestones_per_shipment must be >= 1 and <= 1000"
  inRange c.maxNotesPerShipment 1 1000 "max_notes_per_shipment must be >= 1 and <= 1000"
  inRange c.maxEvidencePerDispute 1 1000 "max_evidence_per_dispute must be >= 1 and <= 1000"
  inRange c.maxBreachesPerShipment 1 1000 "max_breaches_per_shipment must be >= 1 and <= 1000"
  inRange c.defaultShipmentLimit 1 10000 "default_shipment_limit must be >= 1 and <= 10,000"
  if c.multisigMinAdmins < 2 then .error "multisig_min_admins must be >= 2" else .ok ()
  inRange c.multisigMaxAdmins c.multisigMinAdmins 50
    "multisig_max_admins must be >= multisig_min_admins and <= 50"
  inRange c.proposalExpirySeconds 3600 2592000
    "proposal_expiry_seconds must be >= 3,600 and <= 2,592,000"
  inRange c.deadlineGraceSeconds 0 604800 "deadline_grace_seconds must be <= 604,800 (7 days)"

/-- The default passes its own check. -/
example : default.validate = .ok () := by decide

/-- The bytes `compute_config_checksum` hashes. The idempotency window and the
creation quota are not among them. -/
def checksumBytes (c : ContractConfig) : List UInt8 :=
  beBytes 4 c.shipmentTtlThreshold ++ beBytes 4 c.shipmentTtlExtension ++
  beBytes 8 c.minStatusUpdateInterval ++ beBytes 4 c.batchOperationLimit ++
  beBytes 4 c.maxMetadataEntries ++ beBytes 4 c.defaultShipmentLimit ++
  beBytes 4 c.multisigMinAdmins ++ beBytes 4 c.multisigMaxAdmins ++
  beBytes 8 c.proposalExpirySeconds ++ beBytes 8 c.deadlineGraceSeconds ++
  [if c.autoDisputeBreach then 1 else 0] ++
  beBytes 4 c.maxMilestonesPerShipment ++ beBytes 4 c.maxNotesPerShipment ++
  beBytes 4 c.maxEvidencePerDispute ++ beBytes 4 c.maxBreachesPerShipment

end ContractConfig

/-! ### Circuit breaker -/

inductive CircuitBreakerState where
  | closed | opened | halfOpen
  deriving DecidableEq, Repr

structure CircuitBreakerConfig where
  failureThreshold : ℕ
  recoveryTimeout : ℕ
  halfOpenMaxRequests : ℕ
  deriving DecidableEq

def CircuitBreakerConfig.default : CircuitBreakerConfig := ⟨5, 300, 3⟩

def CircuitBreakerConfig.strict : CircuitBreakerConfig := ⟨3, 600, 1⟩

def CircuitBreakerConfig.permissive : CircuitBreakerConfig := ⟨10, 60, 5⟩

inductive CircuitBreakerPreset where
  | default
  | strict
  | permissive
  | custom (failureThreshold recoveryTimeout halfOpenMax : ℕ)
  deriving DecidableEq

/-- `CircuitBreakerPreset::resolve`. -/
def CircuitBreakerPreset.resolve : CircuitBreakerPreset → Except NavinError CircuitBreakerConfig
  | .default => .ok .default
  | .strict => .ok .strict
  | .permissive => .ok .permissive
  | .custom failureThreshold recoveryTimeout halfOpenMax =>
    if failureThreshold = 0 ∨ 1000 < failureThreshold ∨ 30 * 24 * 60 * 60 < recoveryTimeout ∨
        halfOpenMax = 0 ∨ 1000 < halfOpenMax then
      .error .invalidConfig
    else
      .ok ⟨failureThreshold, recoveryTimeout, halfOpenMax⟩

structure CircuitBreakerTracker where
  state : CircuitBreakerState
  failureCount : ℕ
  openedAt : ℕ
  halfOpenRequests : ℕ
  deriving DecidableEq

namespace CircuitBreakerTracker

def new : CircuitBreakerTracker := ⟨.closed, 0, 0, 0⟩

def recordSuccess (t : CircuitBreakerTracker) : CircuitBreakerTracker :=
  match t.state with
  | .closed => t
  | .opened => t
  | .halfOpen => { t with state := .closed, failureCount := 0, halfOpenRequests := 0 }

/-- `record_failure`; `none` is the overflow of the `u32` count. -/
def recordFailure (t : CircuitBreakerTracker) (config : CircuitBreakerConfig)
    (currentTime : ℕ) : Option CircuitBreakerTracker :=
  match t.state with
  | .closed => do
    let n ← checkedAddU32 t.failureCount 1
    if config.failureThreshold ≤ n then
      some { t with failureCount := n, state := .opened, openedAt := currentTime }
    else
      some { t with failureCount := n }
  | .opened => do
    let n ← checkedAddU32 t.failureCount 1
    some { t with failureCount := n }
  | .halfOpen => some { t with state := .opened, openedAt := currentTime, halfOpenRequests := 0 }

/-- `should_allow_request`; the outer `none` is the overflow of
`opened_at + recovery_timeout`. -/
def shouldAllowRequest (t : CircuitBreakerTracker) (config : CircuitBreakerConfig)
    (currentTime : ℕ) : Option (Except NavinError CircuitBreakerTracker) :=
  match t.state with
  | .closed => some (.ok t)
  | .opened => do
    let retryAt ← checkedAddU64 t.openedAt config.recoveryTimeout
    if retryAt ≤ currentTime then
      some (.ok { t with state := .halfOpen, halfOpenRequests := 1 })
    else
      some (.error .circuitBreakerOpen)
  | .halfOpen =>
    if t.halfOpenRequests < config.halfOpenMaxRequests then
      some (.ok { t with halfOpenRequests := t.halfOpenRequests + 1 })
    else
      some (.error .circuitBreakerOpen)

end CircuitBreakerTracker

end Navin
