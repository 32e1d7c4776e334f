/-
# Views

The reads of `lib.rs` that compute something: the counts over all shipments, the
health scan of `diagnostics.rs` and the paged consistency scan, and the key of an
event as a client recomputes it. A view writes nothing but the authorisation it asks
for.

Key definitions:
- `getStatusSummary`, `getNonTerminalCount`;
- `World.runSystemHealthCheckRange`, `checkContractHealthPaginated`,
  `checkConsistencyPaginated`;
- `computeIdempotencyKey`;
- `getNoteCount`, `getNoteHash`.
-/
import Navin.Entry.Recovery
import Navin.Consistency

namespace Navin

open Tx

variable {H : Host}

/-- `MAX_BATCH_QUERY_SIZE`. -/
def maxBatchQuerySize : ℕ := 50

/-! ### Counts -/

/-- `types.rs`. -/
structure ShipmentStatusSummary where
  created : ℕ
  inTransit : ℕ
  atCheckpoint : ℕ
  partiallyDelivered : ℕ
  delivered : ℕ
  disputed : ℕ
  cancelled : ℕ
  deriving DecidableEq

/-- `get_status_summary`. -/
def getStatusSummary : Contract H ShipmentStatusSummary := do
  requireInitialized
  let count ← gets (·.ledger.statusCount)
  return {
    created := count .created
    inTransit := count .inTransit
    atCheckpoint := count .atCheckpoint
    partiallyDelivered := count .partiallyDelivered
    delivered := count .delivered
    disputed := count .disputed
    cancelled := count .cancelled }

/-- `get_non_terminal_count`; the sum is checked. -/
def getNonTerminalCount : Contract H ℕ := do
  requireInitialized
  let count ← gets (·.ledger.statusCount)
  let sum ← unwrap (checkedAddU64 (count .created) (count .inTransit))
  let sum ← unwrap (checkedAddU64 sum (count .atCheckpoint))
  let sum ← unwrap (checkedAddU64 sum (count .partiallyDelivered))
  unwrap (checkedAddU64 sum (count .disputed))

/-! ### The health scan -/

/-- `diagnostics.rs`. -/
structure SystemHealthStatus where
  totalShipments : ℕ
  sumOfEscrowBalances : ℤ
  activeShipmentsCounted : ℕ
  anomalousShipmentIds : List ℕ
  storageInconsistencies : List ℕ
  deriving DecidableEq

/-- `i128::saturating_add`. -/
def saturatingAddI128 (a b : ℤ) : ℤ := max i128Min (min (a + b) i128Max)

/-- An id at the end of a list that does not hold it yet. -/
def pushNew (ids : List ℕ) (id : ℕ) : List ℕ := if id ∈ ids then ids else ids ++ [id]

namespace World

variable (w : World H)

/-- `has_orphaned_counters`. -/
def hasOrphanedCounters (id : ℕ) : Bool :=
  (w.dossier.eventCount id).isSome || (w.dossier.confirmationHash id).isSome ||
    (w.dossier.lastStatusUpdate id).isSome || (w.ledger.escrow id).isSome ||
    (w.dossier.milestoneEventCount id).isSome || (w.dossier.breachEventCount id).isSome ||
    (w.ledger.activeSettlement id).isSome || (w.dossier.escrowFreezeReason id).isSome ||
    (w.dossier.noteCount id).isSome || (w.dossier.evidenceCount id).isSome ||
    (w.dossier.recoveryRecordCount id).isSome

/-- One shipment of the health scan; `none` is the overflow of the count. -/
def healthCheck (now : ℕ) (health : SystemHealthStatus) (id : ℕ) : Option SystemHealthStatus :=
  match w.getShipment id with
  | none => some { health with storageInconsistencies := health.storageInconsistencies ++ [id] }
  | some s => do
    let isTerminal := s.status = .delivered ∨ s.status = .cancelled ∨ s.status = .disputed
    let active ← if isTerminal then some health.activeShipmentsCounted
      else checkedAddU32 health.activeShipmentsCounted 1
    let hasPersist := (w.ledger.shipment id).isSome
    let ids := health.storageInconsistencies
    let ids := if s.escrowAmount ≠ w.getEscrow id then pushNew ids id else ids
    let ids := if ¬isTerminal ∧ hasPersist = false then pushNew ids id else ids
    let ids := if hasPersist = false ∧ isTerminal ∧ w.hasOrphanedCounters id = true then
      pushNew ids id else ids
    return { health with
      activeShipmentsCounted := active
      -- in transit past the deadline
      anomalousShipmentIds :=
        if ¬isTerminal ∧ s.deadline < now ∧ s.status = .inTransit then
          pushNew health.anomalousShipmentIds id
        else health.anomalousShipmentIds
      sumOfEscrowBalances := saturatingAddI128 health.sumOfEscrowBalances s.escrowAmount
      storageInconsistencies := ids }

/-- `run_system_health_check_range`. -/
def runSystemHealthCheckRange (now startId limit : ℕ) : Option SystemHealthStatus :=
  let total := w.ledger.shipmentCount
  let health := SystemHealthStatus.mk total 0 0 [] []
  if 0 < startId ∧ startId ≤ total ∧ 0 < limit then
    let endId := min (saturatingAddU64 startId limit - 1) total
    (List.range' startId (endId + 1 - startId)).foldlM (w.healthCheck now) health
  else some health

end World

/-- The reads for admins and operators over a page of ids. -/
def paginated {α : Type} (admin : Address) (limit : ℕ) (read : Contract H α) : Contract H α := do
  requireInitialized
  requireAuth admin
  requireAdminOrOperator admin
  rejectIf (limit = 0 ∨ maxBatchQuerySize < limit) .invalidConfig
  read

/-- `check_contract_health_paginated`. -/
def checkContractHealthPaginated (admin : Address) (startId limit : ℕ) :
    Contract H SystemHealthStatus :=
  paginated admin limit do
    let now ← timestamp
    let health ← gets (·.runSystemHealthCheckRange now startId limit)
    unwrap health

/-- `check_consistency_paginated`. -/
def checkConsistencyPaginated (admin : Address) (startId limit : ℕ) :
    Contract H (List ConsistencyViolation) :=
  paginated admin limit (gets (·.checkAllConsistencyRange startId limit))

/-! ### Keys -/

/-- The bytes of `core::str::from_utf8(..).unwrap_or("")`. -/
def utf8OrEmpty (bytes : List UInt8) : List UInt8 :=
  if bytes.toByteArray.IsValidUTF8 then bytes else []

/-- `compute_idempotency_key`: the topic is read back from a copy of its encoding in a
buffer of 32 bytes. -/
def computeIdempotencyKey (id : ℕ) (eventType : Symbol) (eventCounter : ℕ) :
    Contract H BytesN32 := do
  let xdr := eventType.toXdr
  let raw := xdr.take 32 ++ List.replicate (32 - xdr.length) 0
  let charCount := fromBeBytes ((raw.drop 4).take 4)
  -- the slice of the buffer
  trapIf (raw.length < 8 + charCount)
  let topic := utf8OrEmpty ((raw.drop 8).take charCount)
  return H.sha256 (idempotencyPayload (hashDomainForSymbol eventType) id topic eventCounter)

/-! ### Configuration -/

/-- `get_config_checksum`: what is stored, or computed if nothing is. -/
def getConfigChecksum : Contract H BytesN32 := do
  requireInitialized
  let stored ← gets (·.governance.configChecksum)
  let config ← gets (·.getConfig)
  return stored.getD (H.sha256 config.checksumBytes)

/-! ### Notes -/

/-- `get_note_count`. -/
def getNoteCount (id : ℕ) : Contract H ℕ := do
  requireInitialized
  rejectIf ((← gets (·.getShipment id)) = none) .shipmentNotFound
  gets (·.getNoteCount id)

/-- `get_note_hash`. -/
def getNoteHash (id index : ℕ) : Contract H BytesN32 := do
  requireInitialized
  rejectIf ((← gets (·.getShipment id)) = none) .noteNotFound
  okOr (← gets (·.dossier.note id index)) .noteNotFound

end Navin
