/-
# Creating shipments and what is kept beside them

Creation, single and in batches, and the entry points that add to a shipment
without moving its status or its escrow: metadata, notes, evidence, handoff,
dependencies, geofence and arrival reports, archiving.

Key definitions:
- `storeNewShipment`, the common end of `createShipment` and
  `createShipmentsBatch`;
- `handoffShipment`, `archiveShipment`, `reportConditionBreach`.
-/
import Navin.Entry.Admin

namespace Navin

open Tx

variable {H : Host}

/-! ### Creation -/

/-- The record of a new shipment. -/
def Shipment.new (id : ℕ) (sender : Address) (input : ShipmentInput) (now : ℕ) : Shipment where
  id := id
  sender := sender
  receiver := input.receiver
  carrier := input.carrier
  status := .created
  dataHash := input.dataHash
  createdAt := now
  updatedAt := now
  escrowAmount := 0
  totalEscrow := 0
  metadata := none
  paymentMilestones := input.paymentMilestones
  paidMilestones := []
  milestonesCompleted := []
  deadline := input.deadline
  integrationNonce := 0
  finalized := false

/-- From the next id to the notifications: the same in both creations. -/
def storeNewShipment (sender : Address) (input : ShipmentInput) (now : ℕ)
    (config : ContractConfig) : Contract H ℕ := do
  let counter ← gets (·.ledger.shipmentCount)
  let shipmentId ← okOr (checkedAddU64 counter 1) .counterOverflow
  persistShipment (Shipment.new shipmentId sender input now)
  setShipmentCounter shipmentId
  incrementStatusCount .created
  incrementActiveShipmentCount sender
  storageExtendShipmentTtl shipmentId config.shipmentTtlThreshold config.shipmentTtlExtension
  emitShipmentCreated shipmentId sender input.receiver input.dataHash
  publish (.notification input.receiver .shipmentCreated shipmentId input.dataHash)
  publish (.notification input.carrier .shipmentCreated shipmentId input.dataHash)
  return shipmentId

def createShipment (sender : Address) (input : ShipmentInput) : Contract H ℕ := do
  openCall sender
  requireRole sender .company
  validateMilestones input.paymentMilestones
  validateHash input.dataHash
  rejectIf (sender = input.receiver ∨ sender = input.carrier ∨ input.receiver = input.carrier)
    .invalidShipmentParticipants
  checkIdempotency (sender.toXdr ++ beBytes 32 input.dataHash.toNat)
  let now ← timestamp
  rejectIf (input.deadline ≤ now) .invalidTimestamp
  let currentActive ← gets (·.registry.activeShipmentCount sender)
  let limit ← gets (·.getEffectiveShipmentLimit sender)
  rejectIf (limit ≤ currentActive) .shipmentLimitReached
  checkAndUpdateCreationQuotaBy sender 1
  let config ← gets (·.getConfig)
  storeNewShipment sender input now config

/-- One item of `create_shipments_batch`; of the three parties only the receiver
and the carrier are compared. -/
def createBatchItem (sender : Address) (config : ContractConfig) (now : ℕ) (ids : List ℕ)
    (input : ShipmentInput) : Contract H (List ℕ) := do
  rejectIf (input.receiver = input.carrier) .invalidShipmentInput
  validateMilestones input.paymentMilestones
  validateHash input.dataHash
  rejectIf (input.deadline ≤ now) .invalidTimestamp
  let shipmentId ← storeNewShipment sender input now config
  return ids ++ [shipmentId]

def createShipmentsBatch (sender : Address) (shipments : List ShipmentInput) :
    Contract H (List ℕ) := do
  openCall sender
  requireRole sender .company
  let config ← gets (·.getConfig)
  rejectIf (config.batchOperationLimit < shipments.length) .batchTooLarge
  let now ← timestamp
  let currentActive ← gets (·.registry.activeShipmentCount sender)
  let limit ← gets (·.getEffectiveShipmentLimit sender)
  rejectIf (limit < saturatingAddU32 currentActive shipments.length) .shipmentLimitReached
  checkAndUpdateCreationQuotaBy sender shipments.length
  shipments.foldlM (createBatchItem sender config now) []

/-! ### Metadata, notes, evidence -/

/-- `Map::set` on the entries of a map. -/
def mapSet (m : List (Symbol × Symbol)) (key value : Symbol) : List (Symbol × Symbol) :=
  if m.any (·.1 = key) then m.map fun e => if e.1 = key then (key, value) else e
  else m ++ [(key, value)]

def setShipmentMetadata (caller : Address) (id : ℕ) (key value : Symbol) : Contract H Unit := do
  openCall caller
  validateSymbolNotWhitespaceOnly key
  validateSymbolNotWhitespaceOnly value
  validateMetadataSymbols key value
  let admin ← getAdmin
  let shipment ← loadShipment id
  requireNotFinalized shipment
  rejectIf (caller ≠ shipment.sender ∧ caller ≠ admin) .unauthorized
  when (caller = shipment.sender) do
    requireActiveCompany caller
  let metadata := shipment.metadata.getD []
  let config ← gets (·.getConfig)
  rejectIf (metadata.any (·.1 = key) = false ∧ config.maxMetadataEntries ≤ metadata.length)
    .metadataLimitExceeded
  let now ← timestamp
  persistShipment ((shipment.withMetadata (mapSet metadata key value)).touch now)

/-- The parties who may write beside a shipment, and the admin. -/
def requireParty (reporter : Address) (shipment : Shipment) (admin : Address) :
    Contract H Unit := do
  rejectIf (reporter ≠ shipment.sender ∧ reporter ≠ shipment.receiver ∧
    reporter ≠ shipment.carrier ∧ reporter ≠ admin) .unauthorized
  when (reporter = shipment.sender) do
    requireActiveCompany reporter

def appendNoteHash (reporter : Address) (id : ℕ) (noteHash : BytesN32) : Contract H Unit := do
  openCall reporter
  validateHash noteHash
  let shipment ← loadShipment id
  let admin ← getAdmin
  requireParty reporter shipment admin
  let config ← gets (·.getConfig)
  let count ← gets (·.getNoteCount id)
  rejectIf (config.maxNotesPerShipment ≤ count) .noteLimitExceeded
  let index ← incrementNoteCount id
  setNoteHash id index noteHash
  emitNoteAppended id index noteHash reporter

def addDisputeEvidenceHash (reporter : Address) (id : ℕ) (evidenceHash : BytesN32) :
    Contract H Unit := do
  openCall reporter
  validateHash evidenceHash
  let shipment ← loadShipment id
  requireNotFinalized shipment
  let admin ← getAdmin
  rejectIf (shipment.status ≠ .disputed) .invalidStatus
  requireParty reporter shipment admin
  let config ← gets (·.getConfig)
  let count ← gets (·.getEvidenceCount id)
  rejectIf (config.maxEvidencePerDispute ≤ count) .evidenceLimitExceeded
  let index ← incrementEvidenceCount id
  setEvidenceHash id index evidenceHash
  -- The record is stored directly, without `persist_shipment`.
  setShipment shipment.bumpNonce
  emitEvidenceAdded id index evidenceHash reporter

/-! ### Dependencies, lifetime, archive -/

def addShipmentDependency (company : Address) (dependentId prereqId : ℕ) : Contract H Unit := do
  openCall company
  rejectIf (dependentId = prereqId) .circularDependency
  let w ← gets fun w => w
  rejectIf (w.getShipment dependentId = none) .shipmentNotFound
  rejectIf (w.getShipment prereqId = none) .shipmentNotFound
  let cycle ← unwrap (w.wouldCreateCycle dependentId prereqId)
  rejectIf (cycle = true) .circularDependency
  setShipmentDependency dependentId prereqId

/-- The entry point `extend_shipment_ttl`: open to everyone. -/
def extendTtl (id : ℕ) : Contract H Unit := do
  requireInitialized
  extendShipmentTtl id

/-- `archive_shipment`: not stopped by a pause; the escrow is not looked at. -/
def archiveShipment (admin : Address) (id : ℕ) : Contract H Unit := do
  requireInitialized
  requireAuth admin
  requireAdmin admin
  let shipment ← okOr (← gets (·.ledger.shipment id)) .shipmentNotFound
  rejectIf (shipment.status ≠ .delivered ∧ shipment.status ≠ .cancelled) .invalidStatus
  storageArchiveShipment id shipment
  let now ← timestamp
  publish (.shipmentArchived id now)

/-- Where the record is, as `get_restore_diagnostics` tells it. -/
def World.presenceState (w : World H) (id : ℕ) : StoragePresenceState :=
  let persistent := (w.ledger.shipment id).isSome
  let archived := (w.ledger.archivedShipment id).isSome
  if persistent && archived then .inconsistentDualPresence
  else if persistent then .activePersistent
  else if archived then .archivedExpected
  else .missing

/-- `get_restore_diagnostics`. -/
def getRestoreDiagnostics (id : ℕ) : Contract H PersistentRestoreDiagnostics := do
  requireInitialized
  let w ← gets fun w => w
  return {
    shipmentId := id
    state := w.presenceState id
    persistentShipmentPresent := (w.ledger.shipment id).isSome
    archivedShipmentPresent := (w.ledger.archivedShipment id).isSome
    escrowPresent := (w.ledger.escrow id).isSome
    confirmationHashPresent := (w.dossier.confirmationHash id).isSome
    lastStatusUpdatePresent := (w.dossier.lastStatusUpdate id).isSome
    eventCountPresent := (w.dossier.eventCount id).isSome }

/-! ### Reports of the carrier -/

def reportGeofenceEvent (carrier : Address) (id : ℕ) (zoneType : GeofenceEvent)
    (dataHash : BytesN32) : Contract H Unit := do
  openCall carrier
  requireRole carrier .carrier
  requireActiveCarrier carrier
  let shipment ← loadShipment id
  requireNotFinalized shipment
  validateHash dataHash
  rejectIf (shipment.carrier ≠ carrier) .unauthorized
  emitGeofenceEvent id zoneType dataHash

/-- `update_eta`: not stopped by a pause. -/
def updateEta (carrier : Address) (id etaTimestamp : ℕ) (dataHash : BytesN32) :
    Contract H Unit := do
  requireInitialized
  requireAuth carrier
  requireRole carrier .carrier
  let shipment ← loadShipment id
  requireNotFinalized shipment
  validateHash dataHash
  rejectIf (shipment.carrier ≠ carrier) .unauthorized
  let now ← timestamp
  rejectIf (etaTimestamp ≤ now) .invalidTimestamp
  emitEtaUpdated id etaTimestamp dataHash

/-- `symbol_short!("handoff")`. -/
def handoffSymbol : Symbol := ⟨[104, 97, 110, 100, 111, 102, 102], by decide, by decide⟩

/-- `handoff_shipment`: not stopped by a pause. -/
def handoffShipment (currentCarrier newCarrier : Address) (id : ℕ) (handoffHash : BytesN32) :
    Contract H Unit := do
  requireInitialized
  requireAuth currentCarrier
  requireRole currentCarrier .carrier
  requireRole newCarrier .carrier
  let shipment ← loadShipment id
  requireNotFinalized shipment
  validateHash handoffHash
  rejectIf (shipment.carrier ≠ currentCarrier) .unauthorized
  rejectIf (shipment.status = .delivered ∨ shipment.status = .cancelled) .shipmentAlreadyCompleted
  let now ← timestamp
  persistShipment ((shipment.withCarrier newCarrier).touch now)
  extendShipmentTtl id
  publish (.carrierHandoff id shipment.carrier newCarrier handoffHash)
  publish (.carrierHandoffCompleted shipment.carrier newCarrier id)
  emitMilestoneRecorded id handoffSymbol handoffHash currentCarrier

/-- One shipment leaves a status for another. -/
def moveStatusCount (source target : ShipmentStatus) : Contract H Unit := do
  decrementStatusCount source
  incrementStatusCount target

/-- `report_condition_breach`: a critical breach raises a dispute when the
configuration says so. Not stopped by a pause. -/
def reportConditionBreach (carrier : Address) (id : ℕ) (breachType : BreachType)
    (severity : Severity) (dataHash : BytesN32) : Contract H Unit := do
  requireInitialized
  requireAuth carrier
  requireRole carrier .carrier
  requireActiveCarrier carrier
  let shipment ← loadShipment id
  requireNotFinalized shipment
  validateHash dataHash
  rejectIf (shipment.carrier ≠ carrier) .unauthorized
  let config ← gets (·.getConfig)
  let count ← gets (·.getBreachEventCount id)
  rejectIf (config.maxBreachesPerShipment ≤ count) .breachLimitExceeded
  publish (.conditionBreach id carrier breachType severity dataHash)
  publish (.carrierBreach carrier id breachType severity)
  incrementBreachEventCount id
  when (config.autoDisputeBreach = true ∧ severity = .critical ∧ shipment.status ≠ .cancelled ∧
      shipment.status ≠ .disputed) do
    let now ← timestamp
    setShipment ((shipment.withStatus .disputed).touch now)
    moveStatusCount shipment.status .disputed
    incrementTotalDisputes
    extendShipmentTtl id
    publish (.disputeRaised id carrier dataHash)
    publish (.notification shipment.sender .disputeRaised id dataHash)
    publish (.notification shipment.receiver .disputeRaised id dataHash)
    publish (.notification carrier .disputeRaised id dataHash)

end Navin
