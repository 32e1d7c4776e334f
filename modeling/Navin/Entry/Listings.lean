/-
# Searches and listings

The views of `lib.rs` that list shipments and carriers page by page: the searches, which
hand out a cursor, the pages at an offset, and the carriers of a company. Each family of
the source is one loop with the field it filters by as a parameter.

Key definitions:
- `searchShipments`, `shipmentsPage` and their instances under the source's names;
- `listCompanyCarriers`.
-/
import Navin.Entry.Queries

namespace Navin

open Tx

variable {H : Host}

/-- `effective_batch_query_limit`. -/
def effectiveBatchQueryLimit : ℕ := maxBatchQuerySize

/-! ### Searches -/

/-- `types.rs`. -/
structure ShipmentCursorPage where
  shipmentIds : List ℕ
  nextCursor : Option ℕ
  deriving DecidableEq

/-- `types.rs`: the same two fields. -/
abbrev ShipmentStatusCursorPage := ShipmentCursorPage

/-- The `while` loop of the searches; `left` is how far `currentId` is below the total. -/
def World.searchLoop (w : World H) (keep : Shipment → Bool) (pageSize total : ℕ) :
    ℕ → ℕ → List ℕ → ShipmentCursorPage
  | 0, _, shipmentIds => ⟨shipmentIds, none⟩
  | left + 1, currentId, shipmentIds =>
    let currentId := saturatingAddU64 currentId 1
    if (w.getShipment currentId).any keep then
      let shipmentIds := shipmentIds ++ [currentId]
      if shipmentIds.length = pageSize then
        ⟨shipmentIds, if currentId < total then some currentId else none⟩
      else
        w.searchLoop keep pageSize total left currentId shipmentIds
    else
      w.searchLoop keep pageSize total left currentId shipmentIds

/-- The common body of the searches. -/
def searchShipments (keep : Shipment → Bool) (cursor : Option ℕ) (pageSize : ℕ) :
    Contract H ShipmentCursorPage := do
  requireInitialized
  let config ← gets (·.getConfig)
  rejectIf (pageSize = 0 ∨ config.batchOperationLimit < pageSize) .invalidConfig
  let currentId := cursor.getD 0
  let w ← gets fun w => w
  let total := w.ledger.shipmentCount
  return w.searchLoop keep pageSize total (total - currentId) currentId []

def searchShipmentsByStatus (status : ShipmentStatus) (cursor : Option ℕ) (pageSize : ℕ) :
    Contract H ShipmentStatusCursorPage := searchShipments (fun s => s.status = status) cursor pageSize

def searchShipmentsBySender (sender : Address) (cursor : Option ℕ) (pageSize : ℕ) :
    Contract H ShipmentCursorPage := searchShipments (fun s => s.sender = sender) cursor pageSize

def searchShipmentsByCarrier (carrier : Address) (cursor : Option ℕ) (pageSize : ℕ) :
    Contract H ShipmentCursorPage := searchShipments (fun s => s.carrier = carrier) cursor pageSize

def searchShipmentsByReceiver (receiver : Address) (cursor : Option ℕ) (pageSize : ℕ) :
    Contract H ShipmentCursorPage := searchShipments (fun s => s.receiver = receiver) cursor pageSize

/-! ### Pages at an offset -/

/-- The `for` loop of the pages, over the ids that are left. -/
def World.pageLoop (w : World H) (keep : Shipment → Bool) (offset limit : ℕ) :
    List ℕ → ℕ → ℕ → List Shipment → List Shipment
  | [], _, _, matched => matched
  | id :: ids, skipped, collected, matched =>
    match w.getShipment id with
    | none => w.pageLoop keep offset limit ids skipped collected matched
    | some s =>
      if keep s = false then w.pageLoop keep offset limit ids skipped collected matched
      else if skipped < offset then
        w.pageLoop keep offset limit ids (saturatingAddU32 skipped 1) collected matched
      else
        let matched := matched ++ [s]
        let collected := saturatingAddU32 collected 1
        if limit ≤ collected then matched
        else w.pageLoop keep offset limit ids skipped collected matched

/-- The common body of the pages at an offset. -/
def shipmentsPage (keep : Shipment → Bool) (offset limit : ℕ) : Contract H (List Shipment) := do
  requireInitialized
  rejectIf (limit = 0 ∨ effectiveBatchQueryLimit < limit) .invalidConfig
  let w ← gets fun w => w
  return w.pageLoop keep offset limit (List.range' 1 w.ledger.shipmentCount) 0 0 []

def getShipmentsBySenderPage (sender : Address) (offset limit : ℕ) : Contract H (List Shipment) :=
  shipmentsPage (fun s => s.sender = sender) offset limit

def getShipmentsByCarrierPage (carrier : Address) (offset limit : ℕ) : Contract H (List Shipment) :=
  shipmentsPage (fun s => s.carrier = carrier) offset limit

def getShipmentsByReceiverPage (receiver : Address) (offset limit : ℕ) :
    Contract H (List Shipment) := shipmentsPage (fun s => s.receiver = receiver) offset limit

def getShipmentsByStatusPage (status : ShipmentStatus) (offset limit : ℕ) :
    Contract H (List Shipment) := shipmentsPage (fun s => s.status = status) offset limit

/-! ### Carriers of a company -/

/-- `types.rs`. -/
structure CarrierRelationshipPage where
  carriers : List Address
  nextCursor : Option ℕ
  totalScanned : ℕ
  deriving DecidableEq

/-- The `while` loop of `list_company_carriers`, over the candidates from `idx` on. -/
def World.carrierLoop (w : World H) (company : Address) (pageSize total : ℕ) :
    List Address → ℕ → ℕ → List Address → CarrierRelationshipPage
  | [], _, scanned, result => ⟨result, none, scanned⟩
  | candidate :: candidates, idx, scanned, result =>
    let scanned := saturatingAddU32 scanned 1
    if w.isCarrierWhitelisted company candidate then
      let result := result ++ [candidate]
      if result.length = pageSize then
        let next := saturatingAddU32 idx 1
        ⟨result, if next < total then some next else none, scanned⟩
      else
        w.carrierLoop company pageSize total candidates (saturatingAddU32 idx 1) scanned result
    else
      w.carrierLoop company pageSize total candidates (saturatingAddU32 idx 1) scanned result

/-- `list_company_carriers`. -/
def listCompanyCarriers (company : Address) (candidates : List Address) (cursor pageSize : ℕ) :
    Contract H CarrierRelationshipPage := do
  requireInitialized
  rejectIf (pageSize = 0 ∨ 50 < pageSize) .invalidConfig
  let w ← gets fun w => w
  return w.carrierLoop company pageSize candidates.length (candidates.drop cursor) cursor 0 []

end Navin
