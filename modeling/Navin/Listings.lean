/-
# What the listings bring

The searches by status, sender, carrier and receiver are pages of the list of ids, and the
carriers of a company pages of the list of candidates, filled with what matches: whatever
the distribution of the matches, the pages one after the other are all of them, in order.
A page at an offset is the block of the matches at that offset.

Key definitions:
- `ShipmentFilter`, with its search and its page at an offset;
- `World.matching`: the ids that match.

Key theorems:
- `searchLoop_eq`, `carrierLoop_eq`, `pageLoop_eq`: what the loops compute;
- `searches_enumerate`, `carriers_enumerate`.
-/
import Navin.Audit
import Navin.Token
import Navin.Entry.Listings
import Navin.Lib.Cursors

namespace Navin

open Tx

variable {H : Host} {env : Env} {w : World H} {keep : Shipment → Bool} {n total : ℕ}

/-! ### The searches -/

/-- There is a shipment under the id, and it is kept. -/
def World.keeps (w : World H) (keep : Shipment → Bool) (id : ℕ) : Bool := (w.getShipment id).any keep

/-- The page that the loop fills, from the ids that are left. -/
theorem searchLoop_eq (hmax : total ≤ u64Max) {left currentId : ℕ} {ids : List ℕ}
    (htotal : currentId + left = total) (hlen : ids.length < n) :
    w.searchLoop keep n total left currentId ids =
      let filled := fill (w.keeps keep) (n - ids.length) (List.range' (currentId + 1) left)
      ⟨ids ++ filled.1, if filled.2 = [] then none else some (total - filled.2.length)⟩ := by
  induction left generalizing currentId ids with
  | zero => simp [World.searchLoop, fill_nil]
  | succ left ih =>
    have hnext : saturatingAddU64 currentId 1 = currentId + 1 := by
      unfold saturatingAddU64
      omega
    obtain ⟨m, hm⟩ : ∃ m, n - ids.length = m + 1 := Nat.exists_eq_add_one.mpr (by omega)
    unfold World.searchLoop
    rw [hnext, hm, List.range'_succ]
    by_cases hkeep : w.keeps keep (currentId + 1) = true
    · rw [fill_cons_of_pos hkeep]
      dsimp only
      rw [show (w.getShipment (currentId + 1)).any keep = true from hkeep, if_pos rfl,
        List.length_append, List.length_singleton]
      by_cases hfull : ids.length + 1 = n
      · -- the page is full, and the rest is what comes after this id
        have hzero : m = 0 := by omega
        rw [if_pos hfull, hzero, fill]
        simp only [List.range'_eq_nil_iff, List.length_range']
        congr 1
        by_cases hleft : left = 0
        · rw [if_pos hleft, if_neg (by omega)]
        · rw [if_neg hleft, if_pos (by omega)]
          congr 1
          omega
      · have hroom : n - (ids ++ [currentId + 1]).length = m := by
          rw [List.length_append, List.length_singleton]
          omega
        rw [if_neg hfull, ih (by omega) (by rw [List.length_append, List.length_singleton]; omega), hroom]
        simp only [List.append_assoc, List.singleton_append]
    · rw [fill_cons_of_neg (by simpa using hkeep)]
      dsimp only
      rw [if_neg (show ¬(w.getShipment (currentId + 1)).any keep = true from hkeep),
        ih (by omega) hlen, hm]

theorem returns_searchShipments (hadmin : w.ledger.admin.isSome = true) (hn : 1 ≤ n)
    (hle : n ≤ w.getConfig.batchOperationLimit) (cursor : Option ℕ) {page : ShipmentCursorPage}
    {w' : World H} : (searchShipments keep cursor n).Returns env w page w' ↔
      page = w.searchLoop keep n w.ledger.shipmentCount
        (w.ledger.shipmentCount - cursor.getD 0) (cursor.getD 0) [] ∧ w' = w := by
  unfold searchShipments
  rw [returns_unit_bind fun _ _ => returns_requireInitialized, returns_gets_bind,
    returns_rejectIf_bind, returns_gets_bind, returns_pure]
  constructor
  · exact fun h => h.2.2
  · exact fun h => ⟨hadmin, by omega, h⟩

/-- The loop from a cursor on, wherever that stands. -/
theorem searchLoop_cursor (hmax : total ≤ u64Max) (hn : 1 ≤ n) (c : ℕ) :
    w.searchLoop keep n total (total - c) c [] =
      ⟨(fill (w.keeps keep) n ((List.range' 1 total).drop c)).1,
        fillNext (w.keeps keep) n (List.range' 1 total) c⟩ := by
  have hdrop : (List.range' 1 total).drop c = List.range' (c + 1) (total - c) := by
    rw [List.drop_range', mul_one, Nat.add_comm]
  unfold fillNext
  rw [hdrop, List.length_range']
  by_cases hc : c ≤ total
  · rw [searchLoop_eq hmax (by omega) hn]
    rfl
  · -- a cursor past the last id
    have hleft : total - c = 0 := by omega
    rw [hleft, List.range'_zero, fill_nil]
    rfl

/-- The searches are pages of the list of ids. -/
theorem paged_searchShipments (hadmin : w.ledger.admin.isSome = true)
    (hcount : w.ledger.shipmentCount ≤ u64Max) (hn : 1 ≤ n)
    (hle : n ≤ w.getConfig.batchOperationLimit) (keep : Shipment → Bool) (env : Env) :
    Paged (fun cursor page => (searchShipments keep cursor n).Returns env w page w)
      (fun page => page.nextCursor.map some) (·.getD 0) (·.shipmentIds)
      (w.keeps keep) n (List.range' 1 w.ledger.shipmentCount) := by
  constructor
  · intro cursor
    exact ⟨_, (returns_searchShipments hadmin hn hle cursor).mpr ⟨rfl, rfl⟩⟩
  · intro cursor page page' h h'
    exact (h'.unique h).1
  · intro cursor page h
    rw [((returns_searchShipments hadmin hn hle cursor).mp h).1, searchLoop_cursor hcount hn]
  · intro cursor page h
    rw [((returns_searchShipments hadmin hn hle cursor).mp h).1, searchLoop_cursor hcount hn]
    simp [Function.comp_def]

/-! ### Pages at an offset -/

/-- The block of the matching records that the loop collects. -/
theorem pageLoop_eq {offset limit skipped collected : ℕ} {ids : List ℕ} {matched : List Shipment}
    (hoffset : offset ≤ u32Max) (hlimit : limit ≤ u32Max) (hskipped : skipped ≤ offset)
    (hcollected : collected < limit) :
    w.pageLoop keep offset limit ids skipped collected matched = matched ++
      (((ids.filterMap w.getShipment).filter keep).drop (offset - skipped)).take (limit - collected) := by
  induction ids generalizing skipped collected matched with
  | nil => simp [World.pageLoop]
  | cons id ids ih =>
    unfold World.pageLoop
    cases hs : w.getShipment id with
    | none => rw [List.filterMap_cons_none hs, ih hskipped hcollected]
    | some s =>
      rw [List.filterMap_cons_some hs]
      by_cases hkeep : keep s = true
      · rw [List.filter_cons_of_pos hkeep]
        dsimp only
        rw [if_neg (by simp [hkeep])]
        by_cases hskip : skipped < offset
        · have hsucc : saturatingAddU32 skipped 1 = skipped + 1 := by
            unfold saturatingAddU32
            omega
          obtain ⟨m, hm⟩ : ∃ m, offset - skipped = m + 1 := Nat.exists_eq_add_one.mpr (by omega)
          have hrest : offset - (skipped + 1) = m := by omega
          rw [if_pos hskip, hsucc, ih hskip hcollected, hm, hrest, List.drop_succ_cons]
        · have hsucc : saturatingAddU32 collected 1 = collected + 1 := by
            unfold saturatingAddU32
            omega
          obtain ⟨m, hm⟩ : ∃ m, limit - collected = m + 1 := Nat.exists_eq_add_one.mpr (by omega)
          have hzero : offset - skipped = 0 := by omega
          rw [if_neg hskip, hsucc, hm, hzero, List.drop_zero, List.take_succ_cons]
          by_cases hfull : limit ≤ collected + 1
          · have hlast : m = 0 := by omega
            rw [if_pos hfull, hlast, List.take_zero]
          · have hrest : limit - (collected + 1) = m := by omega
            rw [if_neg hfull, ih hskipped (by omega), hzero, hrest, List.drop_zero, List.append_assoc]
            rfl
      · rw [List.filter_cons_of_neg hkeep]
        dsimp only
        rw [if_pos (by simpa using hkeep), ih hskipped hcollected]

/-- The records kept are those of the ids kept. -/
theorem filter_filterMap_getShipment (w : World H) (keep : Shipment → Bool) (ids : List ℕ) :
    ((ids.filterMap w.getShipment).filter keep).map some =
      (ids.filter (w.keeps keep)).map w.getShipment := by
  induction ids with
  | nil => rfl
  | cons id ids ih =>
    cases hs : w.getShipment id with
    | none =>
      have hno : ¬w.keeps keep id = true := by simp [World.keeps, hs]
      rw [List.filterMap_cons_none hs, List.filter_cons_of_neg hno, ih]
    | some s =>
      rw [List.filterMap_cons_some hs]
      have hiff : w.keeps keep id = keep s := by simp [World.keeps, hs]
      by_cases hkeep : keep s = true
      · rw [List.filter_cons_of_pos hkeep, List.filter_cons_of_pos (hiff.trans hkeep), List.map_cons,
          List.map_cons, ih, hs]
      · rw [List.filter_cons_of_neg hkeep, List.filter_cons_of_neg (by rwa [hiff]), ih]

theorem returns_shipmentsPage (hadmin : w.ledger.admin.isSome = true) {offset limit : ℕ}
    (hpos : 1 ≤ limit) (hle : limit ≤ effectiveBatchQueryLimit) {records : List Shipment}
    {w' : World H} : (shipmentsPage keep offset limit).Returns env w records w' ↔
      records = w.pageLoop keep offset limit (List.range' 1 w.ledger.shipmentCount) 0 0 [] ∧
        w' = w := by
  unfold shipmentsPage
  rw [returns_unit_bind fun _ _ => returns_requireInitialized, returns_rejectIf_bind,
    returns_gets_bind, returns_pure]
  constructor
  · exact fun h => h.2.2
  · exact fun h => ⟨hadmin, by omega, h⟩

/-! ### The four filters -/

/-- What shipments are listed by. -/
inductive ShipmentFilter where
  | status (status : ShipmentStatus)
  | sender (sender : Address)
  | carrier (carrier : Address)
  | receiver (receiver : Address)

namespace ShipmentFilter

def keeps : ShipmentFilter → Shipment → Bool
  | status x, s => s.status = x
  | sender a, s => s.sender = a
  | carrier a, s => s.carrier = a
  | receiver a, s => s.receiver = a

/-- The search of the source. -/
def search : ShipmentFilter → Option ℕ → ℕ → Contract H ShipmentCursorPage
  | status x => searchShipmentsByStatus x
  | sender a => searchShipmentsBySender a
  | carrier a => searchShipmentsByCarrier a
  | receiver a => searchShipmentsByReceiver a

/-- The page at an offset of the source. -/
def page : ShipmentFilter → ℕ → ℕ → Contract H (List Shipment)
  | status x => getShipmentsByStatusPage x
  | sender a => getShipmentsBySenderPage a
  | carrier a => getShipmentsByCarrierPage a
  | receiver a => getShipmentsByReceiverPage a

theorem search_eq (f : ShipmentFilter) : (f.search : Option ℕ → ℕ → Contract H _) =
    searchShipments f.keeps := by
  cases f <;> rfl

theorem page_eq (f : ShipmentFilter) : (f.page : ℕ → ℕ → Contract H _) = shipmentsPage f.keeps := by
  cases f <;> rfl

end ShipmentFilter

/-- The ids of the shipments that match, in order. -/
def World.matching (w : World H) (f : ShipmentFilter) : List ℕ :=
  (List.range' 1 w.ledger.shipmentCount).filter fun id => (w.getShipment id).any f.keeps

/-- Following the cursors of a search from the start ends, and brings the matching ids, in
order, on pages of the size asked for at most; and the page at offset `k * L` is the block
of `L` matches from there on. -/
theorem searches_enumerate (hadmin : w.ledger.admin.isSome = true)
    (hcount : w.ledger.shipmentCount ≤ u64Max) (f : ShipmentFilter) (env : Env) :
    (∀ n, 1 ≤ n → n ≤ w.getConfig.batchOperationLimit →
      ∃ pages, Browses (fun cursor page => (f.search cursor n).Returns env w page w)
          (fun page => page.nextCursor.map some) none pages ∧
        (∀ pages', Browses (fun cursor page => (f.search cursor n).Returns env w page w)
          (fun page => page.nextCursor.map some) none pages' → pages' = pages) ∧
        pages.flatMap (·.shipmentIds) = w.matching f ∧ ∀ page ∈ pages, page.shipmentIds.length ≤ n) ∧
    ∀ L k, 1 ≤ L → L ≤ effectiveBatchQueryLimit → k * L < 2 ^ 32 →
      ∃ records, (f.page (k * L) L).Returns env w records w ∧
        records.map some = (((w.matching f).drop (k * L)).take L).map w.getShipment := by
  constructor
  · intro n hn hle
    rw [f.search_eq]
    have h := paged_searchShipments hadmin hcount hn hle f.keeps env
    obtain ⟨pages, hpages, huniq⟩ := h.exists_pages hn none
    exact ⟨pages, hpages, huniq, h.flatMap_items hpages, h.length_items_le hpages⟩
  · intro L k hpos hle hoffset
    have hmax : u32Max = 2 ^ 32 - 1 := rfl
    have hbatch : effectiveBatchQueryLimit = 50 := rfl
    rw [f.page_eq]
    refine ⟨_, (returns_shipmentsPage hadmin hpos hle).mpr ⟨rfl, rfl⟩, ?_⟩
    rw [pageLoop_eq (by omega) (by omega) (Nat.zero_le _) hpos, List.nil_append, Nat.sub_zero,
      Nat.sub_zero, List.map_take, List.map_drop, filter_filterMap_getShipment, ← List.map_drop,
      ← List.map_take]
    rfl

/-- Two shipments of a carrier, one on each page. -/
theorem searches_enumerate_two : ∃ (ls : List Label) (c : Chain Deployment.host) (env : Env)
    (pages : List ShipmentCursorPage) (records : List Shipment), Run Step Deployment.chain ls c ∧
    Browses (fun cursor page =>
      ((ShipmentFilter.carrier Deployment.carrier).search cursor 1).Returns env c.world page c.world)
      (fun page => page.nextCursor.map some) none pages ∧ pages.flatMap (·.shipmentIds) = [1, 2] ∧
    ((ShipmentFilter.carrier Deployment.carrier).page (1 * 1) 1).Returns env c.world records c.world ∧
    records.map some = [c.world.getShipment 2] := by
  obtain ⟨ls, c, hr, -, hadmin, hcount, hbatch, hmatch⟩ := exists_play Deployment.chain
    (Deployment.opening ++ [Deployment.signed Deployment.company 5 (.createShipment
      Deployment.company { Deployment.shipment with dataHash := 2 })])
    (fun r => r.2.world.ledger.admin.isSome = true ∧ r.2.world.ledger.shipmentCount ≤ u64Max ∧
      1 ≤ r.2.world.getConfig.batchOperationLimit ∧
      r.2.world.matching (.carrier Deployment.carrier) = [1, 2]) (by decide +kernel)
  let env := (Deployment.signed Deployment.company 6 (.extendTtl 1)).2
  obtain ⟨hsearch, hpage⟩ := searches_enumerate hadmin hcount (.carrier Deployment.carrier) env
  obtain ⟨pages, hpages, -, hids, -⟩ := hsearch 1 le_rfl hbatch
  obtain ⟨records, hrecords, heq⟩ := hpage 1 1 le_rfl (by decide) (by decide)
  refine ⟨ls, c, env, pages, records, hr, hpages, hids.trans hmatch, hrecords, ?_⟩
  rw [heq, hmatch]
  rfl

/-! ### The carriers of a company -/

variable {company : Address} {candidates : List Address}

/-- The page that the loop fills, and how many candidates it looks at. -/
theorem carrierLoop_eq (hmax : total ≤ u32Max) {l : List Address} {idx scanned : ℕ}
    {result : List Address} (htotal : idx + l.length = total) (hscanned : scanned ≤ idx)
    (hlen : result.length < n) :
    w.carrierLoop company n total l idx scanned result =
      let filled := fill (w.isCarrierWhitelisted company) (n - result.length) l
      ⟨result ++ filled.1, if filled.2 = [] then none else some (total - filled.2.length),
        scanned + (l.length - filled.2.length)⟩ := by
  induction l generalizing idx scanned result with
  | nil => simp [World.carrierLoop, fill_nil]
  | cons candidate l ih =>
    rw [List.length_cons] at htotal
    have hnext : saturatingAddU32 idx 1 = idx + 1 := by
      unfold saturatingAddU32
      omega
    have hcount : saturatingAddU32 scanned 1 = scanned + 1 := by
      unfold saturatingAddU32
      omega
    obtain ⟨m, hm⟩ : ∃ m, n - result.length = m + 1 := Nat.exists_eq_add_one.mpr (by omega)
    unfold World.carrierLoop
    rw [hnext, hcount, hm]
    dsimp only
    by_cases hlisted : w.isCarrierWhitelisted company candidate = true
    · rw [fill_cons_of_pos hlisted, if_pos hlisted, List.length_append, List.length_singleton]
      dsimp only
      by_cases hfull : result.length + 1 = n
      · -- the page is full, and the rest is what comes after this candidate
        have hzero : m = 0 := by omega
        rw [if_pos hfull, hzero, fill]
        dsimp only
        by_cases hl : l = []
        · rw [if_pos hl, if_neg (by rw [hl, List.length_nil] at htotal; omega), List.length_cons,
            Nat.add_sub_cancel_left]
        · have hpos := List.length_pos_of_ne_nil hl
          have hrest : total - l.length = idx + 1 := by omega
          rw [if_neg hl, if_pos (by omega), hrest, List.length_cons, Nat.add_sub_cancel_left]
      · have hroom : n - (result ++ [candidate]).length = m := by
          rw [List.length_append, List.length_singleton]
          omega
        rw [if_neg hfull, ih (by omega) (by omega)
          (by rw [List.length_append, List.length_singleton]; omega), hroom]
        have hle := (fill_suffix (w.isCarrierWhitelisted company) m l).length_le
        simp only [List.append_assoc, List.singleton_append, List.length_cons]
        congr 1
        omega
    · rw [fill_cons_of_neg (by simpa using hlisted), if_neg hlisted,
        ih (by omega) (by omega) hlen, hm]
      have hle := (fill_suffix (w.isCarrierWhitelisted company) (m + 1) l).length_le
      dsimp only
      rw [List.length_cons]
      congr 1
      omega

theorem returns_listCompanyCarriers (hadmin : w.ledger.admin.isSome = true) (hn : 1 ≤ n)
    (hle : n ≤ 50) (cursor : ℕ) {page : CarrierRelationshipPage} {w' : World H} :
    (listCompanyCarriers company candidates cursor n).Returns env w page w' ↔
      page = w.carrierLoop company n candidates.length (candidates.drop cursor) cursor 0 [] ∧
        w' = w := by
  unfold listCompanyCarriers
  rw [returns_unit_bind fun _ _ => returns_requireInitialized, returns_rejectIf_bind,
    returns_gets_bind, returns_pure]
  constructor
  · exact fun h => h.2.2
  · exact fun h => ⟨hadmin, by omega, h⟩

/-- The loop from a cursor on, wherever that stands. -/
theorem carrierLoop_cursor (hlen : candidates.length ≤ u32Max) (hn : 1 ≤ n) (c : ℕ) :
    w.carrierLoop company n candidates.length (candidates.drop c) c 0 [] =
      ⟨(fill (w.isCarrierWhitelisted company) n (candidates.drop c)).1,
        fillNext (w.isCarrierWhitelisted company) n candidates c,
        (candidates.drop c).length -
          (fill (w.isCarrierWhitelisted company) n (candidates.drop c)).2.length⟩ := by
  unfold fillNext
  by_cases hc : c ≤ candidates.length
  · rw [carrierLoop_eq hlen (by rw [List.length_drop]; omega) (Nat.zero_le _) hn]
    dsimp only
    rw [Nat.zero_add]
    rfl
  · -- a cursor past the last candidate
    rw [List.drop_eq_nil_of_le (by omega), fill_nil]
    rfl

/-- The listing is made of pages of the list of candidates. -/
theorem paged_listCompanyCarriers (hadmin : w.ledger.admin.isSome = true)
    (hlen : candidates.length ≤ u32Max) (hn : 1 ≤ n) (hle : n ≤ 50) (company : Address) (env : Env) :
    Paged (fun cursor page => (listCompanyCarriers company candidates cursor n).Returns env w page w)
      (·.nextCursor) id (·.carriers) (w.isCarrierWhitelisted company) n candidates := by
  constructor
  · intro cursor
    exact ⟨_, (returns_listCompanyCarriers hadmin hn hle cursor).mpr ⟨rfl, rfl⟩⟩
  · intro cursor page page' h h'
    exact (h'.unique h).1
  · intro cursor page h
    rw [((returns_listCompanyCarriers hadmin hn hle cursor).mp h).1, carrierLoop_cursor hlen hn]
    rfl
  · intro cursor page h
    rw [((returns_listCompanyCarriers hadmin hn hle cursor).mp h).1, carrierLoop_cursor hlen hn,
      Option.map_id]
    rfl

/-- Following the cursors from zero ends, and brings the candidates that are whitelisted, in
order and as often as they are listed; each candidate is looked at once. -/
theorem carriers_enumerate (hadmin : w.ledger.admin.isSome = true)
    (hlen : candidates.length ≤ u32Max) (hn : 1 ≤ n) (hle : n ≤ 50) (company : Address) (env : Env) :
    ∃ pages, Browses (fun cursor page =>
        (listCompanyCarriers company candidates cursor n).Returns env w page w)
        (·.nextCursor) 0 pages ∧
      (∀ pages', Browses (fun cursor page =>
        (listCompanyCarriers company candidates cursor n).Returns env w page w)
        (·.nextCursor) 0 pages' → pages' = pages) ∧
      pages.flatMap (·.carriers) = candidates.filter (w.isCarrierWhitelisted company) ∧
      (pages.map (·.totalScanned)).sum = candidates.length ∧
      ∀ page ∈ pages, page.carriers.length ≤ n := by
  have h := paged_listCompanyCarriers hadmin hlen hn hle company env
  obtain ⟨pages, hpages, huniq⟩ := h.exists_pages hn 0
  refine ⟨pages, hpages, huniq, h.flatMap_items hpages, ?_, h.length_items_le hpages⟩
  refine h.sum_scanned (fun cursor page hpage => ?_) hpages
  rw [((returns_listCompanyCarriers hadmin hn hle cursor).mp hpage).1, carrierLoop_cursor hlen hn]
  rfl

/-- A candidate that is listed twice, and one that is not whitelisted between. -/
theorem carriers_enumerate_twice : ∃ (ls : List Label) (c : Chain Deployment.host) (env : Env)
    (pages : List CarrierRelationshipPage), Run Step Deployment.chain ls c ∧
    Browses (fun cursor page => (listCompanyCarriers Deployment.company
      [Deployment.carrier, Deployment.receiver, Deployment.carrier] cursor 1).Returns env c.world page
        c.world) (·.nextCursor) 0 pages ∧
    pages.flatMap (·.carriers) = [Deployment.carrier, Deployment.carrier] ∧
    (pages.map (·.totalScanned)).sum = 3 := by
  obtain ⟨ls, c, hr, -, hadmin, hlisted⟩ := exists_play Deployment.chain
    (Deployment.opening ++ [Deployment.signed Deployment.company 5
      (.addCarrierToWhitelist Deployment.company Deployment.carrier)])
    (fun r => r.2.world.ledger.admin.isSome = true ∧
      [Deployment.carrier, Deployment.receiver, Deployment.carrier].filter
        (r.2.world.isCarrierWhitelisted Deployment.company) =
          [Deployment.carrier, Deployment.carrier]) (by decide +kernel)
  let env := (Deployment.signed Deployment.company 6 (.extendTtl 1)).2
  have hlen : [Deployment.carrier, Deployment.receiver, Deployment.carrier].length ≤ u32Max := by
    decide
  obtain ⟨pages, hpages, -, hlist, hsum, -⟩ :=
    carriers_enumerate (n := 1) hadmin hlen le_rfl (by decide) Deployment.company env
  exact ⟨ls, c, env, pages, hr, hpages, hlist.trans hlisted, hsum⟩

end Navin
