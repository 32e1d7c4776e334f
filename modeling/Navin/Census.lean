/-
# Counting the shipments

Three views count shipments by status. The summary and the number of open shipments are
read off the counters, the health scan looks at the records; and each has its own list of
statuses. The summary has no field for `PartiallyRefunded`, and the scan takes a disputed
shipment for closed and a partially refunded one for open.

Key definitions:
- `Ledger.numberAmong`: the shipments in one of several statuses;
- `World.ViewsAgree`: what the views would have to say;
- `World.Uncontested`: no shipment in one of the two statuses.

Key theorems:
- `numberAmong_eq_sum`;
- `returns_checkContractHealthPaginated`: a page of the health scan;
- `views_agree_iff`.
-/
import Navin.Audit

namespace Navin

open Tx

variable {H : Host} {env : Env} {w : World H} {admin : Address} {limit start now : ℕ}

/-! ### Shipments in some of the statuses -/

namespace Ledger

variable {Token : Type} (l : Ledger Token)

/-- The number of shipments in one of the statuses. -/
def numberAmong (statuses : List ShipmentStatus) : ℕ :=
  ((Finset.Icc 1 l.shipmentCount).filter fun id => ∃ s ∈ statuses, l.statusOf id = some s).card

theorem numberAmong_nil : l.numberAmong [] = 0 := by
  unfold numberAmong
  simp

theorem numberAmong_cons {s : ShipmentStatus} {statuses : List ShipmentStatus} (h : s ∉ statuses) :
    l.numberAmong (s :: statuses) = l.numberIn s + l.numberAmong statuses := by
  unfold numberAmong numberIn
  rw [← Finset.card_union_of_disjoint, ← Finset.filter_or]
  · simp only [List.mem_cons, exists_eq_or_imp]
  · refine Finset.disjoint_filter.mpr fun id _ hs ht => ?_
    obtain ⟨t, hmem, ht⟩ := ht
    obtain rfl : s = t := Option.some.inj (hs.symm.trans ht)
    exact h hmem

theorem numberAmong_eq_sum {statuses : List ShipmentStatus} (h : statuses.Nodup) :
    l.numberAmong statuses = (statuses.map l.numberIn).sum := by
  induction statuses with
  | nil => exact l.numberAmong_nil
  | cons s statuses ih =>
    obtain ⟨hs, h⟩ := List.nodup_cons.mp h
    rw [l.numberAmong_cons hs, ih h, List.map_cons, List.sum_cons]

/-- Every shipment is in one of the eight. -/
theorem numberAmong_all (hfull : ∀ id, 1 ≤ id → id ≤ l.shipmentCount → ∃ s, l.getShipment id = some s) :
    l.numberAmong ShipmentStatus.all = l.shipmentCount := by
  have hall : ∀ s : ShipmentStatus, s ∈ ShipmentStatus.all := by
    intro s
    cases s <;> decide
  unfold numberAmong
  rw [Finset.filter_true_of_mem, Nat.card_Icc, Nat.add_sub_cancel]
  intro id hid
  obtain ⟨h₁, h₂⟩ := Finset.mem_Icc.mp hid
  obtain ⟨s, hs⟩ := hfull id h₁ h₂
  exact ⟨s.status, hall _, by rw [statusOf, hs]; rfl⟩

end Ledger

/-! ### The views -/

/-- The sum of the fields. -/
def ShipmentStatusSummary.total (s : ShipmentStatusSummary) : ℕ :=
  s.created + s.inTransit + s.atCheckpoint + s.partiallyDelivered + s.delivered + s.disputed + s.cancelled

/-- The shipments that are not `Delivered`, `Cancelled` or `PartiallyRefunded`. -/
def Ledger.openCount {Token : Type} (l : Ledger Token) : ℕ :=
  ((Finset.Icc 1 l.shipmentCount).filter fun id => ∃ s, l.getShipment id = some s ∧
    s.status ≠ .delivered ∧ s.status ≠ .cancelled ∧ s.status ≠ .partiallyRefunded).card

/-- The views agree: the summary adds up to the number of shipments, and the open shipments
are counted alike from the counters, from the records, and in the pages of the health scan. -/
structure World.ViewsAgree (w : World H) : Prop where
  summary : ∀ env, ∃ s, getStatusSummary.Returns env w s w ∧ s.total = w.ledger.shipmentCount
  nonTerminal : ∀ env, getNonTerminalCount.Returns env w w.ledger.openCount w
  scan : ∀ env admin limit, w.Auditor env admin → 0 < limit → limit ≤ maxBatchQuerySize →
    ∃ pages : ℕ → SystemHealthStatus,
      (∀ start, ∃ w', (checkContractHealthPaginated admin start limit).Returns env w (pages start) w') ∧
      ((pageStarts w.ledger.shipmentCount limit).map fun start =>
        (pages start).activeShipmentsCounted).sum = w.ledger.openCount

/-- No shipment is disputed or partially refunded, and none that is open is out of the reach
of a scan. -/
structure World.Uncontested (w : World H) : Prop where
  settled : ∀ id s, w.getShipment id = some s →
    s.status ≠ .disputed ∧ s.status ≠ .partiallyRefunded
  reached : ∀ s, w.getShipment u64Max = some s → s.status = .delivered ∨ s.status = .cancelled

/-! ### A page of the health scan -/

/-- What the scan counts as active. -/
def scannedStatuses : List ShipmentStatus :=
  [.created, .inTransit, .atCheckpoint, .partiallyDelivered, .partiallyRefunded]

/-- The scan counts the shipment. -/
def World.scanCounts (w : World H) (id : ℕ) : Bool :=
  decide (∃ s ∈ scannedStatuses, w.ledger.statusOf id = some s)

theorem mem_scannedStatuses {s : ShipmentStatus} :
    s ∈ scannedStatuses ↔ ¬(s = .delivered ∨ s = .cancelled ∨ s = .disputed) := by
  cases s <;> decide

theorem scanCounts_of_none {id : ℕ} (h : w.getShipment id = none) : ¬w.scanCounts id = true := by
  have hof : w.ledger.statusOf id = (w.getShipment id).map (·.status) := rfl
  unfold World.scanCounts
  rw [hof, h]
  simp

theorem scanCounts_of_some {id : ℕ} {s : Shipment} (h : w.getShipment id = some s) :
    w.scanCounts id = true ↔ ¬(s.status = .delivered ∨ s.status = .cancelled ∨ s.status = .disputed) := by
  have hof : w.ledger.statusOf id = (w.getShipment id).map (·.status) := rfl
  unfold World.scanCounts
  rw [hof, h, ← mem_scannedStatuses]
  simp

/-- One shipment: the count goes up by one or stays. -/
theorem World.healthCheck_active (w : World H) (now : ℕ) {health : SystemHealthStatus}
    (hlt : health.activeShipmentsCounted < u32Max) (id : ℕ) : ∃ h,
      w.healthCheck now health id = some h ∧ h.activeShipmentsCounted =
        health.activeShipmentsCounted + if w.scanCounts id = true then 1 else 0 := by
  have hadd : checkedAddU32 health.activeShipmentsCounted 1 = some (health.activeShipmentsCounted + 1) :=
    if_pos hlt
  unfold World.healthCheck
  cases hg : w.getShipment id with
  | none =>
    rw [if_neg (scanCounts_of_none hg)]
    exact ⟨_, rfl, rfl⟩
  | some s =>
    have hcounts := scanCounts_of_some hg
    by_cases ht : s.status = .delivered ∨ s.status = .cancelled ∨ s.status = .disputed
    · rw [if_neg fun h => hcounts.mp h ht]
      refine ⟨_, by simp only [if_pos ht]; rfl, ?_⟩
      rfl
    · rw [if_pos (hcounts.mpr ht)]
      refine ⟨_, by simp only [if_neg ht, hadd]; rfl, ?_⟩
      rfl

theorem World.foldlM_healthCheck (w : World H) (now : ℕ) (health : SystemHealthStatus) (ids : List ℕ)
    (hle : health.activeShipmentsCounted + ids.length ≤ u32Max) : ∃ h,
      ids.foldlM (w.healthCheck now) health = some h ∧
      h.activeShipmentsCounted = health.activeShipmentsCounted + ids.countP w.scanCounts := by
  induction ids generalizing health with
  | nil => exact ⟨health, rfl, rfl⟩
  | cons id ids ih =>
    rw [List.length_cons] at hle
    have hlt : health.activeShipmentsCounted < u32Max := by omega
    obtain ⟨h, hh, hcount⟩ := w.healthCheck_active now hlt id
    have hle' : h.activeShipmentsCounted + ids.length ≤ u32Max := by
      rw [hcount]
      split <;> omega
    obtain ⟨h', hh', hcount'⟩ := ih h hle'
    refine ⟨h', ?_, ?_⟩
    · rw [List.foldlM_cons, hh]
      exact hh'
    · rw [hcount', hcount, List.countP_cons]
      omega

/-- A page of the scan counts the active shipments on it. -/
theorem runSystemHealthCheckRange_active (w : World H) (now : ℕ) (hle : limit ≤ maxBatchQuerySize) (start : ℕ) : ∃ h,
    w.runSystemHealthCheckRange now start limit = some h ∧ (0 < start → 0 < limit →
      h.activeShipmentsCounted =
        (page (scanReach w.ledger.shipmentCount) limit start).countP w.scanCounts) := by
  have hreach := scanReach_le w.ledger.shipmentCount
  have hu : maxBatchQuerySize ≤ u32Max := by decide
  unfold World.runSystemHealthCheckRange
  dsimp only
  by_cases hin : 0 < start ∧ start ≤ w.ledger.shipmentCount ∧ 0 < limit
  · rw [if_pos hin, window_eq_page]
    have hlen : (page (scanReach w.ledger.shipmentCount) limit start).length ≤ limit := by
      unfold page
      rw [List.length_range']
      omega
    obtain ⟨h, hh, hcount⟩ := w.foldlM_healthCheck now ⟨w.ledger.shipmentCount, 0, 0, [], []⟩
      (page (scanReach w.ledger.shipmentCount) limit start) (by dsimp only; omega)
    exact ⟨h, hh, fun _ _ => hcount.trans (Nat.zero_add _)⟩
  · rw [if_neg hin]
    refine ⟨_, rfl, fun hs hl => ?_⟩
    -- the page starts after the last shipment
    have hempty : page (scanReach w.ledger.shipmentCount) limit start = [] := by
      rw [List.eq_nil_iff_forall_not_mem]
      intro id hid
      rw [mem_page hl] at hid
      omega
    rw [hempty]
    rfl

theorem returns_checkContractHealthPaginated {health : SystemHealthStatus} {w' : World H} :
    (checkContractHealthPaginated admin start limit).Returns env w health w' ↔ w.Auditor env admin ∧
      (0 < limit ∧ limit ≤ maxBatchQuerySize) ∧
      w.runSystemHealthCheckRange env.timestamp start limit = some health ∧ w' = w.signed admin := by
  unfold checkContractHealthPaginated timestamp
  rw [returns_paginated]
  refine and_congr_right fun _ => and_congr_right fun _ => ?_
  simp only [returns_bind, returns_ask, returns_pure, returns_gets, returns_unwrap]
  constructor
  · rintro ⟨_, _, ⟨_, _, ⟨rfl, rfl⟩, rfl, rfl⟩, _, _, ⟨rfl, rfl⟩, h, rfl⟩
    exact ⟨h, rfl⟩
  · rintro ⟨h, rfl⟩
    exact ⟨_, _, ⟨env, _, ⟨rfl, rfl⟩, rfl, rfl⟩, _, _, ⟨rfl, rfl⟩, h, rfl⟩

/-- What the pages of the scan count together. -/
theorem sum_active_of_returns {pages : ℕ → SystemHealthStatus} (hlimit : 0 < limit)
    (hpages : ∀ start, ∃ w',
      (checkContractHealthPaginated admin start limit).Returns env w (pages start) w') :
    ((pageStarts w.ledger.shipmentCount limit).map fun start =>
      (pages start).activeShipmentsCounted).sum =
        (List.range' 1 (scanReach w.ledger.shipmentCount)).countP w.scanCounts := by
  rw [← sum_map_countP_pages hlimit (scanReach_le _)]
  congr 1
  refine List.map_congr_left fun start hstart => ?_
  obtain ⟨-, k, rfl⟩ := (mem_pageStarts hlimit).mp hstart
  obtain ⟨w', hret⟩ := hpages (1 + k * limit)
  obtain ⟨-, ⟨-, hle⟩, hrun, -⟩ := returns_checkContractHealthPaginated.mp hret
  obtain ⟨h, hh, hact⟩ := runSystemHealthCheckRange_active w env.timestamp hle (1 + k * limit)
  rw [Option.some.inj (hrun.symm.trans hh)]
  exact hact (by omega) hlimit

/-! ### Reading the counters -/

theorem returns_getStatusSummary {s : ShipmentStatusSummary} {w' : World H} :
    getStatusSummary.Returns env w s w' ↔ w.ledger.admin.isSome = true ∧
      s = ⟨w.ledger.statusCount .created, w.ledger.statusCount .inTransit,
        w.ledger.statusCount .atCheckpoint, w.ledger.statusCount .partiallyDelivered,
        w.ledger.statusCount .delivered, w.ledger.statusCount .disputed,
        w.ledger.statusCount .cancelled⟩ ∧ w' = w := by
  unfold getStatusSummary
  rw [returns_unit_bind fun _ _ => returns_requireInitialized, returns_gets_bind, returns_pure]

/-- The sum is returned when it fits. -/
theorem returns_getNonTerminalCount (hadm : w.ledger.admin.isSome = true) {n : ℕ}
    (hn : n = w.ledger.statusCount .created + w.ledger.statusCount .inTransit +
      w.ledger.statusCount .atCheckpoint + w.ledger.statusCount .partiallyDelivered +
      w.ledger.statusCount .disputed) (hle : n ≤ u64Max) :
    getNonTerminalCount.Returns env w n w := by
  have hadd : ∀ {a b : ℕ}, a + b ≤ n → (unwrap (checkedAddU64 a b) : Contract H ℕ).Returns env w (a + b) w :=
    fun hab => returns_unwrap.mpr ⟨if_pos (hab.trans hle), rfl⟩
  unfold getNonTerminalCount
  rw [returns_unit_bind fun _ _ => returns_requireInitialized, returns_gets_bind,
    (hadd (by omega)).bind_iff, (hadd (by omega)).bind_iff, (hadd (by omega)).bind_iff, hn]
  exact ⟨hadm, hadd (by omega)⟩

/-! ### The census -/

theorem Ledger.openCount_eq {Token : Type} (l : Ledger Token) : l.openCount =
    l.numberAmong [.created, .inTransit, .atCheckpoint, .partiallyDelivered, .disputed] := by
  have hmem : ∀ s : ShipmentStatus,
      s ∈ [ShipmentStatus.created, .inTransit, .atCheckpoint, .partiallyDelivered, .disputed] ↔
        s ≠ .delivered ∧ s ≠ .cancelled ∧ s ≠ .partiallyRefunded := by
    intro s
    cases s <;> decide
  unfold openCount numberAmong
  congr 1
  refine Finset.filter_congr fun id _ => ?_
  unfold statusOf
  cases l.getShipment id with
  | none => simp
  | some s => simp [← hmem]

/-- Nothing is in a status exactly when no record is. -/
theorem numberIn_eq_zero_iff (hs : w.ledger.Sound) (status : ShipmentStatus) :
    w.ledger.numberIn status = 0 ↔ ∀ id s, w.getShipment id = some s → s.status ≠ status := by
  unfold Ledger.numberIn
  rw [Finset.card_eq_zero, Finset.filter_eq_empty_iff]
  constructor
  · intro h id s hg hst
    refine h (Finset.mem_Icc.mpr (hs.ids id s hg)) ?_
    change (w.getShipment id).map (·.status) = some status
    rw [hg, ← hst]
    rfl
  · intro h id _ hof
    obtain ⟨s, hg, hst⟩ := Option.map_eq_some_iff.mp hof
    exact h id s hg hst

/-- The scan in pages misses the last shipment when its id is the last `u64`. -/
theorem numberAmong_scanned (hle : w.ledger.shipmentCount ≤ u64Max) :
    w.ledger.numberAmong scannedStatuses =
      (List.range' 1 (scanReach w.ledger.shipmentCount)).countP w.scanCounts +
        if w.ledger.shipmentCount = u64Max ∧ w.scanCounts u64Max = true then 1 else 0 := by
  have hcount : w.ledger.numberAmong scannedStatuses =
      (List.range' 1 w.ledger.shipmentCount).countP w.scanCounts :=
    (countP_range' (fun id => ∃ s ∈ scannedStatuses, w.ledger.statusOf id = some s) _).symm
  rw [hcount]
  by_cases hlt : w.ledger.shipmentCount < u64Max
  · rw [scanReach_eq hlt, if_neg fun h => hlt.ne h.1, add_zero]
  · obtain ⟨k, hk⟩ : ∃ k, u64Max = k + 1 := ⟨_, rfl⟩
    have heq : w.ledger.shipmentCount = k + 1 := by omega
    have hreach : scanReach (k + 1) = k := by
      unfold scanReach
      omega
    rw [heq, hk, hreach, List.range'_concat, List.countP_append, one_mul, add_comm 1 k,
      List.countP_singleton]
    simp only [true_and]

/-- The shipments are numbered in a `u64`. -/
theorem Effects.count_le {call : Call} {b : Book H.Token} (he : Effects env w call b)
    (h : w.ledger.shipmentCount ≤ u64Max) : b.ledger.shipmentCount ≤ u64Max := by
  cases he with
  | quiet => exact h
  | initialized => exact Nat.zero_le _
  | handedOver => exact h
  | enrolled _ _ _ he =>
    cases he with
    | nil => exact h
    | snoc _ hle _ => exact hle
  | archived => exact h
  | posted _ _ _ hp =>
    obtain ⟨t, token, -, -, rfl⟩ := hp
    exact h

theorem Run.count_le {c c₀ : Chain H} {ls : List Label} (hr : Run Step c₀ ls c) (hd : Deployed c₀) :
    c.world.ledger.shipmentCount ≤ u64Max := by
  have hc : Reachable c := ⟨c₀, ls, hd, hr⟩
  refine hc.inv (I := fun c => c.world.ledger.shipmentCount ≤ u64Max) (fun _ _ => Nat.zero_le _)
    fun x l y hx h hstep => ?_
  cases hstep with
  | committed _ hx' =>
    have hs : x.world.fresh.ledger.Sound := hx.sound
    exact (exec_effects hs.keyed hx').count_le h
  | reverted => exact h
  | outside => exact h

/-- The numbers of shipments in the eight statuses, of an orderly state. -/
structure World.Tallied (w : World H) : Prop where
  sound : w.ledger.Sound
  consistent : w.Consistent
  le : w.ledger.shipmentCount ≤ u64Max

namespace World.Tallied

theorem sum_eq (h : w.Tallied) : w.ledger.numberIn .created + w.ledger.numberIn .inTransit +
    w.ledger.numberIn .atCheckpoint + w.ledger.numberIn .partiallyDelivered +
    w.ledger.numberIn .delivered + w.ledger.numberIn .disputed + w.ledger.numberIn .cancelled +
    w.ledger.numberIn .partiallyRefunded = w.ledger.shipmentCount := by
  have hall := w.ledger.numberAmong_all h.consistent.full
  rw [w.ledger.numberAmong_eq_sum (by decide)] at hall
  simp only [ShipmentStatus.all, List.map_cons, List.map_nil, List.sum_cons, List.sum_nil] at hall
  omega

theorem openCount_eq (h : w.Tallied) : w.ledger.openCount = w.ledger.statusCount .created +
    w.ledger.statusCount .inTransit + w.ledger.statusCount .atCheckpoint +
    w.ledger.statusCount .partiallyDelivered + w.ledger.statusCount .disputed := by
  rw [w.ledger.openCount_eq, w.ledger.numberAmong_eq_sum (by decide)]
  simp only [h.consistent.counted, List.map_cons, List.map_nil, List.sum_cons, List.sum_nil]
  omega

/-- The pages of the health scan, counted together: a partially refunded shipment is counted,
a disputed one is not, and the last one may be out of reach. -/
theorem scan_eq (h : w.Tallied) : (List.range' 1 (scanReach w.ledger.shipmentCount)).countP w.scanCounts +
    (if w.ledger.shipmentCount = u64Max ∧ w.scanCounts u64Max = true then 1 else 0) +
      w.ledger.numberIn .disputed = w.ledger.openCount + w.ledger.numberIn .partiallyRefunded := by
  rw [← numberAmong_scanned h.le, h.openCount_eq, w.ledger.numberAmong_eq_sum (by decide)]
  simp only [h.consistent.counted, scannedStatuses, List.map_cons, List.map_nil, List.sum_cons,
    List.sum_nil]
  omega

/-- No shipment is open at the end of the scan's reach. -/
theorem reached_iff (h : w.Tallied) (hx : w.ledger.numberIn .disputed = 0) :
    (∀ s, w.getShipment u64Max = some s → s.status = .delivered ∨ s.status = .cancelled) ↔
      ¬(w.ledger.shipmentCount = u64Max ∧ w.scanCounts u64Max = true) := by
  rw [numberIn_eq_zero_iff h.sound] at hx
  cases hg : w.getShipment u64Max with
  | none => exact iff_of_true (fun _ hs => (by cases hs)) fun hc => scanCounts_of_none hg hc.2
  | some s =>
    have hcount : w.ledger.shipmentCount = u64Max :=
      le_antisymm h.le (h.sound.ids u64Max s hg).2
    have hs := hx u64Max s hg
    rw [scanCounts_of_some hg, and_iff_right hcount, not_not]
    constructor
    · intro hst
      rcases hst s rfl with hst | hst
      · exact .inl hst
      · exact .inr (.inl hst)
    · rintro (hst | hst | hst) t ht
      · exact .inl (Option.some.inj ht ▸ hst)
      · exact .inr (Option.some.inj ht ▸ hst)
      · exact absurd hst hs

theorem uncontested_iff (h : w.Tallied) : w.Uncontested ↔ w.ledger.numberIn .disputed = 0 ∧
    w.ledger.numberIn .partiallyRefunded = 0 ∧
      ¬(w.ledger.shipmentCount = u64Max ∧ w.scanCounts u64Max = true) := by
  constructor
  · intro hu
    have hx : w.ledger.numberIn .disputed = 0 :=
      (numberIn_eq_zero_iff h.sound _).mpr fun id s hg => (hu.settled id s hg).1
    exact ⟨hx, (numberIn_eq_zero_iff h.sound _).mpr fun id s hg => (hu.settled id s hg).2,
      (h.reached_iff hx).mp hu.reached⟩
  · rintro ⟨hx, hr, hreach⟩
    refine ⟨fun id s hg => ⟨?_, ?_⟩, (h.reached_iff hx).mpr hreach⟩
    · exact (numberIn_eq_zero_iff h.sound _).mp hx id s hg
    · exact (numberIn_eq_zero_iff h.sound _).mp hr id s hg

theorem viewsAgree_iff (h : w.Tallied) (hadm : w.ledger.admin.isSome = true) :
    w.ViewsAgree ↔ w.Uncontested := by
  have hsum := h.sum_eq
  have hscan := h.scan_eq
  have hopen := h.openCount_eq
  rw [h.uncontested_iff]
  constructor
  · intro hv
    obtain ⟨admin, ha⟩ := Option.isSome_iff_exists.mp hadm
    obtain ⟨s, hs, htotal⟩ := hv.summary ⟨0, 0, fun _ => true, fun _ => true⟩
    obtain ⟨-, rfl, -⟩ := returns_getStatusSummary.mp hs
    obtain ⟨pages, hpages, hcount⟩ := hv.scan ⟨0, 0, fun _ => true, fun _ => true⟩ admin 1
      ⟨hadm, rfl, .inl ha⟩ one_pos (by decide)
    rw [sum_active_of_returns one_pos hpages] at hcount
    rw [hcount] at hscan
    simp only [ShipmentStatusSummary.total, h.consistent.counted] at htotal
    split at hscan
    · omega
    · next hreach => exact ⟨by omega, by omega, hreach⟩
  · rintro ⟨hx, hr, hreach⟩
    rw [if_neg hreach, hx, hr] at hscan
    refine ⟨fun env => ⟨_, returns_getStatusSummary.mpr ⟨hadm, rfl, rfl⟩, ?_⟩, fun env => ?_, ?_⟩
    · simp only [ShipmentStatusSummary.total, h.consistent.counted]
      omega
    · have hle := h.le
      refine returns_getNonTerminalCount hadm hopen ?_
      simp only [h.consistent.counted] at hopen
      omega
    · intro env admin limit ha hlimit hle
      have hall : ∀ start, ∃ health w',
          (checkContractHealthPaginated admin start limit).Returns env w health w' := by
        intro start
        obtain ⟨health, hrun, -⟩ := runSystemHealthCheckRange_active w env.timestamp hle start
        exact ⟨health, _, returns_checkContractHealthPaginated.mpr ⟨ha, ⟨hlimit, hle⟩, hrun, rfl⟩⟩
      choose pages hpages using hall
      refine ⟨pages, hpages, ?_⟩
      rw [sum_active_of_returns hlimit hpages]
      omega

end World.Tallied

variable {c c₀ : Chain H} {ls : List Label}

theorem Run.countersTallied (hr : Run Step c₀ ls c) (hd : Deployed c₀) (hls : ∀ l ∈ ls, l.Ordinary) :
    c.world.Tallied := ⟨hr.sound hd, ordinary_run_consistent hd hr hls, hr.count_le hd⟩

/-- **The census.** After a run of the ordinary lifecycle the views agree exactly when no
shipment is disputed or partially refunded. -/
theorem views_agree_iff (hd : Deployed c₀) (hr : Run Step c₀ ls c) (hls : ∀ l ∈ ls, l.Ordinary)
    (hadm : c.world.ledger.admin.isSome = true) : c.world.ViewsAgree ↔ c.world.Uncontested :=
  (hr.countersTallied hd hls).viewsAgree_iff hadm

/-- One shipment on its way and one delivered. -/
theorem views_agree_delivered : ∃ (ls : List Label) (c : Chain Deployment.host),
    Run Step Deployment.chain ls c ∧ (∀ l ∈ ls, l.Ordinary) ∧ c.world.ledger.shipmentCount = 2 ∧
      (c.world.getShipment 1).map (·.status) = some .inTransit ∧
      (c.world.getShipment 2).map (·.status) = some .delivered ∧ c.world.ViewsAgree := by
  obtain ⟨ls, c, hr, -, hls, hcount, hadm, h₁, h₂⟩ := exists_play Deployment.chain
    (Deployment.opening ++ [
      Deployment.signed Deployment.company 5 (.createShipment Deployment.company Deployment.parcel),
      Deployment.signed Deployment.carrier 6 (.updateStatus Deployment.carrier 1 .inTransit 3),
      Deployment.signed Deployment.carrier 7 (.updateStatus Deployment.carrier 2 .inTransit 4),
      Deployment.signed Deployment.receiver 8 (.confirmDelivery Deployment.receiver 2 5)])
    (fun r => (∀ l ∈ r.1, l.Ordinary) ∧ r.2.world.ledger.shipmentCount = 2 ∧
      r.2.world.ledger.admin.isSome = true ∧
      (r.2.world.getShipment 1).map (·.status) = some .inTransit ∧
      (r.2.world.getShipment 2).map (·.status) = some .delivered) (by decide +kernel)
  have hids := (hr.sound Deployment.deployed).ids
  refine ⟨ls, c, hr, hls, hcount, h₁, h₂,
    (views_agree_iff Deployment.deployed hr hls hadm).mpr ⟨fun id s hg => ?_, fun s hg => ?_⟩⟩
  · obtain ⟨hpos, hle⟩ := hids id s hg
    have htwo : id ≤ 2 := hcount ▸ hle
    have hst : s.status = .inTransit ∨ s.status = .delivered := by
      obtain rfl | rfl : id = 1 ∨ id = 2 := by omega
      · rw [hg] at h₁
        exact .inl (Option.some.inj h₁)
      · rw [hg] at h₂
        exact .inr (Option.some.inj h₂)
    rcases hst with hst | hst <;> rw [hst] <;> decide
  · have hle : u64Max ≤ 2 := hcount ▸ (hids u64Max s hg).2
    exact absurd hle (by decide)

/-- The receiver disputes the only shipment: it is open for the counters and closed for the
scan. -/
theorem views_disagree : ¬∀ (c : Chain Deployment.host) (ls : List Label),
    Run Step Deployment.chain ls c → (∀ l ∈ ls, l.Ordinary) → c.world.ledger.admin.isSome = true →
      c.world.ViewsAgree := by
  intro hall
  obtain ⟨ls, c, hr, -, hls, hadm, hst⟩ := exists_play Deployment.chain
    (Deployment.opening ++ [
      Deployment.signed Deployment.receiver 5 (.raiseDispute Deployment.receiver 1 2)])
    (fun r => (∀ l ∈ r.1, l.Ordinary) ∧ r.2.world.ledger.admin.isSome = true ∧
      (r.2.world.getShipment 1).map (·.status) = some .disputed) (by decide +kernel)
  obtain ⟨s, hg, hs⟩ := Option.map_eq_some_iff.mp hst
  have ht := hr.countersTallied Deployment.deployed hls
  exact (((ht.viewsAgree_iff hadm).mp (hall c ls hr hls hadm)).settled 1 s hg).1 hs

end Navin
