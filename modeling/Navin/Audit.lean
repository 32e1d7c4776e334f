/-
# The audit in pages

`check_consistency_paginated` reads the shipments page by page, and what is wrong with a
record is reported by the page the record is on. The status counters are about all
records at once: they are compared only in a window that starts at the first shipment and
ends at the last. Of several pages none does both, so an audit in pages never compares
them, and it finds what the audit in one window finds unless that is a wrong counter.

Key definitions:
- `scanReach`: the last id a scan gets to;
- `World.Auditor`: who may ask for a page;
- `World.AuditFits`: the counters are right, or there is one page.

Key theorems:
- `returns_checkConsistencyPaginated`: what a page answers;
- `paged_audit_iff`.
-/
import Navin.Entry.Queries
import Navin.Lib.Pages
import Navin.Lib.Returns
import Navin.Orderly

namespace Navin

open Tx

variable {H : Host} {env : Env} {w : World H} {admin : Address} {limit start : ℕ}

/-! ### Windows -/

/-- The last id a scan gets to: the end of a window saturates. -/
def scanReach (total : ℕ) : ℕ := min total (u64Max - 1)

theorem scanReach_le (total : ℕ) : scanReach total ≤ total := min_le_left _ _

theorem scanReach_eq {total : ℕ} (h : total < u64Max) : scanReach total = total := by
  unfold scanReach
  omega

/-- The window of a scan is a page. -/
theorem window_eq_page (total start limit : ℕ) :
    List.range' start (min (saturatingAddU64 start limit - 1) total + 1 - start) =
      page (scanReach total) limit start := by
  have hreach : min (saturatingAddU64 start limit - 1) total =
      min (start + limit - 1) (scanReach total) := by
    unfold scanReach saturatingAddU64
    calc min (min (start + limit) u64Max - 1) total
        = min (min (start + limit - 1) (u64Max - 1)) total := by rw [Nat.sub_min_sub_right]
      _ = min (start + limit - 1) (min total (u64Max - 1)) := by rw [min_assoc, min_comm total]
  unfold page
  rw [hreach]

/-! ### Asking for a page -/

/-- An admin or an operator who signed the call to a contract in use. -/
structure World.Auditor (w : World H) (env : Env) (admin : Address) : Prop where
  initialized : w.ledger.admin.isSome = true
  signed : env.auth admin = true
  entitled : w.ledger.admin = some admin ∨ w.hasActiveRole admin .operator = true

theorem returns_requireInitialized {u : Unit} {w' : World H} :
    (requireInitialized : Contract H Unit).Returns env w u w' ↔ w.ledger.admin.isSome = true ∧ w' = w := by
  unfold requireInitialized World.isInitialized
  rw [returns_gets_bind, returns_rejectIf, Bool.not_eq_false]

theorem returns_requireAuth {u : Unit} {w' : World H} :
    (requireAuth admin : Contract H Unit).Returns env w u w' ↔
      env.auth admin = true ∧ w' = w.signed admin := by
  unfold requireAuth log
  rw [returns_ask_bind, returns_trapIf_bind, returns_modify, Bool.not_eq_false]
  rfl

theorem returns_requireAdminOr {role : Role} {u : Unit} {w' : World H} :
    (requireAdminOr role admin : Contract H Unit).Returns env w u w' ↔ w.ledger.admin.isSome = true ∧
      (w.ledger.admin = some admin ∨ w.hasActiveRole admin role = true) ∧ w' = w := by
  unfold requireAdminOr getAdmin
  rw [returns_unit_bind fun _ _ => returns_requireInitialized, and_congr_right_iff]
  intro h
  obtain ⟨a, ha⟩ := Option.isSome_iff_exists.mp h
  simp only [returns_bind, returns_gets, returns_unwrap, returns_rejectIf]
  constructor
  · rintro ⟨_, _, ⟨_, _, ⟨rfl, rfl⟩, hb, rfl⟩, _, _, ⟨rfl, rfl⟩, hn, rfl⟩
    rw [hb]
    refine ⟨?_, rfl⟩
    by_contra hc
    push Not at hc
    exact hn ⟨fun he => hc.1 (by rw [he]), Bool.not_eq_true _ ▸ hc.2⟩
  · rintro ⟨hor, rfl⟩
    refine ⟨a, w', ⟨_, w', ⟨rfl, rfl⟩, ha, rfl⟩, _, w', ⟨rfl, rfl⟩, ?_, rfl⟩
    rintro ⟨hne, hf⟩
    rcases hor with hor | hor
    · exact hne (Option.some.inj (ha.symm.trans hor))
    · rw [hf] at hor
      cases hor

/-- Who is answered, and with what. -/
theorem returns_paginated {α : Type} {read : Contract H α} {x : α} {w' : World H} :
    (paginated admin limit read).Returns env w x w' ↔ w.Auditor env admin ∧
      (0 < limit ∧ limit ≤ maxBatchQuerySize) ∧ read.Returns env (w.signed admin) x w' := by
  unfold paginated requireAdminOrOperator
  rw [returns_unit_bind fun _ _ => returns_requireInitialized,
    returns_unit_bind fun _ _ => returns_requireAuth, returns_bind]
  simp only [returns_requireAdminOr, returns_rejectIf_bind, not_or, not_lt, Nat.pos_iff_ne_zero]
  constructor
  · rintro ⟨hi, hs, _, _, ⟨-, he, rfl⟩, hl, hr⟩
    exact ⟨⟨hi, hs, he⟩, hl, hr⟩
  · rintro ⟨ha, hl, hr⟩
    exact ⟨ha.initialized, ha.signed, (), _, ⟨ha.initialized, ha.entitled, rfl⟩, hl, hr⟩

theorem returns_checkConsistencyPaginated {vs : List ConsistencyViolation} {w' : World H} :
    (checkConsistencyPaginated admin start limit).Returns env w vs w' ↔ w.Auditor env admin ∧
      (0 < limit ∧ limit ≤ maxBatchQuerySize) ∧ vs = w.checkAllConsistencyRange start limit ∧
      w' = w.signed admin := by
  unfold checkConsistencyPaginated
  rw [returns_paginated, returns_gets]
  rfl

/-! ### The audit -/

/-- The counters are right, or one page is the whole audit; at the last `u64` the audit does
not look at the counters. -/
def World.AuditFits (w : World H) (limit : ℕ) : Prop :=
  w.ledger.shipmentCount ≤ limit ∨ u64Max ≤ w.ledger.shipmentCount ∨
    ∀ s, w.ledger.statusCount s = w.ledger.numberIn s

/-- What is wrong with the records a scan gets to. -/
def World.recordViolations (w : World H) : List ConsistencyViolation :=
  (List.range' 1 (scanReach w.ledger.shipmentCount)).flatMap w.checkShipmentInvariants

/-- What is wrong with the counters. -/
def World.countViolations (w : World H) : List ConsistencyViolation :=
  w.checkStatusCountConsistencyRange 1 w.ledger.shipmentCount

variable {v : ConsistencyViolation}

theorem statusCountMismatch_notMem_records :
    ConsistencyViolation.statusCountMismatch ∉ w.recordViolations := by
  unfold World.recordViolations
  rw [List.mem_flatMap]
  rintro ⟨id, -, h⟩
  unfold World.checkShipmentInvariants at h
  split at h
  · simp at h
  · simp only [List.mem_append, List.mem_ite_nil_right, List.mem_singleton, reduceCtorEq, and_false,
      or_false] at h

theorem eq_of_mem_countViolations (h : v ∈ w.countViolations) : v = .statusCountMismatch := by
  unfold World.countViolations World.checkStatusCountConsistencyRange at h
  dsimp only at h
  split_ifs at h <;> simp_all

theorem mem_countViolations_iff (hpos : 0 < w.ledger.shipmentCount) :
    .statusCountMismatch ∈ w.countViolations ↔ ¬∀ s, w.ledger.statusCount s = w.ledger.numberIn s := by
  rw [← checkStatusCountConsistencyRange_eq_nil hpos]
  constructor
  · exact List.ne_nil_of_mem
  · intro hne
    obtain ⟨v, hv⟩ := List.exists_mem_of_ne_nil _ hne
    rwa [← eq_of_mem_countViolations hv]

/-- The counters are compared in the window of all ids only. -/
theorem mem_checkStatusCount_iff (hpos : 0 < start) (hle : start ≤ w.ledger.shipmentCount) {stop : ℕ} :
    v ∈ w.checkStatusCountConsistencyRange start stop ↔
      start = 1 ∧ w.ledger.shipmentCount ≤ stop ∧ v ∈ w.countViolations := by
  unfold World.countViolations World.checkStatusCountConsistencyRange
  dsimp only
  have hout : ¬(start = 0 ∨ w.ledger.shipmentCount < start) := by omega
  have hone : ¬((1 : ℕ) = 0 ∨ w.ledger.shipmentCount < 1) := by omega
  rw [if_neg hout, if_neg hone]
  by_cases hw : start = 1 ∧ w.ledger.shipmentCount ≤ stop
  · obtain ⟨rfl, hstop⟩ := hw
    rw [min_eq_right hstop, min_self]
    exact ⟨fun h => ⟨rfl, hstop, h⟩, fun h => h.2.2⟩
  · have hpart : ¬(start = 1 ∧ w.ledger.shipmentCount ≤ min stop w.ledger.shipmentCount) := by omega
    rw [if_neg hpart]
    exact iff_of_false List.not_mem_nil fun h => hw ⟨h.1, h.2.1⟩

/-- A scan from some id on. -/
theorem mem_checkAll_iff (hpos : 0 < start) (hle : start ≤ w.ledger.shipmentCount) (hlimit : 0 < limit) :
    v ∈ w.checkAllConsistencyRange start limit ↔
      v ∈ (page (scanReach w.ledger.shipmentCount) limit start).flatMap w.checkShipmentInvariants ∨
      (start = 1 ∧ w.ledger.shipmentCount ≤ limit ∧ w.ledger.shipmentCount < u64Max ∧
        v ∈ w.countViolations) := by
  unfold World.checkAllConsistencyRange
  dsimp only
  rw [if_neg (by omega), window_eq_page, List.mem_append, mem_checkStatusCount_iff hpos hle]
  refine or_congr_right (and_congr_right fun hone => ?_)
  rw [← and_assoc]
  refine and_congr_left fun _ => ?_
  unfold saturatingAddU64
  have : 0 < u64Max := by decide
  omega

/-- The audit in one window. -/
theorem mem_fullAudit_iff : v ∈ w.checkAllConsistencyRange 1 w.ledger.shipmentCount ↔
    v ∈ w.recordViolations ∨ (w.ledger.shipmentCount < u64Max ∧ v ∈ w.countViolations) := by
  by_cases hpos : 0 < w.ledger.shipmentCount
  · rw [mem_checkAll_iff one_pos hpos hpos, and_iff_right rfl, and_iff_right le_rfl]
    have hpage : page (scanReach w.ledger.shipmentCount) w.ledger.shipmentCount 1 =
        List.range' 1 (scanReach w.ledger.shipmentCount) := by
      have := scanReach_le w.ledger.shipmentCount
      unfold page
      congr 1
      omega
    rw [hpage]
    rfl
  · have hzero : w.ledger.shipmentCount = 0 := by omega
    unfold World.checkAllConsistencyRange World.recordViolations World.countViolations
      World.checkStatusCountConsistencyRange scanReach
    simp [hzero]

/-- The audit in pages. -/
theorem mem_pagedAudit_iff (hlimit : 0 < limit) (hle : limit ≤ maxBatchQuerySize) :
    (∃ start ∈ pageStarts w.ledger.shipmentCount limit, v ∈ w.checkAllConsistencyRange start limit) ↔
      v ∈ w.recordViolations ∨ (w.ledger.shipmentCount ≤ limit ∧ v ∈ w.countViolations) := by
  have hrecords : v ∈ w.recordViolations ↔ ∃ start ∈ pageStarts w.ledger.shipmentCount limit,
      v ∈ (page (scanReach w.ledger.shipmentCount) limit start).flatMap w.checkShipmentInvariants := by
    unfold World.recordViolations
    rw [← flatMap_flatMap_pages hlimit (scanReach_le _), List.mem_flatMap]
  have hu : maxBatchQuerySize < u64Max := by decide
  rw [hrecords]
  constructor
  · rintro ⟨start, hstart, hv⟩
    obtain ⟨hs, k, rfl⟩ := (mem_pageStarts hlimit).mp hstart
    rcases (mem_checkAll_iff (by omega) hs hlimit).mp hv with h | ⟨-, hn, -, h⟩
    · exact .inl ⟨_, hstart, h⟩
    · exact .inr ⟨hn, h⟩
  · rintro (⟨start, hstart, h⟩ | ⟨hn, h⟩)
    · obtain ⟨hs, k, rfl⟩ := (mem_pageStarts hlimit).mp hstart
      exact ⟨_, hstart, (mem_checkAll_iff (by omega) hs hlimit).mpr (.inl h)⟩
    · have hpos : 1 ≤ w.ledger.shipmentCount := by
        by_contra hz
        have hz : w.ledger.shipmentCount = 0 := by omega
        unfold World.countViolations World.checkStatusCountConsistencyRange at h
        simp [hz] at h
      refine ⟨1, (mem_pageStarts hlimit).mpr ⟨hpos, 0, by omega⟩, ?_⟩
      exact (mem_checkAll_iff one_pos hpos hlimit).mpr (.inr ⟨rfl, hn, by omega, h⟩)

/-- **The audit in pages.** An auditor is answered for every page, and the pages together
report what the audit in one window reports if and only if the counters are right or there is
one page. -/
theorem paged_audit_iff (ha : w.Auditor env admin) (hlimit : 0 < limit)
    (hle : limit ≤ maxBatchQuerySize) : ∃ vs : ℕ → List ConsistencyViolation,
      (∀ start, ∃ w', (checkConsistencyPaginated admin start limit).Returns env w (vs start) w') ∧
      ((∀ v, (∃ start ∈ pageStarts w.ledger.shipmentCount limit, v ∈ vs start) ↔
        v ∈ w.checkAllConsistencyRange 1 w.ledger.shipmentCount) ↔ w.AuditFits limit) := by
  refine ⟨(w.checkAllConsistencyRange · limit), fun start => ⟨_, returns_checkConsistencyPaginated.mpr
    ⟨ha, ⟨hlimit, hle⟩, rfl, rfl⟩⟩, ?_⟩
  have hu : maxBatchQuerySize < u64Max := by decide
  simp only [mem_pagedAudit_iff hlimit hle, mem_fullAudit_iff]
  unfold World.AuditFits
  constructor
  · intro h
    by_cases hn : w.ledger.shipmentCount ≤ limit
    · exact .inl hn
    · by_cases hlt : w.ledger.shipmentCount < u64Max
      · refine .inr (.inr ?_)
        by_contra hbad
        have hmem := (mem_countViolations_iff (by omega)).mpr hbad
        rcases (h .statusCountMismatch).mpr (.inr ⟨hlt, hmem⟩) with hr | hr
        · exact statusCountMismatch_notMem_records hr
        · exact hn hr.1
      · exact .inr (.inl (by omega))
  · intro hfits v
    refine or_congr_right (and_congr_left fun hv => ?_)
    obtain rfl := eq_of_mem_countViolations hv
    rcases hfits with hn | hn | hright
    · exact iff_of_true hn (by omega)
    · exact iff_of_false (by omega) (by omega)
    · by_cases hpos : 0 < w.ledger.shipmentCount
      · exact absurd hright ((mem_countViolations_iff hpos).mp hv)
      · exact iff_of_true (by omega) (by omega)

/-- A second shipment of the deployment. -/
def Deployment.parcel : ShipmentInput := { Deployment.shipment with dataHash := 2 }

/-- Two shipments, a page each. -/
theorem paged_audit_two : ∃ (w : World Deployment.host) (env : Env)
    (vs : ℕ → List ConsistencyViolation), w.ledger.shipmentCount = 2 ∧
      (∀ start, ∃ w', (checkConsistencyPaginated Deployment.admin start 1).Returns env w (vs start) w') ∧
      ∀ v, (∃ start ∈ pageStarts w.ledger.shipmentCount 1, v ∈ vs start) ↔
        v ∈ w.checkAllConsistencyRange 1 w.ledger.shipmentCount := by
  obtain ⟨ls, c, hr, -, hls, htwo, hadm⟩ := exists_play Deployment.chain
    (Deployment.opening ++ [
      Deployment.signed Deployment.company 5 (.createShipment Deployment.company Deployment.parcel)])
    (fun r => (∀ l ∈ r.1, l.Ordinary) ∧ r.2.world.ledger.shipmentCount = 2 ∧
      r.2.world.ledger.admin = some Deployment.admin) (by decide +kernel)
  have ha : c.world.Auditor ⟨6, 6, fun a => a = Deployment.admin, fun _ => true⟩ Deployment.admin :=
    ⟨by rw [hadm]; rfl, by decide, .inl hadm⟩
  obtain ⟨vs, hvs, hiff⟩ := paged_audit_iff ha one_pos (by decide)
  exact ⟨c.world, _, vs, htwo, hvs,
    hiff.mpr (.inr (.inr (ordinary_run_consistent Deployment.deployed hr hls).counted))⟩

/-- The admin recovers one of two shipments into another status, and the counters are off. -/
theorem paged_audit_misses : ¬∀ (w : World Deployment.host) (env : Env) (admin : Address) (limit : ℕ),
    w.Auditor env admin → 0 < limit → limit ≤ maxBatchQuerySize →
      ∃ vs : ℕ → List ConsistencyViolation,
        (∀ start, ∃ w', (checkConsistencyPaginated admin start limit).Returns env w (vs start) w') ∧
        ∀ v, (∃ start ∈ pageStarts w.ledger.shipmentCount limit, v ∈ vs start) ↔
          v ∈ w.checkAllConsistencyRange 1 w.ledger.shipmentCount := by
  intro hall
  obtain ⟨ls, c, -, -, hadm, hfull, hpages⟩ := exists_play Deployment.chain
    (Deployment.opening ++ [
      Deployment.signed Deployment.company 5 (.createShipment Deployment.company Deployment.parcel),
      Deployment.signed Deployment.admin 6 (.recoverShipment Deployment.admin 1 .inTransit 3)])
    (fun r => r.2.world.ledger.admin = some Deployment.admin ∧
      .statusCountMismatch ∈ r.2.world.checkAllConsistencyRange 1 r.2.world.ledger.shipmentCount ∧
      ∀ start ∈ pageStarts r.2.world.ledger.shipmentCount 1,
        .statusCountMismatch ∉ r.2.world.checkAllConsistencyRange start 1) (by decide +kernel)
  have ha : c.world.Auditor ⟨7, 7, fun a => a = Deployment.admin, fun _ => true⟩ Deployment.admin :=
    ⟨by rw [hadm]; rfl, by decide, .inl hadm⟩
  obtain ⟨vs, hvs, hsame⟩ := hall c.world _ Deployment.admin 1 ha one_pos (by decide)
  obtain ⟨start, hstart, hmem⟩ := (hsame .statusCountMismatch).mpr hfull
  obtain ⟨w', hret⟩ := hvs start
  rw [(returns_checkConsistencyPaginated.mp hret).2.2.1] at hmem
  exact hpages start hstart hmem

end Navin
