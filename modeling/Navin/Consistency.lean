/-
# The consistency scan

The checks of `consistency.rs`, and what it means that they find nothing: every
record agrees with its `Escrow` entry, its schedule and its dates, and every
status counter is the number of shipments in that status.

Key definitions:
- `World.checkShipmentInvariants`, `World.checkStatusCountConsistencyRange`,
  `World.checkAllConsistencyRange`;
- `Shipment.Healthy`, `Ledger.numberIn`, `World.Consistent`.

Key theorems:
- `checkShipmentInvariants_of_some`: the record check as a proposition;
- `checkAllConsistencyRange_eq_nil`: the scan over all ids.
-/
import Navin.Guards
import Mathlib.Algebra.BigOperators.Intervals

namespace Navin

variable {H : Host}

/-! ### The checks -/

/-- The violations a scan of records and counters can report. -/
inductive ConsistencyViolation where
  | escrowMismatch (id : ℕ)
  | invalidFinalization (id : ℕ)
  | milestoneViolation (id : ℕ)
  | timestampAnomaly (id : ℕ)
  | deadlineAnomaly (id : ℕ)
  | missingShipment (id : ℕ)
  | statusCountMismatch
  deriving DecidableEq, Repr

/-- A shipment entered in the tally of statuses. -/
def tally (actual : List (ShipmentStatus × ℕ)) (s : Shipment) : List (ShipmentStatus × ℕ) :=
  actual.map fun a => (a.1, if s.status = a.1 then a.2 + 1 else a.2)

namespace World

variable (w : World H)

/-- `check_shipment_invariants`. -/
def checkShipmentInvariants (id : ℕ) : List ConsistencyViolation :=
  match w.getShipment id with
  | none => [.missingShipment id]
  | some s =>
    (if s.escrowAmount ≠ w.getEscrow id then [.escrowMismatch id] else []) ++
    (if s.finalized = true ∧
        (¬(s.status = .delivered ∨ s.status = .cancelled) ∨ s.escrowAmount ≠ 0) then
      [.invalidFinalization id] else []) ++
    -- one report for the first name outside the schedule, then the loop ends
    (if ∃ paid ∈ s.paidMilestones, ∀ m ∈ s.paymentMilestones, m.1 ≠ paid then
      [.milestoneViolation id] else []) ++
    (if s.updatedAt < s.createdAt then [.timestampAnomaly id] else []) ++
    (if s.deadline ≤ s.createdAt then [.deadlineAnomaly id] else [])

/-- The tally of the shipments of a list of ids. -/
def actualCounts (ids : List ℕ) : List (ShipmentStatus × ℕ) :=
  ids.foldl (fun actual id => match w.getShipment id with
    | some s => tally actual s
    | none => actual) (ShipmentStatus.all.map fun s => (s, 0))

/-- `check_status_count_consistency_range`. -/
def checkStatusCountConsistencyRange (startId endId : ℕ) : List ConsistencyViolation :=
  let total := w.ledger.shipmentCount
  if startId = 0 ∨ total < startId then []
  else
    let stop := min endId total
    let actual := w.actualCounts (List.range' startId (stop + 1 - startId))
    -- a window that leaves out a shipment cannot confirm the counters
    if startId = 1 ∧ total ≤ stop then
      if ∃ a ∈ actual, w.ledger.statusCount a.1 ≠ a.2 then [.statusCountMismatch] else []
    else []

/-- `check_all_consistency_range`. -/
def checkAllConsistencyRange (startId limit : ℕ) : List ConsistencyViolation :=
  let total := w.ledger.shipmentCount
  if startId = 0 ∨ total < startId ∨ limit = 0 then []
  else
    let endId := min (saturatingAddU64 startId limit - 1) total
    (List.range' startId (endId + 1 - startId)).flatMap w.checkShipmentInvariants ++
      w.checkStatusCountConsistencyRange startId endId

end World

/-! ### The record check -/

/-- A record that passes `check_shipment_invariants` beside an `Escrow` entry. -/
structure Shipment.Healthy (s : Shipment) (entry : ℤ) : Prop where
  mirrored : entry = s.escrowAmount
  finalized_settled : s.finalized = true →
    (s.status = .delivered ∨ s.status = .cancelled) ∧ s.escrowAmount = 0
  paid_scheduled : ∀ name ∈ s.paidMilestones, name ∈ s.paymentMilestones.map (·.1)
  updated : s.createdAt ≤ s.updatedAt
  deadline_later : s.createdAt < s.deadline

theorem checkShipmentInvariants_of_some {w : World H} {id : ℕ} {s : Shipment}
    (hs : w.getShipment id = some s) :
    w.checkShipmentInvariants id = [] ↔ s.Healthy (w.getEscrow id) := by
  have hpaid : (¬∃ paid ∈ s.paidMilestones, ∀ m ∈ s.paymentMilestones, m.1 ≠ paid) ↔
      ∀ name ∈ s.paidMilestones, name ∈ s.paymentMilestones.map (·.1) := by
    simp
  have hfin : (¬(s.finalized = true ∧
      (¬(s.status = .delivered ∨ s.status = .cancelled) ∨ s.escrowAmount ≠ 0))) ↔
      (s.finalized = true → (s.status = .delivered ∨ s.status = .cancelled) ∧ s.escrowAmount = 0) := by
    tauto
  unfold World.checkShipmentInvariants
  rw [hs]
  simp only [List.append_eq_nil_iff, ite_eq_right_iff, List.cons_ne_self, imp_false]
  rw [hpaid, hfin]
  constructor
  · rintro ⟨⟨⟨⟨h₁, h₂⟩, h₃⟩, h₄⟩, h₅⟩
    exact ⟨(not_not.mp h₁).symm, h₂, h₃, not_lt.mp h₄, not_le.mp h₅⟩
  · rintro ⟨h₁, h₂, h₃, h₄, h₅⟩
    exact ⟨⟨⟨⟨not_not.mpr h₁.symm, h₂⟩, h₃⟩, not_lt.mpr h₄⟩, not_le.mpr h₅⟩

/-- A missing shipment is reported, so what passes is there. -/
theorem exists_of_checkShipmentInvariants {w : World H} {id : ℕ}
    (h : w.checkShipmentInvariants id = []) : ∃ s, w.getShipment id = some s := by
  unfold World.checkShipmentInvariants at h
  cases hs : w.getShipment id with
  | none => rw [hs] at h; cases h
  | some s => exact ⟨s, rfl⟩

/-! ### The counters -/

/-- Changing one value of a function changes the number of its arguments with a
given value by that argument. -/
theorem card_filter_update {ι β : Type} [DecidableEq ι] [DecidableEq β] {s : Finset ι} {i : ι}
    (hi : i ∈ s) (f : ι → β) (b c : β) :
    (s.filter (Function.update f i b · = c)).card + (if f i = c then 1 else 0) =
      (s.filter (f · = c)).card + (if b = c then 1 else 0) := by
  rw [Finset.card_filter, Finset.card_filter, ← Finset.add_sum_erase s _ hi,
    ← Finset.add_sum_erase s (fun j => if f j = c then 1 else 0) hi, Function.update_self]
  have hrest : ∑ j ∈ s.erase i, (if Function.update f i b j = c then 1 else 0) =
      ∑ j ∈ s.erase i, if f j = c then 1 else 0 := by
    refine Finset.sum_congr rfl fun j hj => ?_
    rw [Function.update_of_ne (Finset.ne_of_mem_erase hj)]
  omega

/-- The number of `c` among the first `n + 1` values, the last of them new. -/
theorem card_filter_snoc {β : Type} [DecidableEq β] (n : ℕ) (f : ℕ → β) (b c : β) :
    ((Finset.Icc 1 (n + 1)).filter (Function.update f (n + 1) b · = c)).card =
      ((Finset.Icc 1 n).filter (f · = c)).card + (if b = c then 1 else 0) := by
  have hrest : (Finset.Icc 1 n).filter (Function.update f (n + 1) b · = c) =
      (Finset.Icc 1 n).filter (f · = c) := by
    refine Finset.filter_congr fun i hi => ?_
    rw [Function.update_of_ne]
    have := (Finset.mem_Icc.mp hi).2
    omega
  rw [← Finset.insert_Icc_right_eq_Icc_add_one (by omega), Finset.filter_insert, Function.update_self,
    hrest]
  by_cases hc : b = c
  · rw [if_pos hc, if_pos hc, Finset.card_insert_of_notMem (by simp)]
  · rw [if_neg hc, if_neg hc, add_zero]

namespace Ledger

variable {Token : Type} (l : Ledger Token)

/-- The status of a shipment, if there is one. -/
def statusOf (id : ℕ) : Option ShipmentStatus := (l.getShipment id).map (·.status)

/-- The number of shipments in a status. -/
def numberIn (status : ShipmentStatus) : ℕ :=
  ((Finset.Icc 1 l.shipmentCount).filter (l.statusOf · = some status)).card

end Ledger

theorem countP_range' (p : ℕ → Prop) [DecidablePred p] (n : ℕ) :
    (List.range' 1 n).countP (fun i => p i) = ((Finset.Icc 1 n).filter p).card := by
  induction n with
  | zero => simp
  | succ n ih =>
    rw [List.range'_concat, List.countP_append, ih, ← Finset.insert_Icc_right_eq_Icc_add_one (by omega),
      Finset.filter_insert]
    by_cases hp : p (n + 1)
    · rw [if_pos hp, Finset.card_insert_of_notMem (by simp)]
      simp [add_comm, hp]
    · rw [if_neg hp]
      simp [add_comm, hp]

/-- The tally of a list of ids counts each status. -/
theorem actualCounts_eq (w : World H) (ids : List ℕ) : w.actualCounts ids =
    ShipmentStatus.all.map fun s => (s, ids.countP fun id => w.ledger.statusOf id = some s) := by
  induction ids using List.reverseRecOn with
  | nil => simp [World.actualCounts]
  | append_singleton ids id ih =>
    have hstep : w.actualCounts (ids ++ [id]) = match w.getShipment id with
        | some s => tally (w.actualCounts ids) s
        | none => w.actualCounts ids := by
      simp [World.actualCounts]
    have hof : w.ledger.statusOf id = (w.getShipment id).map (·.status) := rfl
    rw [hstep, ih]
    cases hg : w.getShipment id with
    | none => simp [List.countP_append, hof, hg]
    | some s =>
      simp only [tally, List.map_map]
      refine List.map_congr_left fun st _ => ?_
      rw [Function.comp_apply, List.countP_append, List.countP_singleton, hof, hg]
      by_cases hst : s.status = st <;> simp [hst]

/-- The full window finds nothing exactly when every counter is right. -/
theorem checkStatusCountConsistencyRange_eq_nil {w : World H} (hpos : 0 < w.ledger.shipmentCount) :
    w.checkStatusCountConsistencyRange 1 w.ledger.shipmentCount = [] ↔
      ∀ s, w.ledger.statusCount s = w.ledger.numberIn s := by
  have hall : ∀ s : ShipmentStatus, s ∈ ShipmentStatus.all := by
    intro s
    cases s <;> decide
  unfold World.checkStatusCountConsistencyRange
  simp only [min_self, Nat.add_sub_cancel, le_refl, and_true, if_true]
  rw [if_neg (by omega), actualCounts_eq, ite_eq_right_iff, imp_iff_not (by simp)]
  simp only [List.mem_map, exists_exists_and_eq_and, not_exists, not_and, not_not, countP_range']
  exact ⟨fun h s => h s (hall s), fun h s _ => h s⟩

/-! ### The scan -/

/-- A state in which no record is missing and every record passes both checks, the
counters are right, and the scan over all ids reports nothing. -/
structure World.Consistent (w : World H) : Prop where
  full : ∀ id, 1 ≤ id → id ≤ w.ledger.shipmentCount → ∃ s, w.getShipment id = some s
  records : ∀ id s, w.getShipment id = some s →
    w.checkShipmentInvariants id = [] ∧ validateShipmentInvariants s = .ok ()
  counted : ∀ s, w.ledger.statusCount s = w.ledger.numberIn s
  scanned : w.checkAllConsistencyRange 1 w.ledger.shipmentCount = []

/-- The window of the scan over all ids; at the last `u64` the sum saturates and
the window misses the last id. -/
theorem scanEnd_eq {n : ℕ} (h : n < u64Max) : min (saturatingAddU64 1 n - 1) n = n := by
  unfold saturatingAddU64
  omega

theorem scanEnd_lt {n : ℕ} (h : u64Max ≤ n) : min (saturatingAddU64 1 n - 1) n < n := by
  have : 0 < u64Max := by decide
  unfold saturatingAddU64
  omega

theorem checkAllConsistencyRange_eq_nil {w : World H}
    (hrec : ∀ id, 1 ≤ id → id ≤ w.ledger.shipmentCount → w.checkShipmentInvariants id = [])
    (hcount : ∀ s, w.ledger.statusCount s = w.ledger.numberIn s) :
    w.checkAllConsistencyRange 1 w.ledger.shipmentCount = [] := by
  unfold World.checkAllConsistencyRange
  dsimp only
  split
  · rfl
  rename_i hne
  simp only [not_or] at hne
  rw [List.append_eq_nil_iff]
  constructor
  · rw [List.flatMap_eq_nil_iff]
    intro id hid
    rw [List.mem_range'_1] at hid
    exact hrec id hid.1 (by omega)
  · by_cases hlt : w.ledger.shipmentCount < u64Max
    · rw [scanEnd_eq hlt]
      exact (checkStatusCountConsistencyRange_eq_nil (by omega)).mpr hcount
    · have hend := scanEnd_lt (not_lt.mp hlt)
      unfold World.checkStatusCountConsistencyRange
      dsimp only
      rw [if_neg (by omega), if_neg (by omega)]

theorem World.Consistent.of_healthy {w : World H}
    (hfull : ∀ id, 1 ≤ id → id ≤ w.ledger.shipmentCount → ∃ s, w.getShipment id = some s)
    (hrec : ∀ id s, w.getShipment id = some s → s.Healthy (w.getEscrow id) ∧ s.Valid)
    (hcount : ∀ s, w.ledger.statusCount s = w.ledger.numberIn s) : w.Consistent where
  full := hfull
  records id s hs := ⟨(checkShipmentInvariants_of_some hs).mpr (hrec id s hs).1,
    validateShipmentInvariants_eq_ok.mpr (hrec id s hs).2⟩
  counted := hcount
  scanned := by
    refine checkAllConsistencyRange_eq_nil (fun id h₁ h₂ => ?_) hcount
    obtain ⟨s, hs⟩ := hfull id h₁ h₂
    exact (checkShipmentInvariants_of_some hs).mpr (hrec id s hs).1

namespace World.Consistent

variable {w : World H} {id : ℕ} {s : Shipment}

theorem healthy (h : w.Consistent) (hs : w.getShipment id = some s) : s.Healthy (w.getEscrow id) :=
  (checkShipmentInvariants_of_some hs).mp (h.records id s hs).1

theorem valid (h : w.Consistent) (hs : w.getShipment id = some s) : s.Valid :=
  validateShipmentInvariants_eq_ok.mp (h.records id s hs).2

end World.Consistent

/-- The scan sees every record and every counter, as long as the number of
shipments is not the last `u64`. -/
theorem consistent_iff_scan {w : World H} (hlt : w.ledger.shipmentCount < u64Max)
    (hids : ∀ id s, w.getShipment id = some s → 1 ≤ id ∧ id ≤ w.ledger.shipmentCount)
    (hzero : w.ledger.shipmentCount = 0 → ∀ s, w.ledger.statusCount s = 0) :
    w.Consistent ↔ w.checkAllConsistencyRange 1 w.ledger.shipmentCount = [] ∧
      ∀ id s, w.getShipment id = some s → validateShipmentInvariants s = .ok () := by
  constructor
  · exact fun h => ⟨h.scanned, fun id s hs => (h.records id s hs).2⟩
  · rintro ⟨hscan, hval⟩
    by_cases hz : w.ledger.shipmentCount = 0
    · refine ⟨fun id h₁ h₂ => ?_, fun id s hs => ?_, fun s => ?_, hscan⟩
      · omega
      · have := hids id s hs
        omega
      · rw [hzero hz, Ledger.numberIn, hz]
        rfl
    · have hparts := hscan
      unfold World.checkAllConsistencyRange at hparts
      simp only [scanEnd_eq hlt] at hparts
      rw [if_neg (by omega), List.append_eq_nil_iff, List.flatMap_eq_nil_iff] at hparts
      have hpass : ∀ id, 1 ≤ id → id ≤ w.ledger.shipmentCount → w.checkShipmentInvariants id = [] := by
        intro id h₁ h₂
        refine hparts.1 id ?_
        rw [List.mem_range'_1]
        omega
      refine ⟨fun id h₁ h₂ => exists_of_checkShipmentInvariants (hpass id h₁ h₂), fun id s hs => ?_,
        (checkStatusCountConsistencyRange_eq_nil (by omega)).mp hparts.2, hscan⟩
      have hid := hids id s hs
      exact ⟨hpass id hid.1 hid.2, hval id s hs⟩

end Navin
