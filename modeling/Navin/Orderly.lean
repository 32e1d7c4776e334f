/-
# The ordinary lifecycle keeps the records consistent

Without recovery operations and without the archive, every reachable state passes
its own consistency scan. The invariant says more than the scan checks: while a
shipment is `Created` nothing has left its escrow, which is what keeps a milestone
from being marked as paid before the shipment is under way.

Key definitions:
- `Shipment.Orderly`, `Ledger.Orderly`: the invariant;
- `Label.Ordinary`: the steps it is kept by.

Key theorems:
- `Rule.orderly`: the record after a posting;
- `Effects.orderly`: the ledger after a committed call;
- `ordinary_run_consistent`.
-/
import Navin.Consistency
import Navin.Sound
import Navin.Token

namespace Navin

variable {H : Host}

/-! ### The invariant -/

/-- A record of the ordinary lifecycle, beside its `Escrow` entry. -/
structure Shipment.Orderly (s : Shipment) (entry : ℤ) (now : ℕ) : Prop where
  healthy : s.Healthy entry
  valid : s.Valid
  updated_le : s.updatedAt ≤ now
  created_full : s.status = .created → s.escrowAmount = s.totalEscrow

theorem Shipment.Orderly.mono {s : Shipment} {entry : ℤ} {now now' : ℕ} (h : s.Orderly entry now)
    (hle : now ≤ now') : s.Orderly entry now' :=
  ⟨h.healthy, h.valid, h.updated_le.trans hle, h.created_full⟩

structure Ledger.Orderly {Token : Type} (l : Ledger Token) (now : ℕ) : Prop where
  records : ∀ id s, l.getShipment id = some s → s.Orderly ((l.escrow id).getD 0) now
  full : ∀ id, 1 ≤ id → id ≤ l.shipmentCount → ∃ s, l.getShipment id = some s
  counted : ∀ st, l.statusCount st = l.numberIn st

/-- An orderly ledger passes the scan. -/
theorem Ledger.Orderly.consistent {w : World H} {now : ℕ} (h : w.ledger.Orderly now) :
    w.Consistent :=
  .of_healthy h.full (fun id s hs => ⟨(h.records id s hs).healthy, (h.records id s hs).valid⟩) h.counted

/-! ### The record of a posting -/

variable {env : Env} {w : World H} {call : Call} {p : Posting}

/-- The `Escrow` entry of a posting: left alone with the escrow, or removed with it. -/
theorem Rule.mirror_spec (hr : Rule env w call p) (hn : call.isRecovery = false) :
    (p.mirror = .kept → p.new.escrowAmount = p.old.escrowAmount) ∧
    (p.mirror = .removed → p.new.escrowAmount = 0) := by
  have hafter : ∀ old new : Shipment, Mirror.after old new ≠ .removed := by
    intro old new
    unfold Mirror.after
    split <;> simp
  cases hr with
  | recordMilestone => exact ⟨Mirror.eq_of_after, fun hm => absurd hm (hafter _ _)⟩
  | recordMilestonesBatch => exact ⟨Mirror.eq_of_after, fun hm => absurd hm (hafter _ _)⟩
  | releaseMilestonePayment => exact ⟨Mirror.eq_of_after, fun hm => absurd hm (hafter _ _)⟩
  | checkDeadline =>
    refine ⟨fun hm => ?_, fun _ => rfl⟩
    dsimp only at hm
    split at hm <;> cases hm
  | unlockEscrow => cases hn
  | cancelShipment => exact ⟨(fun hm => by cases hm), fun _ => rfl⟩
  | releaseToCarrier => exact ⟨(fun hm => by cases hm), fun _ => rfl⟩
  | refundToCompany => exact ⟨(fun hm => by cases hm), fun _ => rfl⟩
  | addDisputeEvidenceHash => exact ⟨fun _ => rfl, fun hm => by cases hm⟩
  | reportConditionBreach => exact ⟨fun _ => rfl, fun hm => by cases hm⟩
  | recordOther => exact ⟨fun _ => rfl, fun hm => by cases hm⟩
  | releaseNothing => exact ⟨fun _ => rfl, fun hm => by cases hm⟩
  | recoverShipment => cases hn
  | clearFinalization => cases hn
  | rollbackOnExternalFailure => cases hn
  | _ => exact ⟨(fun hm => by cases hm), fun hm => by cases hm⟩

/-- Where the counters do not move, the status does not. -/
theorem Rule.status_eq_of_not_counted (hr : Rule env w call p) (hn : call.isRecovery = false)
    (hc : p.counted = false) : p.new.status = p.old.status := by
  cases hr with
  | @recordMilestonesBatch s items =>
    exact (s.batchOf_payBatch env.timestamp (items.map (·.1))).status_eq
  | setShipmentMetadata => rfl
  | addDisputeEvidenceHash => rfl
  | handoffShipment => rfl
  | recordOther => rfl
  | recordMilestone => rfl
  | releaseNothing => rfl
  | releaseMilestonePayment => rfl
  | depositEscrow => rfl
  | releaseEscrow => rfl
  | recoverShipment => cases hn
  | rollbackOnExternalFailure => cases hn
  | unlockEscrow => cases hn
  | clearFinalization => cases hn
  | _ => cases hc

/-- Paid milestones are milestones of the schedule. -/
theorem Rule.paid (hr : Rule env w call p) {name : Symbol} (hn : name ∈ p.new.paidMilestones) :
    name ∈ p.old.paidMilestones ∨ name ∈ p.old.paymentMilestones.map (·.1) := by
  cases hr with
  | @recordMilestone s _ _ _ _ _ _ hm => exact s.mem_paid_markPaid hm hn
  | @releaseMilestonePayment _ s _ _ _ _ _ hm => exact s.mem_paid_markPaid hm hn
  | @recordMilestonesBatch s items =>
    have hb := s.batchOf_payBatch env.timestamp (items.map (·.1))
    exact hb.paid name hn
  | _ => exact .inl hn

/-- A milestone payment that is due finds something to pay while nothing has left
the escrow. -/
theorem Shipment.payable_pos_of_full {s : Shipment} {names : List Symbol} {percent : ℕ}
    (hs : s.escrowAmount = s.totalEscrow) (hx : 0 < s.milestoneDue names percent)
    (h₀ : 0 ≤ s.escrowAmount) : 0 < s.payable (s.milestoneDue names percent) := by
  have hpos : 0 < s.escrowAmount := by
    unfold Shipment.milestoneDue at hx
    split at hx
    · exact hx
    · refine lt_of_le_of_ne h₀ fun hz => ?_
      rw [Shipment.share, ← hs, ← hz, zero_mul] at hx
      exact absurd hx (by decide)
  unfold Shipment.payable
  omega

/-- Payments that leave the escrow as it is leave a valid record, unless the
shipment is still `Created`. -/
theorem Shipment.Valid.settled {s t : Shipment} (h : s.Valid) (hst : s.status ≠ .created)
    (hs : t.status = s.status) (he : t.escrowAmount = s.escrowAmount)
    (ht : t.totalEscrow = s.totalEscrow) (hf : t.finalized = s.finalized) :
    t.finalizeIfSettled.Valid := by
  refine Shipment.Valid.finalizeIfSettled ⟨?_, ?_, ?_, fun hc => ?_⟩
  · rw [he]
    exact h.escrow_nonneg
  · rw [he, ht]
    exact h.escrow_le_total
  · rw [hf, hs, he]
    exact h.finalized_settled
  · rw [hs] at hc
    exact absurd hc hst

/-- A payment of a milestone never leaves a `Created` shipment with the milestone
marked: it is refused when something is paid, and something is. -/
theorem Shipment.Orderly.not_created {s : Shipment} {entry : ℤ} {now t : ℕ} {name : Symbol} {x : ℤ}
    {names : List Symbol} {percent : ℕ} (h : s.Orderly entry now)
    (hx : x = s.milestoneDue names percent) (hpos : 0 < x)
    (hv : Mirror.after s (s.payMilestone name x t) ≠ .kept →
      (s.payMilestone name x t).finalizeIfSettled.Valid) : s.status ≠ .created := by
  intro hc
  have hpay : 0 < s.payable x := by
    rw [hx] at hpos ⊢
    exact Shipment.payable_pos_of_full (h.created_full hc) hpos h.valid.escrow_nonneg
  have hne : Mirror.after s (s.payMilestone name x t) ≠ .kept := by
    intro hk
    have := Mirror.eq_of_after hk
    rw [Shipment.payMilestone_escrowAmount] at this
    omega
  have hpaid := (hv hne).created_unpaid hc
  have hpaid : (if name ∈ s.paidMilestones then s.paidMilestones
      else s.paidMilestones ++ [name]) = [] := hpaid
  rw [h.valid.created_unpaid hc] at hpaid
  simp at hpaid

/-- The record of a posting is valid, also where the code does not check it. -/
theorem Rule.valid (hr : Rule env w call p) (hn : call.isRecovery = false)
    (hv : p.mirror ≠ .kept → p.new.Valid) {entry : ℤ} {now : ℕ} (ho : p.old.Orderly entry now) :
    p.new.Valid := by
  by_cases hm : p.mirror = .kept
  · have hvalid := ho.valid
    cases hr with
    | addDisputeEvidenceHash => exact ⟨hvalid.1, hvalid.2, hvalid.3, hvalid.4⟩
    | reportConditionBreach hf =>
      refine ⟨hvalid.1, hvalid.2, fun hf' => ?_, fun hc => by cases hc⟩
      exact absurd (hf.symm.trans hf') Bool.false_ne_true
    | recordOther => exact hvalid
    | recordMilestone _ hst =>
      refine hvalid.settled ?_ rfl (Mirror.eq_of_after hm) rfl rfl
      rw [hst]
      decide
    | @recordMilestonesBatch s items _ hst =>
      have hb := s.batchOf_payBatch env.timestamp (items.map (·.1))
      refine hvalid.settled ?_ hb.status_eq (Mirror.eq_of_after hm) hb.total_eq hb.finalized_eq
      rw [hst]
      decide
    | releaseNothing => exact hvalid.finalizeIfSettled
    | releaseMilestonePayment _ _ _ hx hpos =>
      exact hvalid.settled (ho.not_created hx hpos hv) rfl (Mirror.eq_of_after hm) rfl rfl
    | recoverShipment => cases hn
    | unlockEscrow => cases hn
    | clearFinalization => cases hn
    | rollbackOnExternalFailure => cases hn
    | checkDeadline =>
      dsimp only at hm
      split at hm <;> cases hm
    | _ => cases hm
  · exact hv hm

/-- While a shipment is `Created` nothing has left its escrow. -/
theorem Rule.created_full (hr : Rule env w call p) (hn : call.isRecovery = false)
    (hv : p.mirror ≠ .kept → p.new.Valid) {entry : ℤ} {now : ℕ} (ho : p.old.Orderly entry now)
    (hc : p.new.status = .created) : p.new.escrowAmount = p.new.totalEscrow := by
  cases hr with
  | setShipmentMetadata => exact ho.created_full hc
  | addDisputeEvidenceHash => exact ho.created_full hc
  | handoffShipment => exact ho.created_full hc
  | @updateStatus _ s status _ _ _ ht =>
    have hc : status = .created := hc
    subst hc
    cases hs : s.status <;> rw [hs] at ht <;> cases ht
  | @confirmPartialDelivery s _ percent _ _ _ _ _ hst =>
    have hc : _ = ShipmentStatus.created := hst.symm.trans hc
    split at hc <;> cases hc
  | recordOther => exact ho.created_full hc
  | recordMilestone _ hst => exact absurd (hst.symm.trans hc) (by decide)
  | @recordMilestonesBatch s items _ hst =>
    have hb := (s.batchOf_payBatch env.timestamp (items.map (·.1))).status_eq
    exact absurd (hst.symm.trans (hb.symm.trans hc)) (by decide)
  | releaseNothing => exact ho.created_full hc
  | releaseMilestonePayment _ _ _ hx hpos => exact absurd hc (ho.not_created hx hpos hv)
  | depositEscrow => rfl
  | releaseEscrow _ _ hst => exact absurd (hst.symm.trans hc) (by decide)
  | recoverShipment => cases hn
  | unlockEscrow => cases hn
  | clearFinalization => cases hn
  | rollbackOnExternalFailure => cases hn
  | _ => cases hc

/-- A posting of an ordinary call leaves an orderly record. -/
theorem Rule.orderly (hr : Rule env w call p) (hn : call.isRecovery = false)
    (hv : p.mirror ≠ .kept → p.new.Valid) {entry entry' : ℤ} {now : ℕ} (ho : p.old.Orderly entry now)
    (hle : now ≤ env.timestamp) (he : entry' = p.new.escrowAmount) :
    p.new.Orderly entry' env.timestamp := by
  have hk := hr.keeps
  have hvalid := hr.valid hn hv ho
  have hupd : p.old.updatedAt ≤ p.new.updatedAt ∧ p.new.updatedAt ≤ env.timestamp := by
    have := ho.updated_le
    rcases hk.updatedAt with h | h <;> omega
  refine ⟨⟨he, hvalid.finalized_settled, fun name hname => ?_, ?_, ?_⟩, hvalid, hupd.2,
    hr.created_full hn hv ho⟩
  · rw [hk.schedule_eq]
    exact (hr.paid hname).elim (ho.healthy.paid_scheduled name) id
  · rw [hk.createdAt_eq]
    exact ho.healthy.updated.trans hupd.1
  · rw [hk.createdAt_eq, hk.deadline_eq]
    exact ho.healthy.deadline_later

/-! ### The ledger -/

namespace Ledger

variable {Token : Type} (l : Ledger Token)

theorem statusOf_post (self : Address) (now : ℕ) (p : Posting) (token : Token) :
    (l.post self now p token).statusOf = Function.update l.statusOf p.new.id (some p.new.status) := by
  funext id
  rw [statusOf, getShipment_post, Function.update_apply]
  split_ifs <;> rfl

/-- The number of shipments in a status after a posting. -/
theorem numberIn_post (self : Address) (now : ℕ) {p : Posting} (token : Token) (h : l.Sound)
    (hs : l.getShipment p.old.id = some p.old) (hid : p.new.id = p.old.id) (st : ShipmentStatus) :
    (l.post self now p token).numberIn st + (if p.old.status = st then 1 else 0) =
      l.numberIn st + (if p.new.status = st then 1 else 0) := by
  have hmem : p.new.id ∈ Finset.Icc 1 l.shipmentCount := by
    rw [hid]
    exact Finset.mem_Icc.mpr (h.ids _ _ hs)
  have hold : l.statusOf p.new.id = some p.old.status := by
    rw [hid, statusOf, hs]
    rfl
  have hcard := card_filter_update hmem l.statusOf (some p.new.status) (some st)
  rw [hold] at hcard
  simp only [Option.some.injEq] at hcard
  unfold numberIn
  rw [statusOf_post, post_shipmentCount]
  exact hcard

theorem statusOf_enrol (s : Shipment) :
    (l.enrol s).statusOf = Function.update l.statusOf s.id (some s.status) := by
  funext id
  rw [statusOf, getShipment_enrol, Function.update_apply]
  split_ifs <;> rfl

/-- The number of shipments in a status after one was created. -/
theorem numberIn_enrol (sender : Address) (input : ShipmentInput) (now : ℕ) (st : ShipmentStatus) :
    (l.enrol (Shipment.new (l.shipmentCount + 1) sender input now)).numberIn st =
      l.numberIn st + (if ShipmentStatus.created = st then 1 else 0) := by
  have hcard := card_filter_snoc l.shipmentCount l.statusOf (some .created) (some st)
  simp only [Option.some.injEq] at hcard
  unfold numberIn
  rw [statusOf_enrol, enrol_shipmentCount]
  exact hcard

variable {l}

/-- One shipment moved, and the counters were exact. -/
theorem countMove_eq {count count' : ShipmentStatus → ℕ} {s t : ShipmentStatus}
    (hpos : 0 < count s)
    (hstep : ∀ st, count' st + (if s = st then 1 else 0) = count st + (if t = st then 1 else 0))
    (st : ShipmentStatus) : countMove count s t st = count' st := by
  have h := hstep st
  have hdec : Function.update count s (count s - 1) st + (if s = st then 1 else 0) = count st := by
    by_cases hs : s = st
    · rw [if_pos hs, ← hs, Function.update_self]
      omega
    · rw [if_neg hs, Function.update_of_ne (Ne.symm hs), add_zero]
  unfold countMove
  by_cases ht : t = st
  · rw [if_pos ht] at h
    subst ht
    rw [Function.update_self]
    omega
  · rw [if_neg ht] at h
    rw [Function.update_of_ne (Ne.symm ht)]
    omega

theorem Orderly.enrol {sender : Address} {now : ℕ} {input : ShipmentInput} (h : l.Orderly now)
    (hd : now < input.deadline) :
    (l.enrol (Shipment.new (l.shipmentCount + 1) sender input now)).Orderly now where
  records id s hs := by
    rw [getShipment_enrol] at hs
    rw [enrol_escrow, Function.update_apply]
    split at hs
    · rename_i hid
      rw [if_pos hid, ← Option.some.inj hs]
      exact ⟨⟨rfl, (fun hf => by cases hf), (fun _ hn => by cases hn), le_rfl, hd⟩,
        ⟨le_rfl, le_rfl, (fun hf => by cases hf), fun _ => rfl⟩, le_rfl, fun _ => rfl⟩
    · rename_i hid
      rw [if_neg hid]
      exact h.records id s hs
  full id h₁ h₂ := by
    rw [getShipment_enrol]
    by_cases hid : id = (Shipment.new (l.shipmentCount + 1) sender input now).id
    · exact ⟨_, if_pos hid⟩
    · rw [if_neg hid]
      have hid : ¬id = l.shipmentCount + 1 := hid
      have h₂ : id ≤ l.shipmentCount + 1 := h₂
      exact h.full id h₁ (by omega)
  counted st := by
    rw [numberIn_enrol, enrol_statusCount, Function.update_apply, ← h.counted]
    by_cases hst : st = .created
    · rw [if_pos hst, if_pos hst.symm, hst]
    · rw [if_neg hst, if_neg (fun he => hst he.symm), add_zero]

theorem Orderly.enrolled {l' : Ledger Token} {sender : Address} {now : ℕ} (h : l.Orderly now)
    (he : l.Enrolled sender now l') : l'.Orderly now := by
  induction he with
  | nil => exact h
  | snoc _ _ hd ih => exact ih.enrol hd

theorem Orderly.mono {now now' : ℕ} (h : l.Orderly now) (hle : now ≤ now') : l.Orderly now' :=
  ⟨fun id s hs => (h.records id s hs).mono hle, h.full, h.counted⟩

end Ledger

/-- The `Escrow` entry after a posting is the escrow of the record. -/
theorem Rule.mirrored (hr : Rule env w call p) (hn : call.isRecovery = false)
    (hold : (w.ledger.escrow p.new.id).getD 0 = p.old.escrowAmount) :
    (w.ledger.mirrored p.mirror p.new p.new.id).getD 0 = p.new.escrowAmount := by
  obtain ⟨hkept, hremoved⟩ := hr.mirror_spec hn
  unfold Ledger.mirrored
  cases hm : p.mirror with
  | kept => exact hold.trans (hkept hm).symm
  | synced => simp
  | removed => simp [hremoved hm]

def Call.isArchive : Call → Bool
  | .archiveShipment .. => true
  | _ => false

/-- A posting moves the shipment from one counter to the other. -/
theorem Ledger.Orderly.counted_post {now : ℕ} (h : w.ledger.Orderly now) (hs : w.ledger.Sound)
    (hg : w.ledger.getShipment p.old.id = some p.old) (hr : Rule env w call p)
    (hn : call.isRecovery = false) (token : H.Token) (st : ShipmentStatus) :
    (w.ledger.post H.currentContractAddress env.timestamp p token).statusCount st =
      (w.ledger.post H.currentContractAddress env.timestamp p token).numberIn st := by
  have hstep := w.ledger.numberIn_post H.currentContractAddress env.timestamp token hs hg hr.keeps.id_eq
  rw [Ledger.post_statusCount]
  change w.ledger.recounted p.counted p.old.status p.new.status st = _
  unfold Ledger.recounted
  split
  · refine Ledger.countMove_eq ?_ (fun st => ?_) st
    · -- the shipment itself is one of those counted
      rw [h.counted]
      refine Finset.card_pos.mpr ⟨p.old.id, ?_⟩
      rw [Finset.mem_filter, Finset.mem_Icc, Ledger.statusOf, hg]
      exact ⟨hs.ids _ _ hg, rfl⟩
    · rw [h.counted]
      exact hstep st
  · rename_i hc
    have hst := hr.status_eq_of_not_counted hn (by simpa using hc)
    have := hstep st
    rw [hst] at this
    rw [h.counted]
    exact (Nat.add_right_cancel this).symm

/-- A posting that is not one of recovery leaves an orderly ledger orderly. -/
theorem PostedBy.orderly {b : Book H.Token} (hp : PostedBy env w call p b) (hs : w.ledger.Sound)
    (hn : call.isRecovery = false) (h : w.ledger.Orderly env.timestamp) :
    b.ledger.Orderly env.timestamp := by
  have hg : w.ledger.getShipment p.old.id = some p.old := hp.stored
  have ho := h.records _ _ hg
  obtain ⟨t, token, -, -, rfl⟩ := hp.posted
  refine ⟨fun id s hs' => ?_, fun id h₁ h₂ => ?_, h.counted_post hs hg hp.rule hn token⟩
  · rw [Ledger.getShipment_post] at hs'
    rw [Ledger.post_escrow]
    split at hs'
    · rename_i hi
      subst hi
      rw [← Option.some.inj hs']
      refine hp.rule.orderly hn hp.valid ho le_rfl (hp.rule.mirrored hn ?_)
      rw [hp.rule.keeps.id_eq]
      exact ho.healthy.mirrored
    · rename_i hi
      rw [Ledger.mirrored_of_ne _ _ hi]
      exact h.records id s hs'
  · rw [Ledger.getShipment_post]
    by_cases hi : id = p.new.id
    · exact ⟨_, if_pos hi⟩
    · rw [if_neg hi]
      exact h.full id h₁ h₂

/-- A committed call other than the recovery operations and the archive leaves an
orderly ledger orderly. -/
theorem Effects.orderly {b : Book H.Token} {now : ℕ} (he : Effects env w call b)
    (hs : w.ledger.Sound) (hn : call.isRecovery = false) (ha : call.isArchive = false) (hle : now ≤ env.timestamp)
    (h : w.ledger.Orderly now) : b.ledger.Orderly env.timestamp := by
  have h := h.mono hle
  cases he with
  | quiet => exact h
  | initialized _ hnone =>
    refine ⟨h.records, fun id h₁ h₂ => ?_, fun st => ?_⟩
    · have h₂ : id ≤ 0 := h₂
      omega
    · -- there was nothing to count
      change w.ledger.statusCount st = 0
      rw [h.counted, Ledger.numberIn, Finset.card_eq_zero, Finset.filter_eq_empty_iff]
      intro id _
      rw [Ledger.statusOf, hs.unset hnone]
      simp
  | handedOver => exact ⟨h.records, h.full, h.counted⟩
  | enrolled _ _ _ he => exact h.enrolled he
  | archived hcall => rw [hcall] at ha; cases ha
  | posted hg hv hr hp => exact PostedBy.orderly ⟨hg, hv, hr, hp⟩ hs hn h

/-! ### Runs -/

/-- A step of the ordinary lifecycle: no recovery operation and no archiving. -/
def Label.Ordinary : Label → Prop
  | .committed call _ _ => call.isRecovery = false ∧ call.isArchive = false
  | _ => True

instance : DecidablePred Label.Ordinary
  | .committed call _ _ => inferInstanceAs (Decidable (call.isRecovery = false ∧ call.isArchive = false))
  | .reverted .. => instDecidableTrue
  | .outside => instDecidableTrue

theorem Step.orderly {c c' : Chain H} {l : Label} (hstep : Step c l c') (hl : l.Ordinary)
    (hs : c.world.ledger.Sound) (h : c.world.ledger.Orderly c.now) : c'.world.ledger.Orderly c'.now := by
  cases hstep with
  | committed ha hx =>
    have hs : c.world.fresh.ledger.Sound := hs
    exact (exec_effects hs.keyed hx).orderly hs hl.1 hl.2 ha.time h
  | reverted ha _ => exact h.mono ha.time
  | outside hle _ =>
    have h := h.mono hle
    exact ⟨h.records, h.full, h.counted⟩

theorem Deployed.orderly {c : Chain H} (h : Deployed c) : c.world.ledger.Orderly c.now := by
  cases h
  refine ⟨fun _ _ hs => (by cases hs), fun id h₁ h₂ => ?_, fun _ => rfl⟩
  have h₂ : id ≤ 0 := h₂
  omega

theorem Run.orderly {c₀ c : Chain H} {ls : List Label} (hr : Run Step c₀ ls c) (hd : Deployed c₀)
    (hls : ∀ l ∈ ls, l.Ordinary) : c.world.ledger.Orderly c.now := by
  have hinv : c.world.ledger.Sound ∧ c.world.ledger.Orderly c.now :=
    hr.inv_of (I := fun c => c.world.ledger.Sound ∧ c.world.ledger.Orderly c.now) hls
      ⟨hd.sound, hd.orderly⟩ fun _ _ _ hl h hs => ⟨hs.sound h.1, hs.orderly hl h.1 h.2⟩
  exact hinv.2

/-- After every run of the ordinary lifecycle all records pass their checks, the
status counters are exact and the scan over all ids reports nothing. -/
theorem ordinary_run_consistent {c₀ c : Chain H} {ls : List Label} (hd : Deployed c₀)
    (hr : Run Step c₀ ls c) (hls : ∀ l ∈ ls, l.Ordinary) : c.world.Consistent :=
  (hr.orderly hd hls).consistent

/-- A shipment funded, paid in part at its first milestone and delivered. -/
theorem ordinary_run_consistent_delivered : ∃ (ls : List Label) (c : Chain Deployment.host),
    Run Step Deployment.chain ls c ∧ (∀ l ∈ ls, l.Ordinary) ∧
      (c.world.getShipment 1).map (·.status) = some .delivered ∧ c.world.Consistent := by
  obtain ⟨ls, c, hr, -, hls, hst⟩ := exists_play Deployment.chain
    (Deployment.opening ++ [
      Deployment.signed Deployment.company 5 (.depositEscrow Deployment.company 1 1000),
      Deployment.signed Deployment.carrier 6 (.updateStatus Deployment.carrier 1 .inTransit 2),
      Deployment.signed Deployment.carrier 7
        (.recordMilestone Deployment.carrier 1 Deployment.pickup 3),
      Deployment.signed Deployment.receiver 8 (.confirmDelivery Deployment.receiver 1 4)])
    (fun r => (∀ l ∈ r.1, l.Ordinary) ∧ (r.2.world.getShipment 1).map (·.status) = some .delivered)
    (by decide +kernel)
  exact ⟨ls, c, hr, hls, hst, ordinary_run_consistent Deployment.deployed hr hls⟩

end Navin
