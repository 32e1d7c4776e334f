/-
# What recovery does to consistency

The recovery operations store a record and leave the status counters and the
`Escrow` entry as they were. So an operation that changes the status or the escrow
breaks the consistency it found, and the others keep it.

Key definitions:
- `Chain.WellFormed`: what every reachable state has, consistent or not;
- `Harmless`: clearing a finalization, or rolling back to the same status.

Key theorems:
- `recovery_consistent_iff`.
-/
import Navin.Orderly

namespace Navin

variable {H : Host}

/-! ### Well-formed states -/

/-- A sound ledger without records from the future. -/
structure Chain.WellFormed (c : Chain H) : Prop where
  sound : c.world.ledger.Sound
  created_le : ∀ id s, c.world.ledger.getShipment id = some s → s.createdAt ≤ c.now

theorem Effects.created_le {env : Env} {w : World H} {call : Call} {b : Book H.Token}
    (he : Effects env w call b) {now : ℕ} (hle : now ≤ env.timestamp)
    (h : ∀ id s, w.ledger.getShipment id = some s → s.createdAt ≤ now) {id : ℕ} {s : Shipment}
    (hs : b.ledger.getShipment id = some s) : s.createdAt ≤ env.timestamp := by
  refine he.forall_records (P := fun s => s.createdAt ≤ env.timestamp) (fun _ _ _ => le_rfl)
    (fun p hp hle => ?_) (fun id s hs => (h id s hs).trans hle) hs
  rw [hp.rule.keeps.createdAt_eq]
  exact hle

theorem Step.wellFormed {c c' : Chain H} {l : Label} (hstep : Step c l c') (h : c.WellFormed) :
    c'.WellFormed := by
  refine ⟨hstep.sound h.sound, fun id s hs => ?_⟩
  cases hstep with
  | committed ha hx =>
    have hs₀ : c.world.fresh.ledger.Sound := h.sound
    exact (exec_effects hs₀.keyed hx).created_le ha.time h.created_le hs
  | reverted ha _ => exact (h.created_le id s hs).trans ha.time
  | outside hle _ => exact (h.created_le id s hs).trans hle

theorem Reachable.wellFormed {c : Chain H} (h : Reachable c) : c.WellFormed := by
  obtain ⟨c₀, ls, hd, hr⟩ := h
  refine hr.inv ⟨hd.sound, ?_⟩ fun _ _ _ h hs => hs.wellFormed h
  cases hd
  intro id s hs
  cases hs

/-! ### Postings that are not counted or mirrored -/

/-- The recovery operations that keep what the scan checks. -/
def Harmless (w : World H) : Call → Prop
  | .clearFinalization .. => True
  | .rollbackOnExternalFailure _ id previousStatus _ =>
    ∃ s, w.getShipment id = some s ∧ s.status = previousStatus
  | _ => False

variable {env : Env} {w w' : World H} {call : Call} {p : Posting}

/-- A change of status that is not counted puts the counters out. -/
theorem PostedBy.status_eq (hp : PostedBy env w call p w'.book) (hs : w.ledger.Sound)
    (hcount : p.counted = false) (hc : w.Consistent) (hc' : w'.Consistent) :
    p.new.status = p.old.status := by
  obtain ⟨t, token, -, -, hb⟩ := hp.posted
  have hl : w'.ledger = _ := congrArg Book.ledger hb
  have hstep := w.ledger.numberIn_post H.currentContractAddress env.timestamp token hs
    hp.stored hp.rule.keeps.id_eq p.old.status
  have hcounter := hc'.counted p.old.status
  rw [hl, Ledger.post_statusCount] at hcounter
  change w.ledger.recounted p.counted _ _ _ = (w.ledger.post _ _ p token).numberIn _ at hcounter
  rw [Ledger.recounted, hcount, if_neg Bool.false_ne_true, hc.counted] at hcounter
  by_contra hne
  rw [if_pos rfl, if_neg hne, ← hcounter] at hstep
  omega

/-- A change of escrow that is not mirrored puts the `Escrow` entry out. -/
theorem PostedBy.escrow_eq (hp : PostedBy env w call p w'.book) (hkept : p.mirror = .kept)
    (hc : w.Consistent) (hc' : w'.Consistent) : p.new.escrowAmount = p.old.escrowAmount := by
  obtain ⟨t, token, -, -, hb⟩ := hp.posted
  have hl : w'.ledger = _ := congrArg Book.ledger hb
  have hg : w'.getShipment p.old.id = some p.new := hp.stored_new
  have hentry : w'.ledger.escrow = w.ledger.escrow := by
    rw [hl, Ledger.post_escrow, hkept]
    rfl
  have h := (hc.healthy hp.stored).mirrored
  have h' := (hc'.healthy hg).mirrored
  unfold World.getEscrow at h h'
  rw [hentry] at h'
  exact h'.symm.trans h

/-- An edit that keeps the status and the money keeps the consistency. -/
theorem PostedBy.consistent (hp : PostedBy env w call p w'.book) (hs : w.ledger.Sound)
    (hcount : p.counted = false) (hkept : p.mirror = .kept) (hst : p.new.status = p.old.status)
    (hh : p.new.Healthy p.old.escrowAmount) (hv : p.new.Valid) (hc : w.Consistent) :
    w'.Consistent := by
  have hget := hp.getShipment
  obtain ⟨t, token, -, -, hb⟩ := hp.posted
  have hl : w'.ledger = _ := congrArg Book.ledger hb
  have hentry : w'.ledger.escrow = w.ledger.escrow := by
    rw [hl, Ledger.post_escrow, hkept]
    rfl
  refine .of_healthy (fun id h₁ h₂ => ?_) (fun id s hs => ?_) fun st => ?_
  · change ∃ s, w'.book.ledger.getShipment id = some s
    rw [hget]
    split
    · exact ⟨_, rfl⟩
    · rw [hl] at h₂
      exact hc.full id h₁ h₂
  · have hs : w'.book.ledger.getShipment id = some s := hs
    unfold World.getEscrow
    rw [hget] at hs
    rw [hentry]
    split at hs
    · rename_i hid
      rw [← Option.some.inj hs, hid]
      have := (hc.healthy hp.stored).mirrored
      unfold World.getEscrow at this
      rw [this]
      exact ⟨hh, hv⟩
    · exact ⟨hc.healthy hs, hc.valid hs⟩
  · have hstep := w.ledger.numberIn_post H.currentContractAddress env.timestamp token hs
      hp.stored hp.rule.keeps.id_eq st
    rw [hst] at hstep
    rw [hl, Ledger.post_statusCount]
    change w.ledger.recounted p.counted _ _ _ = (w.ledger.post _ _ p token).numberIn _
    rw [Ledger.recounted, hcount, if_neg Bool.false_ne_true, hc.counted]
    exact (Nat.add_right_cancel hstep).symm

/-! ### The four operations -/

/-- Clearing the flag and stamping the time keeps a record healthy. -/
theorem Shipment.Healthy.cleared {s t : Shipment} {entry : ℤ} (h : s.Healthy entry) (hv : s.Valid)
    {now : ℕ} (hk : s.Keeps t now) (hnow : s.createdAt ≤ now) (hst : t.status = s.status)
    (he : t.escrowAmount = s.escrowAmount) (ht : t.totalEscrow = s.totalEscrow)
    (hp : t.paidMilestones = s.paidMilestones) (hf : t.finalized = false) :
    t.Healthy s.escrowAmount ∧ t.Valid := by
  have hfin : t.finalized = true →
      (t.status = .delivered ∨ t.status = .cancelled) ∧ t.escrowAmount = 0 := by
    rw [hf]
    exact fun h => absurd h Bool.false_ne_true
  refine ⟨⟨he.symm, hfin, ?_, ?_, ?_⟩, ?_, ?_, hfin, ?_⟩
  · rw [hp, hk.schedule_eq]
    exact h.paid_scheduled
  · rw [hk.createdAt_eq]
    rcases hk.updatedAt with hu | hu <;> rw [hu]
    · exact h.updated
    · exact hnow
  · rw [hk.createdAt_eq, hk.deadline_eq]
    exact h.deadline_later
  · rw [he]
    exact hv.escrow_nonneg
  · rw [he, ht]
    exact hv.escrow_le_total
  · rw [hst, hp]
    exact hv.created_unpaid

/-- A recovery operation keeps a consistent state consistent exactly when it
clears a finalization or rolls back to the status the shipment has. -/
theorem recovery_consistent_iff {c c' : Chain H} (hw : c.WellFormed) (hc : c.world.Consistent)
    {call : Call} {env : Env} {trace : List Effect} (hrec : call.isRecovery = true)
    (hstep : Step c (.committed call env trace) c') : c'.world.Consistent ↔ Harmless c.world call := by
  cases hstep with
  | @committed _ _ w' ha hx =>
  have hs : c.world.fresh.ledger.Sound := hw.sound
  have hc : c.world.fresh.Consistent := ⟨hc.full, hc.records, hc.counted, hc.scanned⟩
  have hfresh : w'.fresh.Consistent ↔ w'.Consistent :=
    ⟨fun h => ⟨h.full, h.records, h.counted, h.scanned⟩,
      fun h => ⟨h.full, h.records, h.counted, h.scanned⟩⟩
  have hposts : call.posts = true := by
    cases call <;> first | rfl | cases hrec
  obtain ⟨p, hp⟩ := (exec_effects hs.keyed hx).exists_posting hposts
  have hnow : p.old.createdAt ≤ env.timestamp := (hw.created_le _ _ hp.stored).trans ha.time
  have hheal := hc.healthy hp.stored
  have hval := hc.valid hp.stored
  have hkeeps := hp.rule.keeps
  have hstored := hp.stored
  rw [hfresh]
  cases hrule : hp.rule with
  | recoverShipment _ hne _ =>
    exact ⟨fun hc' => absurd (hp.status_eq hs rfl hc hc') (Ne.symm hne), fun h => by cases h⟩
  | unlockEscrow _ hne =>
    exact ⟨fun hc' => absurd (hp.escrow_eq rfl hc hc') (Ne.symm hne), fun h => by cases h⟩
  | clearFinalization =>
    obtain ⟨hh, hv⟩ := hheal.cleared hval hkeeps hnow rfl rfl rfl rfl rfl
    exact ⟨fun _ => trivial, fun _ => hp.consistent hs rfl rfl rfl hh hv hc⟩
  | @rollbackOnExternalFailure _ s status =>
    constructor
    · exact fun hc' => ⟨s, hstored, (hp.status_eq hs rfl hc hc').symm⟩
    · rintro ⟨t, ht, hst⟩
      obtain rfl : t = s := Option.some.inj (ht.symm.trans hstored)
      obtain ⟨hh, hv⟩ := hheal.cleared hval hkeeps hnow hst.symm rfl rfl rfl rfl
      exact hp.consistent hs rfl rfl hst.symm hh hv hc
  | forceRelease hx => rw [posts_of_executing hx] at hposts; cases hposts
  | forceRefund hx => rw [posts_of_executing hx] at hposts; cases hposts
  | _ => cases hrec

/-- The flag of a delivered shipment is cleared. -/
theorem clearFinalization_consistent : ∃ (c c' : Chain Deployment.host) (call : Call) (env : Env)
    (trace : List Effect), c.WellFormed ∧ c.world.Consistent ∧ call.isRecovery = true ∧
      Step c (.committed call env trace) c' ∧
      (c'.world.getShipment 1).map (fun s => (s.status, s.finalized)) = some (.delivered, false) ∧
      c'.world.Consistent := by
  obtain ⟨ls, c, trace, c', hr, hstep, hls, hs⟩ := exists_commit Deployment.chain
    (Deployment.opening ++ [
      Deployment.signed Deployment.company 5 (.depositEscrow Deployment.company 1 1000),
      Deployment.signed Deployment.carrier 6 (.updateStatus Deployment.carrier 1 .inTransit 2),
      Deployment.signed Deployment.receiver 7 (.confirmDelivery Deployment.receiver 1 3)])
    (.clearFinalization Deployment.admin 1 9)
    ⟨8, 8, fun a => a = Deployment.admin, fun _ => true⟩
    (fun r _ c' => (∀ l ∈ r.1, l.Ordinary) ∧
      (c'.world.getShipment 1).map (fun s => (s.status, s.finalized)) = some (.delivered, false))
    (by decide +kernel)
  have hw : c.WellFormed := Reachable.wellFormed ⟨_, ls, Deployment.deployed, hr⟩
  have hc : c.world.Consistent := (hr.orderly Deployment.deployed hls).consistent
  exact ⟨c, c', _, _, trace, hw, hc, rfl, hstep, hs,
    (recovery_consistent_iff hw hc rfl hstep).mpr trivial⟩

/-- A new shipment is recovered to `InTransit`, and the scan reports its counter. -/
theorem recoverShipment_not_consistent :
    ¬∀ (c c' : Chain Deployment.host) (call : Call) (env : Env) (trace : List Effect),
      c.WellFormed → c.world.Consistent → call.isRecovery = true →
        Step c (.committed call env trace) c' → c'.world.Consistent := by
  intro hall
  obtain ⟨ls, c, trace, c', hr, hstep, hls, hscan⟩ := exists_commit Deployment.chain
    Deployment.opening (.recoverShipment Deployment.admin 1 .inTransit 9)
    ⟨5, 5, fun a => a = Deployment.admin, fun _ => true⟩
    (fun r _ c' => (∀ l ∈ r.1, l.Ordinary) ∧
      c'.world.checkAllConsistencyRange 1 c'.world.ledger.shipmentCount = [.statusCountMismatch])
    (by decide +kernel)
  have hw : c.WellFormed := Reachable.wellFormed ⟨_, ls, Deployment.deployed, hr⟩
  have hc' := hall c c' _ _ trace hw (hr.orderly Deployment.deployed hls).consistent rfl hstep
  rw [hc'.scanned] at hscan
  cases hscan

end Navin
