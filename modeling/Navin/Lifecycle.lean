/-
# The lifecycle relation

The status changes of the entry points against the table of valid transitions.
The table is what `update_status` and `confirm_delivery` consult; the other entry
points test the status by hand, and a multi-signature release completes a shipment
that was never under way.

Key definitions:
- `Call.opensDispute`.

Key theorems:
- `Rule.status_change`: the change of status of a posting;
- `status_change_valid`: over all reachable states.
-/
import Navin.Sound
import Navin.Token

namespace Navin

variable {H : Host} {env : Env} {w : World H} {call : Call} {p : Posting}

namespace ShipmentStatus

/-- The statuses before the end of the lifecycle that can be cancelled. -/
theorem cancelled_of_ne {s : ShipmentStatus} (h₁ : s ≠ .delivered) (h₂ : s ≠ .cancelled)
    (h₃ : s ≠ .partiallyRefunded) : s.isValidTransition .cancelled = true := by
  cases s <;> first | rfl | contradiction

/-- A dispute over a shipment that is not at an end. -/
theorem disputed_of_ne {s : ShipmentStatus} (h₁ : s ≠ .delivered) (h₂ : s ≠ .cancelled)
    (h₃ : s ≠ .partiallyRefunded) (h₄ : s ≠ .disputed) : s.isValidTransition .disputed = true := by
  cases s <;> first | rfl | contradiction

/-- A shipment that is under way can be delivered. -/
theorem delivered_of_ne {s : ShipmentStatus} (h₁ : s ≠ .delivered) (h₂ : s ≠ .cancelled)
    (h₃ : s ≠ .partiallyRefunded) (h₄ : s ≠ .created) : s.isValidTransition .delivered = true := by
  cases s <;> first | rfl | contradiction

end ShipmentStatus

/-- The two entry points that open a dispute. -/
def Call.opensDispute : Call → Bool
  | .raiseDispute .. | .reportConditionBreach .. => true
  | _ => false

/-- The status changes an ordinary call may make from the status `s` of the
shipment `id` to the status `t`. -/
inductive Change (w : World H) (call : Call) (id : ℕ) (s t : ShipmentStatus) : Prop
  | valid : s.isValidTransition t = true → Change w call id s t
  /-- An approved `ForceRelease` completes a shipment that was not under way. -/
  | released : w.executing call = some (.forceRelease id) → s = .created → t = .delivered →
      Change w call id s t
  /-- A delivered shipment is disputed. -/
  | reopened : call.opensDispute = true → s = .delivered → t = .disputed → Change w call id s t

/-- Opening a dispute, by hand or by a breach report. -/
theorem Change.dispute {id : ℕ} {s : ShipmentStatus} (hc : call.opensDispute = true)
    (h₁ : s ≠ .cancelled) (h₂ : s ≠ .disputed) (h₃ : s ≠ .partiallyRefunded) :
    Change w call id s .disputed := by
  by_cases hd : s = .delivered
  · exact .reopened hc hd rfl
  · exact .valid (ShipmentStatus.disputed_of_ne hd h₁ h₃ h₂)

/-- The change of status of a posting. -/
theorem Rule.status_change (hr : Rule env w call p) (hn : call.isRecovery = false)
    (hpr : p.old.status ≠ .partiallyRefunded) (hne : p.new.status ≠ p.old.status) :
    Change w call p.old.id p.old.status p.new.status := by
  have same : p.new.status = p.old.status → Change w call p.old.id p.old.status p.new.status :=
    fun h => absurd h hne
  cases hr with
  | setShipmentMetadata => exact same rfl
  | addDisputeEvidenceHash => exact same rfl
  | handoffShipment => exact same rfl
  | reportConditionBreach _ hc hd => exact .dispute rfl hc hd hpr
  | updateStatus _ _ hv => exact .valid hv
  | confirmDelivery _ hv => exact .valid hv
  | @confirmPartialDelivery s _ percent status _ hst _ _ hto =>
    have hto : status = .delivered ∨ status = .partiallyDelivered := by
      rw [hto]
      split
      · exact .inl rfl
      · exact .inr rfl
    refine .valid ?_
    change s.status.isValidTransition status = true
    rcases hst with h | h | h <;> rcases hto with h' | h' <;> rw [h, h'] <;> rfl
  | recordOther => exact same rfl
  | recordMilestone => exact same rfl
  | @recordMilestonesBatch s items =>
    have hb := s.batchOf_payBatch env.timestamp (items.map (·.1))
    exact same hb.status_eq
  | releaseNothing => exact same rfl
  | releaseMilestonePayment => exact same rfl
  | depositEscrow => exact same rfl
  | @cancelShipment _ s _ _ _ hd =>
    exact .valid (ShipmentStatus.cancelled_of_ne hd (Ne.symm hne) hpr)
  | forceCancelShipment _ _ hd hc => exact .valid (ShipmentStatus.cancelled_of_ne hd hc hpr)
  | checkDeadline _ hd _ hc => exact .valid (ShipmentStatus.cancelled_of_ne hd hc hpr)
  | releaseEscrow => exact same rfl
  | @refundEscrow _ s _ _ hst =>
    refine .valid ?_
    rcases hst with h | h
    · change s.status.isValidTransition .cancelled = true
      rw [h]
      rfl
    · exact absurd h.symm hne
  | raiseDispute _ _ hc hd => exact .dispute rfl hc hd hpr
  | @releaseToCarrier _ s _ _ _ hst =>
    refine .valid ?_
    change s.status.isValidTransition .delivered = true
    rw [hst]
    rfl
  | @refundToCompany _ s _ _ _ hst =>
    refine .valid ?_
    change s.status.isValidTransition .cancelled = true
    rw [hst]
    rfl
  | @forceRelease _ s hx hd hc =>
    by_cases hcr : s.status = .created
    · exact .released hx hcr rfl
    · exact .valid (ShipmentStatus.delivered_of_ne hd hc hpr hcr)
  | forceRefund _ hd hc => exact .valid (ShipmentStatus.cancelled_of_ne hd hc hpr)
  | recoverShipment => cases hn
  | unlockEscrow => cases hn
  | clearFinalization => cases hn
  | rollbackOnExternalFailure => cases hn

/-- In every reachable state, an entry point other than the recovery operations
changes a status along the table, or it executes an approved `ForceRelease` on a
shipment that was only created, or it disputes a delivered one. Nothing is said
about `PartiallyRefunded` shipments. -/
theorem status_change_valid {c c' : Chain H} (hc : Reachable c) {call : Call} {env : Env}
    {trace : List Effect} (hstep : Step c (.committed call env trace) c')
    (hn : call.isRecovery = false) {id : ℕ} {s s' : Shipment} (hg : c.world.getShipment id = some s)
    (hg' : c'.world.getShipment id = some s') (hne : s'.status ≠ s.status)
    (hpr : s.status ≠ .partiallyRefunded) :
    s.status.isValidTransition s'.status = true ∨
    (c.world.executing call = some (.forceRelease id) ∧ s.status = .created ∧ s'.status = .delivered) ∨
    (call.opensDispute = true ∧ s.status = .delivered ∧ s'.status = .disputed) := by
  cases hstep with
  | @committed _ _ w' ha hx =>
  have hs : c.world.fresh.ledger.Sound := hc.sound
  have hid : s.id = id := hs.keyed.get hg
  obtain ⟨s₁, hs₁, hcase⟩ := (exec_effects hs.keyed hx).record hs hg
  obtain rfl : s₁ = s' := Option.some.inj (hs₁.symm.trans hg')
  rcases hcase with rfl | ⟨p, hp, rfl, rfl⟩
  · exact absurd rfl hne
  · rw [← hid]
    cases hp.rule.status_change hn hpr hne with
    | valid h => exact .inl h
    | released h₁ h₂ h₃ => exact .inr (.inl ⟨h₁, h₂, h₃⟩)
    | reopened h₁ h₂ h₃ => exact .inr (.inr ⟨h₁, h₂, h₃⟩)

/-- The carrier takes a new shipment into transit. -/
theorem status_change_valid_inTransit : ∃ (c c' : Chain Deployment.host) (call : Call) (env : Env)
    (trace : List Effect) (s s' : Shipment), Reachable c ∧ Step c (.committed call env trace) c' ∧
      call.isRecovery = false ∧ c.world.getShipment 1 = some s ∧ c'.world.getShipment 1 = some s' ∧
      s.status = .created ∧ s'.status = .inTransit ∧
      (s.status.isValidTransition s'.status = true ∨
        (c.world.executing call = some (.forceRelease 1) ∧ s.status = .created ∧
          s'.status = .delivered) ∨
        (call.opensDispute = true ∧ s.status = .delivered ∧ s'.status = .disputed)) := by
  obtain ⟨ls, c, trace, c', hr, hstep, hs, hs'⟩ := exists_commit Deployment.chain
    Deployment.opening (.updateStatus Deployment.carrier 1 .inTransit 2)
    ⟨5, 5, fun a => a = Deployment.carrier, fun _ => true⟩
    (fun r _ c' => (r.2.world.getShipment 1).map (·.status) = some .created ∧
      (c'.world.getShipment 1).map (·.status) = some .inTransit)
    (by decide +kernel)
  obtain ⟨s, hg, hs⟩ := Option.map_eq_some_iff.mp hs
  obtain ⟨s', hg', hs'⟩ := Option.map_eq_some_iff.mp hs'
  have hc : Reachable c := ⟨_, ls, Deployment.deployed, hr⟩
  have hne : s'.status ≠ s.status := by rw [hs, hs']; decide
  have hpr : s.status ≠ .partiallyRefunded := by rw [hs]; decide
  exact ⟨c, c', _, _, trace, s, s', hc, hstep, rfl, hg, hg', hs, hs',
    status_change_valid hc hstep rfl hg hg' hne hpr⟩

/-- An approved `ForceRelease` takes a new shipment to `Delivered`. -/
theorem forceRelease_outside_table :
    ¬∀ (c c' : Chain Deployment.host) (call : Call) (env : Env) (trace : List Effect), Reachable c →
      Step c (.committed call env trace) c' → call.isRecovery = false →
      ∀ id s s', c.world.getShipment id = some s → c'.world.getShipment id = some s' →
        s'.status ≠ s.status → s.status.isValidTransition s'.status = true := by
  intro hall
  obtain ⟨ls, c, trace, c', hr, hstep, hs, hs'⟩ := exists_commit Deployment.chain
    (Deployment.opening ++ [
      Deployment.signed Deployment.admin 5
        (.initMultisig Deployment.admin [Deployment.admin, Deployment.treasury] 2),
      Deployment.signed Deployment.company 6 (.depositEscrow Deployment.company 1 1000),
      Deployment.signed Deployment.admin 7 (.proposeAction Deployment.admin (.forceRelease 1))])
    (.approveAction Deployment.treasury 1)
    ⟨8, 8, fun a => a = Deployment.treasury, fun _ => true⟩
    (fun r _ c' => (r.2.world.getShipment 1).map (·.status) = some .created ∧
      (c'.world.getShipment 1).map (·.status) = some .delivered)
    (by decide +kernel)
  obtain ⟨s, hg, hs⟩ := Option.map_eq_some_iff.mp hs
  obtain ⟨s', hg', hs'⟩ := Option.map_eq_some_iff.mp hs'
  have hv := hall c c' _ _ trace ⟨_, ls, Deployment.deployed, hr⟩ hstep rfl 1 s s' hg hg'
    (by rw [hs, hs']; decide)
  rw [hs, hs'] at hv
  cases hv

end Navin
