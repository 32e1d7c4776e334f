/-
# Disputes

Who can move a disputed shipment. The arbiters are the admin and the guardians,
and a proposal that reached its threshold may act too; but a receiver can confirm
the delivery, a carrier can update the status, and a carrier can release a
milestone payment, all while the dispute is open.

Key definitions:
- `signersOf`: who authenticated a call;
- `World.Arbiter`, `Sanctioned`;
- `Thaws`: the calls by which a party acts alone.

Key theorems:
- `disputed_sanctioned_iff`.
-/
import Navin.Sound
import Navin.Token

namespace Navin

open Tx

set_option synthInstance.maxSize 4000

variable {H : Host}

/-! ### Signatures -/

/-- The addresses whose signature a call demanded. -/
def signersOf (trace : List Effect) : List Address :=
  trace.filterMap fun
    | .auth a => some a
    | _ => none

def World.signers (w : World H) : List Address := signersOf w.trace

theorem signersOf_append (l k : List Effect) : signersOf (l ++ k) = signersOf l ++ signersOf k :=
  List.filterMap_append ..

instance : LedgerFree (World.signers : World H → _) := ⟨fun _ _ => rfl⟩

instance : RegistryFree (World.signers : World H → _) := ⟨fun _ _ => rfl⟩

instance : DossierFree (World.signers : World H → _) := ⟨fun _ _ => rfl⟩

instance : GovernanceFree (World.signers : World H → _) := ⟨fun _ _ => rfl⟩

instance : PlainFree (World.signers : World H → _) := ⟨fun w e _ => by
  unfold World.signers
  rw [signersOf_append]
  exact List.append_nil _⟩

instance : PaymentFree (World.signers : World H → _) := ⟨fun w e he => by
  unfold World.signers
  rw [signersOf_append]
  cases e with
  | auth => cases he
  | transfer => exact List.append_nil _
  | event => exact List.append_nil _⟩

/-- A function that demands the signature of `a` once, and no other. -/
class Signs (a : Address) {α : Type} (m : Contract H α) : Prop where
  out : ∀ env w, wp m env w fun _ w' => w'.signers = w.signers ++ [a]

namespace Signs

variable {a : Address} {α β : Type}

instance requireAuth : Signs a (requireAuth a : Contract H Unit) := ⟨fun env w => by
  refine wp_requireAuth fun _ => ?_
  exact signersOf_append ..⟩

/-- The signature is demanded first. -/
instance (priority := high) bindLeft (m : Contract H α) (k : α → Contract H β) [hm : Signs a m]
    [hk : ∀ x, Preserves World.signers (k x)] : Signs a (m >>= k) := ⟨fun env w => by
  rw [wp_bind]
  refine (hm.out env w).mono fun x w₁ h₁ => ?_
  refine ((hk x).out env w₁).mono fun y w₂ h₂ => ?_
  rw [h₂, h₁]⟩

/-- The signature is demanded later. -/
instance bindRight (m : Contract H α) (k : α → Contract H β) [hm : Preserves World.signers m]
    [hk : ∀ x, Signs a (k x)] : Signs a (m >>= k) := ⟨fun env w => by
  rw [wp_bind]
  refine (hm.out env w).mono fun x w₁ h₁ => ?_
  refine ((hk x).out env w₁).mono fun y w₂ h₂ => ?_
  rw [h₂, h₁]⟩

instance openCall : Signs a (openCall a : Contract H Unit) := by
  unfold Navin.openCall
  infer_instance

end Signs

/-- The signers of a committed call that starts with an empty trace. -/
theorem Signs.signersOf_eq {a : Address} {m : Contract H Unit} (hm : Signs a m) {env : Env}
    {w w' : World H} (h : m env w.fresh = .ok () w') : signersOf w'.trace = [a] :=
  hm.out env w.fresh () w' h

instance signs_updateStatus (caller : Address) (id : ℕ) (status : ShipmentStatus) (hash : BytesN32) :
    Signs caller (updateStatus caller id status hash : Contract H Unit) := by
  unfold updateStatus
  infer_instance

instance signs_confirmDelivery (receiver : Address) (id : ℕ) (hash : BytesN32) :
    Signs receiver (confirmDelivery receiver id hash : Contract H Unit) := by
  unfold confirmDelivery
  infer_instance

instance signs_releaseMilestonePayment (caller : Address) (id : ℕ) (name : Symbol) :
    Signs caller (releaseMilestonePayment caller id name : Contract H Unit) := by
  unfold releaseMilestonePayment
  infer_instance

instance signs_forceCancelShipment (admin : Address) (id : ℕ) (hash : BytesN32) :
    Signs admin (forceCancelShipment admin id hash : Contract H Unit) := by
  unfold forceCancelShipment
  infer_instance

instance signs_resolveDispute (admin : Address) (id : ℕ) (resolution : DisputeResolution)
    (hash : BytesN32) : Signs admin (resolveDispute admin id resolution hash : Contract H Unit) := by
  unfold resolveDispute
  dsimp only
  infer_instance

instance signs_recoveryEdit (t : RecoveryActionType) (admin : Address) (id : ℕ) (hash : BytesN32)
    (edit : Shipment → ℕ → Contract H Shipment) (event : Shipment → ℕ → Event)
    [∀ s n, Preserves World.signers (edit s n)] :
    Signs admin (recoveryEdit t admin id hash edit event : Contract H Unit) := by
  unfold recoveryEdit
  infer_instance

instance signs_recoverShipment (admin : Address) (id : ℕ) (status : ShipmentStatus) (hash : BytesN32) :
    Signs admin (recoverShipment admin id status hash : Contract H Unit) := by
  unfold recoverShipment
  infer_instance

instance signs_unlockEscrow (admin : Address) (id : ℕ) (hash : BytesN32) :
    Signs admin (unlockEscrow admin id hash : Contract H Unit) := by
  unfold unlockEscrow
  infer_instance

instance signs_rollbackOnExternalFailure (admin : Address) (id : ℕ) (status : ShipmentStatus)
    (hash : BytesN32) :
    Signs admin (rollbackOnExternalFailure admin id status hash : Contract H Unit) := by
  unfold rollbackOnExternalFailure
  infer_instance

/-- Whose signature the calls that can move a disputed shipment demand. -/
def Call.signer? : Call → Option Address
  | .updateStatus caller .. => some caller
  | .confirmDelivery receiver .. => some receiver
  | .releaseMilestonePayment caller .. => some caller
  | .forceCancelShipment admin .. => some admin
  | .resolveDispute admin .. => some admin
  | .recoverShipment admin .. => some admin
  | .unlockEscrow admin .. => some admin
  | .rollbackOnExternalFailure admin .. => some admin
  | _ => none

theorem signersOf_exec {call : Call} {a : Address} {env : Env} {w w' : World H}
    (hx : call.exec env w.fresh = .ok () w') (ha : call.signer? = some a) :
    signersOf w'.trace = [a] := by
  cases call with
  | updateStatus => cases ha; exact (signs_updateStatus ..).signersOf_eq hx
  | confirmDelivery => cases ha; exact (signs_confirmDelivery ..).signersOf_eq hx
  | releaseMilestonePayment => cases ha; exact (signs_releaseMilestonePayment ..).signersOf_eq hx
  | forceCancelShipment => cases ha; exact (signs_forceCancelShipment ..).signersOf_eq hx
  | resolveDispute => cases ha; exact (signs_resolveDispute ..).signersOf_eq hx
  | recoverShipment => cases ha; exact (signs_recoverShipment ..).signersOf_eq hx
  | unlockEscrow => cases ha; exact (signs_unlockEscrow ..).signersOf_eq hx
  | rollbackOnExternalFailure =>
    cases ha
    exact (signs_rollbackOnExternalFailure ..).signersOf_eq hx
  | _ => cases ha

/-! ### Who may act on a dispute -/

/-- The admin, or a guardian who is not suspended. -/
def World.Arbiter (w : World H) (a : Address) : Prop :=
  w.ledger.admin = some a ∨ w.hasActiveRole a .guardian = true

instance (w : World H) (a : Address) : Decidable (w.Arbiter a) :=
  inferInstanceAs (Decidable (_ ∨ _))

/-- An arbiter authenticated the call, or it executed an approved proposal. -/
def Sanctioned (w : World H) (call : Call) (trace : List Effect) : Prop :=
  (∃ a ∈ signersOf trace, w.Arbiter a) ∨ w.executing call ≠ none

instance (w : World H) (call : Call) (trace : List Effect) : Decidable (Sanctioned w call trace) :=
  inferInstanceAs (Decidable (_ ∨ _))

/-- The shipment is there, and disputed. -/
def World.Disputed (w : World H) (id : ℕ) : Prop := ∃ s, w.getShipment id = some s ∧ s.status = .disputed

/-- The milestone pays something: there is escrow, and the share of the deposit is
at least one unit or the milestone completes the schedule. -/
def Shipment.Pays (s : Shipment) (name : Symbol) : Prop :=
  ∃ m, s.findMilestone name = some m ∧ 0 < s.escrowAmount ∧
    (scheduledShare s.paymentMilestones (s.milestonesCompleted ++ [name]) = 100 ∨
      100 ≤ s.totalEscrow * m.2)

/-- The calls by which somebody who is no arbiter moves a disputed shipment. -/
def Thaws (w : World H) : Call → Prop
  | .confirmDelivery receiver id _ => w.Disputed id ∧ ¬w.Arbiter receiver
  | .updateStatus caller id _ _ => w.Disputed id ∧ ¬w.Arbiter caller
  | .releaseMilestonePayment caller id name =>
    (∃ s, w.getShipment id = some s ∧ s.status = .disputed ∧ s.Pays name) ∧ ¬w.Arbiter caller
  | _ => False

/-- The record `s` was disputed and its status or escrow is another in `s'`. -/
def Moved (s s' : Shipment) : Prop :=
  s.status = .disputed ∧ (s'.status ≠ s.status ∨ s'.escrowAmount ≠ s.escrowAmount)

theorem Shipment.pays_iff {s : Shipment} {name : Symbol} {m : Symbol × ℕ}
    (hm : s.findMilestone name = some m) : s.Pays name ↔
      0 < s.payable (s.milestoneDue (s.milestonesCompleted ++ [name]) m.2) := by
  have hshare : 0 < s.share m.2 ↔ 100 ≤ s.totalEscrow * m.2 := by
    unfold Shipment.share
    rcases le_or_gt 0 (s.totalEscrow * m.2) with h | h
    · rw [Int.tdiv_eq_ediv_of_nonneg h]
      omega
    · have hneg : (s.totalEscrow * m.2).tdiv 100 = -(-(s.totalEscrow * m.2)).tdiv 100 := by
        rw [Int.neg_tdiv, neg_neg]
      rw [hneg, Int.tdiv_eq_ediv_of_nonneg (by omega)]
      omega
  have hpay : ∀ x, 0 < s.payable x ↔ 0 < x ∧ 0 < s.escrowAmount := by
    intro x
    unfold Shipment.payable
    omega
  rw [hpay]
  unfold Shipment.milestoneDue
  constructor
  · rintro ⟨n, hn, hpos, hdue⟩
    obtain rfl : n = m := Option.some.inj (hn.symm.trans hm)
    split
    · exact ⟨hpos, hpos⟩
    · rename_i hne
      exact ⟨hshare.mpr (hdue.resolve_left hne), hpos⟩
  · rintro ⟨hx, hpos⟩
    refine ⟨m, hm, hpos, ?_⟩
    split at hx
    · exact .inl ‹_›
    · exact .inr (hshare.mp hx)

variable {env : Env} {w w' : World H} {call : Call} {p : Posting}

/-- A posting that moves a disputed shipment was sanctioned, or one of the three
calls made it. -/
theorem PostedBy.sanctioned_or_thaws (hp : PostedBy env w.fresh call p w'.book)
    (hx : call.exec env w.fresh = .ok () w') (hm : Moved p.old p.new) :
    Sanctioned w call w'.trace ∨ Thaws w call := by
  obtain ⟨hd, hch⟩ := hm
  have hstored := hp.stored
  have byArbiter : ∀ a, signersOf w'.trace = [a] → w.Arbiter a → Sanctioned w call w'.trace :=
    fun a hs ha => .inl ⟨a, by rw [hs]; simp, ha⟩
  have byParty : ∀ a, signersOf w'.trace = [a] → (¬w.Arbiter a → Thaws w call) →
      Sanctioned w call w'.trace ∨ Thaws w call := by
    intro a hs ht
    by_cases ha : w.Arbiter a
    · exact .inl (byArbiter a hs ha)
    · exact .inr (ht ha)
  have refused : ∀ {st : ShipmentStatus}, p.old.status = st → st ≠ .disputed →
      Sanctioned w call w'.trace ∨ Thaws w call := fun h h' => absurd (h.symm.trans hd) h'
  have unchanged : p.new.status = p.old.status → p.new.escrowAmount = p.old.escrowAmount →
      Sanctioned w call w'.trace ∨ Thaws w call := fun h₁ h₂ => absurd hch (by simp [h₁, h₂])
  cases hr : hp.rule with
  | setShipmentMetadata => exact unchanged rfl rfl
  | addDisputeEvidenceHash => exact unchanged rfl rfl
  | handoffShipment => exact unchanged rfl rfl
  | reportConditionBreach _ _ hne => exact absurd hd hne
  | @updateStatus caller s =>
    exact byParty caller (signersOf_exec hx rfl) fun ha => ⟨⟨s, hstored, hd⟩, ha⟩
  | @confirmDelivery s =>
    exact byParty s.receiver (signersOf_exec hx rfl) fun ha => ⟨⟨s, hstored, hd⟩, ha⟩
  | confirmPartialDelivery _ hst =>
    rcases hst with h | h | h <;> exact refused h (by decide)
  | recordOther _ hst => exact refused hst (by decide)
  | recordMilestone _ hst => exact refused hst (by decide)
  | recordMilestonesBatch _ hst => exact refused hst (by decide)
  | releaseNothing => exact unchanged rfl rfl
  | @releaseMilestonePayment caller s name m x _ _ hfind hxeq hpos =>
    refine byParty caller (signersOf_exec hx rfl) fun ha => ⟨⟨s, hstored, hd, ?_⟩, ha⟩
    rw [Shipment.pays_iff hfind, ← hxeq]
    -- the status stays, so the escrow changed
    have hne : s.escrowAmount - s.payable x ≠ s.escrowAmount := hch.resolve_left (fun h => h rfl)
    have := s.payable_nonneg x
    omega
  | depositEscrow _ _ _ hst => exact refused hst (by decide)
  | cancelShipment _ _ _ hne => exact absurd hd hne
  | @forceCancelShipment admin _ _ _ hadm =>
    exact .inl (byArbiter admin (signersOf_exec hx rfl) (.inl hadm))
  | checkDeadline _ _ hne => exact absurd hd hne
  | releaseEscrow _ _ hst => exact refused hst (by decide)
  | refundEscrow _ _ hst => rcases hst with h | h <;> exact refused h (by decide)
  | raiseDispute _ _ _ hne => exact absurd hd hne
  | @releaseToCarrier admin _ _ _ hadm =>
    exact .inl (byArbiter admin (signersOf_exec hx rfl) hadm)
  | @refundToCompany admin _ _ _ hadm =>
    exact .inl (byArbiter admin (signersOf_exec hx rfl) hadm)
  | forceRelease hexec => exact .inl (.inr (by
      have hexec : w.executing call = some _ := hexec
      rw [hexec]
      simp))
  | forceRefund hexec => exact .inl (.inr (by
      have hexec : w.executing call = some _ := hexec
      rw [hexec]
      simp))
  | @recoverShipment admin _ _ _ hadm =>
    exact .inl (byArbiter admin (signersOf_exec hx rfl) (.inl hadm))
  | @unlockEscrow admin _ _ hadm =>
    exact .inl (byArbiter admin (signersOf_exec hx rfl) (.inl hadm))
  | clearFinalization => exact unchanged rfl rfl
  | @rollbackOnExternalFailure admin _ _ _ hadm =>
    exact .inl (byArbiter admin (signersOf_exec hx rfl) (.inl hadm))

/-- Nobody sanctioned a call of the three. -/
theorem Thaws.not_sanctioned (ht : Thaws w call) (hx : call.exec env w.fresh = .ok () w') :
    ¬Sanctioned w call w'.trace := by
  have key : ∀ a, call.signer? = some a → ¬w.Arbiter a → w.executing call = none →
      ¬Sanctioned w call w'.trace := by
    rintro a hs ha hexec (⟨b, hb, harb⟩ | hne)
    · rw [signersOf_exec hx hs, List.mem_singleton] at hb
      exact ha (hb ▸ harb)
    · exact hne hexec
  cases call with
  | confirmDelivery => exact key _ rfl ht.2 rfl
  | updateStatus => exact key _ rfl ht.2 rfl
  | releaseMilestonePayment => exact key _ rfl ht.2 rfl
  | _ => cases ht

theorem Thaws.posts (ht : Thaws w call) : call.posts = true := by
  cases call <;> first | rfl | cases ht

/-- Each of the three moves the shipment it is about. -/
theorem Thaws.moved (ht : Thaws w call) (hr : Rule env w call p)
    (hs : w.getShipment p.old.id = some p.old) : Moved p.old p.new := by
  have hposts := ht.posts
  cases hr with
  | @updateStatus _ s status _ _ _ hv =>
    obtain ⟨⟨t, ht, hd⟩, -⟩ := ht
    obtain rfl : t = s := Option.some.inj (ht.symm.trans hs)
    refine ⟨hd, .inl fun heq => ?_⟩
    have heq : status = t.status := heq
    rw [heq, hd] at hv
    cases hv
  | @confirmDelivery s =>
    obtain ⟨⟨t, ht, hd⟩, -⟩ := ht
    obtain rfl : t = s := Option.some.inj (ht.symm.trans hs)
    refine ⟨hd, .inl fun heq => ?_⟩
    have heq : ShipmentStatus.delivered = t.status := heq
    rw [hd] at heq
    cases heq
  | @releaseNothing _ s _ _ _ _ hfind hle =>
    obtain ⟨⟨t, ht, hd, hpays⟩, -⟩ := ht
    obtain rfl : t = s := Option.some.inj (ht.symm.trans hs)
    rw [Shipment.pays_iff hfind] at hpays
    unfold Shipment.payable at hpays
    omega
  | @releaseMilestonePayment _ s _ _ x _ _ hfind hxeq =>
    obtain ⟨⟨t, ht, hd, hpays⟩, -⟩ := ht
    obtain rfl : t = s := Option.some.inj (ht.symm.trans hs)
    rw [Shipment.pays_iff hfind, ← hxeq] at hpays
    refine ⟨hd, .inr fun heq => ?_⟩
    have heq : t.escrowAmount - t.payable x = t.escrowAmount := heq
    omega
  | forceRelease hx => rw [posts_of_executing hx] at hposts; cases hposts
  | forceRefund hx => rw [posts_of_executing hx] at hposts; cases hposts
  | _ => cases ht

/-- In every reachable state, a committed call that moves a disputed shipment is
sanctioned exactly when it is none of the three by somebody who is no arbiter. -/
theorem disputed_sanctioned_iff {c c' : Chain H} (hc : Reachable c) {call : Call} {env : Env}
    {trace : List Effect} (hstep : Step c (.committed call env trace) c') :
    (∀ id s s', c.world.getShipment id = some s → c'.world.getShipment id = some s' → Moved s s' →
      Sanctioned c.world call trace) ↔ ¬Thaws c.world call := by
  cases hstep with
  | @committed _ _ w' ha hx =>
  have hs : c.world.fresh.ledger.Sound := hc.sound
  have he := exec_effects hs.keyed hx
  constructor
  · intro hall ht
    obtain ⟨p, hp⟩ := he.exists_posting ht.posts
    have hg' : w'.ledger.getShipment p.old.id = some p.new := hp.stored_new
    have hfresh : Thaws c.world.fresh call := ht
    exact ht.not_sanctioned hx (hall _ _ _ hp.stored hg' (hfresh.moved hp.rule hp.stored))
  · intro ht id s s' hg hg' hm
    obtain ⟨s₁, hs₁, hcase⟩ := he.record hs hg
    obtain rfl : s₁ = s' := Option.some.inj (hs₁.symm.trans hg')
    rcases hcase with rfl | ⟨p, hp, rfl, rfl⟩
    · exact absurd hm.2 (by simp)
    · exact (hp.sanctioned_or_thaws hx hm).resolve_right ht

/-- A guardian resolves the dispute for the carrier. -/
theorem disputed_sanctioned_by_guardian : ∃ (c c' : Chain Deployment.host) (call : Call) (env : Env)
    (trace : List Effect), Reachable c ∧ Step c (.committed call env trace) c' ∧
      ¬Thaws c.world call ∧ (∃ s s', c.world.getShipment 1 = some s ∧ c'.world.getShipment 1 = some s' ∧
        Moved s s') ∧ Sanctioned c.world call trace := by
  obtain ⟨ls, c, trace, c', hr, hstep, hs, hs'⟩ := exists_commit Deployment.chain
    (Deployment.opening ++ [
      Deployment.signed Deployment.admin 5 (.addGuardian Deployment.admin Deployment.treasury),
      Deployment.signed Deployment.company 6 (.depositEscrow Deployment.company 1 1000),
      Deployment.signed Deployment.company 7 (.raiseDispute Deployment.company 1 2)])
    (.resolveDispute Deployment.treasury 1 .releaseToCarrier 3)
    ⟨8, 8, fun a => a = Deployment.treasury, fun _ => true⟩
    (fun r _ c' => (r.2.world.getShipment 1).map (·.status) = some .disputed ∧
      (c'.world.getShipment 1).map (·.status) = some .delivered)
    (by decide +kernel)
  obtain ⟨s, hg, hs⟩ := Option.map_eq_some_iff.mp hs
  obtain ⟨s', hg', hs'⟩ := Option.map_eq_some_iff.mp hs'
  have hc : Reachable c := ⟨_, ls, Deployment.deployed, hr⟩
  have hm : Moved s s' := ⟨hs, .inl (by rw [hs, hs']; decide)⟩
  exact ⟨c, c', _, _, trace, hc, hstep, id, ⟨s, s', hg, hg', hm⟩,
    (disputed_sanctioned_iff hc hstep).mpr id 1 s s' hg hg' hm⟩

/-- The receiver of a disputed shipment confirms its delivery, and the carrier is
paid. -/
theorem confirmDelivery_ends_dispute :
    ¬∀ (c c' : Chain Deployment.host) (call : Call) (env : Env) (trace : List Effect), Reachable c →
      Step c (.committed call env trace) c' →
      ∀ id s s', c.world.getShipment id = some s → c'.world.getShipment id = some s' → Moved s s' →
        Sanctioned c.world call trace := by
  intro hall
  obtain ⟨ls, c, trace, c', hr, hstep, hs, hs', hn⟩ := exists_commit Deployment.chain
    (Deployment.opening ++ [
      Deployment.signed Deployment.company 5 (.depositEscrow Deployment.company 1 1000),
      Deployment.signed Deployment.company 6 (.raiseDispute Deployment.company 1 2)])
    (.confirmDelivery Deployment.receiver 1 3)
    ⟨7, 7, fun a => a = Deployment.receiver, fun _ => true⟩
    (fun r trace c' => (r.2.world.getShipment 1).map (fun s => (s.status, s.escrowAmount)) =
        some (.disputed, 1000) ∧
      (c'.world.getShipment 1).map (fun s => (s.status, s.escrowAmount)) = some (.delivered, 0) ∧
      ¬Sanctioned r.2.world (.confirmDelivery Deployment.receiver 1 3) trace)
    (by decide +kernel)
  obtain ⟨s, hg, hs⟩ := Option.map_eq_some_iff.mp hs
  obtain ⟨s', hg', hs'⟩ := Option.map_eq_some_iff.mp hs'
  have hst : s.status = .disputed := congrArg Prod.fst hs
  have hst' : s'.status = .delivered := congrArg Prod.fst hs'
  refine hn (hall c c' _ _ trace ⟨_, ls, Deployment.deployed, hr⟩ hstep 1 s s' hg hg' ⟨hst, .inl ?_⟩)
  rw [hst, hst']
  decide

end Navin
