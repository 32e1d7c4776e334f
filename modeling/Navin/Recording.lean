/-
# When milestones are recorded

The two recordings taken apart: what they check, and what is done for one item. The work
on an item looks at neither the stored record of the shipment nor the trace. A batch
works on a record in memory and stores it at the end; single recordings store it after
each item. From worlds that agree beside that record the work on an item ends alike, in
worlds that agree again.

Key definitions:
- `World.Carries`: the opening of both recordings;
- `recordItem`: the work of `record_milestone` on its item;
- `World.Matches`: worlds that agree beside one record and the trace, with the transfers
  of the first being those of the second after some earlier ones.

Key theorems:
- `returns_recordMilestone`, `returns_recordMilestonesBatch`;
- `alike_recordItem`: an item ends alike in worlds that match.
-/
import Navin.Lib.Alike
import Navin.Creation
import Navin.Settings

namespace Navin

open Tx

set_option synthInstance.maxSize 4000

variable {H : Host} {env : Env} {w w' : World H} {carrier : Address} {id : ℕ} {s : Shipment}

/-! ### The two recordings -/

/-- A carrier's call opens: the contract takes calls, the carrier signed, and passes as a
carrier. -/
structure World.Carries (w : World H) (env : Env) (carrier : Address) : Prop where
  initialized : w.isInitialized = true
  running : w.governance.isPaused = false
  signed : env.auth carrier = true
  carrier : w.permits.Passes carrier .carrier

theorem returns_openCarrierCall {u : Unit} : (openCarrierCall carrier).Returns env w u w' ↔
    w.Carries env carrier ∧ w' = w.signed carrier := by
  unfold openCarrierCall requireActiveCarrier
  simp only [returns_bind, returns_openCall, returns_requireRole, returns_gets, returns_rejectIf]
  constructor
  · rintro ⟨_, _, ⟨⟨hi, hp, ha⟩, rfl⟩, _, _, ⟨⟨-, hc⟩, rfl⟩, _, _, ⟨-, rfl⟩, _, _, ⟨-, rfl⟩, -, rfl⟩
    exact ⟨⟨hi, hp, ha, hc⟩, rfl⟩
  · rintro ⟨hc, rfl⟩
    have hpass : (w.signed carrier).permits.Passes carrier .carrier := hc.carrier
    obtain ⟨-, -, hrole, -, hsuspended⟩ := hc.carrier
    refine ⟨(), _, ⟨⟨hc.initialized, hc.running, hc.signed⟩, rfl⟩, (), _,
      ⟨⟨hc.initialized, hpass⟩, rfl⟩, _, _, ⟨rfl, rfl⟩, (), _, ⟨?_, rfl⟩, ?_, rfl⟩
    · exact ne_true_of_eq_false (hsuspended rfl)
    · exact ne_true_of_eq_false hrole

/-- What both recordings ask of the record. -/
structure Shipment.Recordable (s : Shipment) (carrier : Address) : Prop where
  open_ : s.finalized = false
  carrier : s.carrier = carrier
  underWay : s.status = .inTransit

/-- The work of `record_milestone` on its item. -/
def recordItem (carrier : Address) (id : ℕ) (s : Shipment) (item : Symbol × BytesN32) :
    Contract H Shipment := do
  emitMilestoneRecorded id item.1 item.2 carrier
  payRecordedMilestone id s item.1

/-- A record is stored. -/
def World.store (w : World H) (s : Shipment) : World H := { w with ledger := w.ledger.setShipment s }

theorem returns_loadShipment {t : Shipment} : (loadShipment id).Returns env w t w' ↔
    w.getShipment id = some t ∧ w' = w := by
  unfold loadShipment
  rw [returns_gets_bind, returns_okOr]

/-- When a single recording goes through. -/
theorem returns_recordMilestone {item : Symbol × BytesN32} {u : Unit} :
    (recordMilestone carrier id item.1 item.2).Returns env w u w' ↔
      w.Carries env carrier ∧ ∃ s, w.getShipment id = some s ∧ s.Recordable carrier ∧
        item.1.Short ∧ item.2 ≠ 0 ∧
        w.getMilestoneEventCount id < w.getConfig.maxMilestonesPerShipment ∧
        ∃ s' w₁, (recordItem carrier id s item).Returns env (w.signed carrier) s' w₁ ∧
          w' = w₁.store s'.finalizeIfSettled := by
  unfold recordMilestone validateHash requireNotFinalized setShipment modifyLedger
  rw [returns_unit_bind fun _ _ => returns_openCarrierCall, returns_bind]
  refine and_congr_right fun _ => ?_
  constructor
  · rintro ⟨s, _, hload, h⟩
    obtain ⟨hs, rfl⟩ := returns_loadShipment.mp hload
    rw [returns_rejectIf_bind, returns_unit_bind fun _ _ => returns_validateCheckpointSymbol,
      returns_rejectIf_bind, returns_rejectIf_bind, returns_rejectIf_bind, returns_gets_bind,
      returns_gets_bind, returns_rejectIf_bind, ← bind_assoc, returns_bind] at h
    obtain ⟨hf, hshort, hhash, hcarrier, hst, hcount, s', w₁, hitem, hend⟩ := h
    exact ⟨s, hs, ⟨by simpa using hf, not_not.mp hcarrier, not_not.mp hst⟩, hshort, hhash,
      not_le.mp hcount, s', w₁, hitem, returns_modify.mp hend⟩
  · rintro ⟨s, hs, hr, hshort, hhash, hcount, s', w₁, hitem, rfl⟩
    refine ⟨s, _, returns_loadShipment.mpr ⟨hs, rfl⟩, ?_⟩
    rw [returns_rejectIf_bind, returns_unit_bind fun _ _ => returns_validateCheckpointSymbol,
      returns_rejectIf_bind, returns_rejectIf_bind, returns_rejectIf_bind, returns_gets_bind,
      returns_gets_bind, returns_rejectIf_bind, ← bind_assoc, returns_bind]
    exact ⟨by simp [hr.open_], hshort, hhash, not_not.mpr hr.carrier, not_not.mpr hr.underWay,
      not_le.mpr hcount, s', w₁, hitem, returns_modify.mpr rfl⟩

/-- When a batch goes through. -/
theorem returns_recordMilestonesBatch {items : List (Symbol × BytesN32)} {u : Unit} :
    (recordMilestonesBatch carrier id items).Returns env w u w' ↔
      w.Carries env carrier ∧ items.length ≤ w.getConfig.batchOperationLimit ∧
      (∀ item ∈ items, item.2 ≠ 0) ∧ ∃ s, w.getShipment id = some s ∧ s.Recordable carrier ∧
        w.getMilestoneEventCount id + items.length ≤ u32Max ∧
        w.getMilestoneEventCount id + items.length ≤ w.getConfig.maxMilestonesPerShipment ∧
        ∃ s' w₁, (items.foldlM (recordBatchItem carrier id) s).Returns env (w.signed carrier) s' w₁ ∧
          w' = w₁.store s'.finalizeIfSettled := by
  have hhashes : ∀ v v' : World H, ∀ u : Unit,
      (items.foldlM (fun _ m => validateHash m.2) ()).Returns env v u v' ↔
        (∀ item ∈ items, item.2 ≠ 0) ∧ v' = v :=
    fun v v' u => returns_checks (P := fun _ item => item.2 ≠ 0)
      (fun a s u s' => by unfold validateHash; exact returns_rejectIf) items
  unfold recordMilestonesBatch requireNotFinalized setShipment modifyLedger
  rw [returns_unit_bind fun _ _ => returns_openCarrierCall, returns_gets_bind, returns_rejectIf_bind,
    returns_unit_bind fun _ _ => hhashes _ _ _, returns_bind, not_lt]
  refine and_congr_right fun _ => and_congr Iff.rfl (and_congr_right fun _ => ?_)
  constructor
  · rintro ⟨s, _, hload, h⟩
    obtain ⟨hs, rfl⟩ := returns_loadShipment.mp hload
    rw [returns_rejectIf_bind, returns_rejectIf_bind, returns_rejectIf_bind, returns_gets_bind,
      returns_okOr_bind] at h
    obtain ⟨hf, hcarrier, hst, total, htotal, h⟩ := h
    rw [returns_rejectIf_bind, returns_bind] at h
    obtain ⟨hmax, s', w₁, hitems, hend⟩ := h
    unfold checkedAddU32 at htotal
    split at htotal
    · rename_i hle
      obtain rfl := Option.some.inj htotal
      exact ⟨s, hs, ⟨by simpa using hf, not_not.mp hcarrier, not_not.mp hst⟩, hle, not_lt.mp hmax, s',
        w₁, hitems, returns_modify.mp hend⟩
    · cases htotal
  · rintro ⟨s, hs, hr, hle, hmax, s', w₁, hitems, rfl⟩
    refine ⟨s, _, returns_loadShipment.mpr ⟨hs, rfl⟩, ?_⟩
    rw [returns_rejectIf_bind, returns_rejectIf_bind, returns_rejectIf_bind, returns_gets_bind,
      returns_okOr_bind]
    refine ⟨by simp [hr.open_], not_not.mpr hr.carrier, not_not.mpr hr.underWay, _, if_pos hle, ?_⟩
    rw [returns_rejectIf_bind, returns_bind]
    exact ⟨not_lt.mpr hmax, s', w₁, hitems, returns_modify.mpr rfl⟩

/-! ### Worlds that match -/

def Effect.isTransfer : Effect → Bool
  | .transfer .. => true
  | _ => false

/-- The transfers of a trace. -/
def transfersIn (trace : List Effect) : List Effect := trace.filter (·.isTransfer)

@[simp] theorem transfersIn_append (t t' : List Effect) :
    transfersIn (t ++ t') = transfersIn t ++ transfersIn t' := List.filter_append ..

/-- The ledger without the record of a shipment. -/
def Ledger.sans {Token : Type} (l : Ledger Token) (id : ℕ) : Ledger Token :=
  { l with shipment := Function.update l.shipment id none }

/-- Two worlds agree beside the record of a shipment and the trace; the first has made
the transfers `pre` and then those of the second. -/
structure World.Matches (id : ℕ) (pre : List Effect) (v w : World H) : Prop where
  ledger_eq : v.ledger.sans id = w.ledger.sans id
  registry_eq : v.registry = w.registry
  dossier_eq : v.dossier = w.dossier
  governance_eq : v.governance = w.governance
  transfers_eq : transfersIn v.trace = pre ++ transfersIn w.trace

/-- A write to the ledger that does not look at the record. -/
class Beside {Token : Type} (id : ℕ) (g : Ledger Token → Ledger Token) : Prop where
  out : ∀ l l', l.sans id = l'.sans id → (g l).sans id = (g l').sans id

section

variable {Token : Type}

/-- A write beside the records. -/
theorem Beside.of_sans {g : Ledger Token → Ledger Token}
    (hg : ∀ l, (g l).sans id = g (l.sans id)) : Beside id g :=
  ⟨fun l l' h => by rw [hg, hg, h]⟩

instance (n : ℕ) (x : ℤ) : Beside id fun l : Ledger Token => l.setEscrow n x := .of_sans fun _ => rfl

instance (r : SettlementRecord) : Beside id fun l : Ledger Token => l.setSettlement r :=
  .of_sans fun _ => rfl

instance (n : ℕ) (x : Option ℕ) : Beside id fun l : Ledger Token => l.setActiveSettlement n x :=
  .of_sans fun _ => rfl

instance (n : ℕ) : Beside id fun l : Ledger Token => { l with settlementCounter := n } :=
  .of_sans fun _ => rfl

instance (token : Token) : Beside id fun l : Ledger Token => { l with token := token } :=
  .of_sans fun _ => rfl

instance (s : Shipment) : Beside id fun l : Ledger Token => l.setShipment s := ⟨fun l l' h => by
  have hrest : ∀ j, j ≠ id → l.shipment j = l'.shipment j := by
    intro j hj
    have hj' := congrFun (congrArg Ledger.shipment h) j
    simpa [Ledger.sans, hj] using hj'
  have hship : Function.update (Function.update l.shipment s.id (some s)) id none =
      Function.update (Function.update l'.shipment s.id (some s)) id none := by
    funext j
    by_cases hj : j = id
    · rw [hj, Function.update_self, Function.update_self]
    · rw [Function.update_of_ne hj, Function.update_of_ne hj, Function.update_apply,
        Function.update_apply, hrest j hj]
  have hl : (l.setShipment s).sans id = { l.sans id with
      shipment := Function.update (Function.update l.shipment s.id (some s)) id none } := rfl
  have hl' : (l'.setShipment s).sans id = { l'.sans id with
      shipment := Function.update (Function.update l'.shipment s.id (some s)) id none } := rfl
  rw [hl, hl', h, hship]⟩

end

section

variable {pre : List Effect}

instance (g : Ledger H.Token → Ledger H.Token) [hg : Beside id g] :
    Alike (World.Matches id pre) (modifyLedger g) (modifyLedger g) :=
  .modify fun _ _ h => { h with ledger_eq := hg.out _ _ h.ledger_eq }

instance (g : Dossier → Dossier) :
    Alike (World.Matches id pre) (modifyDossier g : Contract H Unit) (modifyDossier g) :=
  .modify fun _ _ h => { h with dossier_eq := congrArg g h.dossier_eq }

instance (g : Governance → Governance) :
    Alike (World.Matches id pre) (modifyGovernance g : Contract H Unit) (modifyGovernance g) :=
  .modify fun _ _ h => { h with governance_eq := congrArg g h.governance_eq }

/-- Events are not compared. -/
instance (e e' : Event) :
    Alike (World.Matches id pre) (log (.event e) : Contract H Unit) (log (.event e')) :=
  .modify fun _ _ h => { h with
    transfers_eq := by
      have ht := h.transfers_eq
      simpa [transfersIn, Effect.isTransfer] using ht }

instance (t a b : Address) (x : ℤ) : Alike (World.Matches id pre)
    (log (.transfer t a b x) : Contract H Unit) (log (.transfer t a b x)) :=
  .modify fun _ _ h => { h with
    transfers_eq := by
      have ht := h.transfers_eq
      rw [transfersIn_append, transfersIn_append, ht, List.append_assoc] }

theorem Tx.Reads.of_dossier {α : Type} {g : World H → α} (g' : Dossier → α)
    (hg : ∀ w, g w = g' w.dossier) : Reads (World.Matches id pre) g :=
  ⟨fun h => by rw [hg, hg, h.dossier_eq]⟩

theorem Tx.Reads.of_governance {α : Type} {g : World H → α} (g' : Governance → α)
    (hg : ∀ w, g w = g' w.governance) : Reads (World.Matches id pre) g :=
  ⟨fun h => by rw [hg, hg, h.governance_eq]⟩

theorem Tx.Reads.of_ledger {α : Type} {g : World H → α} (g' : Ledger H.Token → α)
    (hg : ∀ w, g w = g' (w.ledger.sans id)) : Reads (World.Matches id pre) g :=
  ⟨fun h => by rw [hg, hg, h.ledger_eq]⟩

instance (j : ℕ) : Reads (World.Matches (H := H) id pre) fun w => w.nextEventCounter j :=
  .of_dossier (fun d => saturatingAddU32 ((d.eventCount j).getD 0) 1) fun _ => rfl

instance (j : ℕ) : Reads (World.Matches (H := H) id pre) fun w => w.getEventCount j :=
  .of_dossier (fun d => (d.eventCount j).getD 0) fun _ => rfl

instance (j : ℕ) : Reads (World.Matches (H := H) id pre) fun w => w.getMilestoneEventCount j :=
  .of_dossier (fun d => (d.milestoneEventCount j).getD 0) fun _ => rfl

instance : Reads (World.Matches (H := H) id pre) fun w => w.ledger.tokenContract :=
  .of_ledger Ledger.tokenContract fun _ => rfl

instance : Reads (World.Matches (H := H) id pre) fun w => w.ledger.token :=
  .of_ledger Ledger.token fun _ => rfl

instance : Reads (World.Matches (H := H) id pre) fun w => w.ledger.settlementCounter :=
  .of_ledger Ledger.settlementCounter fun _ => rfl

instance (n : ℕ) : Reads (World.Matches (H := H) id pre) fun w => w.ledger.settlement n :=
  .of_ledger (fun l => l.settlement n) fun _ => rfl

instance : Reads (World.Matches (H := H) id pre) fun w =>
    w.governance.breaker.getD CircuitBreakerTracker.new :=
  .of_governance (fun g => g.breaker.getD CircuitBreakerTracker.new) fun _ => rfl

instance : Reads (World.Matches (H := H) id pre) fun w =>
    w.governance.breakerConfig.getD CircuitBreakerConfig.default :=
  .of_governance (fun g => g.breakerConfig.getD CircuitBreakerConfig.default) fun _ => rfl

instance (domain : ℕ) (topic : String) (j : ℕ) (event event' : EventKey → Event) :
    Alike (World.Matches id pre) (emitKeyed domain topic j event : Contract H Unit)
      (emitKeyed domain topic j event') := by
  unfold emitKeyed incrementEventCount
  infer_instance

instance (domain : ℕ) (topic : String) (j : ℕ) (event : Address → EventKey → Event) :
    Alike (World.Matches id pre) (emitKeyedWithToken domain topic j event : Contract H Unit)
      (emitKeyedWithToken domain topic j event) := by
  unfold emitKeyedWithToken
  infer_instance

instance (t a b : Address) (x : ℤ) : Alike (World.Matches id pre)
    (invokeTokenTransfer t a b x : Contract H Unit) (invokeTokenTransfer t a b x) := by
  unfold invokeTokenTransfer checkTransferAllowed invokeTokenOperation recordTransferFailure
    recordTransferSuccess timestamp
  infer_instance

instance (s : Shipment) (x : ℤ) : Alike (World.Matches id pre)
    (internalReleaseEscrow s x : Contract H Shipment) (internalReleaseEscrow s x) := by
  unfold internalReleaseEscrow createSettlement incrementSettlementCounter completeSettlement
    failSettlement checkedSubEscrow persistShipment emitEscrowReleased timestamp
  infer_instance

instance (c : Symbol) (h : BytesN32) (a : Address) : Alike (World.Matches id pre)
    (emitMilestoneRecorded id c h a : Contract H Unit) (emitMilestoneRecorded id c h a) := by
  unfold emitMilestoneRecorded incrementMilestoneEventCount
  infer_instance

end

/-! ### One item -/

/-- Asked for more than there is, the payment is all there is. -/
theorem internalReleaseEscrow_of_le {x : ℤ} (hx : s.escrowAmount ≤ x) :
    (internalReleaseEscrow s x : Contract H Shipment) = internalReleaseEscrow s s.escrowAmount := by
  have hall : ∀ y, s.escrowAmount ≤ y → (if s.escrowAmount < y then s.escrowAmount else y) =
      s.escrowAmount := by
    intro y hy
    split <;> omega
  unfold internalReleaseEscrow
  dsimp only
  rw [hall x hx, hall _ le_rfl]
  by_cases hpos : 0 < s.escrowAmount
  · have hn : ¬x ≤ 0 := by omega
    rw [if_neg hn, if_neg (not_le.mpr hpos)]
  · rw [if_neg hpos, ite_self, ite_self]

theorem checkedMulDiv_of_le {a : ℤ} {n : ℕ} (h0 : 0 ≤ a) (hn : a * n ≤ i128Max) :
    (checkedMulDiv a n 100 : Contract H ℤ) = pure ((a * n).tdiv 100) := by
  have hmin : i128Min ≤ a * n := by
    have hpos : 0 ≤ a * n := Int.mul_nonneg h0 (Int.natCast_nonneg n)
    have hneg : i128Min ≤ 0 := by decide
    omega
  have hok : checkedI128 (a * n) = some (a * n) := if_pos ⟨hmin, hn⟩
  unfold checkedMulDiv
  rw [hok]
  rfl

theorem milestoneRelease_all {names : List Symbol} {n : ℕ}
    (h : scheduledShare s.paymentMilestones names = 100) :
    (milestoneRelease s names n : Contract H ℤ) = pure s.escrowAmount := by
  unfold milestoneRelease
  rw [h]
  rfl

theorem milestoneRelease_share {names : List Symbol} {n : ℕ}
    (h : scheduledShare s.paymentMilestones names < 100) :
    (milestoneRelease s names n : Contract H ℤ) = checkedMulDiv s.totalEscrow n 100 := by
  have hle : ¬u32Max < scheduledShare s.paymentMilestones names := by
    have h100 : 100 ≤ u32Max := by decide
    omega
  unfold milestoneRelease
  dsimp only
  rw [trapIf_of_not hle, Tx.pure_bind, if_neg h.ne]

/-- The two recordings ask for the same payment: a scheduled name is unpaid, and where it
completes the schedule its share covers what is left. -/
structure Shipment.PaysAlike (s : Shipment) (name : Symbol) (m : Symbol × ℕ) : Prop where
  unpaid : name ∉ s.paidMilestones
  share_le : scheduledShare s.paymentMilestones (s.paidMilestones ++ [name]) ≤ 100
  last : scheduledShare s.paymentMilestones (s.paidMilestones ++ [name]) = 100 →
    s.totalEscrow * m.2 ≤ i128Max ∧ s.escrowAmount ≤ s.share m.2

variable {pre : List Effect} {item : Symbol × BytesN32} {m : Symbol × ℕ}

/-- An item ends alike in worlds that match. -/
theorem alike_recordItem (h0 : 0 ≤ s.escrowAmount) (ht : s.escrowAmount ≤ s.totalEscrow)
    (h : ∀ m, s.findMilestone item.1 = some m → s.PaysAlike item.1 m) :
    Alike (World.Matches id pre) (recordBatchItem carrier id s item : Contract H Shipment)
      (recordItem carrier id s item) := by
  unfold recordBatchItem recordItem payRecordedMilestone emitMilestonePaymentReleased
  cases hm : s.findMilestone item.1 with
  | none => exact inferInstance
  | some m =>
    have hp := h m hm
    have hpaid : (s.markPaid item.1).paidMilestones = s.paidMilestones ++ [item.1] := if_neg hp.unpaid
    dsimp only
    rw [if_neg hp.unpaid, rejectIf_of_not hp.unpaid, Tx.pure_bind, hpaid]
    rcases hp.share_le.lt_or_eq with hlt | hall
    · have hr : (milestoneRelease (s.markPaid item.1) (s.paidMilestones ++ [item.1]) m.2 :
          Contract H ℤ) = checkedMulDiv s.totalEscrow m.2 100 := milestoneRelease_share hlt
      rw [hr]
      unfold checkedMulDiv
      exact inferInstance
    · obtain ⟨hfits, hcovers⟩ := hp.last hall
      have hr : (milestoneRelease (s.markPaid item.1) (s.paidMilestones ++ [item.1]) m.2 :
          Contract H ℤ) = pure s.escrowAmount := milestoneRelease_all hall
      have hpay : (internalReleaseEscrow (s.markPaid item.1) (s.share m.2) : Contract H Shipment) =
          internalReleaseEscrow (s.markPaid item.1) s.escrowAmount :=
        internalReleaseEscrow_of_le hcovers
      rw [hr, checkedMulDiv_of_le (h0.trans ht) hfits, Tx.pure_bind, Tx.pure_bind]
      change Alike _ (_ >>= fun _ => _ >>= fun _ => internalReleaseEscrow (s.markPaid item.1)
        (s.share m.2)) _
      rw [hpay]
      exact inferInstance

namespace Shipment

/-- The record after `record_milestone` worked on a name. -/
def recorded (s : Shipment) (name : Symbol) (now : ℕ) : Shipment :=
  match s.findMilestone name with
  | none => s
  | some m => s.payMilestone name (s.milestoneDue (s.paidMilestones ++ [name]) m.2) now

theorem recorded_none {name : Symbol} (hm : s.findMilestone name = none) (now : ℕ) :
    s.recorded name now = s := by
  unfold recorded
  rw [hm]

theorem recorded_some {name : Symbol} (hm : s.findMilestone name = some m) (now : ℕ) :
    s.recorded name now =
      s.payMilestone name (s.milestoneDue (s.paidMilestones ++ [name]) m.2) now := by
  unfold recorded
  rw [hm]

end Shipment

theorem wp_internalReleaseEscrow_record {x : ℤ} : wp (internalReleaseEscrow s x) env w fun s' _ =>
    s' = s.payOff x env.timestamp :=
  wp_internalReleaseEscrow (fun _ => rfl) fun _ _ _ _ _ _ _ _ => rfl

/-- What `record_milestone` makes of the record; a scheduled name was unpaid. -/
theorem wp_recordItem : wp (recordItem carrier id s item) env w fun s' _ =>
    s' = s.recorded item.1 env.timestamp ∧
      ∀ m, s.findMilestone item.1 = some m → item.1 ∉ s.paidMilestones := by
  unfold recordItem payRecordedMilestone
  simp only [wp_bind]
  refine wp_quiet fun _ _ _ => ?_
  cases hm : s.findMilestone item.1 with
  | none =>
    rw [wp_pure, Shipment.recorded_none hm]
    exact ⟨rfl, fun _ h => by cases h⟩
  | some m =>
    simp only [wp_bind, wp_rejectIf]
    intro hunpaid
    have hpaid : (s.markPaid item.1).paidMilestones = s.paidMilestones ++ [item.1] := if_neg hunpaid
    rw [hpaid]
    refine wp_milestoneRelease (wp_emitMilestonePaymentReleased fun w₁ _ => ?_)
    refine wp_internalReleaseEscrow_record.mono fun s' _ hs' => ⟨?_, fun _ _ => hunpaid⟩
    rw [hs', Shipment.recorded_some hm]
    rfl

/-- What a batch makes of the record at an unpaid scheduled name; the product fitted. -/
theorem wp_recordBatchItem_unpaid (hm : s.findMilestone item.1 = some m)
    (hunpaid : item.1 ∉ s.paidMilestones) :
    wp (recordBatchItem carrier id s item) env w fun s' _ =>
      s' = s.payMilestone item.1 (s.share m.2) env.timestamp ∧ s.totalEscrow * m.2 ≤ i128Max := by
  unfold recordBatchItem checkedMulDiv
  simp only [wp_bind, hm]
  refine wp_quiet fun _ _ _ => ?_
  rw [if_neg hunpaid]
  simp only [wp_bind, wp_rejectIf, wp_okOr, wp_pure]
  intro _ product hproduct
  have hfits : s.totalEscrow * m.2 ≤ i128Max := by
    unfold checkedI128 at hproduct
    split at hproduct
    · rename_i hrange
      exact hrange.2
    · cases hproduct
  refine wp_emitMilestonePaymentReleased fun w₁ _ => ?_
  refine wp_internalReleaseEscrow_record.mono fun s' _ hs' => ⟨?_, hfits⟩
  rw [hs', checkedI128_eq_some hproduct]
  rfl

/-- A batch passes over the names that are not scheduled or paid. -/
theorem wp_recordBatchItem_idle
    (h : ∀ m, s.findMilestone item.1 = some m → item.1 ∈ s.paidMilestones) :
    wp (recordBatchItem carrier id s item) env w fun s' _ => s' = s := by
  unfold recordBatchItem
  simp only [wp_bind]
  refine wp_quiet fun _ _ _ => ?_
  cases hm : s.findMilestone item.1 with
  | none => rw [wp_pure]
  | some m =>
    dsimp only
    rw [if_pos (h m hm), wp_pure]

/-! ### What an item leaves alone -/

/-- What the recordings check besides the record and the number of milestones. -/
def World.standing (w : World H) : Option Address × Registry × Settings :=
  (w.ledger.admin, w.registry, w.governance.settings)

instance : RecordsFree (World.standing (H := H)) := ⟨fun w l h => by simp [World.standing, h]⟩

instance : DossierFree (World.standing (H := H)) := ⟨fun _ _ => rfl⟩

instance : ConductFree (World.standing (H := H)) := ⟨fun w g h => by simp [World.standing, h]⟩

instance : PlainFree (World.standing (H := H)) := ⟨fun _ _ _ => rfl⟩

instance : PaymentFree (World.standing (H := H)) := ⟨fun _ _ _ => rfl⟩

instance : Preserves World.standing (recordItem carrier id s item : Contract H Shipment) := by
  unfold recordItem
  infer_instance

theorem World.Carries.congr (hw : w'.standing = w.standing) (h : w.Carries env carrier) :
    w'.Carries env carrier where
  initialized := by
    have hadmin : w'.ledger.admin = w.ledger.admin := congrArg (·.1) hw
    have hi := h.initialized
    unfold World.isInitialized at hi ⊢
    rwa [hadmin]
  running := by
    have hpaused : w'.governance.isPaused = w.governance.isPaused := congrArg (·.2.2.isPaused) hw
    rw [hpaused]
    exact h.running
  signed := h.signed
  carrier := by
    have hregistry : w'.registry = w.registry := congrArg (·.2.1) hw
    unfold World.permits
    rw [hregistry]
    exact h.carrier

theorem World.getConfig_congr (hw : w'.standing = w.standing) : w'.getConfig = w.getConfig := by
  have hconfig : w'.governance.config = w.governance.config := congrArg (·.2.2.config) hw
  unfold World.getConfig
  rw [hconfig]

/-- The number of milestones recorded for a shipment. -/
def World.milestoneTally (id : ℕ) (w : World H) : ℕ := w.getMilestoneEventCount id

instance : LedgerFree (World.milestoneTally (H := H) id) := ⟨fun _ _ => rfl⟩

instance : GovernanceFree (World.milestoneTally (H := H) id) := ⟨fun _ _ => rfl⟩

instance : PlainFree (World.milestoneTally (H := H) id) := ⟨fun _ _ _ => rfl⟩

instance : PaymentFree (World.milestoneTally (H := H) id) := ⟨fun _ _ _ => rfl⟩

instance (j n : ℕ) : Preserves (World.milestoneTally id) (modifyDossier fun d => { d with
    eventCount := Function.update d.eventCount j (some n) } : Contract H Unit) :=
  Preserves.modify fun _ => rfl

instance (n : ℕ) : Writes (World.milestoneTally id) (fun _ => n) (modifyDossier fun d => { d with
    milestoneEventCount := Function.update d.milestoneEventCount id (some n) } : Contract H Unit) :=
  Writes.modify fun w => by simp [World.milestoneTally, World.getMilestoneEventCount]

instance (domain : ℕ) (topic : String) (j : ℕ) (event : EventKey → Event) :
    Preserves (World.milestoneTally id) (emitKeyed domain topic j event : Contract H Unit) := by
  unfold emitKeyed incrementEventCount
  infer_instance

instance (domain : ℕ) (topic : String) (j : ℕ) (event : Address → EventKey → Event) :
    Preserves (World.milestoneTally id) (emitKeyedWithToken domain topic j event : Contract H Unit) := by
  unfold emitKeyedWithToken
  infer_instance

instance (x : ℤ) :
    Preserves (World.milestoneTally id) (internalReleaseEscrow s x : Contract H Shipment) := by
  unfold internalReleaseEscrow emitEscrowReleased
  infer_instance

instance (name : Symbol) :
    Preserves (World.milestoneTally id) (payRecordedMilestone id s name : Contract H Shipment) := by
  unfold payRecordedMilestone emitMilestonePaymentReleased
  split <;> infer_instance

/-- An item counts as one. -/
theorem wp_recordItem_tally : wp (recordItem carrier id s item) env w fun _ w' =>
    w'.getMilestoneEventCount id = saturatingAddU32 (w.getMilestoneEventCount id) 1 := by
  unfold recordItem emitMilestoneRecorded incrementMilestoneEventCount
  simp only [wp_bind, wp_gets]
  refine Preserves.wp (World.milestoneTally id) fun _ w₁ h₁ => ?_
  refine Writes.wp (World.milestoneTally id) (g := fun _ => _) fun _ w₂ h₂ => ?_
  refine Preserves.wp (World.milestoneTally id) fun _ w₃ h₃ => ?_
  have h₁ : w₁.getMilestoneEventCount id = w.getMilestoneEventCount id := h₁
  rw [h₁] at h₂
  exact h₃.trans h₂

end Navin
