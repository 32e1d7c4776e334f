/-
# Whom the checks let through

Each entry point decides by hand who may call it on a shipment: a party, the admin,
a guardian, and whether a suspended party is turned away. The table says for every
call what is known of its caller once the call has committed.

Key definitions:
- `World.CompanyActive`, `World.CarrierActive`: not suspended, in either way;
- `World.Admits`: whom a call lets through.

Key theorems:
- `admits_exec`: a call that goes through was made by one of them.
-/
import Navin.Isolation
import Navin.Lib.Returns
import Navin.Signatures

namespace Navin

open Tx

variable {H : Host} {env : Env} {w : World H} {s : Shipment} {id : ℕ} {a : Address}

/-! ### The table -/

/-- Suspended neither by `suspend_company` nor in the role of a company. -/
def World.CompanyActive (w : World H) (a : Address) : Prop :=
  w.isCompanySuspended a = false ∧ w.isRoleSuspended a .company = false

/-- Suspended neither by `suspend_carrier` nor in the role of a carrier. -/
def World.CarrierActive (w : World H) (a : Address) : Prop :=
  w.isCarrierSuspended a = false ∧ w.isRoleSuspended a .carrier = false

/-- What is known of the caller of a committed call on the shipment `s`. The carrier
is not asked whether it is suspended when it notes, files evidence or disputes. -/
def World.Admits (w : World H) (s : Shipment) : Call → Prop
  | .setShipmentMetadata a .. | .cancelShipment a .. | .refundEscrow a .. =>
      (a = s.sender ∨ w.ledger.admin = some a) ∧ (a = s.sender → w.CompanyActive a)
  | .appendNoteHash a .. | .addDisputeEvidenceHash a .. =>
      (a = s.sender ∨ a = s.receiver ∨ a = s.carrier ∨ w.ledger.admin = some a) ∧
        (a = s.sender → w.CompanyActive a)
  | .raiseDispute a .. =>
      (a = s.sender ∨ a = s.receiver ∨ a = s.carrier) ∧ (a = s.sender → w.CompanyActive a)
  | .updateStatus a .. | .releaseMilestonePayment a .. =>
      (a = s.carrier ∨ w.ledger.admin = some a) ∧ (a = s.carrier → w.CarrierActive a)
  | .reportGeofenceEvent a .. | .updateEta a .. | .handoffShipment a .. | .reportConditionBreach a ..
  | .recordMilestone a .. | .recordMilestonesBatch a .. => a = s.carrier ∧ w.CarrierActive a
  | .confirmDelivery a .. | .confirmPartialDelivery a .. => a = s.receiver
  | .releaseEscrow a .. => a = s.receiver ∨ w.ledger.admin = some a
  | .resolveDispute a .. => w.ledger.admin = some a ∨ w.hasActiveRole a .guardian = true
  | .archiveShipment a .. | .forceCancelShipment a .. | .recoverShipment a .. | .unlockEscrow a ..
  | .clearFinalization a .. | .rollbackOnExternalFailure a .. => w.ledger.admin = some a
  | .depositEscrow a .. => w.CompanyActive a
  | _ => True

/-! ### The checks -/

variable {Q : Unit → World H → Prop}

theorem wp_requireActiveCompany (h : w.CompanyActive a → Q () w) :
    wp (requireActiveCompany a) env w Q := by
  unfold requireActiveCompany
  simp only [wp_bind, wp_gets, wp_rejectIf, Bool.not_eq_true]
  exact fun h₁ h₂ => h ⟨h₁, h₂⟩

theorem wp_requireActiveCarrier (h : w.CarrierActive a → Q () w) :
    wp (requireActiveCarrier a) env w Q := by
  unfold requireActiveCarrier
  simp only [wp_bind, wp_gets, wp_rejectIf, Bool.not_eq_true]
  exact fun h₁ h₂ => h ⟨h₁, h₂⟩

theorem wp_requireCompanyRole (h : w.CompanyActive a → Q () w) :
    wp (requireRole a .company) env w Q := by
  unfold requireRole
  simp only [wp_bind, wp_gets, wp_rejectIf, Bool.not_eq_true]
  refine wp_guard fun _ _ _ h₁ h₂ _ => h ⟨?_, h₁⟩
  simpa using h₂

theorem wp_requireCarrierRole (h : w.CarrierActive a → Q () w) :
    wp (requireRole a .carrier) env w Q := by
  unfold requireRole
  simp only [wp_bind, wp_gets, wp_rejectIf, Bool.not_eq_true]
  refine wp_guard fun _ _ _ h₁ _ h₂ => h ⟨?_, h₁⟩
  simpa using h₂

/-- A check that is made of one party alone. -/
theorem wp_whenParty {P : Prop} {party : Address} {m : Contract H Unit}
    (hm : a = party → wp m env w fun _ _ => P) (h : (a = party → P) → Q () w)
    [hg : Preserves (fun w : World H => w) m] : wp (when (a = party) m) env w Q := by
  rw [wp_when]
  constructor
  · intro hp
    refine ((hm hp).and (hg.out env w)).mono ?_
    rintro _ w' ⟨hP, rfl : w' = w⟩
    exact h fun _ => hP
  · exact fun hp => h fun hp' => absurd hp' hp

/-- The record a call loads, when it is known. -/
theorem wp_loaded {Q : Shipment → World H → Prop} (hs : w.getShipment id = some s) (h : Q s w) :
    wp (loadShipment id) env w Q := by
  refine wp_loadShipment fun t ht => ?_
  have : some t = some s := ht.symm.trans hs
  rw [Option.some.inj this]
  exact h

/-- When a call opens. -/
theorem returns_openCall {u : Unit} {w' : World H} : (openCall a).Returns env w u w' ↔
    (w.isInitialized = true ∧ w.governance.isPaused = false ∧ env.auth a = true) ∧ w' = w.signed a := by
  unfold openCall requireInitialized requireNotPaused requireAuth log World.signed
  simp only [bind_assoc, returns_gets_bind, returns_ask_bind, returns_rejectIf_bind,
    returns_trapIf_bind, returns_modify, Bool.not_eq_false, Bool.not_eq_true, and_assoc]

/-- What the checks have shown stays true. -/
theorem wp_known {α : Type} {m : Contract H α} {P : Prop} (h : P) : wp m env w fun _ _ => P :=
  .of_forall fun _ _ => h

/-- The check of `append_note_hash` and `add_dispute_evidence_hash`. -/
theorem wp_requireParty {admin : Address} (hadm : w.ledger.admin = some admin)
    (h : (a = s.sender ∨ a = s.receiver ∨ a = s.carrier ∨ w.ledger.admin = some a) ∧
      (a = s.sender → w.CompanyActive a) → Q () w) : wp (requireParty a s admin) env w Q := by
  unfold requireParty
  rw [wp_bind, wp_rejectIf]
  intro hn
  refine wp_whenParty (fun _ => wp_requireActiveCompany fun h => h) fun hact => h ⟨?_, hact⟩
  by_contra hp
  push Not at hp
  refine hn ⟨hp.1, hp.2.1, hp.2.2.1, fun he => hp.2.2.2 ?_⟩
  rw [hadm, he]

/-- The carrier's own calls compare the caller with the record. -/
theorem wp_requireCarrier {e : NavinError} (h : a = s.carrier → Q () w) :
    wp (rejectIf (s.carrier ≠ a) e) env w Q := by
  rw [wp_rejectIf]
  exact fun hn => h (not_not.mp hn).symm

/-! ### The entry points -/

section

variable (hs : w.getShipment id = some s)

include hs

theorem admits_setShipmentMetadata {key value : Symbol} :
    wp (setShipmentMetadata a id key value) env w fun _ _ =>
      w.Admits s (.setShipmentMetadata a id key value) := by
  unfold setShipmentMetadata
  simp only [wp_bind]
  refine wp_openCall fun _ _ => ?_
  refine wp_guard fun _ => ?_
  refine wp_guard fun _ => ?_
  refine wp_guard fun _ => ?_
  refine wp_getAdmin fun admin hadm => ?_
  refine wp_loaded hs ?_
  refine wp_guard fun _ => ?_
  refine wp_requireEither hadm fun hp => ?_
  refine wp_whenParty (fun _ => wp_requireActiveCompany fun h => h) fun hact => ?_
  simp only [← wp_bind]
  exact wp_known ⟨hp, hact⟩

theorem admits_cancelShipment {hash : BytesN32} :
    wp (cancelShipment a id hash) env w fun _ _ => w.Admits s (.cancelShipment a id hash) := by
  unfold cancelShipment
  simp only [wp_bind]
  refine wp_openCall fun _ _ => ?_
  refine wp_guard fun _ => ?_
  refine wp_getAdmin fun admin hadm => ?_
  refine wp_loaded hs ?_
  refine wp_guard fun _ => ?_
  refine wp_requireEither hadm fun hp => ?_
  refine wp_whenParty (fun _ => wp_requireActiveCompany fun h => h) fun hact => ?_
  simp only [← wp_bind]
  exact wp_known ⟨hp, hact⟩

theorem admits_refundEscrow :
    wp (refundEscrow a id) env w fun _ _ => w.Admits s (.refundEscrow a id) := by
  unfold refundEscrow withReentrancyLock
  rw [wp_bind]
  refine wp_openCall fun _ _ => ?_
  rw [wp_bind, wp_gets, wp_bind, wp_rejectIf]
  intro _
  rw [wp_bind, wp_modifyGovernance, wp_ensure]
  simp only [wp_bind]
  refine wp_getAdmin fun admin hadm => ?_
  refine wp_loaded hs ?_
  refine wp_requireEither hadm fun hp => ?_
  refine wp_guard fun _ => ?_
  refine wp_whenParty (fun _ => wp_requireActiveCompany fun h => h) fun hact => ?_
  simp only [← wp_bind]
  exact wp_known ⟨hp, hact⟩

theorem admits_appendNoteHash {hash : BytesN32} :
    wp (appendNoteHash a id hash) env w fun _ _ => w.Admits s (.appendNoteHash a id hash) := by
  unfold appendNoteHash
  simp only [wp_bind]
  refine wp_openCall fun _ _ => ?_
  refine wp_guard fun _ => ?_
  refine wp_loaded hs ?_
  refine wp_getAdmin fun admin hadm => ?_
  refine wp_requireParty hadm fun hp => ?_
  simp only [← wp_bind]
  exact wp_known hp

theorem admits_addDisputeEvidenceHash {hash : BytesN32} :
    wp (addDisputeEvidenceHash a id hash) env w fun _ _ =>
      w.Admits s (.addDisputeEvidenceHash a id hash) := by
  unfold addDisputeEvidenceHash
  simp only [wp_bind]
  refine wp_openCall fun _ _ => ?_
  refine wp_guard fun _ => ?_
  refine wp_loaded hs ?_
  refine wp_guard fun _ => ?_
  refine wp_getAdmin fun admin hadm => ?_
  refine wp_guard fun _ => ?_
  refine wp_requireParty hadm fun hp => ?_
  simp only [← wp_bind]
  exact wp_known hp

theorem admits_raiseDispute {hash : BytesN32} :
    wp (raiseDispute a id hash) env w fun _ _ => w.Admits s (.raiseDispute a id hash) := by
  unfold raiseDispute
  simp only [wp_bind]
  refine wp_openCall fun _ _ => ?_
  refine wp_guard fun _ => ?_
  refine wp_loaded hs ?_
  refine wp_guard fun _ => ?_
  rw [wp_rejectIf]
  intro hn
  refine wp_whenParty (fun _ => wp_requireActiveCompany fun h => h) fun hact => ?_
  simp only [← wp_bind]
  refine wp_known ⟨?_, hact⟩
  by_contra hp
  push Not at hp
  exact hn hp

theorem admits_updateStatus {status : ShipmentStatus} {hash : BytesN32} :
    wp (updateStatus a id status hash) env w fun _ _ =>
      w.Admits s (.updateStatus a id status hash) := by
  unfold updateStatus
  simp only [wp_bind]
  refine wp_openCall fun _ _ => ?_
  refine wp_guard fun _ => ?_
  refine wp_getAdmin fun admin hadm => ?_
  refine wp_loaded hs ?_
  refine wp_requireEither hadm fun hp => ?_
  refine wp_guard fun _ => ?_
  refine wp_whenParty (fun _ => wp_requireActiveCarrier fun h => h) fun hact => ?_
  simp only [← wp_bind]
  exact wp_known ⟨hp, hact⟩

theorem admits_releaseMilestonePayment {name : Symbol} :
    wp (releaseMilestonePayment a id name) env w fun _ _ =>
      w.Admits s (.releaseMilestonePayment a id name) := by
  unfold releaseMilestonePayment
  simp only [wp_bind]
  refine wp_openCall fun _ _ => ?_
  refine wp_loaded hs ?_
  refine wp_guard fun _ => ?_
  refine wp_getAdmin fun admin hadm => ?_
  refine wp_requireEither hadm fun hp => ?_
  refine wp_whenParty (fun _ => wp_requireActiveCarrier fun h => h) fun hact => ?_
  simp only [← wp_bind]
  exact wp_known ⟨hp, hact⟩

theorem admits_reportGeofenceEvent {zone : GeofenceEvent} {hash : BytesN32} :
    wp (reportGeofenceEvent a id zone hash) env w fun _ _ => a = s.carrier ∧ w.CarrierActive a := by
  unfold reportGeofenceEvent
  simp only [wp_bind]
  refine wp_openCall fun _ _ => ?_
  refine wp_guard fun _ => ?_
  refine wp_requireActiveCarrier fun hact => ?_
  refine wp_loaded hs ?_
  refine wp_guard fun _ => ?_
  refine wp_guard fun _ => ?_
  exact wp_requireCarrier fun hp => wp_known ⟨hp, hact⟩

theorem admits_updateEta {eta : ℕ} {hash : BytesN32} :
    wp (updateEta a id eta hash) env w fun _ _ => a = s.carrier ∧ w.CarrierActive a := by
  unfold updateEta
  simp only [wp_bind]
  refine wp_guard fun _ => ?_
  refine wp_requireAuth fun _ => ?_
  refine wp_requireCarrierRole fun hact => ?_
  refine wp_loaded hs ?_
  refine wp_guard fun _ => ?_
  refine wp_guard fun _ => ?_
  refine wp_requireCarrier fun hp => ?_
  simp only [← wp_bind]
  exact wp_known ⟨hp, hact⟩

theorem admits_handoffShipment {newCarrier : Address} {hash : BytesN32} :
    wp (handoffShipment a newCarrier id hash) env w fun _ _ => a = s.carrier ∧ w.CarrierActive a := by
  unfold handoffShipment
  simp only [wp_bind]
  refine wp_guard fun _ => ?_
  refine wp_requireAuth fun _ => ?_
  refine wp_requireCarrierRole fun hact => ?_
  refine wp_guard fun _ => ?_
  refine wp_loaded hs ?_
  refine wp_guard fun _ => ?_
  refine wp_guard fun _ => ?_
  refine wp_requireCarrier fun hp => ?_
  simp only [← wp_bind]
  exact wp_known ⟨hp, hact⟩

theorem admits_reportConditionBreach {breach : BreachType} {severity : Severity} {hash : BytesN32} :
    wp (reportConditionBreach a id breach severity hash) env w fun _ _ =>
      a = s.carrier ∧ w.CarrierActive a := by
  unfold reportConditionBreach
  simp only [wp_bind]
  refine wp_guard fun _ => ?_
  refine wp_requireAuth fun _ => ?_
  refine wp_guard fun _ => ?_
  refine wp_requireActiveCarrier fun hact => ?_
  refine wp_loaded hs ?_
  refine wp_guard fun _ => ?_
  refine wp_guard fun _ => ?_
  refine wp_requireCarrier fun hp => ?_
  simp only [← wp_bind]
  exact wp_known ⟨hp, hact⟩

theorem admits_recordMilestone {checkpoint : Symbol} {hash : BytesN32} :
    wp (recordMilestone a id checkpoint hash) env w fun _ _ => a = s.carrier ∧ w.CarrierActive a := by
  unfold recordMilestone openCarrierCall
  simp only [wp_bind]
  refine wp_openCall fun _ _ => ?_
  refine wp_guard fun _ => ?_
  refine wp_requireActiveCarrier fun hact => ?_
  refine wp_loaded hs ?_
  refine wp_guard fun _ => ?_
  refine wp_guard fun _ => ?_
  refine wp_guard fun _ => ?_
  refine wp_requireCarrier fun hp => ?_
  simp only [← wp_bind]
  exact wp_known ⟨hp, hact⟩

theorem admits_recordMilestonesBatch {items : List (Symbol × BytesN32)} :
    wp (recordMilestonesBatch a id items) env w fun _ _ => a = s.carrier ∧ w.CarrierActive a := by
  unfold recordMilestonesBatch openCarrierCall
  simp only [wp_bind]
  refine wp_openCall fun _ _ => ?_
  refine wp_guard fun _ => ?_
  refine wp_requireActiveCarrier fun hact => ?_
  refine wp_guard fun _ => ?_
  refine wp_guard fun _ => ?_
  refine wp_guard fun _ => ?_
  refine wp_loaded hs ?_
  refine wp_guard fun _ => ?_
  refine wp_requireCarrier fun hp => ?_
  simp only [← wp_bind]
  exact wp_known ⟨hp, hact⟩

end

/-- A company pays in for whichever shipment. -/
theorem admits_depositEscrow {amount : ℤ} :
    wp (depositEscrow a id amount) env w fun _ _ => w.CompanyActive a := by
  unfold depositEscrow
  simp only [wp_bind]
  refine wp_openCall fun _ _ => ?_
  exact wp_requireCompanyRole fun hact => wp_known hact

theorem admits_archiveShipment :
    wp (archiveShipment a id) env w fun _ _ => w.ledger.admin = some a := by
  unfold archiveShipment
  simp only [wp_bind]
  refine wp_guard fun _ => ?_
  refine wp_requireAuth fun _ => ?_
  refine wp_requireAdmin fun hadm => ?_
  simp only [← wp_bind]
  exact wp_known hadm

/-- The posting of a committed call is made on the record of its subject. -/
theorem exists_rule {call : Call} {w' : World H} (hk : w.ledger.Keyed)
    (hx : call.exec env w = .ok () w') (hp : call.posts = true) (ht : call.target? = some id)
    (hs : w.getShipment id = some s) : ∃ p : Posting, p.old = s ∧ Rule env w call p := by
  obtain ⟨p, hp⟩ := (exec_effects hk hx).exists_posting hp
  have hid : p.old.id = id := hp.rule.concerns.eq_of_target ht
  have hold := hp.stored
  rw [hid] at hold
  exact ⟨p, Option.some.inj (hold.symm.trans hs), hp.rule⟩

/-- Whom a committed call let through. For the receiver's and the admin's calls the
rule of the posting says it already. -/
theorem admits_exec {call : Call} {w' : World H} (hk : w.ledger.Keyed)
    (hx : call.exec env w = .ok () w') (hsub : call.subject? = some id)
    (hs : w.getShipment id = some s) : w.Admits s call := by
  have rule := fun hp ht => exists_rule hk hx hp ht hs
  cases call with
  | setShipmentMetadata => cases hsub; exact admits_setShipmentMetadata hs () w' hx
  | cancelShipment => cases hsub; exact admits_cancelShipment hs () w' hx
  | refundEscrow => cases hsub; exact admits_refundEscrow hs () w' hx
  | appendNoteHash => cases hsub; exact admits_appendNoteHash hs () w' hx
  | addDisputeEvidenceHash => cases hsub; exact admits_addDisputeEvidenceHash hs () w' hx
  | raiseDispute => cases hsub; exact admits_raiseDispute hs () w' hx
  | updateStatus => cases hsub; exact admits_updateStatus hs () w' hx
  | releaseMilestonePayment => cases hsub; exact admits_releaseMilestonePayment hs () w' hx
  | reportGeofenceEvent => cases hsub; exact admits_reportGeofenceEvent hs () w' hx
  | updateEta => cases hsub; exact admits_updateEta hs () w' hx
  | handoffShipment => cases hsub; exact admits_handoffShipment hs () w' hx
  | reportConditionBreach => cases hsub; exact admits_reportConditionBreach hs () w' hx
  | recordMilestone => cases hsub; exact admits_recordMilestone hs () w' hx
  | recordMilestonesBatch => cases hsub; exact admits_recordMilestonesBatch hs () w' hx
  | depositEscrow => exact admits_depositEscrow () w' hx
  | archiveShipment => exact admits_archiveShipment () w' hx
  | confirmDelivery | confirmPartialDelivery | releaseEscrow | resolveDispute | forceCancelShipment
  | recoverShipment | unlockEscrow | clearFinalization | rollbackOnExternalFailure =>
    obtain ⟨p, rfl, hr⟩ := rule rfl hsub
    -- A call that names a shipment executes no proposal.
    cases hr <;> first | exact rfl | exact ‹_ ∨ _› | exact ‹w.ledger.admin = _› | cases ‹none = _›
  | _ => trivial

end Navin
