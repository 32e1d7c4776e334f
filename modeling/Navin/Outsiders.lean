/-
# Outsiders

An address that is neither a party of a shipment nor in an office should have no
hold on it. Every entry point compares its caller with the record, with one
exception: `add_shipment_dependency` takes the signature of any address, and puts
the shipment of another company behind a prerequisite of the stranger's choice.

A status update also reads what is not the shipment's own: the status of the prerequisites,
which are for their own parties to change, and who is the admin, which is for the nominee to
accept. What an outsider changes there decides over the updates of a shipment that is open
to them.

Key definitions:
- `World.Outsider`: neither a party nor in an office;
- `Unaffected`: the shipment is as it was, and the same status updates go through;
- `World.Turns`: the call takes a shipment into `Delivered` or out of it;
- `World.Spares`: the call is not one of the three by which an outsider has a hold.

Key theorems:
- `Rule.turns`, `Meddles.delivered_iff`: which calls turn a prerequisite;
- `outsider_unaffected_iff`.
-/
import Navin.Admission
import Navin.Orphans
import Navin.Powers
import Navin.Registers
import Navin.Updates

namespace Navin

open Tx

variable {H : Host}

/-! ### What an outsider should not reach -/

/-- Neither a party of the shipment nor the admin, a guardian or an operator. -/
structure World.Outsider (w : World H) (s : Shipment) (a : Address) : Prop where
  sender : a ≠ s.sender
  receiver : a ≠ s.receiver
  carrier : a ≠ s.carrier
  admin : w.ledger.admin ≠ some a
  guardian : w.hasRole a .guardian = false
  operator : w.hasRole a .operator = false

/-- The calls that are open to everyone, or to the listed approvers. -/
def Call.isExempt : Call → Bool
  | .depositEscrow .. | .checkDeadline .. | .executeProposal .. | .approveAction ..
  | .extendTtl .. => true
  | _ => false

instance {w : World H} {env : Env} {caller : Address} {id : ℕ} {status : ShipmentStatus}
    {hash : BytesN32} : Decidable (w.Accepts env caller id status hash) :=
  match h : updateStatus caller id status hash env w with
  | .ok () w' => .isTrue ⟨w', h⟩
  | .err .. => .isFalse fun ⟨_, h'⟩ => by rw [h] at h'; cases h'
  | .trap => .isFalse fun ⟨_, h'⟩ => by rw [h] at h'; cases h'

/-- A call that took `w` to `w'` did not affect the shipment: what is stored of it is
the same, and so are the status updates that go through. -/
structure Unaffected (w w' : World H) (id : ℕ) : Prop where
  shipment_eq : w'.ledger.shipment id = w.ledger.shipment id
  archivedShipment_eq : w'.ledger.archivedShipment id = w.ledger.archivedShipment id
  prerequisites_eq : w'.dossier.shipmentDependents id = w.dossier.shipmentDependents id
  noteCount_eq : w'.dossier.noteCount id = w.dossier.noteCount id
  note_eq : w'.dossier.note id = w.dossier.note id
  evidenceCount_eq : w'.dossier.evidenceCount id = w.dossier.evidenceCount id
  evidence_eq : w'.dossier.evidence id = w.dossier.evidence id
  updates : ∀ env caller status hash, w.Accepts env caller id status hash ↔
    w'.Accepts env caller id status hash

/-- The call takes the shipment `y` into `Delivered`, or out of it. -/
def World.Turns (w : World H) (y : Shipment) : Call → Prop
  | .confirmDelivery _ id _ => id = y.id
  | .confirmPartialDelivery _ id _ percent => id = y.id ∧ y.share percent = y.escrowAmount
  | .updateStatus _ id status _ => id = y.id ∧ status = .delivered
  | .raiseDispute _ id _ => id = y.id ∧ y.status = .delivered
  | .reportConditionBreach _ id _ severity _ => id = y.id ∧ y.status = .delivered ∧ w.Opens severity y
  | _ => False

/-- Nothing but its prerequisites and its window can be in the way of an update of `s` to
`status` by somebody who may make it. -/
structure World.Open (w : World H) (s : Shipment) (status : ShipmentStatus) : Prop where
  unpaused : w.governance.isPaused = false
  token : w.ledger.tokenContract ≠ none
  lifetimes : w.getConfig.shipmentTtlThreshold ≤ w.getConfig.shipmentTtlExtension
  unfinalized : s.finalized = false
  valid : s.status.isValidTransition status = true
  room : w.ledger.statusCount status + 2 ≤ u64Max
  disputes : status = .disputed → w.governance.totalDisputes + 2 ≤ u64Max

/-- The prerequisites other than `y` are delivered. -/
def World.Awaits (w : World H) (id y : ℕ) : Prop :=
  y ∈ w.dossier.shipmentDependents id ∧ ∀ z ∈ w.dossier.shipmentDependents id, z ≠ y → w.Delivered z

/-- The admin can be the caller of an update: it is not the carrier, or not suspended. -/
def World.Attended (w : World H) (s : Shipment) : Prop :=
  w.ledger.admin = some s.carrier → w.CarrierActive s.carrier

/-- The call gives the shipment `s` no prerequisite; while an update is open and its
prerequisites are met, nobody accepts the office of the admin, and the call does not take the
window of the update; and while the shipment can go into transit, the call does not turn a
prerequisite when the others are delivered. -/
structure World.Spares (w : World H) (s : Shipment) (call : Call) : Prop where
  dependency : ∀ b prereq, call ≠ .addShipmentDependency b s.id prereq
  handover : ∀ status, w.Open s status → (status = .inTransit → w.Ready s.id) →
    ∀ b, call ≠ .acceptAdminTransfer b
  window : w.Attended s → ∀ status, w.Open s status → (status = .inTransit → w.Ready s.id) →
    ∀ action hash, call.action? = some action → hash ≠ 0 →
      H.sha256 action.payload ≠ H.sha256 (Action.update s.id status hash).payload
  prerequisites : w.Attended s → w.Open s .inTransit →
    ∀ y t, w.Awaits s.id y → w.getShipment y = some t → ¬w.Turns t call

/-- The counters have room for two more. -/
structure World.Roomy (w : World H) : Prop where
  statuses : ∀ status, w.ledger.statusCount status + 2 ≤ u64Max
  disputes : w.governance.totalDisputes + 2 ≤ u64Max

/-! ### Calls on other shipments -/

variable {env : Env} {w w' : World H} {call : Call} {id : ℕ} {s t : Shipment} {a : Address}
  {p : Posting}

theorem Ledger.shipment_enrolled {Token : Type} {l l' : Ledger Token} {sender : Address} {now : ℕ}
    (he : l.Enrolled sender now l') (hid : id ≤ l.shipmentCount) :
    l'.shipment id = l.shipment id ∧ l'.archivedShipment = l.archivedShipment ∧
      id ≤ l'.shipmentCount := by
  induction he with
  | nil => exact ⟨rfl, rfl, hid⟩
  | @snoc l' input _ _ _ ih =>
    obtain ⟨ihs, iha, hle⟩ := ih
    have hne : id ≠ l'.shipmentCount + 1 := by omega
    refine ⟨?_, iha, hle.trans (Nat.le_succ _)⟩
    rw [Ledger.enrol_shipment]
    exact (Function.update_of_ne hne _ _).trans ihs

/-- A call leaves the stored copies of every shipment it is not about. -/
theorem Effects.stored_eq {b : Book H.Token} (he : Effects env w call b)
    (hid : id ≤ w.ledger.shipmentCount) (h : ¬w.About call id) :
    b.ledger.shipment id = w.ledger.shipment id ∧
      b.ledger.archivedShipment id = w.ledger.archivedShipment id := by
  cases he with
  | quiet => exact ⟨rfl, rfl⟩
  | initialized => exact ⟨rfl, rfl⟩
  | handedOver => exact ⟨rfl, rfl⟩
  | enrolled _ _ _ he =>
    obtain ⟨h₁, h₂, -⟩ := Ledger.shipment_enrolled he hid
    exact ⟨h₁, congrFun h₂ id⟩
  | @archived admin i s hcall =>
    have hne : id ≠ i := by
      rintro rfl
      exact h (.inl (by rw [hcall]; rfl))
    exact ⟨Function.update_of_ne hne _ _, Function.update_of_ne hne _ _⟩
  | @posted p b hg hv hr hp =>
    obtain ⟨t, token, -, -, rfl⟩ := hp
    have hne : id ≠ p.new.id := by
      rintro rfl
      rw [hr.keeps.id_eq] at h
      exact h hr.concerns.about
    exact ⟨Function.update_of_ne hne _ _, rfl⟩

/-- What the checks know of the caller of a call that is not exempt leaves no room for
an outsider, but for a dependency. -/
theorem World.Outsider.not_admitted (ho : w.Outsider s a) (hcall : call.caller? = some a)
    (hsub : call.subject? = some id) (he : call.isExempt = false) (had : w.Admits s call) :
    ∃ prereq, call = .addShipmentDependency a id prereq := by
  have hg : w.hasActiveRole a .guardian = false := by simp [World.hasActiveRole, ho.guardian]
  cases call with
  | addShipmentDependency b i prereq => cases hcall; cases hsub; exact ⟨prereq, rfl⟩
  | setShipmentMetadata | cancelShipment | refundEscrow =>
    cases hcall
    exact (had.1.elim ho.sender ho.admin).elim
  | appendNoteHash | addDisputeEvidenceHash =>
    cases hcall
    rcases had.1 with h | h | h | h
    · exact (ho.sender h).elim
    · exact (ho.receiver h).elim
    · exact (ho.carrier h).elim
    · exact (ho.admin h).elim
  | raiseDispute =>
    cases hcall
    rcases had.1 with h | h | h
    · exact (ho.sender h).elim
    · exact (ho.receiver h).elim
    · exact (ho.carrier h).elim
  | updateStatus | releaseMilestonePayment =>
    cases hcall
    exact (had.1.elim ho.carrier ho.admin).elim
  | reportGeofenceEvent | updateEta | handoffShipment | reportConditionBreach | recordMilestone
  | recordMilestonesBatch =>
    cases hcall
    exact (ho.carrier had.1).elim
  | confirmDelivery | confirmPartialDelivery =>
    cases hcall
    exact (ho.receiver had).elim
  | releaseEscrow =>
    cases hcall
    exact (had.elim ho.receiver ho.admin).elim
  | resolveDispute =>
    cases hcall
    refine (had.elim ho.admin fun h => ?_).elim
    rw [hg] at h
    cases h
  | archiveShipment | forceCancelShipment | recoverShipment | unlockEscrow | clearFinalization
  | rollbackOnExternalFailure =>
    cases hcall
    exact (ho.admin had).elim
  | depositEscrow | checkDeadline | extendTtl => cases he
  | _ => cases hsub

theorem countMove_le (count : ShipmentStatus → ℕ) (st st' status : ShipmentStatus) :
    countMove count st st' status ≤ count status + 1 := by
  have hdrop : ∀ x, Function.update count st (count st - 1) x ≤ count x := fun x => by
    by_cases hx : x = st
    · rw [hx, Function.update_self]
      exact Nat.sub_le _ _
    · rw [Function.update_of_ne hx]
  unfold countMove
  by_cases hs : status = st'
  · rw [hs, Function.update_self]
    exact Nat.add_le_add_right (hdrop st') 1
  · rw [Function.update_of_ne hs]
    exact (hdrop status).trans (Nat.le_succ _)

theorem Ledger.statusCount_enrolled {Token : Type} {l l' : Ledger Token} {sender : Address} {now : ℕ}
    {status : ShipmentStatus} (he : l.Enrolled sender now l') (hst : status ≠ .created) :
    l'.statusCount status = l.statusCount status := by
  induction he with
  | nil => rfl
  | snoc _ _ _ ih =>
    rw [Ledger.enrol_statusCount]
    exact (Function.update_of_ne hst _ _).trans ih

/-- A call takes at most one shipment into a status. -/
theorem Effects.statusCount_le {b : Book H.Token} {status : ShipmentStatus} (he : Effects env w call b)
    (hst : status ≠ .created) : b.ledger.statusCount status ≤ w.ledger.statusCount status + 1 := by
  cases he with
  | enrolled _ _ _ he => exact (Ledger.statusCount_enrolled he hst).le.trans (Nat.le_succ _)
  | @posted p _ _ _ _ hp =>
    obtain ⟨t, token, -, -, rfl⟩ := hp
    show w.ledger.recounted p.counted p.old.status p.new.status status ≤ _
    unfold Ledger.recounted
    split
    · exact countMove_le _ _ _ _
    · exact Nat.le_succ _
  | _ => exact Nat.le_succ _

/-- The token of a contract that is set up stays. -/
theorem Effects.tokenContract_eq {b : Book H.Token} (he : Effects env w call b)
    (hadm : w.ledger.admin ≠ none) : b.ledger.tokenContract = w.ledger.tokenContract := by
  cases he with
  | initialized _ hn => exact absurd hn hadm
  | enrolled _ _ _ he =>
    obtain ⟨-, htoken, -⟩ := Ledger.escrowTotal_enrolled _ he
    exact htoken
  | posted _ _ _ hp =>
    obtain ⟨t, token, -, -, rfl⟩ := hp
    rfl
  | _ => rfl

/-! ### Prerequisites -/

/-- Nothing leaves `Delivered` by an update. -/
theorem ShipmentStatus.ne_delivered_of_isValidTransition {st status : ShipmentStatus}
    (h : st.isValidTransition status = true) : st ≠ .delivered := by
  rintro rfl
  cases status <;> cases h

/-- Two that exclude each other agree when both fail. -/
theorem iff_iff_not_or {P Q : Prop} (h : ¬(P ∧ Q)) : (P ↔ Q) ↔ ¬(P ∨ Q) := by
  constructor
  · rintro hiff (hp | hq)
    · exact h ⟨hp, hiff.mp hp⟩
    · exact h ⟨hiff.mpr hq, hq⟩
  · exact fun hn => iff_of_false (fun hp => hn (.inl hp)) fun hq => hn (.inr hq)

/-- A posting by somebody without an office takes its record into `Delivered` or out of it
exactly if the call turns the shipment. -/
theorem Rule.turns (hr : Rule env w call p) (hcaller : call.caller? = some a) (hadm : w.ledger.admin ≠ some a)
    (hguard : w.hasActiveRole a .guardian = false) (hx : w.executing call = none)
    (hreport : ∀ b i breach severity hash, call ≠ .reportConditionBreach b i breach severity hash) :
    (p.new.status = .delivered ↔ p.old.status = .delivered) ↔ ¬w.Turns p.old call := by
  have dropped : p.new.status = .cancelled → p.old.status ≠ .delivered →
      (p.new.status = .delivered ↔ p.old.status = .delivered) := fun hn ho =>
    iff_of_false (fun h => by rw [hn] at h; cases h) ho
  have turned : ∀ {P : Prop}, (P ↔ p.new.status = .delivered ∨ p.old.status = .delivered) →
      ¬(p.new.status = .delivered ∧ p.old.status = .delivered) →
      ((p.new.status = .delivered ↔ p.old.status = .delivered) ↔ ¬P) := fun {P} hP hne => by
    rw [hP]
    exact iff_iff_not_or hne
  cases hr with
  | updateStatus _ _ ht =>
    have hold := ShipmentStatus.ne_delivered_of_isValidTransition ht
    refine turned ⟨fun h => .inl h.2, fun h => ⟨rfl, h.resolve_right hold⟩⟩ fun h => hold h.2
  | confirmDelivery _ ht =>
    have hold := ShipmentStatus.ne_delivered_of_isValidTransition ht
    exact turned ⟨fun _ => .inl rfl, fun _ => rfl⟩ fun h => hold h.2
  | @confirmPartialDelivery s _ percent _ _ hst _ _ hstatus =>
    have hold : s.status ≠ .delivered := fun h => by
      rcases hst with hst | hst | hst <;> exact absurd (hst.symm.trans h) (by decide)
    refine turned ⟨fun h => .inl (hstatus.trans (if_pos h.2)), fun h => ⟨rfl, ?_⟩⟩ fun h => hold h.2
    by_contra hne
    have hnew := hstatus.trans (if_neg hne)
    exact absurd (hnew.symm.trans (h.resolve_right hold)) (by decide)
  | raiseDispute =>
    exact turned ⟨fun h => .inr h.2, fun h => ⟨rfl, h.resolve_left fun h => by cases h⟩⟩ fun h => by cases h.1
  | cancelShipment _ _ hold => exact iff_of_true (dropped rfl hold) id
  | forceCancelShipment _ _ hold => exact iff_of_true (dropped rfl hold) id
  | checkDeadline _ hold => exact iff_of_true (dropped rfl hold) id
  | refundEscrow _ _ hst =>
    refine iff_of_true (dropped rfl fun h => ?_) id
    rcases hst with hst | hst <;> exact absurd (hst.symm.trans h) (by decide)
  | refundToCompany _ _ hst =>
    exact iff_of_true (dropped rfl fun h => absurd (hst.symm.trans h) (by decide)) id
  | releaseToCarrier _ hadm' =>
    cases hcaller
    rcases hadm' with h | h
    · exact absurd h hadm
    · rw [hguard] at h
      cases h
  | recoverShipment h => cases hcaller; exact absurd h hadm
  | rollbackOnExternalFailure h => cases hcaller; exact absurd h hadm
  | reportConditionBreach => exact absurd rfl (hreport _ _ _ _ _)
  | forceRelease h => rw [hx] at h; cases h
  | forceRefund h => rw [hx] at h; cases h
  | @recordMilestonesBatch s items =>
    have hb := s.batchOf_payBatch env.timestamp (items.map (·.1))
    exact iff_of_true (iff_of_eq (congrArg (· = ShipmentStatus.delivered) hb.status_eq)) id
  | _ => exact iff_of_true Iff.rfl id

theorem target?_of_turns (h : w.Turns t call) : call.target? = some t.id := by
  cases call with
  | confirmDelivery => exact congrArg some h
  | confirmPartialDelivery => exact congrArg some h.1
  | updateStatus => exact congrArg some h.1
  | raiseDispute => exact congrArg some h.1
  | reportConditionBreach => exact congrArg some h.1
  | _ => exact h.elim

/-- A call turns one shipment. -/
theorem turns_unique {t' : Shipment} (h : w.Turns t call) (h' : w.Turns t' call) : t.id = t'.id :=
  Option.some.inj ((target?_of_turns h).symm.trans (target?_of_turns h'))

/-- What turns a shipment is a posting, or a report. -/
theorem not_turns_of_posts (hp : call.posts = false)
    (hreport : ∀ b i breach severity hash, call ≠ .reportConditionBreach b i breach severity hash) :
    ¬w.Turns t call := by
  intro h
  cases call with
  | confirmDelivery => cases hp
  | confirmPartialDelivery => cases hp
  | updateStatus => cases hp
  | raiseDispute => cases hp
  | reportConditionBreach => exact hreport _ _ _ _ _ rfl
  | _ => exact h

theorem exists_stored_iff {o : Option Shipment} (ho : o = some t) :
    (∃ t', o = some t' ∧ t'.status = .delivered) ↔ t.status = .delivered := by
  rw [ho]
  exact ⟨fun ⟨t', h, hst⟩ => Option.some.inj h ▸ hst, fun hst => ⟨t, rfl, hst⟩⟩

/-- A report turns a delivered shipment when it opens a dispute. -/
theorem delivered_iff_of_report {b : Address} {i : ℕ} {breach : BreachType} {severity : Severity}
    {hash : BytesN32} (hs : w.ledger.Sound) (ht : w.getShipment t.id = some t)
    (hx : (Call.reportConditionBreach b i breach severity hash).exec env w = .ok () w') :
    (w'.Delivered t.id ↔ t.status = .delivered) ↔
      ¬w.Turns t (.reportConditionBreach b i breach severity hash) := by
  obtain ⟨r, hr, hopens, hkept⟩ := wp_reportConditionBreach () w' hx
  have hri : r.id = i := hs.keyed.get hr
  have same : i = t.id → r = t := fun hi => by
    rw [hi, ht] at hr
    exact (Option.some.inj hr).symm
  have kept : w'.getShipment t.id = w.getShipment t.id → (w'.Delivered t.id ↔ t.status = .delivered) :=
    fun h => exists_stored_iff (h.trans ht)
  by_cases ho : w.Opens severity r
  · have hget : w'.getShipment t.id =
        if t.id = r.id then some ((r.withStatus .disputed).touch env.timestamp) else w.getShipment t.id := by
      rw [hopens ho]
      exact Ledger.getShipment_setShipment w.ledger _ _
    by_cases hi : i = t.id
    · rw [if_pos (hi.symm.trans hri.symm)] at hget
      obtain rfl := same hi
      have hno : ¬w'.Delivered r.id := by
        unfold World.Delivered
        rw [exists_stored_iff hget]
        exact fun h => by cases h
      rw [iff_false_left hno]
      exact not_congr ⟨fun hst => ⟨hi, hst, ho⟩, fun hturns => hturns.2.1⟩
    · rw [if_neg fun h => hi (hri.symm.trans h.symm)] at hget
      exact iff_of_true (kept hget) fun h => hi h.1
  · refine iff_of_true (kept ?_) fun h => ho ?_
    · rw [hkept ho]
      rfl
    · rw [same h.1]
      exact h.2.2

/-! ### What an outsider leaves alone -/

/-- An outsider of the stored shipment `s` makes the call, alone. -/
structure Meddles (env : Env) (w : World H) (s : Shipment) (a : Address) (call : Call) (w' : World H) :
    Prop where
  sound : w.ledger.Sound
  filed : w.offices.Filed
  fresh : w.trace = []
  stored : w.getShipment s.id = some s
  exec : call.exec env w = .ok () w'
  signers : signersOf w'.trace = [a]
  signed : Signed env w call w'.trace
  outsider : w.Outsider s a
  exempt : call.isExempt = false

namespace Meddles

variable (m : Meddles env w s a call w')

include m

theorem effects : Effects env w call w'.book := exec_effects m.sound.keyed m.exec

theorem admin_ne : w.ledger.admin ≠ none := fun hn => by
  have h := m.sound.unset hn s.id
  rw [show w.ledger.getShipment s.id = some s from m.stored] at h
  cases h

theorem caller : call.caller? = some a := by
  cases hb : call.caller? with
  | none =>
    have he := m.exempt
    have hempowers := m.signed.empowers
    cases call with
    | initializeContract => exact absurd hempowers m.admin_ne
    | _ => first | cases hb; done | cases he
  | some b =>
    have hsig : signersOf w'.trace = [b] := m.signed.caller b hb
    rw [m.signers] at hsig
    rw [(List.cons.inj hsig).1]

theorem executing : w.executing call = none := by
  have he := m.exempt
  cases call with
  | approveAction => cases he
  | executeProposal => cases he
  | _ => rfl

theorem hasActiveRole : w.hasActiveRole a .guardian = false ∧ w.hasActiveRole a .operator = false := by
  constructor
  · simp [World.hasActiveRole, m.outsider.guardian]
  · simp [World.hasActiveRole, m.outsider.operator]

/-- Who signed is the outsider. -/
theorem eq_of_signed {b : Address} (h : SignedBy w'.trace b) : b = a := by
  have hsig : signersOf w'.trace = [b] := h
  rw [m.signers] at hsig
  exact (List.cons.inj hsig).1.symm

theorem not_byAdmin : ¬w.ByAdmin w'.trace := by
  rintro ⟨b, hb, hsig⟩
  rw [m.eq_of_signed hsig] at hb
  exact m.outsider.admin hb

theorem settings_eq : w'.settings = w.settings := by
  rcases m.signed.settings m.exec m.admin_ne with h | h | ⟨⟨b, hb, hsig⟩, -⟩
  · exact h
  · exact absurd h m.not_byAdmin
  · rw [m.eq_of_signed hsig] at hb
    rcases hb with hb | hb
    · exact absurd hb m.outsider.admin
    · rw [m.hasActiveRole.1] at hb
      cases hb

/-- No suspension is set or lifted. -/
theorem active_iff (b : Address) : w'.CarrierActive b ↔ w.CarrierActive b := by
  have key : w'.permits.carrierSuspended = w.permits.carrierSuspended ∧
      w'.permits.roleSuspended = w.permits.roleSuspended := by
    rcases m.signed.permits (regulated_exec call () w' m.exec) with h | ⟨b, hb, hsig⟩ |
      ⟨_, _, _, -, -, h⟩ | ⟨_, -, h⟩
    · rw [h]
      exact ⟨rfl, rfl⟩
    · rw [m.eq_of_signed hsig] at hb
      rcases hb with hb | hb
      · exact absurd hb m.outsider.admin
      · rw [m.hasActiveRole.2] at hb
        cases hb
    · rw [h]
      exact ⟨rfl, rfl⟩
    · rw [h]
      exact ⟨rfl, rfl⟩
  have hc : w'.isCarrierSuspended b = w.isCarrierSuspended b := congrFun key.1 b
  have hr : w'.isRoleSuspended b .carrier = w.isRoleSuspended b .carrier :=
    congrFun (congrFun key.2 b) .carrier
  unfold World.CarrierActive
  rw [hc, hr]

/-- Only the acceptance of the office changes the admin. -/
theorem admin_eq (h : ∀ b, call ≠ .acceptAdminTransfer b) : w'.ledger.admin = w.ledger.admin := by
  have hoffice : ∀ {trace : List Effect} {o : Offices}, Motion env w.offices call trace o →
      o.admin = w.offices.admin := by
    intro trace o hm
    have hexempt := m.exempt
    cases hm with
    | initialized hn => exact absurd hn m.admin_ne
    | succeeded => exact absurd rfl (h _)
    | enacted => cases hexempt
    | executed => cases hexempt
    | _ => rfl
  exact hoffice (motion_exec m.filed m.fresh () w' m.exec)

/-- An outsider raises at most one dispute. -/
theorem totalDisputes_le : w'.governance.totalDisputes ≤ w.governance.totalDisputes + 1 := by
  have hlen : (w.noted call).length ≤ 1 := by
    have he := m.exempt
    unfold World.noted
    split
    case h_5 => split <;> simp
    case h_6 => split <;> simp
    case h_8 => cases he
    case h_9 => cases he
    all_goals simp
  have hwrite : ∀ (r : Registers) n, (r.write n).totalDisputes ≤ r.totalDisputes + 1 := fun r n => by
    cases n <;> first | exact le_rfl | exact Nat.le_succ _
  have hregs : w'.registers = (w.noted call).foldl Registers.write w.registers :=
    registers_exec call () w' m.exec
  show w'.registers.totalDisputes ≤ w.registers.totalDisputes + 1
  rw [hregs]
  match w.noted call, hlen with
  | [], _ => exact Nat.le_succ _
  | [n], _ => exact hwrite _ n

/-- The call takes a shipment into `Delivered` or out of it exactly if it turns it. -/
theorem delivered_iff {y : ℕ} (hy : w.getShipment y = some t) :
    (w'.Delivered y ↔ t.status = .delivered) ↔ ¬w.Turns t call := by
  have hid : t.id = y := m.sound.keyed.get hy
  subst hid
  by_cases hreport : ∀ b i breach severity hash, call ≠ .reportConditionBreach b i breach severity hash
  · have kept : ∀ {b : Book H.Token}, b.ledger.getShipment t.id = some t → ¬w.Turns t call →
        (((∃ t', b.ledger.getShipment t.id = some t' ∧ t'.status = .delivered) ↔ t.status = .delivered) ↔
          ¬w.Turns t call) := fun hb hn => iff_of_true (exists_stored_iff hb) hn
    have key : ∀ {b : Book H.Token}, Effects env w call b →
        (((∃ t', b.ledger.getShipment t.id = some t' ∧ t'.status = .delivered) ↔ t.status = .delivered) ↔
          ¬w.Turns t call) := fun he => by
      cases he with
      | quiet hp => exact kept hy (not_turns_of_posts hp hreport)
      | initialized _ hn => exact absurd hn m.admin_ne
      | handedOver hp => exact kept hy (not_turns_of_posts hp hreport)
      | enrolled hp _ hadm he =>
        exact kept (Ledger.getShipment_enrolled m.sound hadm he hy) (not_turns_of_posts hp hreport)
      | archived hcall hs =>
        subst hcall
        exact kept ((Ledger.getShipment_putAway _ hs _).trans hy) id
      | @posted p b hs hv hr hp =>
        have hget := (PostedBy.mk hs hv hr hp).getShipment t.id
        by_cases hid : t.id = p.old.id
        · have ht : p.old = t := Option.some.inj (hs.symm.trans ((congrArg _ hid.symm).trans hy))
          rw [if_pos hid] at hget
          have hturns := hr.turns m.caller m.outsider.admin m.hasActiveRole.1 m.executing hreport
          rw [ht] at hturns
          rw [← hturns]
          exact iff_congr (exists_stored_iff hget) Iff.rfl
        · rw [if_neg hid] at hget
          refine kept (hget.trans hy) fun hturns => hid ?_
          exact (hr.concerns.eq_of_target (target?_of_turns hturns)).symm
    exact key m.effects
  · push Not at hreport
    obtain ⟨b, i, breach, severity, hash, rfl⟩ := hreport
    exact delivered_iff_of_report m.sound hy m.exec

/-- What an update of the shipment reads. -/
theorem alike (habout : ¬w.About call s.id) : w.Alike w' s.id := by
  have hid := (m.sound.ids s.id s m.stored).2
  have hfile := wp_file m.sound.keyed hid habout () w' m.exec
  have hadm : w'.ledger.admin ≠ none := fun hn => m.admin_ne (m.effects.admin_none hn)
  refine ⟨?_, m.settings_eq.symm, fun b => (m.active_iff b).symm,
    (m.effects.tokenContract_eq m.admin_ne).symm, (congrArg (·.marks.lastStatusUpdate) hfile).symm⟩
  unfold World.isInitialized
  rw [Option.isSome_iff_ne_none.mpr m.admin_ne, Option.isSome_iff_ne_none.mpr hadm]

/-- The outsider's call is not about the shipment, but for a dependency. -/
theorem not_about (h : ∀ b prereq, call ≠ .addShipmentDependency b s.id prereq) : ¬w.About call s.id := by
  rintro (hsub | hexec | hexec)
  · obtain ⟨prereq, hcall⟩ := m.outsider.not_admitted m.caller hsub m.exempt
      (admits_exec m.sound.keyed m.exec hsub m.stored)
    exact h a prereq hcall
  · rw [m.executing] at hexec
    cases hexec
  · rw [m.executing] at hexec
    cases hexec

/-- What is delivered was stored before. -/
theorem stored_of_delivered {y : ℕ} (h : w'.Delivered y) : ∃ t, w.getShipment y = some t := by
  obtain ⟨t', ht', hst⟩ := h
  have hid : t'.id = y := (m.effects.sound m.sound).keyed.get ht'
  rw [← hid]
  exact m.effects.forall_records (P := fun t => t.status = .delivered → ∃ r, w.getShipment t.id = some r)
    (fun _ _ _ h => by cases h) (fun p hp _ _ => ⟨p.old, hp.rule.keeps.id_eq ▸ hp.stored⟩)
    (fun i r hr _ => ⟨r, by rw [m.sound.keyed.get hr]; exact hr⟩) ht' hst

theorem delivered_of_not_turns {y : ℕ} (hy : w.getShipment y = some t) (h : ¬w.Turns t call) :
    w'.Delivered y ↔ w.Delivered y :=
  ((m.delivered_iff hy).mpr h).trans (exists_stored_iff hy).symm

/-- Unless a call turns the prerequisite that is awaited, the same prerequisites are met. -/
theorem ready_iff (hd : w'.dossier.shipmentDependents s.id = w.dossier.shipmentDependents s.id)
    (hn : ∀ y t, w.Awaits s.id y → w.getShipment y = some t → ¬w.Turns t call) :
    w'.Ready s.id ↔ w.Ready s.id := by
  unfold World.Ready
  rw [hd]
  constructor
  · intro h y hy
    obtain ⟨t, ht⟩ := m.stored_of_delivered (h y hy)
    by_cases hturns : w.Turns t call
    · -- the others are delivered, since the call turns this one alone
      refine absurd hturns (hn y t ⟨hy, fun z hz hne => ?_⟩ ht)
      obtain ⟨r, hr⟩ := m.stored_of_delivered (h z hz)
      refine (m.delivered_of_not_turns hr fun hr' => hne ?_).mp (h z hz)
      rw [← m.sound.keyed.get hr, ← m.sound.keyed.get ht]
      exact turns_unique hr' hturns
    · exact (m.delivered_of_not_turns ht hturns).mp (h y hy)
  · intro h y hy
    obtain ⟨t, ht, -⟩ := h y hy
    exact (m.delivered_of_not_turns ht (hn y t ⟨hy, fun z hz _ => h z hz⟩ ht)).mpr (h y hy)

/-- A call that turns the prerequisite that is awaited decides over the shipment. -/
theorem ready_turned {y : ℕ} (hd : w'.dossier.shipmentDependents s.id = w.dossier.shipmentDependents s.id)
    (hy : w.Awaits s.id y) (ht : w.getShipment y = some t) (hturns : w.Turns t call) :
    w'.Ready s.id ↔ ¬w.Ready s.id := by
  have hothers : ∀ z ∈ w.dossier.shipmentDependents s.id, z ≠ y → w'.Delivered z := fun z hz hne => by
    obtain ⟨r, hr, hst⟩ := hy.2 z hz hne
    refine (m.delivered_of_not_turns hr fun hr' => hne ?_).mpr ⟨r, hr, hst⟩
    rw [← m.sound.keyed.get hr, ← m.sound.keyed.get ht]
    exact turns_unique hr' hturns
  have hw : w.Ready s.id ↔ t.status = .delivered := by
    refine ⟨fun h => (exists_stored_iff ht).mp (h y hy.1), fun h z hz => ?_⟩
    by_cases hz' : z = y
    · exact hz' ▸ ⟨t, ht, h⟩
    · exact hy.2 z hz hz'
  have hw' : w'.Ready s.id ↔ w'.Delivered y := by
    unfold World.Ready
    rw [hd]
    refine ⟨fun h => h y hy.1, fun h z hz => ?_⟩
    by_cases hz' : z = y
    · exact hz' ▸ h
    · exact hothers z hz hz'
  have hflip : ¬(w'.Delivered y ↔ t.status = .delivered) := fun h => (m.delivered_iff ht).mp h hturns
  rw [hw, hw']
  exact (not_iff_comm.mp (not_iff.mp hflip)).symm

end Meddles

/-! ### What a call without a hold leaves -/

namespace Meddles

variable (m : Meddles env w s a call w') {caller : Address} {status : ShipmentStatus} {hash : BytesN32}

include m

theorem bounds : 0 ≤ s.escrowAmount ∧ s.escrowAmount ≤ s.totalEscrow :=
  ⟨m.sound.escrow_nonneg s.id s m.stored, m.sound.escrow_le_total s.id s m.stored⟩

/-- The nominee who accepts the office is the admin. -/
theorem admin_of_accepted {b : Address} (h : call = .acceptAdminTransfer b) :
    w'.ledger.admin = some a ∧ b = a := by
  have hoffice : ∀ {trace : List Effect} {o : Offices}, Motion env w.offices (.acceptAdminTransfer b) trace o →
      o.admin = some b := by
    intro trace o hm
    cases hm with
    | kept hg => cases hg
    | tabled hp => cases hp
    | succeeded => rfl
  subst h
  have hb : b = a := Option.some.inj m.caller
  exact ⟨(hoffice (motion_exec m.filed m.fresh () w' m.exec)).trans (congrArg some hb), hb⟩

theorem kept (h : ∀ b prereq, call ≠ .addShipmentDependency b s.id prereq) :
    w'.ledger.shipment s.id = w.ledger.shipment s.id ∧
      w'.ledger.archivedShipment s.id = w.ledger.archivedShipment s.id ∧ w'.file s.id = w.file s.id := by
  have hid := (m.sound.ids s.id s m.stored).2
  obtain ⟨h₁, h₂⟩ := m.effects.stored_eq hid (m.not_about h)
  exact ⟨h₁, h₂, wp_file m.sound.keyed hid (m.not_about h) () w' m.exec⟩

theorem stored_after (h₁ : w'.ledger.shipment s.id = w.ledger.shipment s.id)
    (h₂ : w'.ledger.archivedShipment s.id = w.ledger.archivedShipment s.id) :
    w'.getShipment s.id = some s := by
  have hs := m.stored
  unfold World.getShipment at hs ⊢
  rw [h₁, h₂]
  exact hs

/-- When an update goes through before the call, and after. -/
theorem accepts (h : ∀ b prereq, call ≠ .addShipmentDependency b s.id prereq) {e : Env} :
    (w.Accepts e caller s.id status hash ↔ w.Updates e caller s status hash) ∧
      (w'.Accepts e caller s.id status hash ↔ w'.Updates e caller s status hash) := by
  obtain ⟨h₁, h₂, -⟩ := m.kept h
  obtain ⟨x, hx⟩ := Option.ne_none_iff_exists'.mp m.admin_ne
  obtain ⟨y, hy⟩ := Option.ne_none_iff_exists'.mp fun hn => m.admin_ne (m.effects.admin_none hn)
  exact ⟨accepts_iff m.stored rfl hx m.bounds, accepts_iff (m.stored_after h₁ h₂) rfl hy m.bounds⟩

/-- What the call announced is not looked at afterwards. -/
theorem unaffected_fresh_iff : Unaffected w w'.fresh s.id ↔ Unaffected w w' s.id := by
  have key (h₁ : w'.ledger.shipment s.id = w.ledger.shipment s.id)
      (h₂ : w'.ledger.archivedShipment s.id = w.ledger.archivedShipment s.id) {e : Env}
      {caller : Address} {status : ShipmentStatus} {hash : BytesN32} :
      w'.fresh.Accepts e caller s.id status hash ↔ w'.Accepts e caller s.id status hash := by
    obtain ⟨y, hy⟩ := Option.ne_none_iff_exists'.mp fun hn => m.admin_ne (m.effects.admin_none hn)
    exact accepts_fresh (m.stored_after h₁ h₂) rfl hy m.bounds
  constructor
  · rintro ⟨h₁, h₂, h₃, h₄, h₅, h₆, h₇, hu⟩
    exact ⟨h₁, h₂, h₃, h₄, h₅, h₆, h₇, fun e x st hash => (hu e x st hash).trans (key h₁ h₂)⟩
  · rintro ⟨h₁, h₂, h₃, h₄, h₅, h₆, h₇, hu⟩
    exact ⟨h₁, h₂, h₃, h₄, h₅, h₆, h₇, fun e x st hash => (hu e x st hash).trans (key h₁ h₂).symm⟩

end Meddles

variable {v : World H} {e : Env} {caller b : Address} {status : ShipmentStatus} {hash : BytesN32}

/-- What goes through is open. -/
theorem World.Updates.opens (hu : v.Updates e caller s status hash) (h : w.Alike v s.id) (hr : w.Roomy) :
    w.Open s status where
  unpaused := h.isPaused_eq.trans hu.open_.2.1
  token := h.token ▸ hu.token
  lifetimes := by
    rw [h.getConfig_eq]
    exact hu.lifetimes
  unfinalized := hu.unfinalized
  valid := hu.valid
  room := hr.statuses status
  disputes _ := hr.disputes

/-- Whoever updates is not the admin as a suspended carrier. -/
theorem World.Updates.attended (hu : v.Updates e caller s status hash) (h : w.Alike v s.id)
    (hadm : v.ledger.admin = w.ledger.admin) : w.Attended s := by
  intro hc
  have hcaller : caller = s.carrier := by
    rcases hu.entitled with he | he
    · exact he
    · exact Option.some.inj (he.symm.trans (hadm.trans hc))
  exact (h.active _).mpr (hcaller ▸ hu.active hcaller)

/-- What is open goes through for the admin, once nothing is in its way. -/
theorem World.Open.updates (ho : w.Open s status) (h : w.Alike v s.id)
    (hroom : v.ledger.statusCount status + 1 ≤ u64Max)
    (hdisputes : status = .disputed → v.governance.totalDisputes + 1 ≤ u64Max)
    (hadm : v.ledger.admin = some b) (hact : b = s.carrier → v.CarrierActive b)
    (hready : status = .inTransit → v.Ready s.id)
    (hclosed : v.windowOpen e (H.sha256 (Action.update s.id status hash).payload) = false)
    (hauth : e.auth b = true) (hhash : hash ≠ 0) : v.Updates e b s status hash where
  open_ := ⟨by simp [World.isInitialized, hadm], h.isPaused_eq.symm.trans ho.unpaused, hauth⟩
  hash_ne := hhash
  entitled := .inr hadm
  unfinalized := ho.unfinalized
  active := hact
  closed := hclosed
  rested hne := absurd hadm hne
  valid := ho.valid
  ready := hready
  counted := World.takes_of_room hroom
  disputes := hdisputes
  token := h.token ▸ ho.token
  lifetimes := by
    rw [← h.getConfig_eq]
    exact ho.lifetimes

namespace Meddles

variable (m : Meddles env w s a call w')

include m

theorem room (hst : status ≠ .created) (h : w.ledger.statusCount status + 2 ≤ u64Max) :
    w'.ledger.statusCount status + 1 ≤ u64Max := by
  have hle : w'.ledger.statusCount status ≤ w.ledger.statusCount status + 1 := m.effects.statusCount_le hst
  omega

theorem room_disputes (h : w.governance.totalDisputes + 2 ≤ u64Max) :
    w'.governance.totalDisputes + 1 ≤ u64Max := by
  have hle := m.totalDisputes_le
  omega

/-- A call without a hold leaves the updates that have what they need. -/
theorem updates_iff (hs : w.Spares s call) (hr : w.Roomy) :
    w.Updates e caller s status hash ↔ w'.Updates e caller s status hash := by
  have halike : w.Alike w' s.id := m.alike (m.not_about hs.dependency)
  have hd : w'.dossier.shipmentDependents s.id = w.dossier.shipmentDependents s.id :=
    congrArg File.shipmentDependents (m.kept hs.dependency).2.2
  by_cases hacc : ∃ b, call = .acceptAdminTransfer b
  · -- then no update is open, before or after
    obtain ⟨b, rfl⟩ := hacc
    have no : ∀ {v : World H}, w.Alike v s.id → (v.Ready s.id → w.Ready s.id) →
        ¬v.Updates e caller s status hash := fun hv hready hu =>
      hs.handover status (hu.opens hv hr) (fun hst => hready (hu.ready hst)) b rfl
    exact iff_of_false (no (.refl w s.id) id) (no halike (m.ready_iff hd fun _ _ _ _ h => h).mp)
  · have hadm : w'.ledger.admin = w.ledger.admin := m.admin_eq fun b hb => hacc ⟨b, hb⟩
    -- what goes through on either side is open, and neither its prerequisites nor its window change
    have keeps : ∀ {v : World H}, w.Alike v s.id → v.ledger.admin = w.ledger.admin →
        (status = .inTransit → v.Ready s.id → (w'.Ready s.id ↔ w.Ready s.id) → w.Ready s.id) →
        v.Updates e caller s status hash → (status = .inTransit → (w'.Ready s.id ↔ w.Ready s.id)) ∧
          w'.windows (H.sha256 (Action.update s.id status hash).payload) =
            w.windows (H.sha256 (Action.update s.id status hash).payload) := fun hv hvadm hready hu => by
      have hatt : w.Attended s := hu.attended hv hvadm
      have hsame : status = .inTransit → (w'.Ready s.id ↔ w.Ready s.id) := fun hst =>
        m.ready_iff hd (hs.prerequisites hatt (hst ▸ hu.opens hv hr))
      refine ⟨hsame, windows_exec (fun action ha => hs.window hatt status (hu.opens hv hr)
        (fun hst => hready hst (hu.ready hst) (hsame hst)) action hash ha hu.hash_ne) m.exec⟩
    constructor
    · intro hu
      obtain ⟨hready, hwindow⟩ := keeps (.refl w s.id) rfl (fun _ h _ => h) hu
      exact halike.updates hadm.symm hwindow.symm (fun hst => (hready hst).mpr)
        (World.takes_of_room (m.room (ShipmentStatus.ne_created_of_isValidTransition hu.valid)
          (hr.statuses status))) (fun _ => m.room_disputes hr.disputes) hu
    · intro hu
      obtain ⟨hready, hwindow⟩ := keeps halike hadm (fun _ h hiff => hiff.mp h) hu
      exact halike.symm.updates hadm hwindow (fun hst => (hready hst).mp)
        (World.takes_of_room (Nat.le_of_succ_le (hr.statuses status)))
        (fun _ => Nat.le_of_succ_le hr.disputes) hu

/-- A call without a hold does not affect the shipment. -/
theorem unaffected (hs : w.Spares s call) (hr : w.Roomy) : Unaffected w w' s.id := by
  obtain ⟨h₁, h₂, hfile⟩ := m.kept hs.dependency
  refine ⟨h₁, h₂, congrArg File.shipmentDependents hfile, congrArg File.noteCount hfile,
    congrArg File.note hfile, congrArg File.evidenceCount hfile, congrArg File.evidence hfile, ?_⟩
  intro e caller status hash
  obtain ⟨hbefore, hafter⟩ := m.accepts hs.dependency (e := e)
  rw [hbefore, hafter]
  exact m.updates_iff hs hr

end Meddles

/-! ### What a call with a hold changes -/

/-- Late enough every window is closed. -/
theorem World.windowOpen_of_late {key : BytesN32} (h : (w.windows key).getD 0 < e.sequence) :
    w.windowOpen e key = false := by
  unfold World.windowOpen
  rw [show w.governance.idempotencyWindow key = w.windows key from rfl]
  cases hk : w.windows key with
  | none => rfl
  | some n =>
    rw [hk] at h
    simpa using h

namespace Meddles

variable (m : Meddles env w s a call w')

include m

theorem dependency_of_unaffected (h : Unaffected w w' s.id) (b : Address) (prereq : ℕ) :
    call ≠ .addShipmentDependency b s.id prereq := by
  rintro rfl
  have hp : w'.papers = w.papers.addDependency s.id prereq := papers_addShipmentDependency () w' m.exec
  have hd : w'.dossier.shipmentDependents s.id = w.dossier.shipmentDependents s.id ++ [prereq] :=
    (congrFun (congrArg Papers.shipmentDependents hp) s.id).trans (Function.update_self ..)
  exact absurd (h.prerequisites_eq.symm.trans hd) (by simp)

/-- A call that does not affect the shipment has no hold on it. -/
theorem spares (h : Unaffected w w' s.id) : w.Spares s call := by
  have hdep := m.dependency_of_unaffected h
  have halike : w.Alike w' s.id := m.alike (m.not_about hdep)
  refine ⟨hdep, fun status ho hready b hb => ?_, fun hatt status ho hready action hash ha hhash hkey => ?_,
    fun hatt ho y t hy ht hturns => ?_⟩
  · -- the new admin could not update before the call, and can after it
    obtain ⟨hadm, rfl⟩ := m.admin_of_accepted hb
    let e : Env := ⟨0, (w'.windows (H.sha256 (Action.update s.id status 1).payload)).getD 0 + 1,
      fun _ => true, fun _ => true⟩
    have hready' : w'.Ready s.id ↔ w.Ready s.id := m.ready_iff h.prerequisites_eq fun _ _ _ _ ht => by
      rw [hb] at ht
      exact ht
    have hafter : w'.Updates e b s status 1 :=
      ho.updates halike (m.room (ShipmentStatus.ne_created_of_isValidTransition ho.valid) ho.room)
        (fun hst => m.room_disputes (ho.disputes hst)) hadm (fun hc => absurd hc m.outsider.carrier)
        (fun hst => hready'.mpr (hready hst)) (World.windowOpen_of_late (Nat.lt_succ_self _)) rfl (by decide)
    have hbefore : w.Updates e b s status 1 := (m.accepts hdep).1.mp
      ((h.updates e b status 1).mpr ((m.accepts hdep).2.mpr hafter))
    exact hbefore.entitled.elim m.outsider.carrier m.outsider.admin
  · -- the admin could update in the ledger of the call, before it took the window
    obtain ⟨x, hx⟩ := Option.ne_none_iff_exists'.mp m.admin_ne
    let e : Env := ⟨0, env.sequence, fun _ => true, fun _ => true⟩
    obtain ⟨hclosed, n, hn, hle⟩ := (opens_exec ha).out m.exec
    rw [hkey] at hclosed hn
    have hact : x = s.carrier → w.CarrierActive x := fun hc => hc ▸ hatt (hc ▸ hx)
    have hbefore : w.Updates e x s status hash :=
      ho.updates (.refl w s.id) (Nat.le_of_succ_le ho.room) (fun hst => Nat.le_of_succ_le (ho.disputes hst))
        hx hact hready hclosed rfl hhash
    have hafter : w'.Updates e x s status hash := (m.accepts hdep).2.mp
      ((h.updates e x status hash).mp ((m.accepts hdep).1.mpr hbefore))
    have hopen := hafter.closed
    unfold World.windowOpen at hopen
    rw [show w'.governance.idempotencyWindow _ = some n from hn] at hopen
    have hlt : ¬env.sequence ≤ n := by simpa using hopen
    omega
  · -- the admin can take the shipment into transit on one side of the call alone
    have hadm : w'.ledger.admin = w.ledger.admin := m.admin_eq fun b hb => by
      rw [hb] at hturns
      exact hturns
    obtain ⟨x, hx⟩ := Option.ne_none_iff_exists'.mp m.admin_ne
    let key := H.sha256 (Action.update s.id .inTransit 1).payload
    let e : Env := ⟨0, max ((w.windows key).getD 0) ((w'.windows key).getD 0) + 1, fun _ => true,
      fun _ => true⟩
    have hact : x = s.carrier → w.CarrierActive x := fun hc => hc ▸ hatt (hc ▸ hx)
    have hbefore : w.Updates e x s .inTransit 1 ↔ w.Ready s.id :=
      ⟨fun hu => hu.ready rfl, fun hr => ho.updates (.refl w s.id) (Nat.le_of_succ_le ho.room)
        (fun hst => by cases hst) hx hact (fun _ => hr)
        (World.windowOpen_of_late (Nat.lt_succ_of_le (le_max_left _ _))) rfl (by decide)⟩
    have hafter : w'.Updates e x s .inTransit 1 ↔ w'.Ready s.id :=
      ⟨fun hu => hu.ready rfl, fun hr => ho.updates halike (m.room (by decide) ho.room)
        (fun hst => by cases hst) (hadm.trans hx) (fun hc => (halike.active x).mp (hact hc)) (fun _ => hr)
        (World.windowOpen_of_late (Nat.lt_succ_of_le (le_max_right _ _))) rfl (by decide)⟩
    have heq := h.updates e x .inTransit 1
    rw [(m.accepts hdep).1, (m.accepts hdep).2, hbefore, hafter,
      m.ready_turned h.prerequisites_eq hy ht hturns] at heq
    exact (iff_not_self heq).elim

end Meddles

/-! ### Whole calls -/

/-- Between the calls the trace is empty. -/
theorem Reachable.fresh_eq {c : Chain H} (hc : Reachable c) : c.world.fresh = c.world := by
  have htrace : c.world.trace = [] := hc.inv (I := fun c => c.world.trace = []) (fun _ _ => rfl)
    fun a l b _ h hstep => by
      cases hstep with
      | committed => rfl
      | reverted => exact h
      | outside => exact h
  show { c.world with trace := [] } = c.world
  rw [← htrace]

/-- A call signed by an outsider alone does not affect the shipment if it spares it and the
counters have room, and only if it spares it. -/
theorem outsider_unaffected_iff {c c' : Chain H} {trace : List Effect} (hc : Reachable c)
    (hstep : Step c (.committed call env trace) c') (hs : c.world.getShipment id = some s)
    (hsig : signersOf trace = [a]) (ho : c.world.Outsider s a) (he : call.isExempt = false) :
    (c.world.Spares s call ∧ c.world.Roomy → Unaffected c.world c'.world id) ∧
      (Unaffected c.world c'.world id → c.world.Spares s call) := by
  cases hstep with
  | @committed _ _ w' _ hx =>
    have hsound : c.world.ledger.Sound := hc.sound
    obtain rfl : s.id = id := hsound.keyed.get hs
    have hsigned := hc.signed hx
    rw [hc.fresh_eq] at hx hsigned
    have htrace : c.world.trace = [] := (congrArg World.trace hc.fresh_eq).symm
    have m : Meddles env c.world s a call w' := ⟨hsound, hc.filed, htrace, hs, hx, hsig, hsigned, ho, he⟩
    rw [m.unaffected_fresh_iff]
    exact ⟨fun h => m.unaffected h.1 h.2, m.spares⟩

/-- Another company creates a shipment of its own. -/
theorem outsider_unaffected_by_creation : ∃ (c c' : Chain Deployment.host) (call : Call) (env : Env)
    (trace : List Effect) (s : Shipment), Reachable c ∧ Step c (.committed call env trace) c' ∧
      c.world.getShipment 1 = some s ∧ signersOf trace = [Deployment.treasury] ∧
      c.world.Outsider s Deployment.treasury ∧ call.isExempt = false ∧
      Unaffected c.world c'.world 1 := by
  obtain ⟨ls, c, trace, c', hr, hstep, hsig, hs, hadm, hg, ho, hroom, hdisputes⟩ := exists_commit
    Deployment.chain (Deployment.opening ++ [
      Deployment.signed Deployment.admin 5 (.addCompany Deployment.admin Deployment.treasury)])
    (.createShipmentsBatch Deployment.treasury [Deployment.shipment])
    ⟨6, 6, fun a => a = Deployment.treasury, fun _ => true⟩
    (fun r trace _ => signersOf trace = [Deployment.treasury] ∧
      r.2.world.getShipment 1 = some (Shipment.new 1 Deployment.company Deployment.shipment 4) ∧
      r.2.world.ledger.admin = some Deployment.admin ∧
      r.2.world.hasRole Deployment.treasury .guardian = false ∧
      r.2.world.hasRole Deployment.treasury .operator = false ∧
      (∀ st ∈ ShipmentStatus.all, r.2.world.ledger.statusCount st + 2 ≤ u64Max) ∧
      r.2.world.governance.totalDisputes + 2 ≤ u64Max)
    (by decide +kernel)
  have hc : Reachable c := ⟨_, ls, Deployment.deployed, hr⟩
  have hout : c.world.Outsider (Shipment.new 1 Deployment.company Deployment.shipment 4)
      Deployment.treasury :=
    ⟨by decide, by decide, by decide, by rw [hadm]; decide, hg, ho⟩
  have hspares : c.world.Spares (Shipment.new 1 Deployment.company Deployment.shipment 4)
      (.createShipmentsBatch Deployment.treasury [Deployment.shipment]) :=
    ⟨fun _ _ => nofun, fun _ _ _ _ => nofun, fun _ _ _ _ _ _ => nofun, fun _ _ _ _ _ _ h => h⟩
  have hroomy : c.world.Roomy := ⟨fun st => hroom st (by cases st <;> decide), hdisputes⟩
  exact ⟨c, c', _, _, trace, _, hc, hstep, hs, hsig, hout, rfl,
    (outsider_unaffected_iff hc hstep hs hsig hout rfl).1 ⟨hspares, hroomy⟩⟩

/-- A prerequisite without prerequisites closes no circle. -/
theorem wouldCreateCycle_eq_false {prereq : ℕ} (hne : id ≠ prereq)
    (h : w.dossier.shipmentDependents prereq = []) : w.wouldCreateCycle id prereq = some false := by
  unfold World.wouldCreateCycle
  rw [Dossier.wouldCreateCycleLoop.eq_def]
  dsimp only
  rw [if_neg hne.symm, if_neg (by simp), h, List.reverse_nil, Dossier.wouldCreateCycleLoop.eq_def]
  rfl

/-- The shipment is given a prerequisite. -/
def World.dependent (w : World H) (id prereq : ℕ) : World H :=
  { w with
    dossier := { w.dossier with
      shipmentDependents := Function.update w.dossier.shipmentDependents id
        (w.dossier.shipmentDependents id ++ [prereq]) } }

/-- Any address that signs gives any shipment a prerequisite. -/
theorem step_addShipmentDependency {c : Chain H} {prereq : ℕ} (hadm : env.Admissible c)
    (hopen : c.world.isInitialized = true ∧ c.world.governance.isPaused = false ∧ env.auth a = true)
    (hne : id ≠ prereq) (h₁ : c.world.getShipment id ≠ none) (h₂ : c.world.getShipment prereq ≠ none)
    (hd : c.world.dossier.shipmentDependents prereq = []) :
    Step c (.committed (.addShipmentDependency a id prereq) env [.auth a])
      ⟨(c.world.dependent id prereq).fresh, env.timestamp⟩ := by
  have hx : Returns (Call.addShipmentDependency a id prereq).exec env c.world.fresh ()
      ((c.world.fresh.signed a).dependent id prereq) := by
    unfold Call.exec addShipmentDependency
    have hopen : (openCall a).Returns env c.world.fresh () (c.world.fresh.signed a) :=
      returns_openCall.mpr ⟨hopen, rfl⟩
    refine hopen.bind ?_
    simp only [returns_gets_bind, returns_rejectIf_bind, returns_unwrap_bind]
    refine ⟨hne, h₁, h₂, false, wouldCreateCycle_eq_false hne hd, Bool.false_ne_true, ?_⟩
    rfl
  exact Step.committed hadm hx

/-- A stranger without any role puts the company's first shipment behind its second:
the carrier can no longer take it into transit, which it could before. -/
theorem addShipmentDependency_by_stranger :
    ¬∀ (c c' : Chain Deployment.host) (call : Call) (env : Env) (trace : List Effect) (id : ℕ)
      (s : Shipment) (a : Address), Reachable c → Step c (.committed call env trace) c' →
      c.world.getShipment id = some s → signersOf trace = [a] → c.world.Outsider s a →
      call.isExempt = false → Unaffected c.world c'.world id := by
  intro hall
  obtain ⟨ls, c, hr, -, hnow, hinit, hs, hs₂, hd, hadm, hg, ho, hno, hyes⟩ := exists_play Deployment.chain
    (Deployment.opening ++ [Deployment.signed Deployment.company 5
      (.createShipment Deployment.company { Deployment.shipment with dataHash := 2 })])
    (fun r => r.2.now ≤ 6 ∧
      (r.2.world.isInitialized = true ∧ r.2.world.governance.isPaused = false) ∧
      r.2.world.getShipment 1 = some (Shipment.new 1 Deployment.company Deployment.shipment 4) ∧
      r.2.world.getShipment 2 ≠ none ∧ r.2.world.dossier.shipmentDependents 2 = [] ∧
      r.2.world.ledger.admin = some Deployment.admin ∧
      r.2.world.hasRole Deployment.treasury .guardian = false ∧
      r.2.world.hasRole Deployment.treasury .operator = false ∧
      ¬(r.2.world.dependent 1 2).fresh.Accepts
        ⟨7, 7, fun a => a = Deployment.carrier, fun _ => true⟩ Deployment.carrier 1 .inTransit 3 ∧
      r.2.world.Accepts
        ⟨7, 7, fun a => a = Deployment.carrier, fun _ => true⟩ Deployment.carrier 1 .inTransit 3)
    (by decide +kernel)
  let env : Env := ⟨6, 6, fun a => a = Deployment.treasury, fun _ => true⟩
  have hstep : Step c (.committed (.addShipmentDependency Deployment.treasury 1 2) env
      [.auth Deployment.treasury]) ⟨(c.world.dependent 1 2).fresh, env.timestamp⟩ :=
    step_addShipmentDependency ⟨hnow, by decide⟩ ⟨hinit.1, hinit.2, by decide⟩ (by decide)
      (by rw [hs]; exact Option.some_ne_none _) hs₂ hd
  have hout : c.world.Outsider (Shipment.new 1 Deployment.company Deployment.shipment 4)
      Deployment.treasury :=
    ⟨by decide, by decide, by decide, by rw [hadm]; decide, hg, ho⟩
  have h := hall c _ _ _ _ 1 _ _ ⟨_, ls, Deployment.deployed, hr⟩ hstep hs rfl hout rfl
  exact hno ((h.updates _ _ _ _).mp hyes)

end Navin
