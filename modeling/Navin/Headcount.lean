/-
# The number of open shipments of a company

The contract counts the open shipments of every company by hand: a creation adds one,
and each entry point that closes a shipment takes one off. Two ways into and out of the
closed statuses are not counted. `update_status` closes a shipment and takes nothing
off, and a dispute opens a delivered shipment again and adds nothing.

Key definitions:
- `ShipmentStatus.isOpen`, `Ledger.openShipments`: what is to be counted;
- `World.headcount`: what the contract counts;
- `World.closing`: the company whose count a call lowers;
- `World.miscounts`: the calls that pass the count by.

Key theorems:
- `wp_headcount`: what a call does to the counts;
- `Rule.isOpen`: what a posting does to the open shipments;
- `Step.counted`: one step;
- `active_count_exact`: whole runs, and the refusals that rest on the count.
-/
import Navin.Creation
import Navin.Errors
import Navin.Orderly
import Navin.Pause

namespace Navin

open Tx

set_option synthInstance.maxSize 4000

variable {H : Host} {env : Env} {w w' : World H}

/-! ### The counts -/

/-- Neither `Delivered` nor `Cancelled`. -/
def ShipmentStatus.isOpen (s : ShipmentStatus) : Bool := s ≠ .delivered ∧ s ≠ .cancelled

/-- What the contract counts. -/
def World.headcount (w : World H) : Address → ℕ := w.registry.activeShipmentCount

/-- One off, for the company there is. -/
def takeOff (company : Option Address) (count : Address → ℕ) : Address → ℕ :=
  match company with
  | none => count
  | some a => Function.update count a (count a - 1)

namespace World

variable (w)

/-- The company whose shipment an admin action closes. -/
def settling : AdminAction → Option Address
  | .forceRelease id | .forceRefund id => (w.getShipment id).map (·.sender)
  | _ => none

/-- The company whose count a call lowers, when it goes through. -/
def closing : Call → Option Address
  | .confirmDelivery _ id _ | .forceCancelShipment _ id _ | .checkDeadline id
  | .resolveDispute _ id _ _ => (w.getShipment id).map (·.sender)
  | .confirmPartialDelivery _ id _ percent => (w.getShipment id).bind fun s =>
      if s.share percent = s.escrowAmount then some s.sender else none
  | .cancelShipment _ id _ | .refundEscrow _ id => (w.getShipment id).bind fun s =>
      if s.status = .cancelled then none else some s.sender
  | call => (w.executing call).bind w.settling

end World

section

instance : LedgerFree (World.headcount (H := H)) := ⟨fun _ _ => rfl⟩

instance : PermitsFree (World.headcount (H := H)) := ⟨fun _ _ h _ => h⟩

instance : QuotasFree (World.headcount (H := H)) := ⟨fun _ _ _ h => h⟩

instance : DossierFree (World.headcount (H := H)) := ⟨fun _ _ => rfl⟩

instance : GovernanceFree (World.headcount (H := H)) := ⟨fun _ _ => rfl⟩

instance : AuthFree (World.headcount (H := H)) := ⟨fun _ _ => rfl⟩

instance : PlainFree (World.headcount (H := H)) := ⟨fun _ _ _ => rfl⟩

instance : PaymentFree (World.headcount (H := H)) := ⟨fun _ _ _ => rfl⟩

instance (a : Address) : Writes (World.headcount (H := H)) (takeOff (some a))
    (decrementActiveShipmentCount a : Contract H Unit) where
  out r s := by
    unfold decrementActiveShipmentCount setActiveShipmentCount modifyRegistry
    rw [wp_bind, wp_gets, wp_modify]
    rfl

end

/-- A write that is made under a condition. -/
instance writes_takeOff_when (c : Prop) [Decidable c] (a : Address) :
    Writes (World.headcount (H := H)) (takeOff (if c then some a else none))
      (Tx.when c (decrementActiveShipmentCount a) : Contract H Unit) := by
  have h : Writes (World.headcount (H := H)) (if c then takeOff (some a) else id)
      (Tx.when c (decrementActiveShipmentCount a) : Contract H Unit) := inferInstance
  by_cases hc : c
  · rw [if_pos hc] at h ⊢
    exact h
  · rw [if_neg hc] at h ⊢
    exact h

/-! ### The calls that close a shipment -/

/-- From the record on: a count goes down by what the record says. -/
theorem headcount_of_load {w₁ : World H} {id : ℕ} {k : Shipment → Contract H Unit}
    (g : Shipment → Option Address) {o : Option Address}
    [hk : ∀ s, Writes World.headcount (takeOff (g s)) (k s)] (hc : w₁.headcount = w.headcount)
    (ho : ∀ s, w₁.getShipment id = some s → o = g s) :
    wp (loadShipment id >>= k) env w₁ fun _ w' => w'.headcount = takeOff o w.headcount := by
  rw [wp_bind]
  refine wp_loadShipment fun s hs => ?_
  refine Writes.wp World.headcount (g := takeOff (g s)) fun _ w' h => ?_
  rw [h, ho s hs, hc]

theorem headcount_confirmDelivery {receiver : Address} {id : ℕ} {hash : BytesN32} :
    wp (confirmDelivery receiver id hash) env w fun _ w' =>
      w'.headcount = takeOff (w.closing (.confirmDelivery receiver id hash)) w.headcount := by
  unfold confirmDelivery
  rw [wp_bind]
  refine wp_openCall fun _ _ => ?_
  rw [wp_bind]
  refine wp_guard fun _ => ?_
  refine headcount_of_load (fun s => some s.sender) (by rfl) fun s hs => ?_
  have hs : w.getShipment id = some s := hs
  rw [World.closing, hs, Option.map_some]

/-- All that is left is asked for exactly when the shares so far make up the deposit. -/
theorem headcount_confirmPartialDelivery {receiver : Address} {id percent : ℕ} {hash : BytesN32} :
    wp (confirmPartialDelivery receiver id hash percent) env w fun _ w' => w'.headcount =
      takeOff (w.closing (.confirmPartialDelivery receiver id hash percent)) w.headcount := by
  unfold confirmPartialDelivery
  rw [wp_bind]
  refine wp_openCall fun _ _ => ?_
  rw [wp_bind]
  refine wp_guard fun _ => ?_
  rw [wp_bind]
  refine wp_guard fun _ => ?_
  rw [wp_bind]
  refine wp_loadShipment fun s hs => ?_
  have hs : w.getShipment id = some s := hs
  dsimp only
  rw [wp_bind]
  refine wp_guard fun _ => ?_
  rw [wp_bind]
  refine wp_guard fun _ => ?_
  rw [wp_bind]
  refine wp_guard fun _ => ?_
  rw [wp_bind]
  refine wp_checkedMulDiv ?_
  rw [wp_bind]
  refine wp_guard fun _ => ?_
  rw [wp_bind, wp_okOr]
  intro released hreleased
  rw [wp_bind, wp_okOr]
  intro total htotal
  have htotal : (total = s.totalEscrow) ↔ s.share percent = s.escrowAmount := by
    have h₁ := checkedI128_eq_some hreleased
    have h₂ := checkedI128_eq_some htotal
    unfold Shipment.share
    omega
  refine Writes.wp World.headcount
    (g := takeOff (if (if total = s.totalEscrow then ShipmentStatus.delivered
      else .partiallyDelivered) = .delivered then some s.sender else none)) fun _ w' h => ?_
  have hc : (w.signed receiver).headcount = w.headcount := rfl
  rw [h, hc, World.closing, hs, Option.bind_some]
  by_cases hall : s.share percent = s.escrowAmount
  · simp [hall, htotal.mpr hall]
  · simp [hall, mt htotal.mp hall]

theorem headcount_cancelShipment {caller : Address} {id : ℕ} {hash : BytesN32} :
    wp (cancelShipment caller id hash) env w fun _ w' =>
      w'.headcount = takeOff (w.closing (.cancelShipment caller id hash)) w.headcount := by
  unfold cancelShipment
  rw [wp_bind]
  refine wp_openCall fun _ _ => ?_
  rw [wp_bind]
  refine wp_guard fun _ => ?_
  rw [wp_bind]
  refine wp_guard fun _ => ?_
  dsimp only
  refine headcount_of_load (fun s => if s.status ≠ .cancelled then some s.sender else none) (by rfl)
    fun s hs => ?_
  have hs : w.getShipment id = some s := hs
  rw [World.closing, hs, Option.bind_some, ite_not]

theorem headcount_forceCancelShipment {admin : Address} {id : ℕ} {hash : BytesN32} :
    wp (forceCancelShipment admin id hash) env w fun _ w' =>
      w'.headcount = takeOff (w.closing (.forceCancelShipment admin id hash)) w.headcount := by
  unfold forceCancelShipment
  rw [wp_bind]
  refine wp_openCall fun _ _ => ?_
  rw [wp_bind]
  refine wp_guard fun _ => ?_
  rw [wp_bind]
  refine wp_guard fun _ => ?_
  refine headcount_of_load (fun s => some s.sender) (by rfl) fun s hs => ?_
  have hs : w.getShipment id = some s := hs
  rw [World.closing, hs, Option.map_some]

theorem headcount_checkDeadline {id : ℕ} : wp (checkDeadline id) env w fun _ w' =>
    w'.headcount = takeOff (w.closing (.checkDeadline id)) w.headcount := by
  unfold checkDeadline
  rw [wp_bind]
  refine wp_guard fun _ => ?_
  refine headcount_of_load (fun s => some s.sender) (by rfl) fun s hs => ?_
  rw [World.closing, hs, Option.map_some]

theorem headcount_refundEscrow {caller : Address} {id : ℕ} :
    wp (refundEscrow caller id) env w fun _ w' =>
      w'.headcount = takeOff (w.closing (.refundEscrow caller id)) w.headcount := by
  unfold refundEscrow withReentrancyLock
  dsimp only
  rw [wp_bind]
  refine wp_openCall fun _ _ => ?_
  rw [wp_bind, wp_gets, wp_bind, wp_rejectIf]
  intro _
  rw [wp_bind, wp_modifyGovernance, wp_ensure, wp_bind]
  refine wp_guard fun _ => ?_
  refine headcount_of_load (fun s => if s.status ≠ .cancelled then some s.sender else none) (by rfl)
    fun s hs => ?_
  have hs : w.getShipment id = some s := hs
  rw [World.closing, hs, Option.bind_some, ite_not]

theorem headcount_resolveDispute {admin : Address} {id : ℕ} {r : DisputeResolution} {hash : BytesN32} :
    wp (resolveDispute admin id r hash) env w fun _ w' =>
      w'.headcount = takeOff (w.closing (.resolveDispute admin id r hash)) w.headcount := by
  unfold resolveDispute
  dsimp only
  rw [wp_bind]
  refine wp_openCall fun _ _ => ?_
  rw [wp_bind]
  refine wp_guard fun _ => ?_
  rw [wp_bind]
  refine wp_guard fun _ => ?_
  rw [wp_bind]
  intro _ w₁ h₁
  obtain ⟨-, rfl⟩ := returns_checkIdempotency.mp h₁
  refine headcount_of_load (fun s => some s.sender) (by rfl) fun s hs => ?_
  have hs : w.getShipment id = some s := hs
  rw [World.closing, hs, Option.map_some]

theorem headcount_performAction {proposer : Address} {action : AdminAction} :
    wp (performAction proposer action) env w fun _ w' =>
      w'.headcount = takeOff (w.settling action) w.headcount := by
  cases action with
  | upgrade =>
    unfold performAction
    exact Preserves.wp World.headcount fun _ _ h => h
  | transferAdmin =>
    unfold performAction
    exact Preserves.wp World.headcount fun _ _ h => h
  | forceRelease id =>
    refine headcount_of_load (fun s => some s.sender) (by rfl) fun s hs => ?_
    rw [World.settling, hs, Option.map_some]
  | forceRefund id =>
    refine headcount_of_load (fun s => some s.sender) (by rfl) fun s hs => ?_
    rw [World.settling, hs, Option.map_some]

theorem headcount_executeProposalInternal {pid : ℕ} :
    wp (executeProposalInternal pid) env w fun _ w' => ∃ p, w.governance.proposal pid = some p ∧
      w'.headcount = takeOff (w.settling p.action) w.headcount := by
  unfold executeProposalInternal
  simp only [wp_bind, wp_gets, wp_okOr, wp_rejectIf, wp_timestamp, wp_modifyGovernance, wp_log]
  intro p hp _ _ _
  exact headcount_performAction.mono fun _ w' h => ⟨p, hp, h⟩

theorem closing_approveAction (approver : Address) (pid : ℕ) : w.closing (.approveAction approver pid) =
    (w.executing (.approveAction approver pid)).bind w.settling := rfl

theorem closing_executeProposal (pid : ℕ) : w.closing (.executeProposal pid) =
    (w.executing (.executeProposal pid)).bind w.settling := rfl

theorem headcount_approveAction {approver : Address} {pid : ℕ} :
    wp (approveAction approver pid) env w fun _ w' =>
      w'.headcount = takeOff (w.closing (.approveAction approver pid)) w.headcount := by
  unfold approveAction
  simp only [wp_bind, wp_gets, wp_okOr, wp_rejectIf, wp_timestamp, wp_modifyGovernance, wp_log, wp_when]
  refine wp_guard fun _ => ?_
  refine wp_requireAuth fun _ _ p hp _ _ _ => ?_
  have hp : w.governance.proposal pid = some p := hp
  constructor
  · intro hthr
    refine headcount_executeProposalInternal.mono fun _ w' h => ?_
    obtain ⟨q, hq, h⟩ := h
    have hx : w.executing (.approveAction approver pid) = some q.action :=
      World.executing_of_approved hp hq (by simpa using hthr)
    rw [closing_approveAction, hx]
    exact h
  · intro hthr
    have hthr : ¬w.governance.multisigThreshold.getD 2 ≤ p.approvals.length + 1 := by simpa using hthr
    have hx : w.executing (.approveAction approver pid) = none := by
      simp [World.executing, hp, hthr]
    rw [closing_approveAction, hx]
    rfl

theorem headcount_executeProposal {pid : ℕ} : wp (executeProposal pid) env w fun _ w' =>
    w'.headcount = takeOff (w.closing (.executeProposal pid)) w.headcount := by
  unfold executeProposal
  rw [wp_bind]
  refine wp_guard fun _ => ?_
  refine headcount_executeProposalInternal.mono fun _ w' h => ?_
  obtain ⟨p, hp, h⟩ := h
  have hx : w.executing (.executeProposal pid) = some p.action := by simp [World.executing, hp]
  rw [closing_executeProposal, hx]
  exact h

/-- A call that does not create takes off what it closes, and nothing else. -/
theorem wp_headcount {call : Call} (hc : call.creates = false) : wp call.exec env w fun _ w' =>
    w'.headcount = takeOff (w.closing call) w.headcount := by
  have keep : ∀ {m : Contract H Unit} [Preserves World.headcount m],
      wp m env w fun _ w' => w'.headcount = takeOff none w.headcount :=
    Preserves.wp World.headcount fun _ _ h => h
  cases call with
  | createShipment => cases hc
  | createShipmentsBatch => cases hc
  | confirmDelivery => exact headcount_confirmDelivery
  | confirmPartialDelivery => exact headcount_confirmPartialDelivery
  | cancelShipment => exact headcount_cancelShipment
  | forceCancelShipment => exact headcount_forceCancelShipment
  | checkDeadline => exact headcount_checkDeadline
  | refundEscrow => exact headcount_refundEscrow
  | resolveDispute => exact headcount_resolveDispute
  | approveAction => exact headcount_approveAction
  | executeProposal => exact headcount_executeProposal
  | _ =>
    unfold Call.exec
    exact keep

/-! ### The open shipments -/

namespace Ledger

variable {Token : Type} (l : Ledger Token) (company : Address)

/-- The shipment is stored, open, and the company's. -/
def isOpenFor (id : ℕ) : Bool :=
  (l.getShipment id).any fun s => s.sender = company ∧ s.status.isOpen = true

/-- The open shipments of a company. -/
def openShipments : Finset ℕ := (Finset.Icc 1 l.shipmentCount).filter (l.isOpenFor company · = true)

variable {l company}

/-- Nothing is stored beyond the last id. -/
theorem Sound.mem_openShipments (h : l.Sound) {id : ℕ} : id ∈ l.openShipments company ↔
    ∃ s, l.getShipment id = some s ∧ s.sender = company ∧ s.status.isOpen = true := by
  unfold openShipments isOpenFor
  rw [Finset.mem_filter, Option.any_eq_true]
  simp only [decide_eq_true_eq]
  constructor
  · exact fun hid => hid.2
  · rintro ⟨s, hs, hopen⟩
    exact ⟨Finset.mem_Icc.mpr (h.ids _ _ hs), s, hs, hopen⟩

/-- The same records, the same open shipments. -/
theorem Sound.openShipments_congr {l' : Ledger Token} (h : l.Sound) (h' : l'.Sound)
    (hg : ∀ id, l'.getShipment id = l.getShipment id) :
    l'.openShipments company = l.openShipments company := by
  ext id
  rw [h.mem_openShipments, h'.mem_openShipments, hg]

/-- A posting moves one shipment in or out. -/
theorem card_openShipments_post (self : Address) (now : ℕ) {p : Posting} (token : Token) (h : l.Sound)
    (hs : l.getShipment p.old.id = some p.old) (hid : p.new.id = p.old.id)
    (hsender : p.new.sender = p.old.sender) :
    ((l.post self now p token).openShipments company).card +
        (if p.old.sender = company ∧ p.old.status.isOpen = true then 1 else 0) =
      (l.openShipments company).card +
        (if p.old.sender = company ∧ p.new.status.isOpen = true then 1 else 0) := by
  have hmem : p.new.id ∈ Finset.Icc 1 l.shipmentCount := by
    rw [hid]
    exact Finset.mem_Icc.mpr (h.ids _ _ hs)
  have hpost : (l.post self now p token).isOpenFor company = Function.update (l.isOpenFor company)
      p.new.id (decide (p.old.sender = company ∧ p.new.status.isOpen = true)) := by
    funext id
    rw [isOpenFor, getShipment_post, Function.update_apply, ← hsender]
    split_ifs <;> rfl
  have hold : l.isOpenFor company p.new.id =
      decide (p.old.sender = company ∧ p.old.status.isOpen = true) := by
    rw [hid, isOpenFor, hs]
    rfl
  have hcard := card_filter_update hmem (l.isOpenFor company)
    (decide (p.old.sender = company ∧ p.new.status.isOpen = true)) true
  rw [hold] at hcard
  simp only [decide_eq_true_eq] at hcard
  unfold openShipments
  rw [hpost, post_shipmentCount]
  exact hcard

/-- A creation moves one shipment in. -/
theorem card_openShipments_enrol (sender : Address) (input : ShipmentInput) (now : ℕ) :
    ((l.enrol (Shipment.new (l.shipmentCount + 1) sender input now)).openShipments company).card =
      (l.openShipments company).card + (if sender = company then 1 else 0) := by
  have hid : (Shipment.new (l.shipmentCount + 1) sender input now).id = l.shipmentCount + 1 := rfl
  have hnew : (l.enrol (Shipment.new (l.shipmentCount + 1) sender input now)).isOpenFor company =
      Function.update (l.isOpenFor company) (l.shipmentCount + 1) (decide (sender = company)) := by
    funext id
    rw [isOpenFor, getShipment_enrol, Function.update_apply, hid]
    split_ifs
    · simp [Shipment.new, ShipmentStatus.isOpen]
    · rfl
  have hcard := card_filter_snoc l.shipmentCount (l.isOpenFor company) (decide (sender = company)) true
  simp only [decide_eq_true_eq] at hcard
  unfold openShipments
  rw [hnew, enrol_shipmentCount]
  exact hcard

end Ledger

/-! ### One call -/

namespace World

variable (w)

/-- Every count is the number of open shipments. -/
def Counted : Prop := ∀ company, w.headcount company = (w.ledger.openShipments company).card

/-- The call closes a shipment, opens one again, or creates more than the counter can
hold, and the count does not follow. -/
def miscounts : Call → Bool
  | .updateStatus _ _ status _ => !status.isOpen
  | .raiseDispute _ id _ => (w.getShipment id).any (·.status = .delivered)
  | .reportConditionBreach _ id _ severity _ => w.getConfig.autoDisputeBreach = true ∧
      severity = .critical ∧ (w.getShipment id).any (·.status = .delivered) = true
  | .createShipment sender _ => u32Max < w.headcount sender + 1
  | .createShipmentsBatch sender inputs => u32Max < w.headcount sender + inputs.length
  | _ => false

end World

variable {call : Call} {p : Posting}

theorem World.closing_of_executing {action : AdminAction} (hx : w.executing call = some action) :
    w.closing call = w.settling action := by
  cases call with
  | approveAction =>
    rw [closing_approveAction, hx]
    rfl
  | executeProposal =>
    rw [closing_executeProposal, hx]
    rfl
  | _ => cases hx

/-- A status from which there is a way on is open. -/
theorem ShipmentStatus.isOpen_of_isValidTransition {s t : ShipmentStatus}
    (h : s.isValidTransition t = true) : s.isOpen = true := by
  cases s with
  | delivered => cases t <;> cases h
  | cancelled => cases t <;> cases h
  | _ => rfl

/-- A posting closes a shipment of the company whose count goes down, or it neither
closes nor opens one. -/
theorem Rule.isOpen (hr : Rule env w call p) (hs : w.getShipment p.old.id = some p.old)
    (hn : call.isRecovery = false) (hm : w.miscounts call = false)
    (hauto : ∀ a id breach severity hash, call = .reportConditionBreach a id breach severity hash →
      w.getConfig.autoDisputeBreach = true ∨ p.new = p.old) :
    (w.closing call = some p.old.sender ∧ p.old.status.isOpen = true ∧ p.new.status.isOpen = false) ∨
      (w.closing call = none ∧ p.new.status.isOpen = p.old.status.isOpen) := by
  have hopen : ∀ {s : ShipmentStatus}, s ≠ .delivered → s ≠ .cancelled → s.isOpen = true :=
    fun h₁ h₂ => decide_eq_true ⟨h₁, h₂⟩
  cases hr with
  | @reportConditionBreach s _ _ _ hcancelled hdisputed =>
    refine .inr ⟨rfl, ?_⟩
    rcases hauto _ _ _ _ _ rfl with hauto | hsame
    · have hdelivered : s.status ≠ .delivered := by
        intro hst
        simp [World.miscounts, hauto, hs, hst] at hm
      exact (hopen hdelivered hcancelled).symm
    · exact congrArg (·.status.isOpen) hsame
  | @updateStatus _ s status _ _ _ ht =>
    refine .inr ⟨rfl, ?_⟩
    have hnew : status.isOpen = true := by simpa [World.miscounts] using hm
    exact hnew.trans (ShipmentStatus.isOpen_of_isValidTransition ht).symm
  | confirmDelivery _ ht =>
    refine .inl ⟨?_, ShipmentStatus.isOpen_of_isValidTransition ht, rfl⟩
    rw [World.closing, hs, Option.map_some]
  | @confirmPartialDelivery s hash percent status _ hst _ _ hstatus =>
    have hold : s.status.isOpen = true := by
      rcases hst with h | h | h <;> rw [h] <;> rfl
    have hnew : status.isOpen = !decide (s.share percent = s.escrowAmount) := by
      rw [hstatus]
      split_ifs with hall <;> simp [hall, ShipmentStatus.isOpen]
    have hclosing : w.closing (.confirmPartialDelivery s.receiver s.id hash percent) =
        if s.share percent = s.escrowAmount then some s.sender else none := by
      rw [World.closing, hs, Option.bind_some]
    by_cases hall : s.share percent = s.escrowAmount
    · refine .inl ⟨by rw [hclosing, if_pos hall], hold, ?_⟩
      exact hnew.trans (by simp [hall])
    · refine .inr ⟨by rw [hclosing, if_neg hall], ?_⟩
      exact hnew.trans (by simp [hall, hold])
  | @recordMilestonesBatch s items =>
    have hb := s.batchOf_payBatch env.timestamp (items.map (·.1))
    exact .inr ⟨rfl, congrArg ShipmentStatus.isOpen hb.status_eq⟩
  | @cancelShipment caller s hash _ _ hdelivered _ =>
    have hclosing : w.closing (.cancelShipment caller s.id hash) =
        if s.status = .cancelled then none else some s.sender := by
      rw [World.closing, hs, Option.bind_some]
    by_cases hst : s.status = .cancelled
    · refine .inr ⟨by rw [hclosing, if_pos hst], ?_⟩
      rw [hst]
      rfl
    · exact .inl ⟨by rw [hclosing, if_neg hst], hopen hdelivered hst, rfl⟩
  | @refundEscrow caller s _ _ hst _ =>
    have hclosing : w.closing (.refundEscrow caller s.id) =
        if s.status = .cancelled then none else some s.sender := by
      rw [World.closing, hs, Option.bind_some]
    rcases hst with hst | hst
    · refine .inl ⟨by rw [hclosing, hst]; rfl, ?_, rfl⟩
      rw [hst]
      rfl
    · refine .inr ⟨by rw [hclosing, if_pos hst], ?_⟩
      rw [hst]
      rfl
  | forceCancelShipment _ _ h₁ h₂ =>
    refine .inl ⟨?_, hopen h₁ h₂, rfl⟩
    rw [World.closing, hs, Option.map_some]
  | checkDeadline _ h₁ _ h₂ =>
    refine .inl ⟨?_, hopen h₁ h₂, rfl⟩
    rw [World.closing, hs, Option.map_some]
  | @raiseDispute _ s _ _ _ hcancelled _ =>
    have hdelivered : s.status ≠ .delivered := by
      intro hst
      simp [World.miscounts, hs, hst] at hm
    exact .inr ⟨rfl, (hopen hdelivered hcancelled).symm⟩
  | releaseToCarrier _ _ hst =>
    refine .inl ⟨?_, by rw [hst]; rfl, rfl⟩
    rw [World.closing, hs, Option.map_some]
  | refundToCompany _ _ hst =>
    refine .inl ⟨?_, by rw [hst]; rfl, rfl⟩
    rw [World.closing, hs, Option.map_some]
  | forceRelease hx h₁ h₂ =>
    refine .inl ⟨?_, hopen h₁ h₂, rfl⟩
    rw [World.closing_of_executing hx, World.settling, hs, Option.map_some]
  | forceRefund hx h₁ h₂ =>
    refine .inl ⟨?_, hopen h₁ h₂, rfl⟩
    rw [World.closing_of_executing hx, World.settling, hs, Option.map_some]
  | recoverShipment => cases hn
  | unlockEscrow => cases hn
  | clearFinalization => cases hn
  | rollbackOnExternalFailure => cases hn
  | _ => exact .inr ⟨rfl, rfl⟩

/-- A posting that the count follows. -/
theorem World.Counted.posted (h : w.Counted) (hs : w.ledger.Sound) (hp : PostedBy env w call p w'.book)
    (hc : w'.headcount = takeOff (w.closing call) w.headcount)
    (ho : (w.closing call = some p.old.sender ∧ p.old.status.isOpen = true ∧
        p.new.status.isOpen = false) ∨
      (w.closing call = none ∧ p.new.status.isOpen = p.old.status.isOpen)) : w'.Counted := by
  intro company
  have hkeeps := hp.rule.keeps
  have hcard : (w'.ledger.openShipments company).card +
      (if p.old.sender = company ∧ p.old.status.isOpen = true then 1 else 0) =
        (w.ledger.openShipments company).card +
          (if p.old.sender = company ∧ p.new.status.isOpen = true then 1 else 0) := by
    obtain ⟨_, token, _, _, hb⟩ := hp.posted
    have hl : w'.ledger = _ := congrArg Book.ledger hb
    rw [hl]
    exact Ledger.card_openShipments_post _ _ token hs hp.stored hkeeps.id_eq hkeeps.sender_eq
  have hbefore := h company
  rw [hc]
  rcases ho with ⟨hclosing, hold, hnew⟩ | ⟨hclosing, hsame⟩
  · rw [hclosing, takeOff]
    by_cases hsender : p.old.sender = company
    · subst hsender
      rw [Function.update_self]
      simp only [hold, hnew, and_self, and_false, if_true, if_false, Bool.false_eq_true] at hcard
      omega
    · rw [Function.update_of_ne (Ne.symm hsender)]
      simp only [hsender, false_and, if_false] at hcard
      omega
  · rw [hclosing, takeOff]
    rw [hsame] at hcard
    omega

theorem World.Counted.same (h : w.Counted) (hs : w.ledger.Sound) (hs' : w'.ledger.Sound)
    (hc : w'.headcount = w.headcount) (hg : ∀ id, w'.getShipment id = w.getShipment id) : w'.Counted := by
  intro company
  rw [hc, h company, hs.openShipments_congr hs' hg]

/-- What is rewritten was posted. -/
theorem Rewritten.posted (hr : Rewritten w w') (hs : w.ledger.Sound)
    (hx : call.exec env w = .ok () w') : ∃ p, PostedBy env w call p w'.book := by
  obtain ⟨id, s, s', hold, hnew, hne⟩ := hr
  obtain ⟨s'', hget, hsame | ⟨p, hp, -⟩⟩ := (exec_effects hs.keyed hx).record hs hold
  · have hnew : w'.ledger.getShipment id = some s' := by
      unfold Ledger.getShipment
      rw [hnew]
    rw [book_ledger, hnew] at hget
    exact absurd (Option.some.inj hget |>.trans hsame) hne
  · exact ⟨p, hp⟩

/-- A count goes down with a posting. -/
theorem posted_of_closing (hs : w.ledger.Sound) (hx : call.exec env w = .ok () w')
    (hc : w.closing call ≠ none) : ∃ p, PostedBy env w call p w'.book := by
  by_cases hposts : call.posts = true
  · exact (exec_effects hs.keyed hx).exists_posting hposts
  · -- the other calls that lower a count execute a proposal
    have hsettles : ∀ a, w.settling a ≠ none → a.settles = true := by
      intro a ha
      cases a <;> first | rfl | exact absurd rfl ha
    have hexecuting : (w.executing call).bind w.settling ≠ none →
        (w.executing call).any (·.settles) = true := by
      cases w.executing call with
      | none => exact fun h => absurd rfl h
      | some a => exact hsettles a
    cases call with
    | approveAction a pid =>
      have hr := (tables_approveAction hs.keyed).of_returns hx
      rw [if_pos (hexecuting hc)] at hr
      exact hr.posted hs hx
    | executeProposal pid =>
      have hr := (tables_executeProposal hs.keyed).of_returns hx
      rw [if_pos (hexecuting hc)] at hr
      exact hr.posted hs hx
    | _ => first | exact absurd rfl hposts | exact absurd rfl hc

/-- A breach report writes a record only to dispute it. -/
theorem PostedBy.of_report (hp : PostedBy env w call p w'.book) (hk : w.ledger.Keyed)
    (hx : call.exec env w = .ok () w') (a : Address) (id : ℕ) (breach : BreachType)
    (severity : Severity) (hash : BytesN32)
    (hcall : call = .reportConditionBreach a id breach severity hash) :
    w.getConfig.autoDisputeBreach = true ∨ p.new = p.old := by
  subst hcall
  by_cases hauto : w.getConfig.autoDisputeBreach = true
  · exact .inl hauto
  · refine .inr ?_
    have htables : w'.tables = w.tables :=
      (tables_reportConditionBreach hk () w' hx).2 fun hd => hauto hd.1
    have hl : w'.ledger.shipment = w.ledger.shipment := congrArg Prod.fst htables
    have ha : w'.ledger.archivedShipment = w.ledger.archivedShipment := congrArg (·.2.1) htables
    have hnew := hp.stored_new
    rw [book_ledger, Ledger.getShipment, hl, ha, ← Ledger.getShipment, hp.stored] at hnew
    exact (Option.some.inj hnew).symm

/-- A call that does not create leaves the counts exact. -/
theorem World.Counted.kept (h : w.Counted) (hs : w.ledger.Sound) (hcreates : call.creates = false)
    (hn : call.isRecovery = false) (hm : w.miscounts call = false) (hx : call.exec env w = .ok () w') :
    w'.Counted := by
  have hc : w'.headcount = takeOff (w.closing call) w.headcount := wp_headcount hcreates () w' hx
  have of_posted : (∃ p, PostedBy env w call p w'.book) → w'.Counted := by
    rintro ⟨p, hp⟩
    exact h.posted hs hp hc (hp.rule.isOpen hp.stored hn hm (hp.of_report hs.keyed hx))
  by_cases hclosing : w.closing call = none
  · obtain hp | hsame := posted_or_same hs.keyed hcreates hx
    · exact of_posted hp
    · rw [hclosing] at hc
      exact h.same hs ((exec_effects hs.keyed hx).sound hs) hc hsame
  · exact of_posted (posted_of_closing hs hx hclosing)

/-! ### Creations -/

variable {sender : Address} {input : ShipmentInput} {inputs : List ShipmentInput} {now : ℕ}

theorem World.headcount_reserved (company : Address) (n : ℕ) :
    (w.reserved company now n).headcount = w.headcount :=
  w.apply_reserved company now (·.headcount) (fun _ => rfl) n

theorem World.Counted.congr (hl : w'.ledger = w.ledger) (hc : w'.headcount = w.headcount) :
    w'.Counted ↔ w.Counted := by
  unfold World.Counted
  rw [hl, hc]

theorem World.Counted.enrol (h : w.Counted) (hmax : w.headcount sender + 1 ≤ u32Max) :
    (w.enrol sender now input).Counted := by
  intro company
  have hcard : ((w.ledger.enrol (Shipment.new (w.ledger.shipmentCount + 1) sender input
      now)).openShipments company).card = _ := w.ledger.card_openShipments_enrol sender input now
  have hcount : (w.enrol sender now input).headcount =
      Function.update w.headcount sender (w.headcount sender + 1) := by
    have hsat : saturatingAddU32 (w.headcount sender) 1 = w.headcount sender + 1 := min_eq_left hmax
    change Function.update w.headcount sender (saturatingAddU32 (w.headcount sender) 1) = _
    rw [hsat]
  rw [hcount]
  refine Eq.trans ?_ hcard.symm
  have hbefore := h company
  by_cases hs : sender = company
  · subst hs
    rw [Function.update_self, if_pos rfl, hbefore]
  · rw [Function.update_of_ne (Ne.symm hs), if_neg hs, hbefore, add_zero]

theorem World.Counted.enrolAll (h : w.Counted)
    (hmax : w.headcount sender + inputs.length ≤ u32Max) :
    (w.enrolAll sender now inputs).Counted := by
  induction inputs generalizing w with
  | nil => exact h
  | cons input inputs ih =>
    rw [List.length_cons] at hmax
    have hfirst : w.headcount sender + 1 ≤ u32Max := by omega
    have hcount : (w.enrol sender now input).headcount sender = w.headcount sender + 1 := by
      refine (Function.update_self ..).trans ?_
      exact min_eq_left hfirst
    refine ih (h.enrol hfirst) ?_
    rw [hcount]
    omega

/-- A creation the counter can hold. -/
theorem World.Counted.created (h : w.Counted) (hcreates : call.creates = true)
    (hm : w.miscounts call = false) (hx : call.exec env w = .ok () w') : w'.Counted := by
  cases call with
  | createShipment sender input =>
    obtain ⟨id, hx⟩ := returns_discard.mp hx
    obtain ⟨-, -, -, -, -, -, -, -, rfl⟩ := returns_createShipment.mp hx
    have hm : w.headcount sender + 1 ≤ u32Max := by simpa [World.miscounts] using hm
    refine World.Counted.enrol ?_ ?_
    · exact (World.Counted.congr (World.reserved_ledger ..) (World.headcount_reserved ..)).mpr h
    · rw [World.headcount_reserved]
      exact hm
  | createShipmentsBatch sender inputs =>
    obtain ⟨ids, hx⟩ := returns_discard.mp hx
    obtain ⟨-, -, -, -, -, -, -, rfl⟩ := returns_createShipmentsBatch.mp hx
    have hm : w.headcount sender + inputs.length ≤ u32Max := by simpa [World.miscounts] using hm
    refine World.Counted.enrolAll ?_ ?_
    · exact (World.Counted.congr (World.reserved_ledger ..) (World.headcount_reserved ..)).mpr h
    · rw [World.headcount_reserved]
      exact hm
  | _ => cases hcreates

/-! ### Refusals -/

/-- The error of the limit. -/
@[reducible] def NavinError.isLimit : NavinError → Bool
  | .shipmentLimitReached => true
  | _ => false

/-- The function does not report the limit. -/
abbrev Limitless {α : Type} (m : Contract H α) : Prop := Never NavinError.isLimit m

section

instance (ms : List (Symbol × ℕ)) : Limitless (validateMilestones ms : Contract H Unit) := by
  unfold validateMilestones validateMilestoneSymbols validateMilestoneEntry validateSymbol
  infer_instance

instance (payload : List UInt8) : Limitless (checkIdempotency payload : Contract H Unit) := by
  unfold checkIdempotency hasIdempotencyWindow setIdempotencyWindow
  infer_instance

instance (a : Address) (n : ℕ) : Limitless (checkAndUpdateCreationQuotaBy a n : Contract H Unit) := by
  unfold checkAndUpdateCreationQuotaBy
  infer_instance

instance (a : Address) (input : ShipmentInput) (now : ℕ) (c : ContractConfig) :
    Limitless (storeNewShipment a input now c : Contract H ℕ) := by
  unfold storeNewShipment incrementStatusCount incrementActiveShipmentCount emitShipmentCreated
    setActiveShipmentCount
  infer_instance

instance (a : Address) (c : ContractConfig) (now : ℕ) (ids : List ℕ) (input : ShipmentInput) :
    Limitless (createBatchItem a c now ids input : Contract H (List ℕ)) := by
  unfold createBatchItem
  infer_instance

end

theorem not_refused {α : Type} {m : Contract H α} [h : Limitless m] :
    ¬m.FailsWith env w .shipmentLimitReached := h.not_failsWith rfl

theorem failsWith_serve {β : Type} {n : Contract H β} :
    (openCall sender >>= fun _ => requireRole sender .company >>= fun _ => n).FailsWith env w
      .shipmentLimitReached ↔
      w.Serves env sender ∧ n.FailsWith env (w.signed sender) .shipmentLimitReached := by
  rw [failsWith_unit_bind not_refused fun _ _ => returns_openCall,
    failsWith_unit_bind not_refused fun _ _ => returns_requireRole]
  constructor
  · rintro ⟨⟨hi, hp, ha⟩, ⟨-, hc⟩, h⟩
    exact ⟨⟨hi, hp, ha, hc⟩, h⟩
  · rintro ⟨hs, h⟩
    exact ⟨⟨hs.initialized, hs.running, hs.signed⟩, ⟨hs.initialized, hs.company⟩, h⟩

/-- A single creation is refused for the limit when it passes what comes before, and the
limit is reached. -/
theorem failsWith_createShipment :
    (Call.createShipment sender input).exec.FailsWith env w .shipmentLimitReached ↔
      w.Serves env sender ∧ input.Acceptable env.timestamp ∧
      (sender ≠ input.receiver ∧ sender ≠ input.carrier) ∧
      w.windowOpen env (H.sha256 (creationPayload sender input)) = false ∧
      w.getEffectiveShipmentLimit sender ≤ w.headcount sender := by
  refine failsWith_discard.trans ?_
  unfold createShipment validateHash timestamp
  rw [failsWith_serve,
    failsWith_unit_bind not_refused fun _ _ => returns_validateMilestones,
    failsWith_rejectIf_bind (by decide), failsWith_rejectIf_bind (by decide),
    failsWith_unit_bind not_refused fun _ _ => returns_checkIdempotency]
  simp only [bind_assoc, failsWith_ask_bind, failsWith_pure_bind]
  rw [failsWith_rejectIf_bind (by decide), failsWith_gets_bind, failsWith_gets_bind,
    failsWith_rejectIf_last not_refused]
  constructor
  · rintro ⟨hs, hm, hh, hp, hw, hd, hl⟩
    rw [not_or, not_or] at hp
    exact ⟨hs, ⟨hp.2.2, hm, hh, not_le.mp hd⟩, ⟨hp.1, hp.2.1⟩, hw, hl⟩
  · rintro ⟨hs, ha, ⟨hp₁, hp₂⟩, hw, hl⟩
    exact ⟨hs, ha.scheduled, ha.hashed, not_or.mpr ⟨hp₁, not_or.mpr ⟨hp₂, ha.apart⟩⟩, hw,
      not_le.mpr ha.later, hl⟩

/-- A batch is refused for the limit when it is not too long, and does not fit. -/
theorem failsWith_createShipmentsBatch :
    (Call.createShipmentsBatch sender inputs).exec.FailsWith env w .shipmentLimitReached ↔
      w.Serves env sender ∧ inputs.length ≤ w.getConfig.batchOperationLimit ∧
      w.getEffectiveShipmentLimit sender < saturatingAddU32 (w.headcount sender) inputs.length := by
  refine failsWith_discard.trans ?_
  unfold createShipmentsBatch timestamp
  rw [failsWith_serve, failsWith_gets_bind, failsWith_rejectIf_bind (by decide), not_lt]
  simp only [bind_assoc, failsWith_ask_bind, failsWith_pure_bind]
  rw [failsWith_gets_bind, failsWith_gets_bind,
    failsWith_rejectIf_last not_refused]
  rfl

/-! ### Runs -/

/-- What is called and goes through is no recovery, and the count follows it. -/
def Label.Counts (c : Chain H) : Label → Prop
  | .committed call _ _ => call.isRecovery = false ∧ c.world.miscounts call = false
  | _ => True

instance (c : Chain H) (l : Label) : Decidable (l.Counts c) :=
  match l with
  | .committed call _ _ =>
    inferInstanceAs (Decidable (call.isRecovery = false ∧ c.world.miscounts call = false))
  | .reverted .. => .isTrue trivial
  | .outside => .isTrue trivial

variable {c c' : Chain H} {l : Label}

/-- A step that the count follows leaves the counts exact. -/
theorem Step.counted (hstep : Step c l c') (hl : l.Counts c) (hs : c.world.ledger.Sound)
    (h : c.world.Counted) : c'.world.Counted := by
  have hs' : c'.world.ledger.Sound := hstep.sound hs
  cases hstep with
  | @committed call env w' _ hx =>
    obtain ⟨hn, hm⟩ := hl
    have h : c.world.fresh.Counted := h
    have hs : c.world.fresh.ledger.Sound := hs
    change w'.Counted
    by_cases hcreates : call.creates = true
    · exact h.created hcreates hm hx
    · exact h.kept hs (by simpa using hcreates) hn hm hx
  | reverted => exact h
  | outside => exact h.same hs hs' rfl fun _ => rfl

/-- Along every run of a deployed contract without recoveries, without a shipment closed
by `update_status`, without a dispute over a delivered shipment and without more creations
than the counter can hold, the count of every company is the number of its open
shipments. There a creation that passes the checks before is refused for the limit
exactly when the open shipments have reached it, and a batch exactly when they would go
beyond it. -/
theorem active_count_exact {c₀ : Chain H} {ls : List Label} (hd : Deployed c₀)
    (hr : Run (Under Step fun c l => l.Counts c) c₀ ls c) :
    (∀ company, c.world.registry.activeShipmentCount company =
      (c.world.ledger.openShipments company).card) ∧
    (∀ env sender input,
      (Call.createShipment sender input).exec.FailsWith env c.world.fresh .shipmentLimitReached ↔
        (c.world.Serves env sender ∧ input.Acceptable env.timestamp ∧
          (sender ≠ input.receiver ∧ sender ≠ input.carrier) ∧
          c.world.windowOpen env (H.sha256 (creationPayload sender input)) = false) ∧
        c.world.getEffectiveShipmentLimit sender ≤ (c.world.ledger.openShipments sender).card) ∧
    ∀ env sender inputs,
      (Call.createShipmentsBatch sender inputs).exec.FailsWith env c.world.fresh .shipmentLimitReached ↔
        (c.world.Serves env sender ∧ inputs.length ≤ c.world.getConfig.batchOperationLimit) ∧
        c.world.getEffectiveShipmentLimit sender <
          saturatingAddU32 (c.world.ledger.openShipments sender).card inputs.length := by
  have hcounted : c.world.Counted := by
    refine (hr.inv (I := fun c => c.world.ledger.Sound ∧ c.world.Counted) ?_ ?_).2
    · refine ⟨hd.sound, fun company => ?_⟩
      cases hd
      rfl
    · rintro a l b ⟨hs, h⟩ ⟨hstep, hl⟩
      exact ⟨hstep.sound hs, hstep.counted hl hs h⟩
  have hserves : ∀ env sender, c.world.fresh.Serves env sender ↔ c.world.Serves env sender :=
    fun _ _ => ⟨fun h => ⟨h.1, h.2, h.3, h.4⟩, fun h => ⟨h.1, h.2, h.3, h.4⟩⟩
  refine ⟨hcounted, fun env sender input => ?_, fun env sender inputs => ?_⟩
  · rw [failsWith_createShipment, hserves, ← hcounted sender]
    simp only [and_assoc]
    rfl
  · rw [failsWith_createShipmentsBatch, hserves, ← hcounted sender, and_assoc]
    rfl

/-- The first of two shipments is cancelled: the company has one open shipment and may
create more. -/
theorem active_count_cancelled : ∃ (c : Chain Deployment.host) (ls : List Label),
    Run (Under Step fun c l => l.Counts c) Deployment.chain ls c ∧
      (c.world.getShipment 2).isSome = true ∧
      c.world.registry.activeShipmentCount Deployment.company =
        (c.world.ledger.openShipments Deployment.company).card := by
  obtain ⟨ls, c, -, hp, hs⟩ := exists_play Deployment.chain
    (Deployment.opening ++ [
      Deployment.signed Deployment.company 5 (.createShipmentsBatch Deployment.company
        [{ Deployment.shipment with dataHash := 2 }]),
      Deployment.signed Deployment.company 6 (.cancelShipment Deployment.company 1 3)])
    (fun r => (r.2.world.getShipment 2).isSome = true) (by decide +kernel)
  have hr : Run (Under Step fun c l => l.Counts c) Deployment.chain ls c :=
    run_under_of_play hp (by decide +kernel)
  exact ⟨c, ls, hr, hs, (active_count_exact Deployment.deployed hr).1 Deployment.company⟩

/-- The carrier reports the delivery: the shipment is closed and still counted. -/
theorem delivered_by_status :
    ¬∀ (c : Chain Deployment.host) (ls : List Label), Run Step Deployment.chain ls c →
      (∀ l ∈ ls, l.calls Call.isRecovery = false) →
      ∀ company, c.world.registry.activeShipmentCount company =
        (c.world.ledger.openShipments company).card := by
  intro hall
  obtain ⟨ls, c, hr, -, hls, hne⟩ := exists_play Deployment.chain
    (Deployment.opening ++ [
      Deployment.signed Deployment.carrier 100
        (.updateStatus Deployment.carrier 1 .inTransit 2),
      Deployment.signed Deployment.carrier 1000
        (.updateStatus Deployment.carrier 1 .delivered 3)])
    (fun r => (∀ l ∈ r.1, l.calls Call.isRecovery = false) ∧
      r.2.world.registry.activeShipmentCount Deployment.company ≠
        (r.2.world.ledger.openShipments Deployment.company).card) (by decide +kernel)
  exact hne (hall c ls hr hls Deployment.company)

end Navin
