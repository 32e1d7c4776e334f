/-
# What a call tells

The contract publishes events so that others can follow it without reading its storage.
Here is what each event tells of a shipment, and what each call tells beside its payments:
one thing at the most.

Key definitions:
- `Tiding`: what can be told of a shipment;
- `Event.news?`, `Payment.news?`, `Effect.tiding?`: what an event tells;
- `tidingsOf`, `Label.tidings`: what a trace tells, and a step;
- `World.tells`: what a call tells beside its payments.

Key theorems:
- `tidingsOf_perm`: what is told beside the payments, and by them;
- `news_exec`: what each call that creates nothing tells.
-/
import Navin.Breaches
import Navin.Amounts
import Navin.Headcount

namespace Navin

open Tx

set_option synthInstance.maxSize 4000

variable {H : Host} {env : Env} {w w' : World H} {call : Call} {a b : Address} {id : ℕ} {s : Shipment}

/-! ### What an event tells -/

/-- What is told of a shipment: that it was created, has a new status, has more or less in
escrow, or was cancelled and its escrow refunded. -/
inductive Tiding where
  | created
  | status (s : ShipmentStatus)
  | escrow (change : ℤ)
  | refunded (amount : ℤ)
  deriving DecidableEq

/-- What an event tells that is no payment. -/
@[reducible] def Event.news? : Event → Option (ℕ × Tiding)
  | .shipmentCreated id .. => some (id, .created)
  | .statusUpdated id _ new .. => some (id, .status new)
  | .deliveryConfirmed id .. => some (id, .status .delivered)
  | .shipmentCancelled id .. => some (id, .status .cancelled)
  | .forceCancelled id .. => some (id, .status .cancelled)
  | .shipmentExpired id .. => some (id, .status .cancelled)
  | .disputeRaised id .. => some (id, .status .disputed)
  | .disputeResolved id resolution .. => some (id, .status resolution.status)
  | .recoveryEvent id _ _ new .. => some (id, .status new)
  | .proposalExecuted _ (.forceRelease id) => some (id, .status .delivered)
  | .proposalExecuted _ (.forceRefund id) => some (id, .status .cancelled)
  | .escrowDeposited id _ _ amount _ => some (id, .escrow amount)
  | .escrowUnlockEvent id _ oldAmount .. => some (id, .escrow (-oldAmount))
  | _ => none

@[reducible] def Effect.news? : Effect → Option (ℕ × Tiding)
  | .event e => e.news?
  | _ => none

/-- What a payment event tells: a refund is made only to cancel. -/
def Payment.news? : Payment → Option (ℕ × Tiding)
  | .released id _ amount => some (id, .escrow (-amount))
  | .refunded id _ amount => some (id, .refunded amount)
  | _ => none

/-- What an effect tells an indexer, who sees the events only. -/
def Effect.tiding? : Effect → Option (ℕ × Tiding)
  | .event e => e.news?.or ((Effect.payment? (.event e)).bind Payment.news?)
  | _ => none

def tidingsOf (trace : List Effect) : List (ℕ × Tiding) := trace.filterMap Effect.tiding?

def newsOf (trace : List Effect) : List (ℕ × Tiding) := trace.filterMap Effect.news?

/-- What a step tells. -/
def Label.tidings : Label → List (ℕ × Tiding)
  | .committed _ _ trace => tidingsOf trace
  | _ => []

theorem Effect.news?_of_payment {e : Effect} (h : (Effect.payment? e).isSome) : e.news? = none := by
  cases e with
  | event e => cases e <;> first | rfl | cases h
  | _ => rfl

theorem newsOf_snoc (trace : List Effect) (e : Event) :
    newsOf (trace ++ [.event e]) = newsOf trace ++ e.news?.toList := by
  cases h : e.news? with
  | none => simp [newsOf, h]
  | some x => simp [newsOf, h]

/-- What is told is what is told beside the payments, and by them. -/
theorem tidingsOf_perm (trace : List Effect) :
    (tidingsOf trace).Perm (newsOf trace ++ (paymentsOf trace).filterMap Payment.news?) := by
  unfold tidingsOf newsOf paymentsOf
  rw [List.filterMap_filterMap]
  induction trace with
  | nil => exact .refl _
  | cons e trace ih =>
    have hsplit : e.tiding? = e.news?.or ((Effect.payment? e).bind Payment.news?) := by
      cases e <;> rfl
    simp only [List.filterMap_cons, hsplit]
    cases hnews : e.news? with
    | some x =>
      have hpay : Effect.payment? e = none := by
        cases hp : Effect.payment? e with
        | none => rfl
        | some q =>
          rw [Effect.news?_of_payment (by rw [hp]; rfl)] at hnews
          cases hnews
      simp only [hpay, Option.bind_none]
      exact ih.cons x
    | none =>
      cases hpay : (Effect.payment? e).bind Payment.news? with
      | none => exact ih
      | some x => exact (ih.cons x).trans List.perm_middle.symm

/-! ### What a call tells beside its payments -/

def AdminAction.news? : AdminAction → Option (ℕ × Tiding)
  | .forceRelease id => some (id, .status .delivered)
  | .forceRefund id => some (id, .status .cancelled)
  | _ => none

/-- What a call that creates nothing tells beside its payments. -/
def World.tells (w : World H) (call : Call) : Option (ℕ × Tiding) :=
  match call with
  | .updateStatus _ id status _ => some (id, .status status)
  | .confirmDelivery _ id _ => some (id, .status .delivered)
  | .confirmPartialDelivery _ id _ percent => (w.getShipment id).map fun s =>
      (id, .status (if s.share percent = s.escrowAmount then .delivered else .partiallyDelivered))
  | .cancelShipment _ id _ => some (id, .status .cancelled)
  | .forceCancelShipment _ id _ => some (id, .status .cancelled)
  | .checkDeadline id => some (id, .status .cancelled)
  | .raiseDispute _ id _ => some (id, .status .disputed)
  | .reportConditionBreach _ id _ severity _ =>
    if (w.getShipment id).any fun s => decide (w.Opens severity s) then some (id, .status .disputed)
    else none
  | .resolveDispute _ id resolution _ => some (id, .status resolution.status)
  | .recoverShipment _ id status _ => some (id, .status status)
  | .rollbackOnExternalFailure _ id status _ => some (id, .status status)
  | .unlockEscrow _ id _ => (w.getShipment id).map fun s => (id, .escrow (-s.escrowAmount))
  | .depositEscrow _ id amount => some (id, .escrow (netOfFee w.governance.feeConfig amount))
  | .approveAction .. | .executeProposal .. => (w.executing call).bind (·.news?)
  | _ => none

def World.news (w : World H) : List (ℕ × Tiding) := newsOf w.trace

/-- One more thing is told. -/
def telling (x : ℕ × Tiding) (log : List (ℕ × Tiding)) : List (ℕ × Tiding) := log ++ [x]

section

instance : LedgerFree (World.news (H := H)) := ⟨fun _ _ => rfl⟩

instance : RegistryFree (World.news (H := H)) := ⟨fun _ _ => rfl⟩

instance : DossierFree (World.news (H := H)) := ⟨fun _ _ => rfl⟩

instance : GovernanceFree (World.news (H := H)) := ⟨fun _ _ => rfl⟩

instance : AuthFree (World.news (H := H)) := ⟨fun w a => by simp [World.news, newsOf]⟩

instance : PaymentFree (World.news (H := H)) := ⟨fun w e he => by
  simp [World.news, newsOf, Effect.news?_of_payment he]⟩

instance (e : Event) [h : Same e.news? none] :
    Preserves (World.news (H := H)) (log (.event e) : Contract H Unit) := .modify fun w => by
  have hnone : Effect.news? (.event e) = none := h.out
  simp [World.news, newsOf, hnone]

instance (e : Event) (x : ℕ × Tiding) [h : Same e.news? (some x)] :
    Writes (World.news (H := H)) (telling x) (log (.event e) : Contract H Unit) := .modify fun w => by
  have hsome : Effect.news? (.event e) = some x := h.out
  simp [World.news, newsOf, telling, hsome]

variable {x : ℕ × Tiding}

instance writes_emitKeyed (domain : ℕ) (topic : String) (event : EventKey → Event)
    [∀ k, Same (event k).news? (some x)] :
    Writes World.news (telling x) (emitKeyed domain topic id event : Contract H Unit) := by
  unfold emitKeyed
  infer_instance

instance writes_emitKeyedWithToken (domain : ℕ) (topic : String) (event : Address → EventKey → Event)
    [∀ t k, Same (event t k).news? (some x)] :
    Writes World.news (telling x) (emitKeyedWithToken domain topic id event : Contract H Unit) := by
  unfold emitKeyedWithToken
  infer_instance

end

/-! ### Calls that tell nothing -/

instance news_logAudit (t : AuditEventType) :
    Preserves World.news (logAudit t a b : Contract H Unit) := by
  unfold logAudit
  infer_instance

instance news_emitRoleChanged (x : RoleChangeAction) (r : Role) :
    Preserves World.news (emitRoleChanged x a b r : Contract H Unit) := by
  unfold emitRoleChanged
  infer_instance

instance news_emitMilestoneRecorded (name : Symbol) (hash : BytesN32) :
    Preserves World.news (emitMilestoneRecorded id name hash a : Contract H Unit) := by
  unfold emitMilestoneRecorded
  infer_instance

instance news_emitEscrowReleased (x : ℤ) :
    Preserves World.news (emitEscrowReleased id a x : Contract H Unit) := by
  unfold emitEscrowReleased
  infer_instance

instance news_emitEscrowRefunded (x : ℤ) :
    Preserves World.news (emitEscrowRefunded id a x : Contract H Unit) := by
  unfold emitEscrowRefunded
  infer_instance

instance news_internalReleaseEscrow (x : ℤ) :
    Preserves World.news (internalReleaseEscrow s x : Contract H Shipment) := by
  unfold internalReleaseEscrow
  infer_instance

instance news_payRecordedMilestone (name : Symbol) :
    Preserves World.news (payRecordedMilestone id s name : Contract H Shipment) := by
  unfold payRecordedMilestone emitMilestonePaymentReleased
  split <;> infer_instance

instance news_recordBatchItem (item : Symbol × BytesN32) :
    Preserves World.news (recordBatchItem a id s item : Contract H Shipment) := by
  unfold recordBatchItem emitMilestonePaymentReleased
  split <;> infer_instance

instance news_collectPlatformFee (x : ℤ) :
    Preserves World.news (collectPlatformFee id a x : Contract H ℤ) := by
  unfold collectPlatformFee emitPlatformFeeCollected
  refine @Preserves.bind _ _ _ _ _ _ _ _ _ inferInstance fun c => ?_
  cases c <;> (dsimp only; infer_instance)

/-! ### Calls that do -/

variable {caller carrier admin receiver source : Address} {hash : BytesN32} {percent pid : ℕ}
  {status : ShipmentStatus} {resolution : DisputeResolution} {amount : ℤ} {action : AdminAction}

theorem news_updateStatus : wp (updateStatus caller id status hash) env w fun _ w' =>
    w'.news = telling (id, .status status) w.news := by
  have h : Writes World.news (telling (id, .status status))
      (updateStatus caller id status hash : Contract H Unit) := by
    unfold updateStatus emitStatusUpdated
    infer_instance
  exact h.out env w

theorem news_confirmDelivery : wp (confirmDelivery receiver id hash) env w fun _ w' =>
    w'.news = telling (id, .status .delivered) w.news := by
  have h : Writes World.news (telling (id, .status .delivered))
      (confirmDelivery receiver id hash : Contract H Unit) := by
    unfold confirmDelivery emitDeliveryConfirmed emitDeliverySuccess
    infer_instance
  exact h.out env w

/-- The new status is the one the shares make up. -/
theorem news_confirmPartialDelivery :
    wp (confirmPartialDelivery receiver id hash percent) env w fun _ w' =>
      ∃ s, w.getShipment id = some s ∧ w'.news = telling (id, .status
        (if s.share percent = s.escrowAmount then .delivered else .partiallyDelivered)) w.news := by
  unfold confirmPartialDelivery emitStatusUpdated
  rw [wp_bind]
  refine wp_openCall fun _ _ => ?_
  rw [wp_bind]
  refine wp_guard fun _ => ?_
  rw [wp_bind]
  refine wp_guard fun _ => ?_
  rw [wp_bind]
  refine wp_loadShipment fun s hs => ?_
  have hs : w.getShipment id = some s := hs
  dsimp only
  rw [wp_bind]
  refine wp_guard fun _ => ?_
  rw [wp_bind]
  refine wp_guard fun _ => ?_
  rw [wp_bind]
  refine wp_guard fun _ => ?_
  rw [wp_bind]
  refine wp_checkedMulDiv ?_
  rw [wp_bind]
  refine wp_guard fun _ => ?_
  rw [wp_bind, wp_okOr]
  intro released hreleased
  rw [wp_bind, wp_okOr]
  intro total htotal
  have htotal : (total = s.totalEscrow) ↔ s.share percent = s.escrowAmount := by
    have h₁ := checkedI128_eq_some hreleased
    have h₂ := checkedI128_eq_some htotal
    unfold Shipment.share
    omega
  refine Writes.wp World.news (g := telling (id, .status
    (if total = s.totalEscrow then .delivered else .partiallyDelivered))) fun _ w' h => ⟨s, hs, ?_⟩
  have hc : (w.signed receiver).news = w.news := AuthFree.out w receiver
  rw [h, hc, if_congr htotal rfl rfl]

theorem news_cancelShipment : wp (cancelShipment caller id hash) env w fun _ w' =>
    w'.news = telling (id, .status .cancelled) w.news := by
  have h : Writes World.news (telling (id, .status .cancelled))
      (cancelShipment caller id hash : Contract H Unit) := by
    unfold cancelShipment emitShipmentCancelled
    infer_instance
  exact h.out env w

theorem news_forceCancelShipment : wp (forceCancelShipment admin id hash) env w fun _ w' =>
    w'.news = telling (id, .status .cancelled) w.news := by
  have h : Writes World.news (telling (id, .status .cancelled))
      (forceCancelShipment admin id hash : Contract H Unit) := by
    unfold forceCancelShipment emitForceCancelled
    infer_instance
  exact h.out env w

theorem news_checkDeadline : wp (checkDeadline id) env w fun _ w' =>
    w'.news = telling (id, .status .cancelled) w.news := by
  have h : Writes World.news (telling (id, .status .cancelled)) (checkDeadline id : Contract H Unit) := by
    unfold checkDeadline emitShipmentExpired
    infer_instance
  exact h.out env w

theorem news_raiseDispute : wp (raiseDispute caller id hash) env w fun _ w' =>
    w'.news = telling (id, .status .disputed) w.news := by
  have h : Writes World.news (telling (id, .status .disputed))
      (raiseDispute caller id hash : Contract H Unit) := by
    unfold raiseDispute emitEscrowFrozen
    infer_instance
  exact h.out env w

theorem news_resolveDispute : wp (resolveDispute admin id resolution hash) env w fun _ w' =>
    w'.news = telling (id, .status resolution.status) w.news := by
  have hpaid (i : ℕ) (s : Shipment) (x : ℤ) :
      Preserves World.news (emitResolutionPaid resolution i s x : Contract H Unit) := by
    cases resolution <;> (unfold emitResolutionPaid; infer_instance)
  have h : Writes World.news (telling (id, .status resolution.status))
      (resolveDispute admin id resolution hash : Contract H Unit) := by
    unfold resolveDispute emitDisputeResolved
    dsimp only
    infer_instance
  exact h.out env w

/-- A recovery tells what its event says of the record it found. -/
theorem news_recoveryEdit {t : RecoveryActionType} {edit : Shipment → ℕ → Contract H Shipment}
    {event : Shipment → ℕ → Event} [∀ s n, Preserves World.news (edit s n)] :
    wp (recoveryEdit t admin id hash edit event) env w fun _ w' => ∃ s, w.getShipment id = some s ∧
      w'.news = w.news ++ (event s env.timestamp).news?.toList := by
  unfold recoveryEdit
  simp only [wp_bind, wp_timestamp, wp_log]
  refine wp_guard fun _ => ?_
  refine wp_requireAuth fun _ => ?_
  refine wp_guard fun _ => ?_
  refine wp_guard fun _ => ?_
  refine wp_loadShipment fun s hs => ?_
  refine Preserves.wp World.news fun _ w₁ h₁ => ?_
  refine Preserves.wp World.news fun _ w₂ h₂ => ?_
  refine Preserves.wp World.news fun _ w₃ h₃ => ?_
  refine Preserves.wp World.news fun _ w₄ h₄ => ⟨s, hs, ?_⟩
  have hw : w₃.news = w.news := by
    rw [h₃, h₂, h₁]
    exact AuthFree.out w admin
  rw [h₄, ← hw]
  exact newsOf_snoc _ _

theorem news_depositEscrow : wp (depositEscrow source id amount) env w fun _ w' =>
    w'.news = telling (id, .escrow (netOfFee w.governance.feeConfig amount)) w.news := by
  unfold depositEscrow withReentrancyLock emitEscrowDeposited
  rw [wp_bind]
  refine wp_openCall fun _ _ => ?_
  rw [wp_bind]
  refine wp_guard fun _ => ?_
  rw [wp_bind, wp_gets, wp_bind, wp_rejectIf]
  intro _
  rw [wp_bind, wp_modifyGovernance, wp_ensure, wp_bind]
  refine wp_guard fun _ => ?_
  rw [wp_bind]
  refine wp_guard fun s => ?_
  rw [wp_bind]
  refine wp_guard fun _ => ?_
  rw [wp_bind]
  refine wp_guard fun _ => ?_
  rw [wp_bind]
  refine wp_guard fun _ => ?_
  rw [wp_bind, wp_gets, wp_bind]
  refine wp_guard fun t => ?_
  rw [wp_bind]
  refine wp_guard fun _ => ?_
  -- what is left of the deposit depends on the fee the transfer finds, which it leaves as it was
  have both : ∀ {α : Type} {m : Contract H α} [Preserves World.news m] [Preserves World.tariff m]
      {v v' : World H} {x : α}, m env v = .ok x v' → v'.news = v.news ∧ v'.tariff = v.tariff :=
    fun hm => ⟨Preserves.out (f := World.news) env _ _ _ hm, Preserves.out (f := World.tariff) env _ _ _ hm⟩
  rw [wp_bind]
  intro n w₁ h₁
  rw [wp_bind]
  intro _ w₂ h₂
  rw [wp_bind]
  intro _ w₃ h₃
  rw [wp_bind]
  intro net w₄ h₄
  obtain ⟨hn₁, ht₁⟩ := both h₁
  obtain ⟨hn₂, ht₂⟩ := both h₂
  obtain ⟨hn₃, ht₃⟩ := both h₃
  obtain ⟨hn₄, -⟩ := both h₄
  have hnet : net = netOfFee w.governance.feeConfig amount := by
    have hfee : w₃.governance.feeConfig = w.governance.feeConfig :=
      congrArg Prod.fst (ht₃.trans (ht₂.trans ht₁))
    rw [← hfee]
    exact wp_collectPlatformFee (Q := fun net _ => net = _) (fun _ => rfl) (fun _ _ _ _ _ _ _ => rfl) _ _ h₄
  subst hnet
  refine Writes.wp World.news (g := telling (id, .escrow (netOfFee w.governance.feeConfig amount)))
    fun _ w' h => ?_
  have hnews : w₄.news = w.news := by
    rw [hn₄, hn₃, hn₂, hn₁]
    exact AuthFree.out (f := World.news) w source
  rw [← hnews]
  exact h

theorem news_performAction : wp (performAction a action) env w fun _ w' => w'.news = w.news := by
  cases action with
  | upgrade =>
    unfold performAction updateCurrentContractWasm
    exact Preserves.out (f := World.news) env w
  | transferAdmin =>
    unfold performAction
    exact Preserves.out (f := World.news) env w
  | forceRelease =>
    unfold performAction forceRelease forceSettle payIfTokenSet
    exact Preserves.out (f := World.news) env w
  | forceRefund =>
    unfold performAction forceRefund forceSettle payIfTokenSet
    exact Preserves.out (f := World.news) env w

theorem news_executeProposalInternal : wp (executeProposalInternal pid) env w fun _ w' =>
    ∃ p, w.governance.proposal pid = some p ∧ w'.news = w.news ++ p.action.news?.toList := by
  unfold executeProposalInternal
  simp only [wp_bind, wp_gets, wp_okOr, wp_rejectIf, wp_timestamp, wp_modifyGovernance, wp_log]
  intro p hp _ _ _
  refine news_performAction.mono fun _ w' h => ⟨p, hp, ?_⟩
  have h : w'.news = w.news := h
  rw [← h]
  exact (newsOf_snoc _ _).trans (by cases p.action <;> rfl)

theorem news_executeProposal : wp (executeProposal pid) env w fun _ w' =>
    w'.news = w.news ++ (w.tells (.executeProposal pid)).toList := by
  unfold executeProposal
  rw [wp_bind]
  refine wp_guard fun _ => ?_
  refine news_executeProposalInternal.mono fun _ w' h => ?_
  obtain ⟨p, hp, h⟩ := h
  have hx : w.executing (.executeProposal pid) = some p.action := by simp [World.executing, hp]
  rw [World.tells, hx, Option.bind_some]
  exact h

theorem news_approveAction : wp (approveAction a pid) env w fun _ w' =>
    w'.news = w.news ++ (w.tells (.approveAction a pid)).toList := by
  unfold approveAction
  simp only [wp_bind, wp_gets, wp_okOr, wp_rejectIf, wp_timestamp, wp_modifyGovernance, wp_log, wp_when]
  refine wp_guard fun _ => ?_
  refine wp_requireAuth fun _ _ p hp _ _ _ => ?_
  have hp : w.governance.proposal pid = some p := hp
  have happroved : newsOf (w.trace ++ [.auth a] ++
      [.event (.actionApproved pid a (p.approvals ++ [a]).length)]) = w.news := by
    simp [World.news, newsOf]
  constructor
  · intro hthr
    refine news_executeProposalInternal.mono fun _ w' h => ?_
    obtain ⟨q, hq, h⟩ := h
    have hx : w.executing (.approveAction a pid) = some q.action :=
      World.executing_of_approved hp hq (by simpa using hthr)
    rw [World.tells, hx, Option.bind_some, h]
    exact congrArg (· ++ _) happroved
  · intro hthr
    have hthr : ¬w.governance.multisigThreshold.getD 2 ≤ p.approvals.length + 1 := by simpa using hthr
    have hx : w.executing (.approveAction a pid) = none := by
      simp [World.executing, hp, hthr]
    rw [World.tells, hx]
    exact happroved.trans (List.append_nil _).symm

/-- What each call that creates nothing tells beside its payments. -/
theorem news_exec (hc : call.creates = false) : wp call.exec env w fun _ w' =>
    w'.news = w.news ++ (w.tells call).toList := by
  have keep : ∀ {m : Contract H Unit} [Preserves World.news m],
      wp m env w fun _ w' => w'.news = w.news ++ (none : Option (ℕ × Tiding)).toList :=
    Preserves.wp World.news fun _ w' h => by rw [h, Option.toList_none, List.append_nil]
  cases call with
  | createShipment => cases hc
  | createShipmentsBatch => cases hc
  | updateStatus => exact news_updateStatus
  | confirmDelivery => exact news_confirmDelivery
  | confirmPartialDelivery receiver id hash percent =>
    refine news_confirmPartialDelivery.mono fun _ w' h => ?_
    obtain ⟨s, hs, h⟩ := h
    rw [World.tells, hs]
    exact h
  | cancelShipment => exact news_cancelShipment
  | forceCancelShipment => exact news_forceCancelShipment
  | checkDeadline => exact news_checkDeadline
  | raiseDispute => exact news_raiseDispute
  | reportConditionBreach carrier id breach severity hash =>
    refine wp_reportConditionBreach.mono fun _ w' h => ?_
    obtain ⟨s, hs, hopens, hkept⟩ := h
    simp only [World.tells, hs, Option.any_some]
    by_cases ho : w.Opens severity s
    · rw [hopens ho, if_pos (decide_eq_true ho)]
      simp [World.news, newsOf, World.publishing, World.disputed, World.breached, World.signed, disputeNotices]
    · have hno : ¬decide (w.Opens severity s) = true := by simpa using ho
      rw [hkept ho, if_neg hno]
      simp [World.news, newsOf, World.publishing, World.breached, World.signed]
  | resolveDispute => exact news_resolveDispute
  | recoverShipment admin id status hash =>
    refine news_recoveryEdit.mono fun _ w' h => ?_
    obtain ⟨s, -, h⟩ := h
    exact h
  | rollbackOnExternalFailure admin id status hash =>
    refine news_recoveryEdit.mono fun _ w' h => ?_
    obtain ⟨s, -, h⟩ := h
    exact h
  | unlockEscrow admin id hash =>
    refine news_recoveryEdit.mono fun _ w' h => ?_
    obtain ⟨s, hs, h⟩ := h
    rw [World.tells, hs]
    exact h
  | clearFinalization admin id hash =>
    refine news_recoveryEdit.mono fun _ w' h => ?_
    obtain ⟨s, -, h⟩ := h
    exact h
  | depositEscrow => exact news_depositEscrow
  | approveAction => exact news_approveAction
  | executeProposal => exact news_executeProposal
  | _ =>
    simp only [Call.exec, discard, initializeContract, setShipmentLimit, setCompanyShipmentLimit,
      setCreationQuota, updateConfig, setPlatformFee, pause, unpause, setCircuitBreakerConfig,
      resetCircuitBreaker, upgrade, updateCurrentContractWasm, addCarrierToWhitelist,
      removeCarrierFromWhitelist, addCompany, addCarrier, addPartyRole, addGuardian, addOperator,
      addStaffRole, removeGuardian, removeOperator, revokeRole, suspendRole, reactivateRole,
      suspendCarrier, reactivateCarrier, suspendCompany, reactivateCompany, transferAdmin,
      acceptAdminTransfer, initMultisig, proposeAction, proposeActionWithSalt, setShipmentMetadata,
      appendNoteHash, emitNoteAppended, addDisputeEvidenceHash, emitEvidenceAdded, archiveShipment,
      extendTtl, reportGeofenceEvent, emitGeofenceEvent, updateEta, emitEtaUpdated, handoffShipment,
      recordMilestone, recordMilestonesBatch, releaseMilestonePayment, emitMilestonePaymentReleased,
      releaseEscrow, refundEscrow]
    exact keep

end Navin
