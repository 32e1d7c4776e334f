/-
# Laws of the contract

The functions of the contract and its calls, under any law that allows what they write
and the errors they raise. A law of one kind of state is checked at a handful of
functions, and then holds of every call.

Key definitions:
- `Stamp`, `Event.stamp?`: the key of an indexed event and what it is hashed from;
- `Action`, `Call.action?`: what a call must not repeat;
- `Law.Fits`: what a law has to allow.

Key theorems:
- `obeys_exec`.
-/
import Navin.Lib.Laws
import Navin.Guards
import Navin.Contract

namespace Navin

open Tx

set_option synthInstance.maxSize 4000

variable {H : Host} {α : Type}

/-! ### Indexed events -/

/-- The key of an indexed event, with the domain, the topic and the shipment behind it. -/
structure Stamp where
  domain : ℕ
  topic : String
  id : ℕ
  key : EventKey
  deriving DecidableEq

/-- The emitters of the indexed events, each with its domain and its topic. -/
@[reducible] def Event.stamp? : Event → Option Stamp
  | .shipmentCreated id _ _ _ _ key => some ⟨HashDomain.shipment, Topic.shipmentCreated, id, key⟩
  | .statusUpdated id _ _ _ _ key => some ⟨HashDomain.shipment, Topic.statusUpdated, id, key⟩
  | .milestoneRecorded id _ _ _ key => some ⟨HashDomain.shipment, Topic.milestoneRecorded, id, key⟩
  | .escrowDeposited id _ _ _ key => some ⟨HashDomain.escrow, Topic.escrowDeposited, id, key⟩
  | .escrowReleased id _ _ _ key => some ⟨HashDomain.escrow, Topic.escrowReleased, id, key⟩
  | .escrowRefunded id _ _ _ key => some ⟨HashDomain.escrow, Topic.escrowRefunded, id, key⟩
  | .milestonePaymentReleased id _ _ _ key =>
    some ⟨HashDomain.escrow, Topic.milestonePaymentReleased, id, key⟩
  | .platformFeeCollected id _ _ key => some ⟨HashDomain.platform, Topic.platformFeeCollected, id, key⟩
  | .shipmentCancelled id _ _ key => some ⟨HashDomain.shipment, Topic.shipmentCancelled, id, key⟩
  | .shipmentExpired id key => some ⟨HashDomain.shipment, Topic.shipmentExpired, id, key⟩
  | .deliverySuccess _ id _ key => some ⟨HashDomain.shipment, Topic.deliverySuccess, id, key⟩
  | .disputeResolved id _ _ _ key => some ⟨HashDomain.dispute, Topic.disputeResolved, id, key⟩
  | .deliveryConfirmed id _ _ key => some ⟨HashDomain.shipment, Topic.deliveryConfirmed, id, key⟩
  | .geofenceEvent id _ _ key => some ⟨HashDomain.shipment, Topic.geofenceEvent, id, key⟩
  | .etaUpdated id _ _ key => some ⟨HashDomain.shipment, Topic.etaUpdated, id, key⟩
  | _ => none

@[reducible] def Effect.stamp? : Effect → Option Stamp
  | .event e => e.stamp?
  | _ => none

/-- The shipment whose counter an event advances: every indexed event, and three without a
key. -/
@[reducible] def Event.counts? (e : Event) : Option ℕ :=
  match e with
  | .forceCancelled id .. | .noteAppended id .. | .evidenceAdded id .. => some id
  | e => e.stamp?.map (·.id)

/-! ### Actions -/

/-- What must not be repeated. -/
inductive Action where
  | create (sender : Address) (dataHash : BytesN32)
  | update (id : ℕ) (status : ShipmentStatus) (dataHash : BytesN32)
  | resolve (id : ℕ) (resolution : DisputeResolution) (reasonHash : BytesN32)
  deriving DecidableEq

/-- The bytes whose hash is the key of the window. -/
def Action.payload : Action → List UInt8
  | .create sender dataHash => sender.toXdr ++ beBytes 32 dataHash.toNat
  | .update id status dataHash => beBytes 8 id ++ status.toXdr ++ beBytes 32 dataHash.toNat
  | .resolve id resolution reasonHash => beBytes 8 id ++ resolution.toXdr ++ beBytes 32 reasonHash.toNat

/-- The action of a call, whoever makes it. -/
def Call.action? : Call → Option Action
  | .createShipment sender input => some (.create sender input.dataHash)
  | .updateStatus _ id newStatus dataHash => some (.update id newStatus dataHash)
  | .resolveDispute _ id resolution reasonHash => some (.resolve id resolution reasonHash)
  | _ => none

/-! ### What a law has to allow -/

/-- The errors but those of the lock and of the breaker. -/
@[reducible] def NavinError.isOrdinary : NavinError → Bool
  | .reentrancyDetected | .circuitBreakerOpen => false
  | _ => true

/-- The law allows every write beside the event counters, the lock, the breaker and the
idempotency windows; of the counters and the breaker it allows what the functions do that
know them. -/
class Law.Fits (L : Law (World H) NavinError) : Prop where
  ordinary : ∀ e w, e.isOrdinary = true → L.fails w e w
  ledger : ∀ w l, L.keeps w { w with ledger := l }
  registry : ∀ w r, L.keeps w { w with registry := r }
  dossier : ∀ w d, d.eventCount = w.dossier.eventCount → L.keeps w { w with dossier := d }
  governance : ∀ w g, g.reentrancyLock = w.governance.reentrancyLock →
    g.breaker = w.governance.breaker → g.idempotencyWindow = w.governance.idempotencyWindow →
    L.keeps w { w with governance := g }
  keyless : ∀ w e, e.stamp? = none → L.keeps w { w with trace := w.trace ++ [e] }
  counted : ∀ e id, e.stamp? = none → e.counts? = some id →
    Obeys L (publish e >>= fun _ => incrementEventCount id)
  transfer : ∀ t a b x, Obeys L (invokeTokenTransfer t a b x)
  settled : ∀ t a b x n id, Obeys L (onErr (invokeTokenTransfer t a b x) fun e =>
    failSettlement n id e.code)

/-- The law allows the indexed events. -/
class Law.Announces (L : Law (World H) NavinError) : Prop where
  keyed : ∀ domain topic id event, (∀ key, (event key).stamp? = some ⟨domain, topic, id, key⟩) →
    Obeys L (emitKeyed domain topic id event)

variable {L : Law (World H) NavinError} [hL : L.Fits]

/-! ### Functions without a key -/

section

instance (e : NavinError) [he : Same e.isOrdinary true] : L.Refuses e :=
  ⟨fun w => hL.ordinary e w he.out⟩

instance (g : Ledger H.Token → Ledger H.Token) : Obeys L (modifyLedger g) :=
  .modify fun w => hL.ledger w _

instance (g : Registry → Registry) : Obeys L (modifyRegistry g : Contract H Unit) :=
  .modify fun w => hL.registry w _

instance (g : Dossier → Dossier) [h : ∀ x, Same (g x).eventCount x.eventCount] :
    Obeys L (modifyDossier g : Contract H Unit) := .modify fun w => hL.dossier w _ (h _).out

instance (g : Governance → Governance) [h : ∀ x, Same (g x).reentrancyLock x.reentrancyLock]
    [h' : ∀ x, Same (g x).breaker x.breaker]
    [h'' : ∀ x, Same (g x).idempotencyWindow x.idempotencyWindow] :
    Obeys L (modifyGovernance g : Contract H Unit) :=
  .modify fun w => hL.governance w _ (h _).out (h' _).out (h'' _).out

instance (e : Effect) [h : Same e.stamp? none] : Obeys L (log e : Contract H Unit) :=
  .modify fun w => hL.keyless w e h.out

instance (e : Event) (id : ℕ) [h : Same e.stamp? none] [h' : Same e.counts? (some id)] :
    Obeys L (publish e >>= fun _ => incrementEventCount id : Contract H Unit) :=
  hL.counted e id h.out h'.out

instance (t a b : Address) (x : ℤ) : Obeys L (invokeTokenTransfer t a b x : Contract H Unit) :=
  hL.transfer t a b x

instance (t a b : Address) (x : ℤ) (n id : ℕ) :
    Obeys L (onErr (invokeTokenTransfer t a b x) fun e => failSettlement n id e.code : Contract H Unit) :=
  hL.settled t a b x n id

instance (s : Shipment) :
    Obeys L (liftResult (validateShipmentInvariants s) : Contract H Unit) :=
  .liftResult fun e he => by
    unfold validateShipmentInvariants at he
    split_ifs at he <;> cases he <;> exact fun w => hL.ordinary _ w rfl

instance (preset : CircuitBreakerPreset) :
    Obeys L (liftResult preset.resolve : Contract H CircuitBreakerConfig) :=
  .liftResult fun e he => by
    unfold CircuitBreakerPreset.resolve at he
    split at he <;> try cases he
    split at he <;> cases he
    exact fun w => hL.ordinary _ w rfl

instance : Obeys L (timestamp : Contract H ℕ) := by
  unfold timestamp
  infer_instance

instance (a : Address) : Obeys L (requireAuth a : Contract H Unit) := by
  unfold requireAuth
  infer_instance

instance : Obeys L (getAdmin : Contract H Address) := by
  unfold getAdmin
  infer_instance

instance (id : ℕ) : Obeys L (loadShipment id : Contract H Shipment) := by
  unfold loadShipment
  infer_instance

instance : Obeys L (requireInitialized : Contract H Unit) := by
  unfold requireInitialized
  infer_instance

instance (a : Address) : Obeys L (openCall a : Contract H Unit) := by
  unfold openCall requireNotPaused
  infer_instance

instance (a : Address) : Obeys L (requireAdmin a : Contract H Unit) := by
  unfold requireAdmin
  infer_instance

instance (role : Role) (a : Address) : Obeys L (requireAdminOr role a : Contract H Unit) := by
  unfold requireAdminOr
  infer_instance

instance (a : Address) (role : Role) : Obeys L (requireRole a role : Contract H Unit) := by
  unfold requireRole
  infer_instance

instance (a : Address) : Obeys L (requireActiveCompany a : Contract H Unit) := by
  unfold requireActiveCompany
  infer_instance

instance (a : Address) : Obeys L (requireActiveCarrier a : Contract H Unit) := by
  unfold requireActiveCarrier
  infer_instance

instance (s : Shipment) : Obeys L (requireNotFinalized s : Contract H Unit) := by
  unfold requireNotFinalized
  infer_instance

instance (h : BytesN32) : Obeys L (validateHash h : Contract H Unit) := by
  unfold validateHash
  infer_instance

instance (s t : ShipmentStatus) : Obeys L (validateShipmentTransition s t : Contract H Unit) := by
  unfold validateShipmentTransition
  infer_instance

instance (a b c : ℤ) : Obeys L (checkedMulDiv a b c : Contract H ℤ) := by
  unfold checkedMulDiv
  infer_instance

instance (ms : List (Symbol × ℕ)) : Obeys L (validateMilestones ms : Contract H Unit) := by
  unfold validateMilestones validateMilestoneSymbols validateMilestoneEntry validateSymbol
    validateSymbolChars
  infer_instance

instance (id : ℕ) : Obeys L (extendShipmentTtl id : Contract H Unit) := by
  unfold extendShipmentTtl storageExtendShipmentTtl
  infer_instance

instance (s : Shipment) : Obeys L (persistShipment s : Contract H Unit) := by
  unfold persistShipment
  infer_instance

instance (s t : ShipmentStatus) : Obeys L (moveStatusCount s t : Contract H Unit) := by
  unfold moveStatusCount decrementStatusCount incrementStatusCount
  infer_instance

instance (a : Address) : Obeys L (decrementActiveShipmentCount a : Contract H Unit) := by
  unfold decrementActiveShipmentCount
  infer_instance

instance : Obeys L (incrementTotalDisputes : Contract H Unit) := by
  unfold incrementTotalDisputes
  infer_instance

instance (x : RoleChangeAction) (a b : Address) (r : Role) :
    Obeys L (emitRoleChanged x a b r : Contract H Unit) := by
  unfold emitRoleChanged
  infer_instance

instance (t : AuditEventType) (a b : Address) : Obeys L (logAudit t a b : Contract H Unit) := by
  unfold logAudit
  infer_instance

instance (c : ContractConfig) : Obeys L (setConfig c : Contract H Unit) := by
  unfold setConfig
  infer_instance

instance (id : ℕ) (op : SettlementOperation) (x : ℤ) (a b : Address) :
    Obeys L (createSettlement id op x a b : Contract H ℕ) := by
  unfold createSettlement incrementSettlementCounter
  infer_instance

instance (n id : ℕ) : Obeys L (completeSettlement n id : Contract H Unit) := by
  unfold completeSettlement
  infer_instance

instance (n id code : ℕ) : Obeys L (failSettlement n id code : Contract H Unit) := by
  unfold failSettlement
  infer_instance

instance (a : Address) (n : ℕ) : Obeys L (checkAndUpdateCreationQuotaBy a n : Contract H Unit) := by
  unfold checkAndUpdateCreationQuotaBy
  infer_instance

instance (a : Address) (s : Shipment) (b : Address) : Obeys L (requireParty a s b : Contract H Unit) := by
  unfold requireParty
  infer_instance

instance (s : Shipment) (names : List Symbol) (share : ℕ) :
    Obeys L (milestoneRelease s names share : Contract H ℤ) := by
  unfold milestoneRelease
  infer_instance

instance (t : RecoveryActionType) (a : Address) (id : ℕ) (hash : BytesN32)
    (edit : Shipment → ℕ → Contract H Shipment) (event : Shipment → ℕ → Event)
    [∀ s n, Obeys L (edit s n)] [∀ s n, Same (event s n).stamp? none] :
    Obeys L (recoveryEdit t a id hash edit event : Contract H Unit) := by
  unfold recoveryEdit appendRecoveryRecord
  infer_instance

end

/-! ### Functions that announce -/

section

variable [hK : L.Announces]

instance (domain : ℕ) (topic : String) (id : ℕ) (event : EventKey → Event)
    [h : ∀ key, Same (event key).stamp? (some ⟨domain, topic, id, key⟩)] :
    Obeys L (emitKeyed domain topic id event : Contract H Unit) :=
  hK.keyed domain topic id event fun key => (h key).out

instance (domain : ℕ) (topic : String) (id : ℕ) (event : Address → EventKey → Event)
    [∀ a key, Same (event a key).stamp? (some ⟨domain, topic, id, key⟩)] :
    Obeys L (emitKeyedWithToken domain topic id event : Contract H Unit) := by
  unfold emitKeyedWithToken
  infer_instance

instance (id : ℕ) (c : Symbol) (h : BytesN32) (a : Address) :
    Obeys L (emitMilestoneRecorded id c h a : Contract H Unit) := by
  unfold emitMilestoneRecorded incrementMilestoneEventCount
  infer_instance

instance (s : Shipment) (x : ℤ) : Obeys L (internalReleaseEscrow s x : Contract H Shipment) := by
  unfold internalReleaseEscrow emitEscrowReleased checkedSubEscrow
  infer_instance

instance (a : Address) (input : ShipmentInput) (now : ℕ) (c : ContractConfig) :
    Obeys L (storeNewShipment a input now c : Contract H ℕ) := by
  unfold storeNewShipment incrementStatusCount incrementActiveShipmentCount storageExtendShipmentTtl
    emitShipmentCreated
  infer_instance

instance (id : ℕ) (s : Shipment) (name : Symbol) :
    Obeys L (payRecordedMilestone id s name : Contract H Shipment) := by
  unfold payRecordedMilestone emitMilestonePaymentReleased
  cases s.findMilestone name <;> infer_instance

instance (a : Address) (id : ℕ) (s : Shipment) (item : Symbol × BytesN32) :
    Obeys L (recordBatchItem a id s item : Contract H Shipment) := by
  unfold recordBatchItem emitMilestonePaymentReleased
  cases s.findMilestone item.1 <;> infer_instance

instance (id : ℕ) (status : ShipmentStatus) (recipient : Shipment → Address)
    (emitPaid : ℕ → Address → ℤ → Contract H Unit) [∀ i a x, Obeys L (emitPaid i a x)] :
    Obeys L (forceSettle id status recipient emitPaid) := by
  unfold forceSettle payIfTokenSet
  infer_instance

instance (a : Address) (action : AdminAction) : Obeys L (performAction a action : Contract H Unit) := by
  cases action with
  | upgrade => unfold performAction updateCurrentContractWasm; infer_instance
  | transferAdmin => unfold performAction; infer_instance
  | forceRelease =>
    have (i : ℕ) (a : Address) (x : ℤ) : Obeys L (emitEscrowReleased i a x : Contract H Unit) := by
      unfold emitEscrowReleased
      infer_instance
    unfold performAction forceRelease
    infer_instance
  | forceRefund =>
    have (i : ℕ) (a : Address) (x : ℤ) : Obeys L (emitEscrowRefunded i a x : Contract H Unit) := by
      unfold emitEscrowRefunded
      infer_instance
    unfold performAction forceRefund
    infer_instance

instance (n : ℕ) : Obeys L (executeProposalInternal n : Contract H Unit) := by
  unfold executeProposalInternal
  infer_instance

instance (id : ℕ) (t : Address) (x : ℤ) : Obeys L (collectPlatformFee id t x : Contract H ℤ) := by
  unfold collectPlatformFee emitPlatformFeeCollected
  refine @Obeys.bind _ _ _ _ _ _ _ _ inferInstance fun o => ?_
  cases o <;> infer_instance

end

/-! ### Calls -/

/-- The calls that take the lock. -/
def Call.takesLock : Call → Bool
  | .depositEscrow .. | .releaseEscrow .. | .refundEscrow .. => true
  | _ => false

/-- The calls that emit indexed events. -/
def Call.announces : Call → Bool
  | .createShipment .. | .createShipmentsBatch .. | .reportGeofenceEvent .. | .updateEta ..
  | .handoffShipment .. | .updateStatus .. | .confirmDelivery .. | .confirmPartialDelivery ..
  | .recordMilestone .. | .recordMilestonesBatch .. | .releaseMilestonePayment .. | .depositEscrow ..
  | .cancelShipment ..
  | .forceCancelShipment .. | .checkDeadline .. | .releaseEscrow .. | .refundEscrow ..
  | .resolveDispute .. | .approveAction .. | .executeProposal .. => true
  | _ => false

instance (m : Contract H α) [Obeys L m] : Obeys L (discard m) := by
  unfold discard
  infer_instance

omit hL in
/-- A law that does not look at the lock. -/
theorem obeys_withReentrancyLock [L.Refuses .reentrancyDetected]
    (hkeeps : ∀ w b, L.keeps w { w with governance := { w.governance with reentrancyLock := b } })
    (hfails : ∀ {w e w'}, L.fails w e w' →
      L.fails w e { w' with governance := { w'.governance with reentrancyLock := false } })
    {m : Contract H α} (hm : Obeys L m) : Obeys L (withReentrancyLock m) := by
  have hset : Obeys L (modifyGovernance fun g => { g with reentrancyLock := true }) :=
    .modify fun w => hkeeps w true
  have hrun := Obeys.ensure (g := fun w => { w with governance :=
    { w.governance with reentrancyLock := false } }) hm (fun h => L.trans h (hkeeps _ false)) hfails
  unfold withReentrancyLock
  infer_instance

/-- Every call obeys a law that fits. What the windows, the lock, the archive and the reset
of the breaker do is left to the law. -/
theorem obeys_exec {call : Call} (hkeys : call.announces = true → L.Announces)
    (hchecked : ∀ action, call.action? = some action → Obeys L (checkIdempotency action.payload))
    (hlock : call.takesLock = true → ∀ m : Contract H Unit, Obeys L m → Obeys L (withReentrancyLock m))
    (harchive : ∀ admin id, call = .archiveShipment admin id →
      ∀ s, Obeys L (storageArchiveShipment id s))
    (hreset : ∀ admin, call = .resetCircuitBreaker admin → Obeys L (setBreaker CircuitBreakerTracker.new)) :
    Obeys L (call.exec : Contract H Unit) := by
  cases call with
  | initializeContract => unfold Call.exec initializeContract; infer_instance
  | setShipmentLimit => unfold Call.exec setShipmentLimit; infer_instance
  | setCompanyShipmentLimit => unfold Call.exec setCompanyShipmentLimit; infer_instance
  | setCreationQuota => unfold Call.exec setCreationQuota; infer_instance
  | addCarrierToWhitelist => unfold Call.exec addCarrierToWhitelist; infer_instance
  | removeCarrierFromWhitelist => unfold Call.exec removeCarrierFromWhitelist; infer_instance
  | addCompany => unfold Call.exec addCompany addPartyRole requireAdminOrOperator; infer_instance
  | addCarrier => unfold Call.exec addCarrier addPartyRole requireAdminOrOperator; infer_instance
  | addGuardian => unfold Call.exec addGuardian addStaffRole; infer_instance
  | addOperator => unfold Call.exec addOperator addStaffRole; infer_instance
  | removeGuardian => unfold Call.exec removeGuardian revokeRole; infer_instance
  | removeOperator => unfold Call.exec removeOperator revokeRole; infer_instance
  | revokeRole => unfold Call.exec revokeRole; infer_instance
  | suspendRole => unfold Call.exec suspendRole; infer_instance
  | reactivateRole => unfold Call.exec reactivateRole; infer_instance
  | suspendCarrier => unfold Call.exec suspendCarrier requireAdminOrOperator; infer_instance
  | reactivateCarrier => unfold Call.exec reactivateCarrier requireAdminOrOperator; infer_instance
  | suspendCompany => unfold Call.exec suspendCompany requireAdminOrOperator; infer_instance
  | reactivateCompany => unfold Call.exec reactivateCompany requireAdminOrOperator; infer_instance
  | transferAdmin => unfold Call.exec transferAdmin; infer_instance
  | acceptAdminTransfer => unfold Call.exec acceptAdminTransfer; infer_instance
  | updateConfig => unfold Call.exec updateConfig; infer_instance
  | setPlatformFee => unfold Call.exec setPlatformFee; infer_instance
  | pause => unfold Call.exec pause requireAdminOrGuardian; infer_instance
  | unpause => unfold Call.exec unpause requireAdminOrGuardian; infer_instance
  | resetCircuitBreaker admin =>
    have := hreset admin rfl
    unfold Call.exec resetCircuitBreaker
    infer_instance
  | setCircuitBreakerConfig => unfold Call.exec setCircuitBreakerConfig; infer_instance
  | upgrade => unfold Call.exec upgrade updateCurrentContractWasm; infer_instance
  | createShipment sender input =>
    have := hkeys rfl
    have : Obeys L (checkIdempotency (sender.toXdr ++ beBytes 32 input.dataHash.toNat)) := hchecked _ rfl
    unfold Call.exec createShipment
    infer_instance
  | createShipmentsBatch =>
    have := hkeys rfl
    unfold Call.exec createShipmentsBatch createBatchItem
    infer_instance
  | setShipmentMetadata =>
    unfold Call.exec setShipmentMetadata validateSymbolNotWhitespaceOnly validateMetadataSymbols
      validateSymbol
    infer_instance
  | appendNoteHash =>
    unfold Call.exec appendNoteHash incrementNoteCount emitNoteAppended
    infer_instance
  | addDisputeEvidenceHash =>
    unfold Call.exec addDisputeEvidenceHash incrementEvidenceCount emitEvidenceAdded
    infer_instance
  | addShipmentDependency => unfold Call.exec addShipmentDependency; infer_instance
  | extendTtl => unfold Call.exec extendTtl; infer_instance
  | archiveShipment admin id =>
    have := harchive admin id rfl
    unfold Call.exec archiveShipment
    infer_instance
  | reportGeofenceEvent =>
    have := hkeys rfl
    unfold Call.exec reportGeofenceEvent emitGeofenceEvent
    infer_instance
  | updateEta =>
    have := hkeys rfl
    unfold Call.exec updateEta emitEtaUpdated
    infer_instance
  | handoffShipment =>
    have := hkeys rfl
    unfold Call.exec handoffShipment
    infer_instance
  | reportConditionBreach =>
    unfold Call.exec reportConditionBreach incrementBreachEventCount
    infer_instance
  | updateStatus caller id status hash =>
    have := hkeys rfl
    have : Obeys L (checkIdempotency (beBytes 8 id ++ status.toXdr ++ beBytes 32 hash.toNat)) :=
      hchecked _ rfl
    unfold Call.exec updateStatus requireUpdateInterval requirePrerequisitesDelivered emitStatusUpdated
    infer_instance
  | confirmDelivery =>
    have := hkeys rfl
    unfold Call.exec confirmDelivery emitDeliveryConfirmed emitDeliverySuccess
    infer_instance
  | confirmPartialDelivery =>
    have := hkeys rfl
    unfold Call.exec confirmPartialDelivery emitStatusUpdated
    dsimp only
    infer_instance
  | recordMilestone =>
    have := hkeys rfl
    unfold Call.exec recordMilestone openCarrierCall validateCheckpointSymbol validateSymbolChars
    infer_instance
  | recordMilestonesBatch =>
    have := hkeys rfl
    unfold Call.exec recordMilestonesBatch openCarrierCall
    infer_instance
  | releaseMilestonePayment =>
    have := hkeys rfl
    unfold Call.exec releaseMilestonePayment emitMilestonePaymentReleased
    dsimp only
    infer_instance
  | cancelShipment =>
    have := hkeys rfl
    unfold Call.exec cancelShipment emitEscrowReleased emitShipmentCancelled
    infer_instance
  | forceCancelShipment =>
    have := hkeys rfl
    unfold Call.exec forceCancelShipment emitEscrowRefunded emitForceCancelled
    infer_instance
  | checkDeadline =>
    have := hkeys rfl
    unfold Call.exec checkDeadline emitEscrowRefunded emitShipmentExpired
    infer_instance
  | raiseDispute => unfold Call.exec raiseDispute emitEscrowFrozen; infer_instance
  | resolveDispute a id resolution hash =>
    have := hkeys rfl
    have : Obeys L (checkIdempotency (beBytes 8 id ++ resolution.toXdr ++ beBytes 32 hash.toNat)) :=
      hchecked _ rfl
    have (s : Shipment) (x : ℤ) : Obeys L (emitResolutionPaid resolution id s x : Contract H Unit) := by
      unfold emitResolutionPaid emitEscrowReleased emitEscrowRefunded
      cases resolution <;> infer_instance
    unfold Call.exec resolveDispute requireAdminOrGuardian emitDisputeResolved
    dsimp only
    infer_instance
  | initMultisig => unfold Call.exec initMultisig; infer_instance
  | proposeAction => unfold Call.exec proposeAction; infer_instance
  | proposeActionWithSalt => unfold Call.exec proposeActionWithSalt proposeAction; infer_instance
  | approveAction =>
    have := hkeys rfl
    unfold Call.exec approveAction
    infer_instance
  | executeProposal =>
    have := hkeys rfl
    unfold Call.exec executeProposal
    infer_instance
  | recoverShipment => unfold Call.exec recoverShipment verifyEscrowConsistency; infer_instance
  | unlockEscrow => unfold Call.exec unlockEscrow; infer_instance
  | clearFinalization => unfold Call.exec clearFinalization; infer_instance
  | rollbackOnExternalFailure => unfold Call.exec rollbackOnExternalFailure; infer_instance
  | depositEscrow =>
    have := hkeys rfl
    have (m : Contract H Unit) [hm : Obeys L m] : Obeys L (withReentrancyLock m) := hlock rfl m hm
    unfold Call.exec depositEscrow emitEscrowDeposited validatePositiveAmount validateTokenDecimals
      addTotalEscrowVolume
    dsimp only
    infer_instance
  | releaseEscrow =>
    have := hkeys rfl
    have (m : Contract H Unit) [hm : Obeys L m] : Obeys L (withReentrancyLock m) := hlock rfl m hm
    unfold Call.exec releaseEscrow
    infer_instance
  | refundEscrow =>
    have := hkeys rfl
    have (m : Contract H Unit) [hm : Obeys L m] : Obeys L (withReentrancyLock m) := hlock rfl m hm
    unfold Call.exec refundEscrow emitEscrowRefunded
    infer_instance

end Navin
