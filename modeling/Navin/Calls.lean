/-
# What each call leaves alone

The frames of the entry points, by instance search on their text: which parts of
the world an observation must ignore for the call not to change it.

Each instance is named after the function it is about. A call that files something
has the filing among its assumptions, and a call that writes to a shipment it has
loaded or numbered asks for the marks of all shipments to be ignored.
-/
import Navin.Frames

namespace Navin

open Tx

set_option synthInstance.maxSize 4000

variable {H : Host} {γ : Type} {f : World H → γ}

/-! ### Administration -/

section

variable [AuthFree f] [PlainFree f]

section Limits

variable [LimitsFree f]

instance frame_setShipmentLimit (a : Address) (n : ℕ) :
    Preserves f (setShipmentLimit a n : Contract H Unit) := by
  unfold setShipmentLimit
  infer_instance

instance frame_setCompanyShipmentLimit (a b : Address) (n : ℕ) :
    Preserves f (setCompanyShipmentLimit a b n : Contract H Unit) := by
  unfold setCompanyShipmentLimit
  infer_instance

instance frame_checkAndUpdateCreationQuotaBy (a : Address) (n : ℕ) [QuotasFree f] :
    Preserves f (checkAndUpdateCreationQuotaBy a n : Contract H Unit) := by
  unfold checkAndUpdateCreationQuotaBy
  infer_instance

end Limits

section Desk

variable [DeskFree f]

instance frame_setCreationQuota (a : Address) (m n : ℕ) :
    Preserves f (setCreationQuota a m n : Contract H Unit) := by
  unfold setCreationQuota
  infer_instance

instance frame_updateConfig (a : Address) (c : ContractConfig) :
    Preserves f (updateConfig a c : Contract H Unit) := by
  unfold updateConfig
  infer_instance

instance frame_setPlatformFee (a : Address) (n : ℕ) (t : Address) :
    Preserves f (setPlatformFee a n t : Contract H Unit) := by
  unfold setPlatformFee
  infer_instance

instance frame_pause (a : Address) :
    Preserves f (pause a : Contract H Unit) := by
  unfold pause
  infer_instance

instance frame_unpause (a : Address) :
    Preserves f (unpause a : Contract H Unit) := by
  unfold unpause
  infer_instance

instance frame_setCircuitBreakerConfig (a : Address) (p : CircuitBreakerPreset) :
    Preserves f (setCircuitBreakerConfig a p : Contract H Unit) := by
  unfold setCircuitBreakerConfig
  infer_instance

end Desk

section Till

variable [TillFree f]

instance frame_resetCircuitBreaker (a : Address) :
    Preserves f (resetCircuitBreaker a : Contract H Unit) := by
  unfold resetCircuitBreaker
  infer_instance

instance frame_updateCurrentContractWasm (h : BytesN32) :
    Preserves f (updateCurrentContractWasm h : Contract H Unit) := by
  unfold updateCurrentContractWasm
  infer_instance

instance frame_upgrade (a : Address) (h : BytesN32) (n : ℕ) :
    Preserves f (upgrade a h n : Contract H Unit) := by
  unfold upgrade
  infer_instance

instance frame_extendTtl (id : ℕ) :
    Preserves f (extendTtl id : Contract H Unit) := by
  unfold extendTtl
  infer_instance

end Till

section Permits

variable [PermitsFree f] [MinutesFree f]

instance frame_addCarrierToWhitelist (a b : Address) :
    Preserves f (addCarrierToWhitelist a b : Contract H Unit) := by
  unfold addCarrierToWhitelist
  infer_instance

instance frame_removeCarrierFromWhitelist (a b : Address) :
    Preserves f (removeCarrierFromWhitelist a b : Contract H Unit) := by
  unfold removeCarrierFromWhitelist
  infer_instance

instance frame_addPartyRole (r : Role) (a b : Address) :
    Preserves f (addPartyRole r a b : Contract H Unit) := by
  unfold addPartyRole
  infer_instance

instance frame_addStaffRole (r : Role) (a b : Address) :
    Preserves f (addStaffRole r a b : Contract H Unit) := by
  unfold addStaffRole
  infer_instance

instance frame_revokeRole (a b : Address) :
    Preserves f (revokeRole a b : Contract H Unit) := by
  unfold revokeRole
  infer_instance

instance frame_addCompany (a b : Address) : Preserves f (addCompany a b : Contract H Unit) :=
  frame_addPartyRole _ a b

instance frame_addCarrier (a b : Address) : Preserves f (addCarrier a b : Contract H Unit) :=
  frame_addPartyRole _ a b

instance frame_addGuardian (a b : Address) : Preserves f (addGuardian a b : Contract H Unit) :=
  frame_addStaffRole _ a b

instance frame_addOperator (a b : Address) : Preserves f (addOperator a b : Contract H Unit) :=
  frame_addStaffRole _ a b

instance frame_removeGuardian (a b : Address) : Preserves f (removeGuardian a b : Contract H Unit) :=
  frame_revokeRole a b

instance frame_removeOperator (a b : Address) : Preserves f (removeOperator a b : Contract H Unit) :=
  frame_revokeRole a b

instance frame_suspendRole (a b : Address) :
    Preserves f (suspendRole a b : Contract H Unit) := by
  unfold suspendRole
  infer_instance

instance frame_reactivateRole (a b : Address) :
    Preserves f (reactivateRole a b : Contract H Unit) := by
  unfold reactivateRole
  infer_instance

instance frame_suspendCarrier (a b : Address) :
    Preserves f (suspendCarrier a b : Contract H Unit) := by
  unfold suspendCarrier
  infer_instance

instance frame_reactivateCarrier (a b : Address) :
    Preserves f (reactivateCarrier a b : Contract H Unit) := by
  unfold reactivateCarrier
  infer_instance

instance frame_suspendCompany (a b : Address) :
    Preserves f (suspendCompany a b : Contract H Unit) := by
  unfold suspendCompany
  infer_instance

instance frame_reactivateCompany (a b : Address) :
    Preserves f (reactivateCompany a b : Contract H Unit) := by
  unfold reactivateCompany
  infer_instance

end Permits

instance frame_discard {α : Type} (m : Contract H α) [Preserves f m] : Preserves f (discard m) := by
  unfold discard
  infer_instance

end

section

variable [AuthFree f] [PlainFree f]

instance frame_initializeContract (a b : Address) [BusinessFree f] [PermitsFree f] [LedgerFree f] :
    Preserves f (initializeContract a b : Contract H Unit) := by
  unfold initializeContract
  infer_instance

variable [SessionFree f]

instance frame_transferAdmin (a b : Address) :
    Preserves f (transferAdmin a b : Contract H Unit) := by
  unfold transferAdmin
  infer_instance

instance frame_initMultisig (a : Address) (l : List Address) (n : ℕ) :
    Preserves f (initMultisig a l n : Contract H Unit) := by
  unfold initMultisig
  infer_instance

instance frame_proposeAction (a : Address) (x : AdminAction) :
    Preserves f (proposeAction a x : Contract H ℕ) := by
  unfold proposeAction
  infer_instance

instance frame_proposeActionWithSalt (a : Address) (x : AdminAction) (s : BytesN32) :
    Preserves f (proposeActionWithSalt a x s : Contract H ℕ) := by
  unfold proposeActionWithSalt
  infer_instance

instance frame_acceptAdminTransfer (a : Address) [PermitsFree f] [AdminFree f] [MinutesFree f] :
    Preserves f (acceptAdminTransfer a : Contract H Unit) := by
  unfold acceptAdminTransfer
  infer_instance

end

/-! ### Calls about one shipment -/

section

variable (id : ℕ) [EntriesFree f] [TillFree f] [MarksFree f id] [AuthFree f] [PlainFree f]

instance frame_appendNoteHash (a : Address) (h : BytesN32) [Preserves f (incrementNoteCount id : Contract H ℕ)]
    [∀ i, Preserves f (setNoteHash id i h : Contract H Unit)] :
    Preserves f (appendNoteHash a id h : Contract H Unit) := by
  unfold appendNoteHash
  infer_instance

instance frame_addShipmentDependency (a : Address) (d p : ℕ)
    [Preserves f (setShipmentDependency d p : Contract H Unit)] :
    Preserves f (addShipmentDependency a d p : Contract H Unit) := by
  unfold addShipmentDependency
  infer_instance

instance frame_reportGeofenceEvent (a : Address) (z : GeofenceEvent) (h : BytesN32) :
    Preserves f (reportGeofenceEvent a id z h : Contract H Unit) := by
  unfold reportGeofenceEvent
  infer_instance

instance frame_updateEta (a : Address) (t : ℕ) (h : BytesN32) :
    Preserves f (updateEta a id t h : Contract H Unit) := by
  unfold updateEta
  infer_instance

instance frame_setShipmentMetadata (a : Address) (k v : Symbol) :
    Preserves f (setShipmentMetadata a id k v : Contract H Unit) := by
  unfold setShipmentMetadata
  infer_instance

instance frame_addDisputeEvidenceHash (a : Address) (h : BytesN32)
    [Preserves f (incrementEvidenceCount id : Contract H ℕ)]
    [∀ i, Preserves f (setEvidenceHash id i h : Contract H Unit)] :
    Preserves f (addDisputeEvidenceHash a id h : Contract H Unit) := by
  unfold addDisputeEvidenceHash
  infer_instance

instance frame_handoffShipment (a b : Address) (h : BytesN32) :
    Preserves f (handoffShipment a b id h : Contract H Unit) := by
  unfold handoffShipment
  infer_instance

instance frame_reportConditionBreach (a : Address) (t : BreachType) (s : Severity) (h : BytesN32) :
    Preserves f (reportConditionBreach a id t s h : Contract H Unit) := by
  unfold reportConditionBreach
  infer_instance

instance frame_updateStatus (a : Address) (s : ShipmentStatus) (h : BytesN32)
    [Preserves f (setStatusHash id s h : Contract H Unit)] :
    Preserves f (updateStatus a id s h : Contract H Unit) := by
  unfold updateStatus
  infer_instance

instance frame_raiseDispute (a : Address) (h : BytesN32) :
    Preserves f (raiseDispute a id h : Contract H Unit) := by
  unfold raiseDispute
  infer_instance

instance frame_archiveShipment (a : Address)
    [∀ s, Preserves f (storageArchiveShipment id s : Contract H Unit)] :
    Preserves f (archiveShipment a id : Contract H Unit) := by
  unfold archiveShipment
  infer_instance

instance frame_recoveryEdit (t : RecoveryActionType) (a : Address) (h : BytesN32)
    (edit : Shipment → ℕ → Contract H Shipment) (event : Shipment → ℕ → Event)
    [∀ s n, Preserves f (edit s n)] [∀ s n, Preserves f (log (.event (event s n)) : Contract H Unit)]
    [∀ r, Preserves f (appendRecoveryRecord id r : Contract H Unit)] :
    Preserves f (recoveryEdit t a id h edit event : Contract H Unit) := by
  unfold recoveryEdit
  infer_instance

instance frame_recoverShipment (a : Address) (s : ShipmentStatus) (h : BytesN32)
    [∀ r, Preserves f (appendRecoveryRecord id r : Contract H Unit)] :
    Preserves f (recoverShipment a id s h : Contract H Unit) := by
  unfold recoverShipment
  infer_instance

instance frame_unlockEscrow (a : Address) (h : BytesN32)
    [∀ r, Preserves f (appendRecoveryRecord id r : Contract H Unit)] :
    Preserves f (unlockEscrow a id h : Contract H Unit) := by
  unfold unlockEscrow
  infer_instance

instance frame_clearFinalization (a : Address) (h : BytesN32)
    [∀ r, Preserves f (appendRecoveryRecord id r : Contract H Unit)] :
    Preserves f (clearFinalization a id h : Contract H Unit) := by
  unfold clearFinalization
  infer_instance

instance frame_rollbackOnExternalFailure (a : Address) (s : ShipmentStatus) (h : BytesN32)
    [∀ r, Preserves f (appendRecoveryRecord id r : Contract H Unit)] :
    Preserves f (rollbackOnExternalFailure a id s h : Contract H Unit) := by
  unfold rollbackOnExternalFailure
  infer_instance

variable [PaymentFree f]

instance frame_collectPlatformFee (t : Address) (x : ℤ) :
    Preserves f (collectPlatformFee id t x : Contract H ℤ) := by
  unfold collectPlatformFee
  refine @Preserves.bind _ _ _ _ _ _ _ _ _ inferInstance fun c => ?_
  cases c <;> (dsimp only; infer_instance)

instance frame_depositEscrow (a : Address) (x : ℤ) :
    Preserves f (depositEscrow a id x : Contract H Unit) := by
  unfold depositEscrow
  infer_instance

instance frame_emitResolutionPaid (r : DisputeResolution) (s : Shipment) (x : ℤ) :
    Preserves f (emitResolutionPaid r id s x : Contract H Unit) := by
  cases r <;> (unfold emitResolutionPaid; infer_instance)

instance frame_payIfTokenSet (a : Address) (x : ℤ) :
    Preserves f (payIfTokenSet a x : Contract H Unit) := by
  unfold payIfTokenSet
  infer_instance

instance frame_payRecordedMilestone (s : Shipment) (n : Symbol) [MarksFree f s.id] :
    Preserves f (payRecordedMilestone id s n : Contract H Shipment) := by
  unfold payRecordedMilestone
  dsimp only
  split <;> infer_instance

instance frame_recordBatchItem (a : Address) (s : Shipment) (i : Symbol × BytesN32) [MarksFree f s.id] :
    Preserves f (recordBatchItem a id s i : Contract H Shipment) := by
  unfold recordBatchItem
  split <;> infer_instance

variable [CountsFree f]

instance frame_cancelShipment (a : Address) (h : BytesN32) :
    Preserves f (cancelShipment a id h : Contract H Unit) := by
  unfold cancelShipment
  dsimp only
  infer_instance

instance frame_forceCancelShipment (a : Address) (h : BytesN32) :
    Preserves f (forceCancelShipment a id h : Contract H Unit) := by
  unfold forceCancelShipment
  infer_instance

instance frame_checkDeadline :
    Preserves f (checkDeadline id : Contract H Unit) := by
  unfold checkDeadline
  infer_instance

instance frame_refundEscrow (a : Address) :
    Preserves f (refundEscrow a id : Contract H Unit) := by
  unfold refundEscrow
  dsimp only
  infer_instance

instance frame_resolveDispute (a : Address) (r : DisputeResolution) (h : BytesN32) :
    Preserves f (resolveDispute a id r h : Contract H Unit) := by
  unfold resolveDispute
  dsimp only
  infer_instance

instance frame_forceSettle (s : ShipmentStatus) (r : Shipment → Address)
    (e : ℕ → Address → ℤ → Contract H Unit) [∀ a x, Preserves f (e id a x)] :
    Preserves f (forceSettle id s r e : Contract H Unit) := by
  unfold forceSettle
  infer_instance

instance frame_forceRelease :
    Preserves f (forceRelease id : Contract H Unit) := by
  unfold forceRelease
  infer_instance

instance frame_forceRefund :
    Preserves f (forceRefund id : Contract H Unit) := by
  unfold forceRefund
  infer_instance

end

/-! ### Calls that write to the shipment they loaded or numbered -/

section

variable [TillFree f] [∀ i, MarksFree f i] [AuthFree f] [PlainFree f]

section

variable [RecordsFree f] [CountsFree f]

instance frame_storeNewShipment (a : Address) (i : ShipmentInput) (n : ℕ) (c : ContractConfig) :
    Preserves f (storeNewShipment a i n c : Contract H ℕ) := by
  unfold storeNewShipment
  infer_instance

instance frame_createShipment (a : Address) (i : ShipmentInput) [QuotasFree f] :
    Preserves f (createShipment a i : Contract H ℕ) := by
  unfold createShipment
  infer_instance

instance frame_createBatchItem (a : Address) (c : ContractConfig) (n : ℕ) (l : List ℕ) (i : ShipmentInput) :
    Preserves f (createBatchItem a c n l i : Contract H (List ℕ)) := by
  unfold createBatchItem
  infer_instance

instance frame_createShipmentsBatch (a : Address) (l : List ShipmentInput) [QuotasFree f] :
    Preserves f (createShipmentsBatch a l : Contract H (List ℕ)) := by
  unfold createShipmentsBatch
  infer_instance

end

variable [EntriesFree f] [PaymentFree f]

instance frame_recordMilestone (a : Address) (id : ℕ) (n : Symbol) (h : BytesN32) :
    Preserves f (recordMilestone a id n h : Contract H Unit) := by
  unfold recordMilestone
  infer_instance

instance frame_recordMilestonesBatch (a : Address) (id : ℕ) (l : List (Symbol × BytesN32)) :
    Preserves f (recordMilestonesBatch a id l : Contract H Unit) := by
  unfold recordMilestonesBatch
  infer_instance

instance frame_releaseMilestonePayment (a : Address) (id : ℕ) (n : Symbol) :
    Preserves f (releaseMilestonePayment a id n : Contract H Unit) := by
  unfold releaseMilestonePayment
  dsimp only
  infer_instance

instance frame_releaseEscrow (a : Address) (id : ℕ) :
    Preserves f (releaseEscrow a id : Contract H Unit) := by
  unfold releaseEscrow
  infer_instance

variable [CountsFree f]

instance frame_confirmDelivery (a : Address) (id : ℕ) (h : BytesN32) :
    Preserves f (confirmDelivery a id h : Contract H Unit) := by
  unfold confirmDelivery
  infer_instance

instance frame_confirmPartialDelivery (a : Address) (id : ℕ) (h : BytesN32) (n : ℕ) :
    Preserves f (confirmPartialDelivery a id h n : Contract H Unit) := by
  unfold confirmPartialDelivery
  dsimp only
  infer_instance

variable [AdminFree f] [ConductFree f] [PermitsFree f]

instance frame_performAction (a : Address) (x : AdminAction) :
    Preserves f (performAction a x : Contract H Unit) := by
  cases x <;> (unfold performAction; infer_instance)

instance frame_executeProposalInternal (n : ℕ) :
    Preserves f (executeProposalInternal n : Contract H Unit) := by
  unfold executeProposalInternal
  infer_instance

instance frame_approveAction (a : Address) (n : ℕ) :
    Preserves f (approveAction a n : Contract H Unit) := by
  unfold approveAction
  dsimp only
  infer_instance

instance frame_executeProposal (n : ℕ) : Preserves f (executeProposal n : Contract H Unit) := by
  unfold executeProposal
  infer_instance

end

end Navin
