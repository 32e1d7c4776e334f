/-
# Who signs a call

Every entry point demands at most one signature, that of the address it is given
first; the set-up, the lifetime extension, the deadline check and the execution of
a proposal demand none.

Key definitions:
- `Call.caller?`: the address whose signature a call demands.

Key theorems:
- `signs_exec`, `caller?_eq`.
-/
import Navin.Disputes
import Navin.Council

namespace Navin

open Tx

set_option synthInstance.maxSize 4000

variable {H : Host}

/-- The address whose signature a call demands. -/
def Call.caller? : Call → Option Address
  | .initializeContract .. | .extendTtl .. | .checkDeadline .. | .executeProposal .. => none
  | .setShipmentLimit a _ | .setCompanyShipmentLimit a _ _ | .setCreationQuota a _ _
  | .addCarrierToWhitelist a _ | .removeCarrierFromWhitelist a _ | .addCompany a _ | .addCarrier a _
  | .addGuardian a _ | .addOperator a _ | .removeGuardian a _ | .removeOperator a _
  | .revokeRole a _ | .suspendRole a _ | .reactivateRole a _ | .suspendCarrier a _
  | .reactivateCarrier a _ | .suspendCompany a _ | .reactivateCompany a _ | .transferAdmin a _
  | .acceptAdminTransfer a | .updateConfig a _ | .setPlatformFee a _ _ | .pause a | .unpause a
  | .resetCircuitBreaker a | .setCircuitBreakerConfig a _ | .upgrade a _ _ | .createShipment a _
  | .createShipmentsBatch a _ | .setShipmentMetadata a _ _ _ | .appendNoteHash a _ _
  | .addDisputeEvidenceHash a _ _ | .addShipmentDependency a _ _ | .archiveShipment a _
  | .reportGeofenceEvent a _ _ _ | .updateEta a _ _ _ | .handoffShipment a _ _ _
  | .reportConditionBreach a _ _ _ _ | .updateStatus a _ _ _ | .confirmDelivery a _ _
  | .confirmPartialDelivery a _ _ _ | .recordMilestone a _ _ _ | .recordMilestonesBatch a _ _
  | .releaseMilestonePayment a _ _ | .depositEscrow a _ _ | .cancelShipment a _ _
  | .forceCancelShipment a _ _ | .releaseEscrow a _ | .refundEscrow a _ | .raiseDispute a _ _
  | .resolveDispute a _ _ _ | .initMultisig a _ _ | .proposeAction a _
  | .proposeActionWithSalt a _ _ | .approveAction a _ | .recoverShipment a _ _ _
  | .unlockEscrow a _ _ | .clearFinalization a _ _ | .rollbackOnExternalFailure a _ _ _ => some a

/-- The calls that make their caller the sender of new shipments. -/
def Call.creates : Call → Bool
  | .createShipment .. | .createShipmentsBatch .. => true
  | _ => false

instance signs_discard {α : Type} (a : Address) (m : Contract H α) [Signs a m] : Signs a (discard m) := by
  unfold discard
  infer_instance

instance signs_proposeAction (a : Address) (action : AdminAction) :
    Signs a (proposeAction a action : Contract H ℕ) := by
  unfold proposeAction
  infer_instance

instance signs_proposeActionWithSalt (a : Address) (action : AdminAction) (salt : BytesN32) :
    Signs a (proposeActionWithSalt a action salt : Contract H ℕ) := by
  unfold proposeActionWithSalt
  infer_instance

/-- A call demands the signature of its caller, and no other. -/
theorem signs_exec {call : Call} {a : Address} (h : call.caller? = some a) :
    Signs a (call.exec : Contract H Unit) := by
  cases call with
  | initializeContract => cases h
  | extendTtl => cases h
  | checkDeadline => cases h
  | executeProposal => cases h
  | setShipmentLimit => cases h; unfold Call.exec setShipmentLimit; infer_instance
  | setCompanyShipmentLimit => cases h; unfold Call.exec setCompanyShipmentLimit; infer_instance
  | setCreationQuota => cases h; unfold Call.exec setCreationQuota; infer_instance
  | addCarrierToWhitelist => cases h; unfold Call.exec addCarrierToWhitelist; infer_instance
  | removeCarrierFromWhitelist => cases h; unfold Call.exec removeCarrierFromWhitelist; infer_instance
  | addCompany => cases h; unfold Call.exec addCompany addPartyRole; infer_instance
  | addCarrier => cases h; unfold Call.exec addCarrier addPartyRole; infer_instance
  | addGuardian => cases h; unfold Call.exec addGuardian addStaffRole; infer_instance
  | addOperator => cases h; unfold Call.exec addOperator addStaffRole; infer_instance
  | removeGuardian => cases h; unfold Call.exec removeGuardian revokeRole; infer_instance
  | removeOperator => cases h; unfold Call.exec removeOperator revokeRole; infer_instance
  | revokeRole => cases h; unfold Call.exec revokeRole; infer_instance
  | suspendRole => cases h; unfold Call.exec suspendRole; infer_instance
  | reactivateRole => cases h; unfold Call.exec reactivateRole; infer_instance
  | suspendCarrier => cases h; unfold Call.exec suspendCarrier; infer_instance
  | reactivateCarrier => cases h; unfold Call.exec reactivateCarrier; infer_instance
  | suspendCompany => cases h; unfold Call.exec suspendCompany; infer_instance
  | reactivateCompany => cases h; unfold Call.exec reactivateCompany; infer_instance
  | transferAdmin => cases h; unfold Call.exec transferAdmin; infer_instance
  | acceptAdminTransfer => cases h; unfold Call.exec acceptAdminTransfer; infer_instance
  | updateConfig => cases h; unfold Call.exec updateConfig; infer_instance
  | setPlatformFee => cases h; unfold Call.exec setPlatformFee; infer_instance
  | pause => cases h; unfold Call.exec pause; infer_instance
  | unpause => cases h; unfold Call.exec unpause; infer_instance
  | resetCircuitBreaker => cases h; unfold Call.exec resetCircuitBreaker; infer_instance
  | setCircuitBreakerConfig => cases h; unfold Call.exec setCircuitBreakerConfig; infer_instance
  | upgrade => cases h; unfold Call.exec upgrade; infer_instance
  | createShipment => cases h; unfold Call.exec createShipment; infer_instance
  | createShipmentsBatch => cases h; unfold Call.exec createShipmentsBatch; infer_instance
  | setShipmentMetadata => cases h; unfold Call.exec setShipmentMetadata; infer_instance
  | appendNoteHash => cases h; unfold Call.exec appendNoteHash; infer_instance
  | addDisputeEvidenceHash => cases h; unfold Call.exec addDisputeEvidenceHash; infer_instance
  | addShipmentDependency => cases h; unfold Call.exec addShipmentDependency; infer_instance
  | archiveShipment => cases h; unfold Call.exec archiveShipment storageArchiveShipment; infer_instance
  | reportGeofenceEvent => cases h; unfold Call.exec reportGeofenceEvent; infer_instance
  | updateEta => cases h; unfold Call.exec updateEta; infer_instance
  | handoffShipment => cases h; unfold Call.exec handoffShipment; infer_instance
  | reportConditionBreach => cases h; unfold Call.exec reportConditionBreach; infer_instance
  | updateStatus => cases h; exact signs_updateStatus ..
  | confirmDelivery => cases h; exact signs_confirmDelivery ..
  | confirmPartialDelivery =>
    cases h
    unfold Call.exec confirmPartialDelivery
    dsimp only
    infer_instance
  | recordMilestone => cases h; unfold Call.exec recordMilestone openCarrierCall; infer_instance
  | recordMilestonesBatch =>
    cases h
    unfold Call.exec recordMilestonesBatch openCarrierCall
    infer_instance
  | releaseMilestonePayment => cases h; exact signs_releaseMilestonePayment ..
  | depositEscrow => cases h; unfold Call.exec depositEscrow; infer_instance
  | cancelShipment => cases h; unfold Call.exec cancelShipment; infer_instance
  | forceCancelShipment => cases h; exact signs_forceCancelShipment ..
  | releaseEscrow => cases h; unfold Call.exec releaseEscrow; infer_instance
  | refundEscrow => cases h; unfold Call.exec refundEscrow; infer_instance
  | raiseDispute => cases h; unfold Call.exec raiseDispute; infer_instance
  | resolveDispute => cases h; exact signs_resolveDispute ..
  | initMultisig => cases h; unfold Call.exec initMultisig; infer_instance
  | proposeAction => cases h; unfold Call.exec; infer_instance
  | proposeActionWithSalt => cases h; unfold Call.exec; infer_instance
  | approveAction => cases h; exact signs_approveAction ..
  | recoverShipment => cases h; exact signs_recoverShipment ..
  | unlockEscrow => cases h; exact signs_unlockEscrow ..
  | clearFinalization => cases h; unfold Call.exec clearFinalization; infer_instance
  | rollbackOnExternalFailure => cases h; exact signs_rollbackOnExternalFailure ..

/-- The only signature of a committed call is that of its caller. -/
theorem caller?_eq {call : Call} {a b : Address} {env : Env} {w w' : World H}
    (hx : call.exec env w.fresh = .ok () w') (hs : signersOf w'.trace = [a])
    (hb : call.caller? = some b) : b = a := by
  have := (signs_exec hb).signersOf_eq hx
  rw [hs] at this
  exact (List.cons.inj this).1.symm

end Navin
