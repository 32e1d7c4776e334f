/-
# The refinement

Every committed call does to the book what the rules say. The results about runs
of the contract are proved over the rules, and this is the only place where they
meet the code.

Key theorems:
- `exec_effects`.
-/
import Navin.Refine.Records
import Navin.Refine.Payouts
import Navin.Refine.Escrow

namespace Navin

open Tx

set_option synthInstance.maxSize 1000

variable {H : Host} {env : Env} {w : World H}

theorem effects_discard {α : Type} {call : Call} {m : Contract H α}
    (h : wp m env w fun _ w' => Effects env w call w'.book) :
    wp (discard m) env w fun _ w' => Effects env w call w'.book := by
  unfold discard
  simpa using h

theorem wp_exec (call : Call) (hk : w.ledger.Keyed) :
    wp call.exec env w fun _ w' => Effects env w call w'.book := by
  cases call with
  | initializeContract => exact effects_initializeContract
  | acceptAdminTransfer => exact effects_acceptAdminTransfer
  | createShipment => exact effects_discard effects_createShipment
  | createShipmentsBatch => exact effects_discard effects_createShipmentsBatch
  | setShipmentMetadata => exact effects_setShipmentMetadata hk
  | addDisputeEvidenceHash => exact effects_addDisputeEvidenceHash hk
  | archiveShipment => exact effects_archiveShipment
  | handoffShipment => exact effects_handoffShipment hk
  | reportConditionBreach => exact effects_reportConditionBreach hk
  | updateStatus => exact effects_updateStatus hk
  | confirmDelivery => exact effects_confirmDelivery hk
  | confirmPartialDelivery => exact effects_confirmPartialDelivery hk
  | recordMilestone => exact effects_recordMilestone hk
  | recordMilestonesBatch => exact effects_recordMilestonesBatch hk
  | releaseMilestonePayment => exact effects_releaseMilestonePayment hk
  | depositEscrow => exact effects_depositEscrow hk
  | cancelShipment => exact effects_cancelShipment hk
  | forceCancelShipment => exact effects_forceCancelShipment hk
  | checkDeadline => exact effects_checkDeadline hk
  | releaseEscrow => exact effects_releaseEscrow hk
  | refundEscrow => exact effects_refundEscrow hk
  | raiseDispute => exact effects_raiseDispute hk
  | resolveDispute => exact effects_resolveDispute hk
  | approveAction => exact effects_approveAction hk
  | executeProposal => exact effects_executeProposal hk
  | recoverShipment => exact effects_recoverShipment hk
  | unlockEscrow => exact effects_unlockEscrow hk
  | clearFinalization => exact effects_clearFinalization hk
  | rollbackOnExternalFailure => exact effects_rollbackOnExternalFailure hk
  | _ =>
    unfold Call.exec
    exact effects_quiet rfl

/-- A committed call has the effects of the rules. -/
theorem exec_effects {call : Call} {w' : World H} (hk : w.ledger.Keyed)
    (h : call.exec env w = .ok () w') : Effects env w call w'.book :=
  wp_exec call hk () w' h

end Navin
