/-
# The contract on its chain

All state-changing entry points as one type of calls, and the chain that runs
them: a call that returns commits its writes, one that fails or traps leaves
nothing, and between calls time passes and the tokens of others move. The
remaining entry points only read.

Key definitions:
- `Call` and `Call.exec`;
- `Step`: a committed call, a reverted call, or a change of the token from
  outside; `Reachable` from a deployed contract;
- `Host.MovesExactly`: what is assumed of the token, where it is assumed.
-/
import Navin.Entry.Recovery
import Navin.Lib.Runs

namespace Navin

open Tx

/-- The entry points that may change the state, with their arguments. -/
inductive Call where
  | initializeContract (admin tokenContract : Address)
  | setShipmentLimit (admin : Address) (limit : ℕ)
  | setCompanyShipmentLimit (admin company : Address) (limit : ℕ)
  | setCreationQuota (admin : Address) (maxPerWindow windowSeconds : ℕ)
  | addCarrierToWhitelist (company carrier : Address)
  | removeCarrierFromWhitelist (company carrier : Address)
  | addCompany (admin company : Address)
  | addCarrier (admin carrier : Address)
  | addGuardian (admin guardian : Address)
  | addOperator (admin operator : Address)
  | removeGuardian (admin guardian : Address)
  | removeOperator (admin operator : Address)
  | revokeRole (admin target : Address)
  | suspendRole (admin target : Address)
  | reactivateRole (admin target : Address)
  | suspendCarrier (admin carrier : Address)
  | reactivateCarrier (admin carrier : Address)
  | suspendCompany (admin company : Address)
  | reactivateCompany (admin company : Address)
  | transferAdmin (admin newAdmin : Address)
  | acceptAdminTransfer (newAdmin : Address)
  | updateConfig (admin : Address) (newConfig : ContractConfig)
  | setPlatformFee (admin : Address) (feeBps : ℕ) (treasury : Address)
  | pause (admin : Address)
  | unpause (admin : Address)
  | resetCircuitBreaker (admin : Address)
  | setCircuitBreakerConfig (admin : Address) (preset : CircuitBreakerPreset)
  | upgrade (admin : Address) (newWasmHash : BytesN32) (targetVersion : ℕ)
  | createShipment (sender : Address) (input : ShipmentInput)
  | createShipmentsBatch (sender : Address) (shipments : List ShipmentInput)
  | setShipmentMetadata (caller : Address) (id : ℕ) (key value : Symbol)
  | appendNoteHash (reporter : Address) (id : ℕ) (noteHash : BytesN32)
  | addDisputeEvidenceHash (reporter : Address) (id : ℕ) (evidenceHash : BytesN32)
  | addShipmentDependency (company : Address) (dependentId prereqId : ℕ)
  | extendTtl (id : ℕ)
  | archiveShipment (admin : Address) (id : ℕ)
  | reportGeofenceEvent (carrier : Address) (id : ℕ) (zoneType : GeofenceEvent)
      (dataHash : BytesN32)
  | updateEta (carrier : Address) (id etaTimestamp : ℕ) (dataHash : BytesN32)
  | handoffShipment (currentCarrier newCarrier : Address) (id : ℕ) (handoffHash : BytesN32)
  | reportConditionBreach (carrier : Address) (id : ℕ) (breachType : BreachType)
      (severity : Severity) (dataHash : BytesN32)
  | updateStatus (caller : Address) (id : ℕ) (newStatus : ShipmentStatus) (dataHash : BytesN32)
  | confirmDelivery (receiver : Address) (id : ℕ) (confirmationHash : BytesN32)
  | confirmPartialDelivery (receiver : Address) (id : ℕ) (confirmationHash : BytesN32)
      (releasePercent : ℕ)
  | recordMilestone (carrier : Address) (id : ℕ) (checkpoint : Symbol) (dataHash : BytesN32)
  | recordMilestonesBatch (carrier : Address) (id : ℕ) (milestones : List (Symbol × BytesN32))
  | releaseMilestonePayment (caller : Address) (id : ℕ) (milestoneName : Symbol)
  | depositEscrow (source : Address) (id : ℕ) (amount : ℤ)
  | cancelShipment (caller : Address) (id : ℕ) (reasonHash : BytesN32)
  | forceCancelShipment (admin : Address) (id : ℕ) (reasonHash : BytesN32)
  | checkDeadline (id : ℕ)
  | releaseEscrow (caller : Address) (id : ℕ)
  | refundEscrow (caller : Address) (id : ℕ)
  | raiseDispute (caller : Address) (id : ℕ) (reasonHash : BytesN32)
  | resolveDispute (admin : Address) (id : ℕ) (resolution : DisputeResolution)
      (reasonHash : BytesN32)
  | initMultisig (admin : Address) (admins : List Address) (threshold : ℕ)
  | proposeAction (proposer : Address) (action : AdminAction)
  | proposeActionWithSalt (proposer : Address) (action : AdminAction) (salt : BytesN32)
  | approveAction (approver : Address) (proposalId : ℕ)
  | executeProposal (proposalId : ℕ)
  | recoverShipment (admin : Address) (id : ℕ) (targetStatus : ShipmentStatus)
      (reasonHash : BytesN32)
  | unlockEscrow (admin : Address) (id : ℕ) (reasonHash : BytesN32)
  | clearFinalization (admin : Address) (id : ℕ) (reasonHash : BytesN32)
  | rollbackOnExternalFailure (admin : Address) (id : ℕ) (previousStatus : ShipmentStatus)
      (reasonHash : BytesN32)

variable {H : Host}

/-- A call whose result is not used. -/
def discard {α : Type} (m : Contract H α) : Contract H Unit := do
  let _ ← m
  return ()

/-- What a call does. -/
def Call.exec : Call → Contract H Unit
  | .initializeContract admin tokenContract => Navin.initializeContract admin tokenContract
  | .setShipmentLimit admin limit => Navin.setShipmentLimit admin limit
  | .setCompanyShipmentLimit admin company limit => Navin.setCompanyShipmentLimit admin company limit
  | .setCreationQuota admin m s => Navin.setCreationQuota admin m s
  | .addCarrierToWhitelist company carrier => Navin.addCarrierToWhitelist company carrier
  | .removeCarrierFromWhitelist company carrier => Navin.removeCarrierFromWhitelist company carrier
  | .addCompany admin company => Navin.addCompany admin company
  | .addCarrier admin carrier => Navin.addCarrier admin carrier
  | .addGuardian admin guardian => Navin.addGuardian admin guardian
  | .addOperator admin operator => Navin.addOperator admin operator
  | .removeGuardian admin guardian => Navin.removeGuardian admin guardian
  | .removeOperator admin operator => Navin.removeOperator admin operator
  | .revokeRole admin target => Navin.revokeRole admin target
  | .suspendRole admin target => Navin.suspendRole admin target
  | .reactivateRole admin target => Navin.reactivateRole admin target
  | .suspendCarrier admin carrier => Navin.suspendCarrier admin carrier
  | .reactivateCarrier admin carrier => Navin.reactivateCarrier admin carrier
  | .suspendCompany admin company => Navin.suspendCompany admin company
  | .reactivateCompany admin company => Navin.reactivateCompany admin company
  | .transferAdmin admin newAdmin => Navin.transferAdmin admin newAdmin
  | .acceptAdminTransfer newAdmin => Navin.acceptAdminTransfer newAdmin
  | .updateConfig admin newConfig => Navin.updateConfig admin newConfig
  | .setPlatformFee admin feeBps treasury => Navin.setPlatformFee admin feeBps treasury
  | .pause admin => Navin.pause admin
  | .unpause admin => Navin.unpause admin
  | .resetCircuitBreaker admin => Navin.resetCircuitBreaker admin
  | .setCircuitBreakerConfig admin preset => Navin.setCircuitBreakerConfig admin preset
  | .upgrade admin wasm version => Navin.upgrade admin wasm version
  | .createShipment sender input => discard (Navin.createShipment sender input)
  | .createShipmentsBatch sender shipments => discard (Navin.createShipmentsBatch sender shipments)
  | .setShipmentMetadata caller id key value => Navin.setShipmentMetadata caller id key value
  | .appendNoteHash reporter id hash => Navin.appendNoteHash reporter id hash
  | .addDisputeEvidenceHash reporter id hash => Navin.addDisputeEvidenceHash reporter id hash
  | .addShipmentDependency company d p => Navin.addShipmentDependency company d p
  | .extendTtl id => Navin.extendTtl id
  | .archiveShipment admin id => Navin.archiveShipment admin id
  | .reportGeofenceEvent carrier id zone hash => Navin.reportGeofenceEvent carrier id zone hash
  | .updateEta carrier id eta hash => Navin.updateEta carrier id eta hash
  | .handoffShipment current new id hash => Navin.handoffShipment current new id hash
  | .reportConditionBreach carrier id breach severity hash =>
    Navin.reportConditionBreach carrier id breach severity hash
  | .updateStatus caller id status hash => Navin.updateStatus caller id status hash
  | .confirmDelivery receiver id hash => Navin.confirmDelivery receiver id hash
  | .confirmPartialDelivery receiver id hash percent =>
    Navin.confirmPartialDelivery receiver id hash percent
  | .recordMilestone carrier id checkpoint hash => Navin.recordMilestone carrier id checkpoint hash
  | .recordMilestonesBatch carrier id milestones =>
    Navin.recordMilestonesBatch carrier id milestones
  | .releaseMilestonePayment caller id name => Navin.releaseMilestonePayment caller id name
  | .depositEscrow source id amount => Navin.depositEscrow source id amount
  | .cancelShipment caller id hash => Navin.cancelShipment caller id hash
  | .forceCancelShipment admin id hash => Navin.forceCancelShipment admin id hash
  | .checkDeadline id => Navin.checkDeadline id
  | .releaseEscrow caller id => Navin.releaseEscrow caller id
  | .refundEscrow caller id => Navin.refundEscrow caller id
  | .raiseDispute caller id hash => Navin.raiseDispute caller id hash
  | .resolveDispute admin id resolution hash => Navin.resolveDispute admin id resolution hash
  | .initMultisig admin admins threshold => Navin.initMultisig admin admins threshold
  | .proposeAction proposer action => discard (Navin.proposeAction proposer action)
  | .proposeActionWithSalt proposer action salt =>
    discard (Navin.proposeActionWithSalt proposer action salt)
  | .approveAction approver id => Navin.approveAction approver id
  | .executeProposal id => Navin.executeProposal id
  | .recoverShipment admin id status hash => Navin.recoverShipment admin id status hash
  | .unlockEscrow admin id hash => Navin.unlockEscrow admin id hash
  | .clearFinalization admin id hash => Navin.clearFinalization admin id hash
  | .rollbackOnExternalFailure admin id status hash =>
    Navin.rollbackOnExternalFailure admin id status hash

/-- The four recovery operations. -/
def Call.isRecovery : Call → Bool
  | .recoverShipment .. | .unlockEscrow .. | .clearFinalization ..
  | .rollbackOnExternalFailure .. => true
  | _ => false

/-! ### The chain -/

/-- The contract between calls, and the time of the last ledger. -/
structure Chain (H : Host) where
  world : World H
  now : ℕ

/-- What happened in a step, as an observer of the chain records it. -/
inductive Label where
  | committed (call : Call) (env : Env) (trace : List Effect)
  | reverted (call : Call) (env : Env)
  | outside

/-- A call starts with an empty trace. -/
def World.fresh (w : World H) : World H := { w with trace := [] }

/-- A call can be made at this point of the chain: time has not gone back, and
the contract's own address, for which nobody holds a key, did not sign. -/
structure Env.Admissible (env : Env) (c : Chain H) : Prop where
  time : c.now ≤ env.timestamp
  self : env.auth H.currentContractAddress = false

/-- One step of the chain. -/
inductive Step : Chain H → Label → Chain H → Prop
  | committed {c : Chain H} {call : Call} {env : Env} {w : World H} : env.Admissible c →
      call.exec env c.world.fresh = .ok () w →
      Step c (.committed call env w.trace) ⟨w.fresh, env.timestamp⟩
  | reverted {c : Chain H} {call : Call} {env : Env} : env.Admissible c →
      (∀ w, call.exec env c.world.fresh ≠ .ok () w) →
      Step c (.reverted call env) ⟨c.world, env.timestamp⟩
  /-- The holders of tokens move them; what the contract holds is not lowered. -/
  | outside {c : Chain H} {token : H.Token} {now : ℕ} : c.now ≤ now →
      (∀ t, H.balance c.world.ledger.token t H.currentContractAddress ≤
        H.balance token t H.currentContractAddress) →
      Step c .outside ⟨{ c.world with ledger := { c.world.ledger with token := token } }, now⟩

/-- A deployed contract: nothing stored, no balance below zero. -/
inductive Deployed : Chain H → Prop
  | mk {token : H.Token} {now : ℕ} :
      (∀ t, 0 ≤ H.balance token t H.currentContractAddress) → Deployed ⟨World.deployed token, now⟩

/-- The states some run from a deployed contract reaches. -/
def Reachable (c : Chain H) : Prop := ∃ c₀ ls, Deployed c₀ ∧ Run Step c₀ ls c

theorem Reachable.step {c c' : Chain H} {l : Label} (hc : Reachable c) (hstep : Step c l c') :
    Reachable c' := by
  obtain ⟨c₀, ls, hd, hr⟩ := hc
  exact ⟨c₀, ls ++ [l], hd, hr.snoc hstep⟩

/-- What holds at deployment and is kept by the steps between reachable states holds in
every reachable state. -/
theorem Reachable.inv {I : Chain H → Prop} {c : Chain H} (hc : Reachable c)
    (deployed : ∀ token now, I ⟨World.deployed token, now⟩)
    (step : ∀ a l b, Reachable a → I a → Step a l b → I b) : I c := by
  obtain ⟨c₀, ls, hd, hr⟩ := hc
  have key : Reachable c ∧ I c := by
    refine hr.inv (I := fun x => Reachable x ∧ I x) ⟨⟨c₀, [], hd, .nil⟩, ?_⟩ ?_
    · cases hd
      exact deployed _ _
    · rintro a l b ⟨ha, h⟩ hstep
      exact ⟨ha.step hstep, step a l b ha h hstep⟩
  exact key.2

/-- The token moves exactly what it is asked to move, at the contract asked and
nowhere else. -/
def Host.MovesExactly (H : Host) : Prop :=
  ∀ token auth t source target amount token', H.transfer token auth t source target amount = some token' →
    ∀ t' holder, H.balance token' t' holder = H.balance token t' holder -
      (if t' = t ∧ holder = source then amount else 0) +
      (if t' = t ∧ holder = target then amount else 0)

end Navin
