/-
# The errors of the shared functions

The checks, the writes and the emitters that the entry points share fail with a few errors
each. Where none of these is a bad one the function never fails badly, whatever the entry
point around it does. The functions that reach the token and the settlements also keep what
their writes keep.

Key theorems:
- `error_of_shouldAllowRequest`: the breaker refuses with one error;
- the instances of `Never`, one for each function, over its errors.
-/
import Navin.Contract
import Navin.Lib.Avoids

namespace Navin

open Tx

variable {H : Host} {bad : NavinError → Bool}

/-! ### Writes and emitters -/

instance (g : Ledger H.Token → Ledger H.Token) : Never bad (modifyLedger g) := .modify fun _ => rfl

instance (g : Registry → Registry) : Never bad (modifyRegistry g : Contract H Unit) :=
  .modify fun _ => rfl

instance (g : Dossier → Dossier) : Never bad (modifyDossier g : Contract H Unit) :=
  .modify fun _ => rfl

instance (g : Governance → Governance) : Never bad (modifyGovernance g : Contract H Unit) :=
  .modify fun _ => rfl

instance (e : Effect) : Never bad (log e : Contract H Unit) := .modify fun _ => rfl

instance : Never bad (timestamp : Contract H ℕ) := by
  unfold timestamp
  infer_instance

instance (t u : ShipmentStatus) : Never bad (moveStatusCount t u : Contract H Unit) := by
  unfold moveStatusCount decrementStatusCount incrementStatusCount
  infer_instance

instance (a : Address) : Never bad (decrementActiveShipmentCount a : Contract H Unit) := by
  unfold decrementActiveShipmentCount setActiveShipmentCount
  infer_instance

instance (id threshold extendTo : ℕ) :
    Never bad (storageExtendShipmentTtl id threshold extendTo : Contract H Unit) := by
  unfold storageExtendShipmentTtl
  infer_instance

instance (id : ℕ) : Never bad (extendShipmentTtl id : Contract H Unit) := by
  unfold extendShipmentTtl
  infer_instance

instance (id : ℕ) (op : SettlementOperation) (x : ℤ) (a b : Address) :
    Never bad (createSettlement id op x a b : Contract H ℕ) := by
  unfold createSettlement incrementSettlementCounter
  infer_instance

instance (domain : ℕ) (topic : String) (id : ℕ) (event : EventKey → Event) :
    Never bad (emitKeyed domain topic id event : Contract H Unit) := by
  unfold emitKeyed incrementEventCount
  infer_instance

instance (domain : ℕ) (topic : String) (id : ℕ) (event : Address → EventKey → Event) :
    Never bad (emitKeyedWithToken domain topic id event : Contract H Unit) := by
  unfold emitKeyedWithToken
  infer_instance

instance (id : ℕ) (name : Symbol) (h : BytesN32) (a : Address) :
    Never bad (emitMilestoneRecorded id name h a : Contract H Unit) := by
  unfold emitMilestoneRecorded incrementMilestoneEventCount
  infer_instance

/-! ### Checks of the caller -/

instance (a : Address) [IsFalse (bad .notInitialized)] [IsFalse (bad .contractPaused)] :
    Never bad (openCall a : Contract H Unit) := by
  unfold openCall requireInitialized requireNotPaused requireAuth
  infer_instance

instance (a : Address) (r : Role) [IsFalse (bad .notInitialized)] [IsFalse (bad .unauthorized)]
    [IsFalse (bad .companySuspended)] [IsFalse (bad .carrierSuspended)] :
    Never bad (requireRole a r : Contract H Unit) := by
  unfold requireRole requireInitialized
  infer_instance

instance (a : Address) [IsFalse (bad .unauthorized)] [IsFalse (bad .carrierSuspended)] :
    Never bad (requireActiveCarrier a : Contract H Unit) := by
  unfold requireActiveCarrier
  infer_instance

instance (a : Address) [IsFalse (bad .notInitialized)] [IsFalse (bad .contractPaused)]
    [IsFalse (bad .unauthorized)] [IsFalse (bad .companySuspended)] [IsFalse (bad .carrierSuspended)] :
    Never bad (openCarrierCall a : Contract H Unit) := by
  unfold openCarrierCall
  infer_instance

instance : Never bad (getAdmin : Contract H Address) := by
  unfold getAdmin
  infer_instance

/-! ### Checks of the input and of the record -/

instance (id : ℕ) [IsFalse (bad .shipmentNotFound)] :
    Never bad (loadShipment id : Contract H Shipment) := by
  unfold loadShipment
  infer_instance

instance (s : Shipment) [IsFalse (bad .shipmentFinalized)] :
    Never bad (requireNotFinalized s : Contract H Unit) := by
  unfold requireNotFinalized
  infer_instance

instance (h : BytesN32) [IsFalse (bad .invalidHash)] :
    Never bad (validateHash h : Contract H Unit) := by
  unfold validateHash
  infer_instance

instance (name : Symbol) [IsFalse (bad .invalidSymbol)] :
    Never bad (validateSymbolChars name : Contract H Unit) := by
  unfold validateSymbolChars
  infer_instance

instance (name : Symbol) [IsFalse (bad .invalidSymbol)] :
    Never bad (validateCheckpointSymbol name : Contract H Unit) := by
  unfold validateCheckpointSymbol
  infer_instance

instance (t u : ShipmentStatus) [IsFalse (bad .invalidStatus)] :
    Never bad (validateShipmentTransition t u : Contract H Unit) := by
  unfold validateShipmentTransition
  infer_instance

instance (x : ℤ) [IsFalse (bad .insufficientFunds)] [IsFalse (bad .invalidAmount)] :
    Never bad (validatePositiveAmount x : Contract H Unit) := by
  unfold validatePositiveAmount
  infer_instance

instance (t : Address) [IsFalse (bad .invalidTokenDecimals)] :
    Never bad (validateTokenDecimals t : Contract H Unit) := by
  unfold validateTokenDecimals
  infer_instance

instance (s : Shipment) [hbad : IsFalse (bad .invalidStatus)] :
    Never bad (persistShipment s : Contract H Unit) := by
  have : Never bad (liftResult (validateShipmentInvariants s) : Contract H Unit) :=
    .liftResult fun e he => by
      unfold validateShipmentInvariants at he
      split_ifs at he <;> cases he <;> exact hbad.out
  unfold persistShipment
  infer_instance

instance (n id : ℕ) [IsFalse (bad .shipmentNotFound)] :
    Never bad (completeSettlement n id : Contract H Unit) := by
  unfold completeSettlement
  infer_instance

/-! ### The token, the breaker and the settlements -/

theorem error_of_shouldAllowRequest {t : CircuitBreakerTracker} {config : CircuitBreakerConfig} {now : ℕ}
    {e : NavinError} (h : t.shouldAllowRequest config now = some (.error e)) :
    e = .circuitBreakerOpen := by
  unfold CircuitBreakerTracker.shouldAllowRequest at h
  cases hs : t.state with
  | closed => simp [hs] at h
  | opened =>
    rw [hs] at h
    obtain ⟨retryAt, -, h⟩ := Option.bind_eq_some_iff.mp h
    split at h <;> cases h
    rfl
  | halfOpen =>
    rw [hs] at h
    dsimp only at h
    split at h <;> cases h
    rfl

section

variable {γ : Type} {f : World H → γ}

instance (n id code : ℕ) [∀ g, Spares f bad (modifyLedger g : Contract H Unit)]
    [IsFalse (bad .shipmentNotFound)] :
    Spares f bad (failSettlement n id code : Contract H Unit) := by
  unfold failSettlement timestamp
  infer_instance

/-- The breaker refuses with an error of its own. -/
instance (config : CircuitBreakerConfig) [∀ t, Spares f bad (setBreaker t : Contract H Unit)]
    [hopen : IsFalse (bad .circuitBreakerOpen)] :
    Spares f bad (checkTransferAllowed config : Contract H Unit) := by
  have (t : CircuitBreakerTracker) (now : ℕ) : Spares f bad
      (unwrap (t.shouldAllowRequest config now) >>= fun verdict =>
        liftResult verdict >>= fun t => setBreaker t : Contract H Unit) := by
    refine .unwrap_bind fun verdict hv => ?_
    have : Spares f bad (liftResult verdict : Contract H CircuitBreakerTracker) :=
      .liftResult fun e he => by
        rw [he] at hv
        rw [error_of_shouldAllowRequest hv]
        exact hopen.out
    infer_instance
  unfold checkTransferAllowed timestamp
  infer_instance

instance (t a b : Address) (x : ℤ) [∀ t, Spares f bad (setBreaker t : Contract H Unit)]
    [∀ g, Spares f bad (modifyLedger g : Contract H Unit)]
    [∀ e, Spares f bad (log e : Contract H Unit)] [IsFalse (bad .circuitBreakerOpen)]
    [IsFalse (bad .tokenTransferFailed)] :
    Spares f bad (invokeTokenTransfer t a b x : Contract H Unit) := by
  unfold invokeTokenTransfer invokeTokenOperation recordTransferFailure recordTransferSuccess timestamp
  infer_instance

end

end Navin
