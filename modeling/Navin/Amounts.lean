/-
# The amounts of an escrow

A deposit is at most `MAX_AMOUNT`, and the platform fee at most a tenth of it. No escrow is
ever larger, so that a percentage of it, a fee, and what is left after either of them are
computed without an overflow. The two sums left, the volume of all deposits and the count
of milestone events, are checked as well and may be refused.

Key definitions:
- `Unerring`: the function does not fail with `ArithmeticError`;
- `World.FairFee`, `World.Capped`: the fee and the deposits are bounded;
- `Call.movesEscrow`, `Call.exceeds`: the calls, and the sums they may refuse.

Key theorems:
- `Reachable.fairFee`, `Reachable.capped`;
- `escrow_arithmetic`.
-/
import Navin.Apportionment
import Navin.Breaker
import Navin.Errors

namespace Navin

open Tx

set_option synthInstance.maxSize 4000

variable {H : Host} {α : Type} {env : Env} {w w' : World H} {call : Call} {p : Posting} {id : ℕ}
  {s : Shipment} {amount x : ℤ}

/-! ### Functions without arithmetic -/

@[reducible] def NavinError.isArithmetic : NavinError → Bool
  | .arithmeticError => true
  | _ => false

/-- The function does not fail with `ArithmeticError`. -/
abbrev Unerring (m : Contract H α) : Prop := Never NavinError.isArithmetic m

/-! ### Arithmetic within bounds -/

theorem checkedI128_of_abs (h : -maxAmount * 1000 ≤ x ∧ x ≤ maxAmount * 1000) :
    checkedI128 x = some x := by
  have hmin : i128Min ≤ -maxAmount * 1000 := by decide
  have hmax : maxAmount * 1000 ≤ i128Max := by decide
  exact if_pos ⟨hmin.trans h.1, h.2.trans hmax⟩

theorem checkedMulDiv_of_capped {a d : ℤ} {n : ℕ} (h₀ : 0 ≤ a) (ha : a ≤ maxAmount) (hn : n ≤ 1000)
    (hd : d ≠ 0) : (checkedMulDiv a n d : Contract H ℤ) = pure ((a * n).tdiv d) := by
  have hpos : 0 ≤ a * n := Int.mul_nonneg h₀ (Int.natCast_nonneg n)
  have hle : a * n ≤ maxAmount * 1000 := by
    apply Int.mul_le_mul ha _ (Int.natCast_nonneg n) (by decide)
    omega
  have hneg : -maxAmount * 1000 ≤ 0 := by decide
  unfold checkedMulDiv
  rw [checkedI128_of_abs ⟨hneg.trans hpos, hle⟩, rejectIf_of_not hd]
  rfl

theorem checkedSubEscrow_of_le {a b : ℤ} (h₀ : 0 ≤ b) (h : b ≤ a) (ha : a ≤ maxAmount) :
    (checkedSubEscrow a b : Contract H ℤ) = pure (a - b) := by
  have hmax : maxAmount ≤ maxAmount * 1000 := by decide
  have hneg : -maxAmount * 1000 ≤ 0 := by decide
  have hnot : ¬a - b < 0 := by omega
  unfold checkedSubEscrow
  rw [checkedI128_of_abs ⟨by omega, by omega⟩]
  show (rejectIf _ _ >>= fun _ => pure (a - b)) = _
  rw [rejectIf_of_not hnot]
  rfl

/-- What holds of every stored record. -/
structure Shipment.Capped (s : Shipment) : Prop where
  regular : s.Regular
  total_le : s.totalEscrow ≤ maxAmount

namespace Shipment.Capped

theorem total_nonneg (h : s.Capped) : 0 ≤ s.totalEscrow :=
  h.regular.escrow_nonneg.trans h.regular.escrow_le_total

theorem share_le {m : Symbol × ℕ} (h : s.Capped) (hm : m ∈ s.paymentMilestones) : m.2 ≤ 100 :=
  (List.single_le_sum (fun _ _ => Nat.zero_le _) _ (List.mem_map_of_mem hm)).trans
    h.regular.scheduled.sum_le

theorem unerring_milestoneRelease {m : Symbol × ℕ} (h : s.Capped) (hm : m ∈ s.paymentMilestones)
    (names : List Symbol) : Unerring (milestoneRelease s names m.2 : Contract H ℤ) := by
  have hle := h.share_le hm
  unfold milestoneRelease
  rw [checkedMulDiv_of_capped h.total_nonneg h.total_le (by omega) (by decide)]
  infer_instance

end Shipment.Capped

/-- It does not look at what a payment marks. -/
theorem Shipment.Capped.markPaid (h : s.Capped) (name : Symbol) : (s.markPaid name).Capped :=
  ⟨⟨h.regular.scheduled, h.regular.escrow_nonneg, h.regular.escrow_le_total⟩, h.total_le⟩

theorem Shipment.Capped.unerring_internalReleaseEscrow (h : s.Capped) (x : ℤ) :
    Unerring (internalReleaseEscrow s x : Contract H Shipment) := by
  have h₀ := h.regular.escrow_nonneg
  have h₁ := h.regular.escrow_le_total.trans h.total_le
  unfold internalReleaseEscrow emitEscrowReleased
  by_cases hx : x ≤ 0
  · rw [if_pos hx]
    infer_instance
  rw [if_neg hx]
  by_cases hlt : s.escrowAmount < x
  · simp only [if_pos hlt, checkedSubEscrow_of_le h₀ le_rfl h₁]
    infer_instance
  · simp only [if_neg hlt, checkedSubEscrow_of_le (by omega) (not_lt.mp hlt) h₁]
    infer_instance

/-! ### The calls that pay out -/

/-- Every stored record is capped. -/
def World.Capped (w : World H) : Prop := ∀ id s, w.getShipment id = some s → s.Capped

abbrev Careful (m : Contract H α) (env : Env) (w : World H) : Prop := Avoids NavinError.isArithmetic m env w

theorem careful_load {k : Shipment → Contract H α} (hw : w.Capped)
    (hk : ∀ s, s.Capped → Unerring (k s)) : Careful (loadShipment id >>= k) env w :=
  avoids_step (wp_loadShipment fun s hs => (hk s (hw id s hs)).avoids)

theorem careful_openCall {a : Address} {n : Contract H α} (hn : Careful n env (w.signed a)) :
    Careful (openCall a >>= fun _ => n) env w :=
  avoids_step (wp_openCall fun _ _ => hn)

theorem careful_guard {m : Contract H Unit} [Preserves (fun w : World H => w) m] [Unerring m]
    {n : Contract H α} (hn : Careful n env w) : Careful (m >>= fun _ => n) env w :=
  avoids_step (wp_guard fun _ => hn)

theorem unerring_payRecordedMilestone (hs : s.Capped) (name : Symbol) :
    Unerring (payRecordedMilestone id s name : Contract H Shipment) := by
  unfold payRecordedMilestone emitMilestonePaymentReleased
  rcases hm : s.findMilestone name with _ | m
  · infer_instance
  · obtain ⟨hin, -⟩ := Shipment.mem_of_findMilestone hm
    have := fun names => (hs.markPaid name).unerring_milestoneRelease (H := H) hin names
    have := fun x => (hs.markPaid name).unerring_internalReleaseEscrow (H := H) x
    infer_instance

theorem careful_recordMilestone {carrier : Address} {name : Symbol} {hash : BytesN32} (hw : w.Capped) :
    Careful (recordMilestone carrier id name hash) env w := by
  unfold recordMilestone openCarrierCall
  simp only [bind_assoc]
  apply careful_openCall
  apply careful_guard
  apply careful_guard
  refine careful_load hw fun s hs => ?_
  have : ∀ name, Unerring (payRecordedMilestone id s name : Contract H Shipment) :=
    unerring_payRecordedMilestone hs
  infer_instance

theorem unerring_recordBatchItem {carrier : Address} {item : Symbol × BytesN32} (hs : s.Capped) :
    Unerring (recordBatchItem carrier id s item : Contract H Shipment) := by
  unfold recordBatchItem emitMilestonePaymentReleased
  rcases hm : s.findMilestone item.1 with _ | m
  · infer_instance
  · obtain ⟨hin, -⟩ := Shipment.mem_of_findMilestone hm
    have hle := hs.share_le hin
    have := fun x => (hs.markPaid item.1).unerring_internalReleaseEscrow (H := H) x
    dsimp only
    rw [checkedMulDiv_of_capped hs.total_nonneg hs.total_le (by omega) (by decide)]
    infer_instance

theorem Shipment.Capped.payMilestone (hs : s.Capped) (name : Symbol) (x : ℤ) (now : ℕ) :
    (s.payMilestone name x now).Capped := by
  have hle := (s.markPaid name).payable_le x hs.regular.escrow_nonneg
  have hnn := (s.markPaid name).payable_nonneg x
  exact ⟨⟨hs.regular.scheduled, sub_nonneg.mpr hle,
    (sub_le_self _ hnn).trans hs.regular.escrow_le_total⟩, hs.total_le⟩

theorem wp_recordBatchItem_capped {carrier : Address} {item : Symbol × BytesN32} (hs : s.Capped) :
    wp (recordBatchItem carrier id s item) env w fun s' _ => s'.Capped := by
  by_cases hpays : ∃ m, s.findMilestone item.1 = some m ∧ item.1 ∉ s.paidMilestones
  · obtain ⟨m, hm, hunpaid⟩ := hpays
    refine (wp_recordBatchItem_unpaid hm hunpaid).mono fun s' _ h => ?_
    rw [h.1]
    exact hs.payMilestone ..
  · refine (wp_recordBatchItem_idle fun m hm => ?_).mono fun s' _ h => ?_
    · by_contra hunpaid
      exact hpays ⟨m, hm, hunpaid⟩
    · rw [h]
      exact hs

/-- A batch is refused for its length alone. -/
theorem careful_recordMilestonesBatch {carrier : Address} {items : List (Symbol × BytesN32)}
    (hw : w.Capped) (hcount : w.getMilestoneEventCount id + items.length ≤ u32Max) :
    Careful (recordMilestonesBatch carrier id items) env w := by
  unfold recordMilestonesBatch openCarrierCall
  simp only [bind_assoc]
  apply careful_openCall
  apply careful_guard
  apply careful_guard
  refine avoids_step ?_
  rw [wp_gets]
  apply careful_guard
  apply careful_guard
  refine avoids_step (wp_loadShipment fun s hs => ?_)
  have hs := hw id s hs
  apply careful_guard
  apply careful_guard
  apply careful_guard
  refine avoids_step ?_
  rw [wp_gets]
  have hadd : checkedAddU32 ((w.signed carrier).getMilestoneEventCount id) items.length =
      some (w.getMilestoneEventCount id + items.length) := if_pos hcount
  rw [hadd]
  show Careful (pure _ >>= _) _ _
  rw [Tx.pure_bind]
  apply careful_guard
  refine avoids_bind ?_ (.of_forall fun _ _ => Never.avoids inferInstance)
  exact avoids_foldlM _ (fun _ s' _ => s'.Capped) (fun _ _ _ _ h => (unerring_recordBatchItem h).avoids)
    (fun _ _ _ _ h => wp_recordBatchItem_capped h) items s _ hs

theorem careful_releaseMilestonePayment {caller : Address} {name : Symbol} (hw : w.Capped) :
    Careful (releaseMilestonePayment caller id name) env w := by
  unfold releaseMilestonePayment emitMilestonePaymentReleased
  apply careful_openCall
  refine avoids_step (wp_loadShipment fun s hs => ?_)
  have hs := hw id s hs
  apply careful_guard
  refine avoids_step (wp_guard fun admin => ?_)
  apply careful_guard
  apply careful_guard
  refine avoids_step ?_
  rw [wp_okOr]
  intro m hm
  obtain ⟨hin, -⟩ := Shipment.mem_of_findMilestone hm
  have := fun names => hs.unerring_milestoneRelease (H := H) hin names
  have := fun x => (hs.markPaid name).unerring_internalReleaseEscrow (H := H) x
  exact Never.avoids inferInstance

theorem Shipment.Capped.withStatus (h : s.Capped) (status : ShipmentStatus) (now : ℕ) :
    ((s.withStatus status).withUpdatedAt now).Capped :=
  ⟨⟨h.regular.scheduled, h.regular.escrow_nonneg, h.regular.escrow_le_total⟩, h.total_le⟩

theorem careful_confirmDelivery {receiver : Address} {hash : BytesN32} (hw : w.Capped) :
    Careful (confirmDelivery receiver id hash) env w := by
  unfold confirmDelivery emitDeliveryConfirmed emitDeliverySuccess setConfirmationHash
  apply careful_openCall
  apply careful_guard
  refine careful_load hw fun s hs => ?_
  have := fun now x => (hs.withStatus .delivered now).unerring_internalReleaseEscrow (H := H) x
  infer_instance

theorem Shipment.Capped.share_le_total (h : s.Capped) {n : ℕ} (hn : n ≤ 100) :
    0 ≤ s.share n ∧ s.share n ≤ s.totalEscrow := by
  have hle : s.totalEscrow * n ≤ s.totalEscrow * 100 := by
    apply Int.mul_le_mul_of_nonneg_left _ h.total_nonneg
    omega
  have heq : s.share n = s.totalEscrow * n / 100 :=
    Int.tdiv_eq_ediv_of_nonneg (Int.mul_nonneg h.total_nonneg (Int.natCast_nonneg n))
  refine ⟨h.regular.share_nonneg n, ?_⟩
  rw [heq]
  omega

theorem careful_confirmPartialDelivery {receiver : Address} {hash : BytesN32} {percent : ℕ}
    (hw : w.Capped) : Careful (confirmPartialDelivery receiver id hash percent) env w := by
  unfold confirmPartialDelivery emitStatusUpdated setConfirmationHash
  apply careful_openCall
  apply careful_guard
  refine avoids_step ?_
  rw [wp_rejectIf]
  intro hpercent
  refine careful_load hw fun s hs => ?_
  obtain ⟨hshare₀, hshare⟩ := hs.share_le_total (n := percent) (by omega)
  have hesc := hs.regular.escrow_le_total
  have hnn := hs.regular.escrow_nonneg
  have hmax := hs.total_le
  have hbig : maxAmount * 2 ≤ maxAmount * 1000 ∧ -maxAmount * 1000 ≤ 0 := by decide
  have hreleased : checkedI128 (s.totalEscrow - s.escrowAmount) =
      some (s.totalEscrow - s.escrowAmount) := checkedI128_of_abs (by omega)
  have htotal : checkedI128 (s.totalEscrow - s.escrowAmount + (s.totalEscrow * percent).tdiv 100) =
      some (s.totalEscrow - s.escrowAmount + s.share percent) :=
    checkedI128_of_abs (x := s.totalEscrow - s.escrowAmount + s.share percent) (by omega)
  have hsome : ∀ a : ℤ, (okOr (some a) .arithmeticError : Contract H ℤ) = pure a := fun _ => rfl
  have := fun status now x => (hs.withStatus status now).unerring_internalReleaseEscrow (H := H) x
  rw [checkedMulDiv_of_capped hs.total_nonneg hs.total_le (by omega) (by decide)]
  simp only [Tx.pure_bind, hreleased, hsome, htotal]
  infer_instance

/-! ### The fee and the volume -/

/-- What a deposit reads and writes of the governance. -/
def World.tariff (w : World H) : Option FeeConfig × ℤ :=
  (w.governance.feeConfig, w.governance.totalEscrowVolume)

/-- The fee in force was accepted by `set_platform_fee`. -/
def World.FairFee (w : World H) : Prop := ∀ c, w.governance.feeConfig = some c → c.feeBps ≤ 1000

section

instance : LedgerFree (World.tariff (H := H)) := ⟨fun _ _ => rfl⟩

instance : RegistryFree (World.tariff (H := H)) := ⟨fun _ _ => rfl⟩

instance : DossierFree (World.tariff (H := H)) := ⟨fun _ _ => rfl⟩

instance : AuthFree (World.tariff (H := H)) := ⟨fun _ _ => rfl⟩

instance : PlainFree (World.tariff (H := H)) := ⟨fun _ _ _ => rfl⟩

instance : PaymentFree (World.tariff (H := H)) := ⟨fun _ _ _ => rfl⟩

instance (t : CircuitBreakerTracker) : Preserves World.tariff (setBreaker t : Contract H Unit) :=
  .modify fun _ => rfl

instance (t a b : Address) (x : ℤ) :
    Preserves World.tariff (invokeTokenTransfer t a b x : Contract H Unit) := by
  unfold invokeTokenTransfer checkTransferAllowed recordTransferSuccess
  infer_instance

instance (id : ℕ) (t : Address) (x : ℤ) :
    Preserves World.tariff (collectPlatformFee id t x : Contract H ℤ) := by
  unfold collectPlatformFee
  refine @Preserves.bind _ _ _ _ _ _ _ _ _ inferInstance fun config => ?_
  cases config <;> infer_instance

end

theorem careful_withReentrancyLock {m : Contract H α}
    (h : ∀ w₁ : World H, w₁.ledger = w.ledger → w₁.tariff = w.tariff → Careful m env w₁) :
    Careful (withReentrancyLock m) env w := by
  unfold withReentrancyLock
  refine avoids_step ?_
  rw [wp_gets]
  apply careful_guard
  refine avoids_step ?_
  rw [wp_modifyGovernance]
  exact avoids_ensure (h _ rfl rfl)

theorem careful_releaseEscrow {caller : Address} (hw : w.Capped) :
    Careful (releaseEscrow caller id) env w := by
  unfold releaseEscrow
  apply careful_openCall
  refine careful_withReentrancyLock fun w₁ h₁ _ => ?_
  have hw₁ : w₁.Capped := fun i t ht => hw i t (by rwa [World.getShipment, h₁] at ht)
  refine avoids_step (wp_guard fun admin => ?_)
  refine careful_load hw₁ fun s hs => ?_
  have := fun x => hs.unerring_internalReleaseEscrow (H := H) x
  infer_instance

/-- The fee that `deposit_escrow` asks for. -/
def World.platformFee (w : World H) (amount : ℤ) : ℤ :=
  amount * (w.governance.feeConfig.elim 0 (·.feeBps) : ℕ) / 10000

/-- A fee is less than the amount it is taken from. -/
theorem fee_bounds {n : ℕ} (h₀ : 0 < amount) (hn : n ≤ 1000) :
    (amount * n).tdiv 10000 = amount * n / 10000 ∧ 0 ≤ amount * n / 10000 ∧
      amount * n / 10000 < amount := by
  have hle : amount * n ≤ amount * 1000 := by
    apply Int.mul_le_mul_of_nonneg_left _ h₀.le
    omega
  have hnn : 0 ≤ amount * n := Int.mul_nonneg h₀.le (Int.natCast_nonneg n)
  refine ⟨Int.tdiv_eq_ediv_of_nonneg hnn, ?_, ?_⟩ <;> omega

theorem careful_collectPlatformFee {t : Address} (hfee : w.FairFee) (h₀ : 0 < amount)
    (h₁ : amount ≤ maxAmount) : Careful (collectPlatformFee id t amount) env w := by
  unfold collectPlatformFee emitPlatformFeeCollected
  refine avoids_step ?_
  rw [wp_gets]
  rcases hc : w.governance.feeConfig with _ | c
  · exact Never.avoids inferInstance
  · have hbps := hfee c hc
    dsimp only
    rw [checkedMulDiv_of_capped h₀.le h₁ hbps (by decide), Tx.pure_bind]
    have hnet : checkedI128 (amount - (amount * c.feeBps).tdiv 10000) =
        some (amount - (amount * c.feeBps).tdiv 10000) := by
      obtain ⟨heq, hnn, hlt⟩ := fee_bounds h₀ hbps
      have hbig : maxAmount ≤ maxAmount * 1000 ∧ -maxAmount * 1000 ≤ 0 := by decide
      apply checkedI128_of_abs
      omega
    have hsome : ∀ a : ℤ, (okOr (some a) .arithmeticError : Contract H ℤ) = pure a := fun _ => rfl
    simp only [hnet, hsome]
    exact Never.avoids inferInstance

theorem careful_addTotalEscrowVolume (h₀ : 0 ≤ amount)
    (h : 0 ≤ w.governance.totalEscrowVolume + amount ∧
      w.governance.totalEscrowVolume + amount ≤ i128Max) :
    Careful (addTotalEscrowVolume amount) env w := by
  have hmin : i128Min ≤ 0 := by decide
  have hsum : checkedI128 (w.governance.totalEscrowVolume + amount) =
      some (w.governance.totalEscrowVolume + amount) := if_pos ⟨hmin.trans h.1, h.2⟩
  unfold addTotalEscrowVolume
  rw [rejectIf_of_not (not_lt.mpr h₀), Tx.pure_bind]
  refine avoids_step ?_
  rw [wp_gets, hsum]
  show Careful (pure _ >>= _) _ _
  rw [Tx.pure_bind, rejectIf_of_not (not_lt.mpr h.1)]
  exact Never.avoids inferInstance

/-- A deposit is refused for the volume of all deposits alone. -/
theorem careful_depositEscrow {source : Address} (hfee : w.FairFee)
    (hvolume : 0 ≤ w.governance.totalEscrowVolume + amount ∧
      w.governance.totalEscrowVolume + amount ≤ i128Max) :
    Careful (depositEscrow source id amount) env w := by
  unfold depositEscrow emitEscrowDeposited
  apply careful_openCall
  apply careful_guard
  refine careful_withReentrancyLock fun w₁ _ t₁ => ?_
  refine avoids_step ?_
  unfold validatePositiveAmount
  simp only [wp_bind, wp_rejectIf, not_le, not_lt]
  intro hpos hmax
  refine avoids_step (wp_guard fun s => ?_)
  apply careful_guard
  apply careful_guard
  apply careful_guard
  refine avoids_step ?_
  rw [wp_gets]
  refine avoids_step (wp_guard fun t => ?_)
  apply careful_guard
  refine avoids_step (Preserves.wp World.tariff fun n w₂ t₂ => ?_)
  refine avoids_step (Preserves.wp World.tariff fun _ w₃ t₃ => ?_)
  refine avoids_step (Preserves.wp World.tariff fun _ w₄ t₄ => ?_)
  have ht₄ : w₄.tariff = w.tariff := ((t₄.trans t₃).trans t₂).trans t₁
  have hfee₄ : w₄.FairFee := fun c hc => hfee c ((congrArg Prod.fst ht₄).symm.trans hc)
  refine avoids_bind (careful_collectPlatformFee hfee₄ hpos hmax)
    (Preserves.wp World.tariff fun net w₅ t₅ => ?_)
  refine avoids_step (wp_timestamp.mpr ?_)
  refine avoids_step (Preserves.wp World.tariff fun _ w₆ t₆ => ?_)
  refine avoids_step (Preserves.wp World.tariff fun _ w₇ t₇ => ?_)
  have hv₇ : w₇.governance.totalEscrowVolume = w.governance.totalEscrowVolume :=
    congrArg Prod.snd (((t₇.trans t₆).trans t₅).trans ht₄)
  refine avoids_bind (careful_addTotalEscrowVolume hpos.le ?_)
    (.of_forall fun _ _ => Never.avoids inferInstance)
  rw [hv₇]
  exact hvolume

/-! ### Every reachable state -/

instance (g : Governance → Governance) [h : ∀ x, Same (g x).feeConfig x.feeConfig]
    [h' : ∀ x, Same (g x).totalEscrowVolume x.totalEscrowVolume] :
    Preserves (World.tariff (H := H)) (modifyGovernance g : Contract H Unit) :=
  .modify fun w => Prod.ext (h w.governance).out (h' w.governance).out

instance (c : ContractConfig) : Preserves (World.tariff (H := H)) (setConfig c : Contract H Unit) := by
  unfold setConfig
  infer_instance

theorem World.FairFee.of_tariff (h : w.FairFee) (ht : w'.tariff = w.tariff) : w'.FairFee :=
  fun c hc => h c ((congrArg Prod.fst ht).symm.trans hc)

/-- The fee is checked where it is set. -/
theorem wp_setPlatformFee {admin treasury : Address} {n : ℕ} :
    wp (setPlatformFee admin n treasury) env w fun _ w' => w'.FairFee := by
  unfold setPlatformFee
  simp only [wp_bind]
  refine wp_openCall fun _ _ => ?_
  refine wp_guard fun _ => ?_
  rw [wp_rejectIf, not_lt]
  intro hn
  refine wp_guard fun _ => ?_
  rw [wp_modifyGovernance, wp_modifyGovernance, wp_log]
  intro c hc
  obtain rfl := Option.some.inj hc
  exact hn

theorem World.FairFee.exec (h : w.FairFee) (hx : call.exec env w = .ok () w') : w'.FairFee := by
  have keep : ∀ {m : Contract H Unit} [Preserves World.tariff m], wp m env w fun _ w' => w'.FairFee :=
    Preserves.wp World.tariff fun _ _ ht => h.of_tariff ht
  by_cases hc : call.sets = true
  · cases call with
    | initializeContract =>
      unfold Call.exec Navin.initializeContract at hx
      exact keep () w' hx
    | setCreationQuota =>
      unfold Call.exec Navin.setCreationQuota at hx
      exact keep () w' hx
    | updateConfig =>
      unfold Call.exec Navin.updateConfig at hx
      exact keep () w' hx
    | setPlatformFee => exact wp_setPlatformFee () w' hx
    | pause =>
      unfold Call.exec Navin.pause at hx
      exact keep () w' hx
    | unpause =>
      unfold Call.exec Navin.unpause at hx
      exact keep () w' hx
    | setCircuitBreakerConfig =>
      unfold Call.exec Navin.setCircuitBreakerConfig at hx
      exact keep () w' hx
    | _ => cases hc
  · have hs : w'.settings = w.settings := settings_exec (by simpa using hc) () w' hx
    intro c hc
    exact h c ((congrArg Settings.feeConfig hs).symm.trans hc)

variable {c c' : Chain H}

theorem Reachable.fairFee (hc : Reachable c) : c.world.FairFee := by
  refine hc.inv (I := fun c => c.world.FairFee) (fun _ _ _ hc => by cases hc)
    fun a l b _ h hstep => ?_
  cases hstep with
  | @committed _ _ w' _ hx =>
    have h : a.world.fresh.FairFee := h
    have h' : w'.FairFee := h.exec hx
    exact h'
  | reverted => exact h
  | outside => exact h

/-- A posting keeps the deposit of the record, unless it is one. -/
theorem Rule.totalEscrow (hr : Rule env w call p) : p.new.totalEscrow = p.old.totalEscrow ∨
    ∃ source amount, call = .depositEscrow source p.old.id amount ∧
      p.new.totalEscrow = netOfFee w.governance.feeConfig amount := by
  cases hr with
  | @recordMilestonesBatch s items =>
    have htotal := (s.batchOf_payBatch env.timestamp (items.map (·.1))).total_eq
    exact .inl htotal
  | @depositEscrow source s amount => exact .inr ⟨source, amount, rfl, rfl⟩
  | _ => exact .inl rfl

/-- An amount that is deposited was accepted by `validate_positive_amount`. -/
theorem wp_depositEscrow_amount {source : Address} :
    wp (depositEscrow source id amount) env w fun _ _ => 0 < amount ∧ amount ≤ maxAmount := by
  unfold depositEscrow withReentrancyLock
  rw [wp_bind]
  refine .of_forall fun _ w₁ => ?_
  rw [wp_bind]
  refine .of_forall fun _ w₂ => ?_
  rw [wp_bind, wp_gets, wp_bind, wp_rejectIf]
  intro _
  rw [wp_bind, wp_modifyGovernance, wp_ensure, wp_bind]
  unfold validatePositiveAmount
  rw [wp_bind, wp_rejectIf, wp_rejectIf]
  exact fun hpos hmax => .of_forall fun _ _ => ⟨not_le.mp hpos, not_lt.mp hmax⟩

theorem platformFee_none (hc : w.governance.feeConfig = none) : w.platformFee amount = 0 := by
  unfold World.platformFee
  rw [hc]
  simp

theorem platformFee_some {c : FeeConfig} (hc : w.governance.feeConfig = some c) :
    w.platformFee amount = amount * c.feeBps / 10000 := by
  unfold World.platformFee
  rw [hc]
  rfl

theorem platformFee_bounds (hfee : w.FairFee) (h : 0 < amount) :
    0 ≤ w.platformFee amount ∧ w.platformFee amount < amount := by
  rcases hc : w.governance.feeConfig with _ | c
  · rw [platformFee_none hc]
    exact ⟨le_rfl, h⟩
  · rw [platformFee_some hc]
    exact (fee_bounds h (hfee c hc)).2

/-- The code takes a fee when it is positive. -/
theorem takes_fee {c : FeeConfig} (hfee : w.FairFee) (h : 0 < amount)
    (hc : w.governance.feeConfig = some c) :
    (amount * c.feeBps).tdiv 10000 = w.platformFee amount ∧
      ((0 < c.feeBps ∧ 0 < (amount * c.feeBps).tdiv 10000) ↔ 0 < w.platformFee amount) := by
  obtain ⟨heq, -, -⟩ := fee_bounds h (hfee c hc)
  rw [platformFee_some hc, heq]
  refine ⟨rfl, fun hpos => hpos.2, fun hpos => ⟨?_, hpos⟩⟩
  apply Nat.pos_of_ne_zero
  intro hzero
  rw [hzero] at hpos
  simp at hpos

/-- What is left of a deposit after the fee. -/
theorem netOfFee_eq (hfee : w.FairFee) (h : 0 < amount) :
    netOfFee w.governance.feeConfig amount = amount - w.platformFee amount := by
  unfold netOfFee
  rcases hc : w.governance.feeConfig with _ | c
  · rw [platformFee_none hc, sub_zero]
  · obtain ⟨heq, htakes⟩ := takes_fee hfee h hc
    have hnn := (platformFee_bounds hfee h).1
    by_cases hpos : 0 < w.platformFee amount
    · rw [← heq]
      exact if_pos (htakes.mpr hpos)
    · have hzero : w.platformFee amount = 0 := by omega
      rw [hzero, sub_zero]
      exact if_neg fun ht => hpos (htakes.mp ht)

/-- What is paid to the treasury. -/
theorem out_feeMoves (hfee : w.FairFee) (h : 0 < amount) :
    (feeMoves w.governance.feeConfig amount).filterMap (·.out?) =
      if 0 < w.platformFee amount then
        w.governance.feeConfig.toList.map fun c => (c.treasury, w.platformFee amount) else [] := by
  unfold feeMoves
  rcases hc : w.governance.feeConfig with _ | c
  · simp
  · obtain ⟨heq, htakes⟩ := takes_fee hfee h hc
    dsimp only
    by_cases hpos : 0 < w.platformFee amount
    · rw [if_pos (htakes.mpr hpos), if_pos hpos, heq]
      rfl
    · rw [if_neg (fun ht => hpos (htakes.mp ht)), if_neg hpos]
      rfl

variable {l : Label}

theorem Step.capped (hstep : Step c l c') (hc : Reachable c) (h : c.world.Capped) :
    c'.world.Capped := by
  intro i s hs
  refine ⟨(hc.step hstep).regular hs, ?_⟩
  cases hstep with
  | @committed call env w' _ hx =>
    have hsound : c.world.fresh.ledger.Sound := hc.sound
    refine (exec_effects hsound.keyed hx).forall_records (P := fun s => s.totalEscrow ≤ maxAmount)
      (fun _ _ _ => (by decide : (0 : ℤ) ≤ maxAmount)) (fun p hp hold => ?_) (fun i s hs => (h i s hs).total_le) hs
    rcases hp.rule.totalEscrow with heq | ⟨source, amount, rfl, heq⟩
    · rwa [heq]
    · obtain ⟨hpos, hmax⟩ := wp_depositEscrow_amount () w' hx
      have hfee : c.world.fresh.FairFee := hc.fairFee
      have hnn := (platformFee_bounds hfee hpos).1
      rw [heq, netOfFee_eq hfee hpos]
      omega
  | reverted => exact (h i s hs).total_le
  | outside => exact (h i s hs).total_le

theorem Reachable.capped (hc : Reachable c) : c.world.Capped :=
  hc.inv (I := fun c => c.world.Capped) (fun _ _ _ _ hs => by cases hs)
    fun _ _ _ ha h hstep => hstep.capped ha h

/-! ### Deposits and payouts -/

/-- A deposit is split into the fee and what is credited. -/
theorem Step.deposited {source : Address} {trace : List Effect}
    (hstep : Step c (.committed (.depositEscrow source id amount) env trace) c') (hc : Reachable c) :
    ∃ s, c'.world.getShipment id = some s ∧ s.escrowAmount = amount - c.world.platformFee amount ∧
      s.totalEscrow = s.escrowAmount ∧ 0 < s.escrowAmount ∧
      c.world.platformFee amount + s.escrowAmount = amount ∧
      transfersOut H.currentContractAddress trace = if 0 < c.world.platformFee amount then
        c.world.governance.feeConfig.toList.map fun f => (f.treasury, c.world.platformFee amount)
        else [] := by
  cases hstep with
  | @committed _ _ w' ha hx =>
    have hsound : c.world.fresh.ledger.Sound := hc.sound
    have hfee : c.world.fresh.FairFee := hc.fairFee
    obtain ⟨hpos, -⟩ := wp_depositEscrow_amount () w' hx
    have hlt := (platformFee_bounds hfee hpos).2
    have hnet := netOfFee_eq hfee hpos
    have hout := out_feeMoves hfee hpos
    obtain ⟨p, hp⟩ := (exec_effects hsound.keyed hx).exists_posting rfl
    have hstored := hp.stored_new
    have hmoves := hp.transfersOut_eq ha.2 (hp.bounds hsound).1
    cases hp.rule with
    | @depositEscrow _ s =>
      refine ⟨_, hstored, ?_, rfl, ?_, ?_, ?_⟩
      · exact hnet
      · show 0 < netOfFee _ _
        rw [hnet]
        exact sub_pos.mpr hlt
      · show _ + netOfFee _ _ = _
        rw [hnet]
        exact add_sub_cancel _ _
      · exact hmoves.trans hout
    | forceRelease he => cases he
    | forceRefund he => cases he

/-- The calls that bring money into an escrow or pay it to the carrier. -/
def Call.movesEscrow : Call → Bool
  | .depositEscrow .. | .recordMilestone .. | .recordMilestonesBatch ..
  | .releaseMilestonePayment .. | .confirmPartialDelivery .. | .confirmDelivery ..
  | .releaseEscrow .. => true
  | _ => false

/-- The sums that are checked beside: the volume of all deposits, and the number of
milestone events a batch leads to. -/
def Call.exceeds (w : World H) : Call → Prop
  | .depositEscrow _ _ amount => ¬(0 ≤ w.governance.totalEscrowVolume + amount ∧
      w.governance.totalEscrowVolume + amount ≤ i128Max)
  | .recordMilestonesBatch _ id items => u32Max < w.getMilestoneEventCount id + items.length
  | _ => False

theorem careful_exec (hcall : call.movesEscrow = true) (hw : w.Capped) (hfee : w.FairFee)
    (hsums : ¬call.exceeds w) : Careful call.exec env w := by
  cases call with
  | depositEscrow => exact careful_depositEscrow hfee (not_not.mp hsums)
  | recordMilestone => exact careful_recordMilestone hw
  | recordMilestonesBatch => exact careful_recordMilestonesBatch hw (not_lt.mp hsums)
  | releaseMilestonePayment => exact careful_releaseMilestonePayment hw
  | confirmPartialDelivery => exact careful_confirmPartialDelivery hw
  | confirmDelivery => exact careful_confirmDelivery hw
  | releaseEscrow => exact careful_releaseEscrow hw
  | _ => cases hcall

/-- **Escrow arithmetic does not fail.** In every reachable state a deposit is split into
the fee, rounded down, and a positive rest that is credited; and a deposit, a recording, a
release or a delivery that fails with `ArithmeticError` does so for the volume of all
deposits or the number of milestone events, never for a product, a difference or a sum of
its amounts. -/
theorem escrow_arithmetic (hc : Reachable c) :
    (∀ source id amount env trace c',
      Step c (.committed (.depositEscrow source id amount) env trace) c' →
      ∃ s, c'.world.getShipment id = some s ∧ s.escrowAmount = amount - c.world.platformFee amount ∧
        s.totalEscrow = s.escrowAmount ∧ 0 < s.escrowAmount ∧
        c.world.platformFee amount + s.escrowAmount = amount ∧
        transfersOut H.currentContractAddress trace = if 0 < c.world.platformFee amount then
          c.world.governance.feeConfig.toList.map fun f => (f.treasury, c.world.platformFee amount)
          else []) ∧
    ∀ (call : Call) env, call.movesEscrow = true →
      call.exec.FailsWith env c.world.fresh .arithmeticError → call.exceeds c.world := by
  refine ⟨fun _ _ _ _ _ _ hstep => hstep.deposited hc, fun call env hcall hfails => ?_⟩
  by_contra hsums
  have hw : c.world.fresh.Capped := hc.capped
  have hfee : c.world.fresh.FairFee := hc.fairFee
  have hsums' : ¬call.exceeds c.world.fresh := by
    cases call <;> exact hsums
  exact (careful_exec hcall hw hfee hsums').not_failsWith rfl hfails

/-- A deposit of 1000 with a fee of one percent. -/
theorem escrow_arithmetic_fee : ∃ (c c' : Chain Deployment.host) (env : Env) (trace : List Effect),
    Reachable c ∧
      Step c (.committed (.depositEscrow Deployment.company 1 1000) env trace) c' ∧
      c.world.platformFee 1000 = 10 ∧
      transfersOut Deployment.self trace = [(.contract 3, 10)] ∧
      ∃ s, c'.world.getShipment 1 = some s ∧ 0 < s.escrowAmount ∧
        c.world.platformFee 1000 + s.escrowAmount = 1000 := by
  obtain ⟨ls, c, trace, c', hr, hstep, hfee, hout⟩ := exists_commit Deployment.chain
    (Deployment.opening ++ [
      Deployment.signed Deployment.admin 5 (.setPlatformFee Deployment.admin 100 (.contract 3))])
    (.depositEscrow Deployment.company 1 1000) (Deployment.signed Deployment.company 6 (.extendTtl 1)).2
    (fun r trace _ => r.2.world.platformFee 1000 = 10 ∧
      transfersOut Deployment.self trace = [(.contract 3, 10)])
    (by decide +kernel)
  have hc : Reachable c := ⟨_, ls, Deployment.deployed, hr⟩
  obtain ⟨s, hs, -, -, hpos, hsum, -⟩ := (escrow_arithmetic hc).1 _ _ _ _ _ _ hstep
  exact ⟨c, c', _, trace, hc, hstep, hfee, hout, s, hs, hpos, hsum⟩

end Navin
