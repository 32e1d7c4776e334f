/-
# Calls that move a whole escrow

Deposits and their fee, cancellations, the deadline, refunds, resolved disputes
and the forced settlements of the multi-signature admins.

Key theorems:
- `effects_depositEscrow`, `effects_refundEscrow`, `effects_resolveDispute`;
- `effects_cancelShipment`, `effects_forceCancelShipment`, `effects_checkDeadline`;
- `effects_approveAction`, `effects_executeProposal`.
-/
import Navin.Refine.Setup

namespace Navin

open Tx

set_option synthInstance.maxSize 1000

variable {H : Host} {env : Env} {w : World H}

/-- Only one token contract is stored. -/
theorem eq_of_token {o : Option Address} {t : Address} (h : o = some t) : ∀ t', o = some t' → t' = t :=
  fun _ h' => Option.some.inj (h'.symm.trans h)

/-! ### Deposit -/

theorem wp_validatePositiveAmount {x : ℤ} {QU : Unit → World H → Prop} (h : 0 < x → QU () w) :
    wp (validatePositiveAmount x) env w QU := by
  unfold validatePositiveAmount
  simp only [wp_bind, wp_rejectIf, not_le]
  exact fun hx _ => h hx

/-- The fee is paid to the treasury and announced, or there is none. -/
theorem wp_collectPlatformFee {id : ℕ} {t : Address} {amount : ℤ} {Q : ℤ → World H → Prop}
    (hnone : feeMoves w.governance.feeConfig amount = [] →
      Q (netOfFee w.governance.feeConfig amount) w)
    (hfee : ∀ treasury fee token w', feeMoves w.governance.feeConfig amount = [.fee treasury fee] →
      H.transfer w.book.ledger.token (env.tokenAuth H) t H.currentContractAddress treasury fee =
        some token →
      w'.book = ((w.book.map (·.setToken token)).note
        (.moved t H.currentContractAddress treasury fee)).note (.fee id treasury fee) →
      Q (netOfFee w.governance.feeConfig amount) w') :
    wp (collectPlatformFee id t amount) env w Q := by
  unfold collectPlatformFee
  rw [wp_bind, wp_gets]
  cases hc : w.governance.feeConfig with
  | none =>
    rw [wp_pure]
    rw [hc] at hnone
    exact hnone rfl
  | some c =>
    rw [hc] at hnone hfee
    simp only [feeMoves, netOfFee] at hnone hfee
    by_cases hbps : 0 < c.feeBps
    · dsimp only
      rw [if_pos hbps, wp_bind]
      refine wp_checkedMulDiv ?_
      by_cases hpos : 0 < (amount * c.feeBps).tdiv 10000
      · rw [if_pos ⟨hbps, hpos⟩] at hfee
        rw [if_pos hpos]
        simp only [wp_bind, wp_okOr, wp_pure]
        refine wp_invokeTokenTransfer fun token w₁ htok h₁ _ net hnet => ?_
        refine wp_emitPlatformFeeCollected fun w₂ h₂ => ?_
        rw [checkedI128_eq_some hnet]
        rw [if_pos ⟨hbps, hpos⟩] at hfee
        refine hfee c.treasury _ token w₂ rfl htok ?_
        rw [h₂, h₁]
      · have hn : ¬(0 < c.feeBps ∧ 0 < (amount * c.feeBps).tdiv 10000) := fun h => hpos h.2
        rw [if_neg hn, if_neg hn] at hnone
        rw [if_neg hpos, wp_pure]
        exact hnone rfl
    · have hn : ¬(0 < c.feeBps ∧ 0 < (amount * c.feeBps).tdiv 10000) := fun h => hbps h.1
      rw [if_neg hn, if_neg hn] at hnone
      dsimp only
      rw [if_neg hbps, wp_pure]
      exact hnone rfl

theorem effects_depositEscrow {source : Address} {id : ℕ} {amount : ℤ} (hk : w.ledger.Keyed) :
    wp (depositEscrow source id amount) env w fun _ w' =>
      Effects env w (.depositEscrow source id amount) w'.book := by
  unfold depositEscrow
  simp only [wp_bind]
  refine wp_openCall fun _ ha => ?_
  refine wp_guard fun _ => ?_
  refine wp_withReentrancyLock fun w₁ h₁ hc₁ _ => ?_
  rw [signed_book] at h₁
  simp only [wp_bind, wp_gets, wp_rejectIf, wp_okOr, wp_onErr, wp_timestamp]
  refine wp_validatePositiveAmount fun hpos => ?_
  refine wp_load (by rw [h₁]; exact hk) ?_
  rintro s rfl hs
  rw [h₁] at hs
  refine wp_requireNotFinalized fun hf hst he t ht => ?_
  have ht : w.ledger.tokenContract = some t := by rw [← book_ledger, ← h₁]; exact ht
  refine wp_guard fun _ => ?_
  refine wp_settled fun token w₂ htok h₂ hc₂ => ?_
  rw [h₁, book_ledger] at htok
  rw [h₁] at h₂
  have hcfg : w₂.governance.feeConfig = w.governance.feeConfig := by rw [hc₂, hc₁, signed_governance]
  have hr : Rule env w (.depositEscrow source s.id amount) _ :=
    .depositEscrow hpos ha hf (not_not.mp hst) (not_lt.mp he)
  refine wp_collectPlatformFee ?_ ?_
  · intro hnone
    refine wp_persistShipment fun hv w₃ h₃ => ?_
    refine wp_modifyLedger fun w₄ h₄ => ?_
    refine wp_quiet fun _ w₅ h₅ => ?_
    refine wp_quiet fun _ w₆ h₆ => ?_
    refine wp_quiet fun _ w₇ h₇ w₈ h₈ => ?_
    rw [hcfg] at hnone hv h₃ h₄
    refine hr.effects hs (fun _ => hv) ⟨t, token, eq_of_token ht, ?_, ?_⟩
    · simp [Posting.pays, Movement.pays, hnone, Host.follow, ht, htok]
    · rw [h₈, h₇, h₆, h₅, h₄, h₃, h₂]
      simp [Book.map, Book.note, Book.store, Ledger.post, Ledger.mirrored, Ledger.recounted,
        Posting.pays, Posting.drafts, Movement.pays, Movement.draft?, hnone, Ledger.setShipment,
        Ledger.setEscrow, Ledger.setToken, Ledger.settle]
  · intro treasury fee token' w₃ hmoves htok' h₃
    refine wp_persistShipment fun hv w₄ h₄ => ?_
    refine wp_modifyLedger fun w₅ h₅ => ?_
    refine wp_quiet fun _ w₆ h₆ => ?_
    refine wp_quiet fun _ w₇ h₇ => ?_
    refine wp_quiet fun _ w₈ h₈ w₉ h₉ => ?_
    rw [hcfg] at hmoves hv h₄ h₅
    rw [h₂] at htok'
    refine hr.effects hs (fun _ => hv) ⟨t, token', eq_of_token ht, ?_, ?_⟩
    · have htok' : H.transfer token (env.tokenAuth H) t H.currentContractAddress treasury fee =
        some token' := htok'
      simp [Posting.pays, Movement.pays, hmoves, Host.follow, ht, htok, htok']
    · rw [h₉, h₈, h₇, h₆, h₅, h₄, h₃, h₂]
      simp [Book.map, Book.note, Book.store, Ledger.post, Ledger.mirrored, Ledger.recounted,
        Posting.pays, Posting.drafts, Movement.pays, Movement.draft?, hmoves, Ledger.setShipment,
        Ledger.setEscrow, Ledger.setToken, Ledger.settle]

/-! ### Paying out a whole escrow -/

/-- A posting whose only movement is one transfer out of the contract, told of
by an event, with the record persisted last. -/
theorem Posted.paidOut {b b' : Book H.Token} {old new : Shipment} {m : Mirror} {c : Bool}
    {mv : Movement} {t a : Address} {x : ℤ} {token : H.Token} {n : Notice}
    (hmv : mv = .settled n a x ∨ mv = .bare n a x) (ht : b.ledger.tokenContract = some t)
    (htok : H.transfer b.ledger.token (env.tokenAuth H) t H.currentContractAddress a x = some token)
    (hl : b'.ledger = b.ledger.post H.currentContractAddress env.timestamp ⟨old, new, m, c, [mv]⟩ token)
    (hp : b'.pays = b.pays ++ [.moved t H.currentContractAddress a x] ++ [n.payment old.id a x]) :
    Posted env b b' ⟨old, new, m, c, [mv]⟩ := by
  have hall : Posting.pays ⟨old, new, m, c, [mv]⟩ H.currentContractAddress t =
      [.moved t H.currentContractAddress a x, n.payment old.id a x] := by
    rcases hmv with rfl | rfl <;> simp [Posting.pays, Movement.pays]
  refine ⟨t, token, eq_of_token ht, ?_, ?_⟩
  · rw [hall, Host.follow, if_pos ht, htok]
    cases n <;> rfl
  · rw [hall, ← hl]
    rw [List.append_assoc] at hp
    exact congrArg (Book.mk b'.ledger) hp

theorem effects_refundEscrow {caller : Address} {id : ℕ} (hk : w.ledger.Keyed) :
    wp (refundEscrow caller id) env w fun _ w' =>
      Effects env w (.refundEscrow caller id) w'.book := by
  unfold refundEscrow
  rw [wp_bind]
  refine wp_openCall fun _ _ => ?_
  refine wp_withReentrancyLock fun w₁ h₁ _ hl => ?_
  rw [signed_book] at h₁
  simp only [wp_bind, wp_gets, wp_okOr, wp_timestamp]
  refine wp_getAdmin fun admin hadm => ?_
  refine wp_load (by rw [h₁]; exact hk) ?_
  rintro s rfl hs
  rw [h₁] at hs
  refine wp_requireEither hadm fun hc => ?_
  rw [hl] at hc
  refine wp_requireNotFinalized fun hf => ?_
  refine wp_guard fun _ => ?_
  simp only [wp_rejectIf]
  intro hst hne t ht
  rw [hl] at ht
  refine wp_settled fun token w₂ htok h₂ _ => ?_
  rw [h₁] at htok h₂
  refine wp_persistShipment fun hv w₃ h₃ => ?_
  refine wp_moveStatusCount fun w₄ h₄ => ?_
  refine wp_quiet fun _ w₅ h₅ => ?_
  refine wp_quiet fun _ w₆ h₆ => ?_
  refine wp_emitEscrowRefunded fun _ w₇ _ h₇ w₈ h₈ => ?_
  have hst' : s.status = .created ∨ s.status = .cancelled := by
    by_contra hn
    exact hst ⟨fun h => hn (.inl h), fun h => hn (.inr h)⟩
  have hr : Rule env w (.refundEscrow caller s.id) _ := .refundEscrow hf hc hst' hne
  refine hr.effects hs (fun _ => hv) ?_
  rw [h₈, h₇, h₆, h₅, h₄, h₃, h₂]
  refine Posted.paidOut (.inl rfl) ht htok ?_ rfl
  simp [Book.map, Book.note, Book.store, Ledger.post, Ledger.mirrored, Ledger.recounted,
    Posting.drafts, Movement.draft?, Notice.operation, Ledger.setShipment, Ledger.setEscrow,
    Ledger.setToken, Ledger.settle, Ledger.moveCount]

theorem effects_resolveDispute {admin : Address} {id : ℕ} {resolution : DisputeResolution}
    {hash : BytesN32} (hk : w.ledger.Keyed) :
    wp (resolveDispute admin id resolution hash) env w fun _ w' =>
      Effects env w (.resolveDispute admin id resolution hash) w'.book := by
  unfold resolveDispute
  simp only [wp_bind, wp_gets, wp_okOr, wp_rejectIf, wp_timestamp]
  refine wp_openCall fun _ _ => ?_
  refine wp_requireAdminOrGuardian fun hadm _ => ?_
  refine wp_quiet fun _ w₁ h₁ => ?_
  rw [signed_book] at h₁
  refine wp_load (by rw [h₁]; exact hk) ?_
  rintro s rfl hs
  rw [h₁] at hs
  refine wp_requireNotFinalized fun hf hst hne t ht => ?_
  have ht : w.book.ledger.tokenContract = some t := by rw [← h₁]; exact ht
  have hst := not_not.mp hst
  refine wp_settled fun token w₂ htok h₂ _ => ?_
  rw [h₁] at htok h₂
  refine wp_moveStatusCount fun w₃ h₃ => ?_
  refine wp_quiet fun _ w₄ h₄ => ?_
  refine wp_persistShipment fun hv w₅ h₅ => ?_
  refine wp_modifyLedger fun w₆ h₆ => ?_
  refine wp_quiet fun _ w₇ h₇ => ?_
  cases resolution with
  | releaseToCarrier =>
    refine wp_emitEscrowReleased fun _ w₈ _ h₈ => ?_
    refine wp_quiet fun _ w₉ h₉ => ?_
    refine wp_quiet fun _ w₁₀ h₁₀ => ?_
    refine wp_quiet fun _ w₁₁ h₁₁ => ?_
    refine wp_quiet fun _ w₁₂ h₁₂ => ?_
    have hr : Rule env w (.resolveDispute admin s.id .releaseToCarrier hash) _ :=
      .releaseToCarrier hf hadm hst hne
    refine hr.effects hs (fun _ => hv) ?_
    rw [h₁₂, h₁₁, h₁₀, h₉, h₈, h₇, h₆, h₅, h₄, h₃, h₂]
    refine Posted.paidOut (.inl rfl) ht htok ?_ rfl
    simp [Book.map, Book.note, Book.store, Ledger.post, Ledger.mirrored, Ledger.recounted,
      Posting.drafts, Movement.draft?, Notice.operation, Ledger.setShipment, Ledger.setEscrow,
      Ledger.setToken, Ledger.settle, Ledger.moveCount, Ledger.removeEscrow, DisputeResolution.operation,
      DisputeResolution.status, DisputeResolution.recipient, hst]
  | refundToCompany =>
    unfold emitResolutionPaid
    rw [wp_bind]
    refine wp_emitEscrowRefunded fun _ w₈ _ h₈ => ?_
    refine wp_quiet fun _ w₉ h₉ => ?_
    refine wp_quiet fun _ w₁₀ h₁₀ => ?_
    refine wp_quiet fun _ w₁₁ h₁₁ => ?_
    refine wp_quiet fun _ w₁₂ h₁₂ => ?_
    refine wp_quiet fun _ w₁₃ h₁₃ => ?_
    have hr : Rule env w (.resolveDispute admin s.id .refundToCompany hash) _ :=
      .refundToCompany hf hadm hst hne
    refine hr.effects hs (fun _ => hv) ?_
    rw [h₁₃, h₁₂, h₁₁, h₁₀, h₉, h₈, h₇, h₆, h₅, h₄, h₃, h₂]
    refine Posted.paidOut (.inl rfl) ht htok ?_ rfl
    simp [Book.map, Book.note, Book.store, Ledger.post, Ledger.mirrored, Ledger.recounted,
      Posting.drafts, Movement.draft?, Notice.operation, Ledger.setShipment, Ledger.setEscrow,
      Ledger.setToken, Ledger.settle, Ledger.moveCount, Ledger.removeEscrow, DisputeResolution.operation,
      DisputeResolution.status, DisputeResolution.recipient, hst]

/-! ### Cancellation and deadline -/

/-- The new record of a cancellation is written twice and its `Escrow` entry
removed; only an event tells of the escrow. -/
theorem effects_cancelShipment {caller : Address} {id : ℕ} {hash : BytesN32} (hk : w.ledger.Keyed) :
    wp (cancelShipment caller id hash) env w fun _ w' =>
      Effects env w (.cancelShipment caller id hash) w'.book := by
  unfold cancelShipment
  simp only [wp_bind, wp_timestamp]
  refine wp_openCall fun _ _ => ?_
  refine wp_guard fun _ => ?_
  refine wp_getAdmin fun admin hadm => ?_
  refine wp_load hk ?_
  rintro s rfl hs
  refine wp_requireNotFinalized fun hf => ?_
  refine wp_requireEither hadm fun hc => ?_
  refine wp_guard fun _ => ?_
  rw [wp_rejectIf]
  intro hst
  refine wp_persistShipment fun _ w₁ h₁ => ?_
  refine wp_moveStatusCount fun w₂ h₂ => ?_
  refine wp_quiet fun _ w₃ h₃ => ?_
  have hr : Rule env w (.cancelShipment caller s.id hash) _ :=
    .cancelShipment hf hc (fun h => hst (.inl h)) (fun h => hst (.inr h))
  rw [wp_when]
  constructor
  · intro hpos
    rw [wp_bind]
    refine wp_modifyLedger fun w₄ h₄ => ?_
    refine wp_emitEscrowReleased fun t w₅ ht h₅ => ?_
    refine wp_persistShipment fun hv w₆ h₆ => ?_
    refine wp_modifyLedger fun w₇ h₇ => ?_
    refine wp_quiet fun _ w₈ h₈ => ?_
    refine wp_quiet fun _ w₉ h₉ => ?_
    rw [payAll, if_pos hpos] at hr
    have ht : w.ledger.tokenContract = some t := by
      rw [h₄, h₃, h₂, h₁, signed_book] at ht
      exact ht
    refine hr.effects hs (fun _ => hv) ⟨t, w.ledger.token, eq_of_token ht, rfl, ?_⟩
    rw [h₉, h₈, h₇, h₆, h₅, h₄, h₃, h₂, h₁, signed_book]
    simp [Book.map, Book.note, Book.store, Ledger.post, Ledger.mirrored, Ledger.recounted,
      Posting.pays, Posting.drafts, Movement.pays, Movement.draft?, Ledger.setShipment,
      Ledger.setEscrow, Ledger.moveCount, Ledger.removeEscrow]
  · intro hpos
    refine wp_persistShipment fun hv w₄ h₄ => ?_
    refine wp_modifyLedger fun w₅ h₅ => ?_
    refine wp_quiet fun _ w₆ h₆ => ?_
    refine wp_quiet fun _ w₇ h₇ => ?_
    rw [payAll, if_neg hpos] at hr
    refine hr.effects hs (fun _ => hv) ?_
    rw [h₇, h₆, h₅, h₄, h₃, h₂, h₁, signed_book]
    refine ⟨w.ledger.tokenContract.getD s.sender, w.ledger.token, fun t' h => ?_, rfl, ?_⟩
    · rw [book_ledger] at h
      rw [h]
      rfl
    simp [Book.map, Book.store, Ledger.post, Ledger.mirrored, Ledger.recounted, Posting.pays,
      Posting.drafts, Ledger.setShipment, Ledger.setEscrow, Ledger.moveCount, Ledger.removeEscrow]

theorem effects_forceCancelShipment {admin : Address} {id : ℕ} {hash : BytesN32}
    (hk : w.ledger.Keyed) : wp (forceCancelShipment admin id hash) env w fun _ w' =>
      Effects env w (.forceCancelShipment admin id hash) w'.book := by
  unfold forceCancelShipment
  simp only [wp_bind, wp_timestamp]
  refine wp_openCall fun _ _ => ?_
  refine wp_requireAdmin fun hadm => ?_
  refine wp_guard fun _ => ?_
  refine wp_load hk ?_
  rintro s rfl hs
  refine wp_requireNotFinalized fun hf => ?_
  rw [wp_rejectIf]
  intro hst
  have hr : Rule env w (.forceCancelShipment admin s.id hash) _ :=
    .forceCancelShipment hf hadm (fun h => hst (.inl h)) (fun h => hst (.inr h))
  rw [wp_ite]
  constructor
  · intro hpos
    simp only [wp_bind, wp_gets, wp_okOr, wp_pure]
    intro t ht
    refine wp_invokeTokenTransfer fun token w₁ htok h₁ _ => ?_
    rw [signed_book] at htok h₁
    refine wp_emitEscrowRefunded fun _ w₂ _ h₂ => ?_
    refine wp_moveStatusCount fun w₃ h₃ => ?_
    refine wp_quiet fun _ w₄ h₄ => ?_
    refine wp_persistShipment fun hv w₅ h₅ => ?_
    refine wp_quiet fun _ w₆ h₆ => ?_
    refine wp_quiet fun _ w₇ h₇ => ?_
    rw [payAll, if_pos hpos, escrowLeft, if_pos hpos] at hr
    refine hr.effects hs (fun _ => hv) ?_
    rw [h₇, h₆, h₅, h₄, h₃, h₂, h₁]
    refine Posted.paidOut (.inr rfl) ht htok ?_ rfl
    simp [Book.map, Book.note, Book.store, Ledger.post, Ledger.mirrored, Ledger.recounted,
      Posting.drafts, Movement.draft?, Ledger.setShipment, Ledger.setEscrow, Ledger.setToken,
      Ledger.moveCount]
  · intro hpos
    rw [wp_pure]
    refine wp_moveStatusCount fun w₁ h₁ => ?_
    refine wp_quiet fun _ w₂ h₂ => ?_
    refine wp_persistShipment fun hv w₃ h₃ => ?_
    refine wp_quiet fun _ w₄ h₄ => ?_
    refine wp_quiet fun _ w₅ h₅ => ?_
    rw [payAll, if_neg hpos, escrowLeft, if_neg hpos] at hr
    refine hr.effects hs (fun _ => hv) ?_
    rw [h₅, h₄, h₃, h₂, h₁, signed_book]
    exact .idle

theorem effects_checkDeadline {id : ℕ} (hk : w.ledger.Keyed) :
    wp (checkDeadline id) env w fun _ w' => Effects env w (.checkDeadline id) w'.book := by
  unfold checkDeadline
  simp only [wp_bind, wp_gets, wp_timestamp]
  refine wp_guard fun _ => ?_
  refine wp_load hk ?_
  rintro s rfl hs
  simp only [wp_rejectIf]
  intro hdl hst
  refine wp_persistShipment fun hv w₁ h₁ => ?_
  refine wp_moveStatusCount fun w₂ h₂ => ?_
  refine wp_quiet fun _ w₃ h₃ => ?_
  have hr : Rule env w (.checkDeadline s.id) _ := .checkDeadline (not_lt.mp hdl)
    (fun h => hst (.inl h)) (fun h => hst (.inr (.inl h))) (fun h => hst (.inr (.inr h)))
  rw [wp_when]
  constructor
  · intro hpos
    simp only [wp_bind, wp_gets, wp_okOr]
    refine wp_modifyLedger fun w₄ h₄ t ht => ?_
    rw [h₃, h₂, h₁] at h₄
    have ht : w.ledger.tokenContract = some t := by
      rw [← book_ledger, h₄] at ht
      exact ht
    refine wp_invokeTokenTransfer fun token w₅ htok h₅ _ => ?_
    rw [h₄] at htok h₅
    refine wp_emitEscrowRefunded fun _ w₆ _ h₆ => ?_
    refine wp_quiet fun _ w₇ h₇ => ?_
    refine wp_quiet fun _ w₈ h₈ => ?_
    rw [payAll, if_pos hpos, if_pos hpos] at hr
    refine hr.effects hs (fun _ => hv) ?_
    rw [h₈, h₇, h₆, h₅]
    refine Posted.paidOut (.inr rfl) ht htok ?_ rfl
    simp [Book.map, Book.note, Book.store, Ledger.post, Ledger.mirrored, Ledger.recounted,
      Posting.drafts, Movement.draft?, Ledger.setShipment, Ledger.setEscrow, Ledger.setToken,
      Ledger.moveCount, Ledger.removeEscrow]
  · intro hpos
    refine wp_quiet fun _ w₄ h₄ => ?_
    refine wp_quiet fun _ w₅ h₅ => ?_
    rw [payAll, if_neg hpos, if_neg hpos] at hr
    refine hr.effects hs (fun _ => hv) ?_
    rw [h₅, h₄, h₃, h₂, h₁]
    exact .idle

/-! ### Forced settlements -/

/-- A forced settlement, from a world that differs from `w` beside the book. The
token must be set when something is paid: the event names it. -/
theorem wp_forceSettle {w₀ : World H} {call : Call} {id : ℕ} {status : ShipmentStatus}
    {recipient : Shipment → Address} {n : Notice}
    {emitPaid : ℕ → Address → ℤ → Contract H Unit} (hb : w₀.book = w.book) (hk : w.ledger.Keyed)
    (hemit : ∀ w₁ : World H, ∀ i a x, wp (emitPaid i a x) env w₁ fun _ w₂ =>
      w₁.book.ledger.tokenContract ≠ none ∧ w₂.book = w₁.book.note (n.payment i a x))
    (hrule : ∀ s, s.id = id → s.status ≠ .delivered → s.status ≠ .cancelled →
      Rule env w call ⟨s, (((s.withEscrow (escrowLeft s.escrowAmount)).withStatus status).touch
        env.timestamp).finalizeIfSettled, .synced, true, payAll (.bare n) (recipient s) s.escrowAmount⟩) :
    wp (forceSettle id status recipient emitPaid) env w₀ fun _ w' =>
      ∀ w'' : World H, w''.book = w'.book → Effects env w call w''.book := by
  unfold forceSettle
  simp only [wp_bind, wp_timestamp]
  refine wp_load (by rw [hb]; exact hk) ?_
  rintro s rfl hs
  rw [hb] at hs
  rw [wp_rejectIf]
  intro hst
  have hr := hrule s rfl (fun h => hst (.inl h)) (fun h => hst (.inr h))
  rw [wp_ite]
  constructor
  · intro hpos
    rw [payAll, if_pos hpos, escrowLeft, if_pos hpos] at hr
    unfold payIfTokenSet
    simp only [wp_bind, wp_gets, wp_pure]
    cases ht : w₀.ledger.tokenContract with
    | none =>
      -- nothing is paid, and then the event traps
      rw [whenSome, wp_pure]
      refine (hemit w₀ _ _ _).mono fun _ w₁ h₁ => absurd ht h₁.1
    | some t =>
      have ht : w.book.ledger.tokenContract = some t := by rw [← hb]; exact ht
      rw [whenSome]
      refine wp_invokeTokenTransfer fun token w₁ htok h₁ _ => ?_
      rw [hb] at htok h₁
      refine (hemit w₁ _ _ _).mono fun _ w₂ h₂ => ?_
      refine wp_moveStatusCount fun w₃ h₃ => ?_
      refine wp_quiet fun _ w₄ h₄ => ?_
      refine wp_persistShipment fun hv w₅ h₅ w₆ h₆ => ?_
      refine hr.effects hs (fun _ => hv) ?_
      rw [h₆, h₅, h₄, h₃, h₂.2, h₁]
      refine Posted.paidOut (.inr rfl) ht htok ?_ rfl
      simp [Book.map, Book.note, Book.store, Ledger.post, Ledger.mirrored, Ledger.recounted,
        Posting.drafts, Movement.draft?, Ledger.setShipment, Ledger.setEscrow, Ledger.setToken,
        Ledger.moveCount]
  · intro hpos
    rw [payAll, if_neg hpos, escrowLeft, if_neg hpos] at hr
    rw [wp_pure]
    refine wp_moveStatusCount fun w₁ h₁ => ?_
    refine wp_quiet fun _ w₂ h₂ => ?_
    refine wp_persistShipment fun hv w₃ h₃ w₄ h₄ => ?_
    refine hr.effects hs (fun _ => hv) ?_
    rw [h₄, h₃, h₂, h₁, hb]
    exact .idle

/-- A call that executes a proposal can commit without a posting. -/
theorem posts_of_executing {call : Call} {a : AdminAction} (h : w.executing call = some a) :
    call.posts = false := by
  cases call <;> first | rfl | cases h

/-- The action of a proposal, from a world that differs from `w` beside the book. -/
theorem wp_performAction {w₀ : World H} {call : Call} {proposer : Address} {action : AdminAction}
    (hb : w₀.book = w.book) (hk : w.ledger.Keyed) (hx : w.executing call = some action) :
    wp (performAction proposer action) env w₀ fun _ w' =>
      ∀ w'' : World H, w''.book = w'.book → Effects env w call w''.book := by
  cases action with
  | upgrade hash =>
    unfold performAction
    refine wp_quiet fun _ w₁ h₁ w₂ h₂ => ?_
    rw [h₂, h₁, hb]
    exact .quiet (posts_of_executing hx)
  | transferAdmin newAdmin =>
    unfold performAction
    simp only [wp_bind]
    refine wp_guard fun _ => ?_
    refine wp_modifyLedger fun w₁ h₁ => ?_
    refine wp_quiet fun _ w₂ h₂ => ?_
    refine wp_quiet fun _ w₃ h₃ w₄ h₄ => ?_
    rw [h₄, h₃, h₂, h₁, hb]
    exact .handedOver (posts_of_executing hx)
  | forceRelease id =>
    refine wp_forceSettle hb hk (n := .released) ?_ ?_
    · intro w₁ i a x
      refine wp_emitEscrowReleased fun t w₂ ht h₂ => ⟨?_, h₂⟩
      rw [ht]
      exact Option.some_ne_none t
    · rintro s rfl h₁ h₂
      exact .forceRelease hx h₁ h₂
  | forceRefund id =>
    refine wp_forceSettle hb hk (n := .refunded) ?_ ?_
    · intro w₁ i a x
      refine wp_emitEscrowRefunded fun t w₂ ht h₂ => ⟨?_, h₂⟩
      rw [ht]
      exact Option.some_ne_none t
    · rintro s rfl h₁ h₂
      exact .forceRefund hx h₁ h₂

/-- The proposal that an approval reads back has the action of the one it approved. -/
theorem World.executing_of_approved {approver : Address} {pid : ℕ} {p q : Proposal}
    {approvals : List Address} (hp : w.governance.proposal pid = some p)
    (hq : Function.update w.governance.proposal p.id (some { p with approvals := approvals }) pid =
      some q) (hthr : w.governance.multisigThreshold.getD 2 ≤ p.approvals.length + 1) :
    w.executing (.approveAction approver pid) = some q.action := by
  have hact : q.action = p.action := by
    rw [Function.update_apply] at hq
    split at hq
    · rw [← Option.some.inj hq]
    · rw [hp] at hq
      rw [Option.some.inj hq]
  simp [World.executing, hp, hthr, hact]

/-- An executed proposal, from a world that differs from `w` beside the book. -/
theorem wp_executeProposalInternal {w₀ : World H} {call : Call} {pid : ℕ} (hb : w₀.book = w.book)
    (hk : w.ledger.Keyed)
    (hx : ∀ p, w₀.governance.proposal pid = some p → w.executing call = some p.action) :
    wp (executeProposalInternal pid) env w₀ fun _ w' => Effects env w call w'.book := by
  unfold executeProposalInternal
  simp only [wp_bind, wp_gets, wp_okOr, wp_rejectIf, wp_timestamp]
  intro p hp _ _ _
  refine wp_quiet fun _ w₁ h₁ => ?_
  rw [hb] at h₁
  refine wp.mono (wp_performAction h₁ hk (hx p hp)) fun _ w₂ h₂ => ?_
  exact wp_quiet fun _ w₃ h₃ => h₂ w₃ h₃

theorem effects_approveAction {approver : Address} {pid : ℕ} (hk : w.ledger.Keyed) :
    wp (approveAction approver pid) env w fun _ w' =>
      Effects env w (.approveAction approver pid) w'.book := by
  unfold approveAction
  simp only [wp_bind, wp_gets, wp_okOr, wp_rejectIf, wp_timestamp, wp_modifyGovernance, wp_log, wp_when]
  refine wp_guard fun _ => ?_
  refine wp_requireAuth fun _ _ p hp _ _ _ => ?_
  have hp : w.governance.proposal pid = some p := hp
  have hb : ∀ g e, Effect.payment? (.event e) = none → World.book
      { (w.signed approver) with governance := g, trace := (w.signed approver).trace ++ [.event e] } =
      w.book := by
    intro g e he
    rw [← signed_book w approver]
    simp [World.book, paymentsOf_append, he]
  constructor
  · intro hthr
    refine wp_executeProposalInternal (hb _ _ rfl) hk fun q hq => ?_
    exact World.executing_of_approved hp hq (by simpa using hthr)
  · intro _
    rw [hb _ _ rfl]
    exact .quiet rfl

theorem effects_executeProposal {pid : ℕ} (hk : w.ledger.Keyed) :
    wp (executeProposal pid) env w fun _ w' => Effects env w (.executeProposal pid) w'.book := by
  unfold executeProposal
  rw [wp_bind]
  refine wp_guard fun _ => ?_
  refine wp_executeProposalInternal rfl hk fun p hp => ?_
  simp [World.executing, hp]

end Navin
