/-
# Calls that pay the carrier

Delivery, partial delivery, milestones and the final release all go through
`internal_release_escrow`, some of them several times. `Paying` is the book
between two such payments.

Key definitions:
- `Paying`: the book with the movements so far entered and the record still open.

Key theorems:
- `wp_pay`, `wp_payMilestone`: one payment;
- `effects_confirmDelivery`, `effects_confirmPartialDelivery`,
  `effects_recordMilestone`, `effects_recordMilestonesBatch`,
  `effects_releaseMilestonePayment`, `effects_releaseEscrow`.
-/
import Navin.Refine.Setup

namespace Navin

open Tx

set_option synthInstance.maxSize 1000

variable {H : Host} {env : Env} {w : World H}

/-! ### Between payments -/

namespace Ledger

variable {Token : Type} (l : Ledger Token)

/-- Settling writes the settlement entries only. -/
theorem settleAll_eq (now : ℕ) (ds : List Draft) : l.settleAll now ds =
    { l with
      settlementCounter := (l.settleAll now ds).settlementCounter
      settlement := (l.settleAll now ds).settlement
      activeSettlement := (l.settleAll now ds).activeSettlement } := by
  induction ds generalizing l with
  | nil => rfl
  | cons d ds ih =>
    rw [settleAll_cons, ih]
    rfl

/-- The settlements of `ds`, and the record and the `Escrow` entry being written. -/
def underway (now : ℕ) (ds : List Draft) (shipment : ℕ → Option Shipment) (escrow : ℕ → Option ℤ)
    (token : Token) : Ledger Token :=
  { l.settleAll now ds with shipment := shipment, escrow := escrow, token := token }

theorem underway_settle (now : ℕ) (ds : List Draft) (d : Draft) {shipment shipment' : ℕ → Option Shipment}
    {escrow escrow' : ℕ → Option ℤ} {token token' : Token} :
    { (l.underway now ds shipment escrow token).settle now d with
      shipment := shipment', escrow := escrow', token := token' } =
      l.underway now (ds ++ [d]) shipment' escrow' token' := by
  unfold underway
  rw [settleAll_append]
  rfl

theorem underway_eq (now : ℕ) (ds : List Draft) (shipment : ℕ → Option Shipment)
    (escrow : ℕ → Option ℤ) (token : Token) : l.underway now ds shipment escrow token =
    { l with
      shipment := shipment
      escrow := escrow
      token := token
      settlementCounter := (l.settleAll now ds).settlementCounter
      settlement := (l.settleAll now ds).settlement
      activeSettlement := (l.settleAll now ds).activeSettlement } := by
  rw [underway, settleAll_eq]

/-- The settlements do not depend on the status counters. -/
theorem settleAll_statusCount (now : ℕ) (ds : List Draft) (c : ShipmentStatus → ℕ) :
    settleAll { l with statusCount := c } now ds = { l.settleAll now ds with statusCount := c } := by
  induction ds generalizing l with
  | nil => rfl
  | cons d ds ih =>
    rw [settleAll_cons, settleAll_cons]
    exact ih (l.settle now d)

@[simp] theorem underway_tokenContract (now : ℕ) (ds : List Draft) (shipment : ℕ → Option Shipment)
    (escrow : ℕ → Option ℤ) (token : Token) :
    (l.underway now ds shipment escrow token).tokenContract = l.tokenContract := by
  rw [underway_eq]

end Ledger

/-- The book `b'` is `b` with the movements `ms` entered on account of the
shipment `old`, whose record is `s` by now. What is stored under its id is open. -/
structure Paying (env : Env) (b : Book H.Token) (t : Address) (old s : Shipment) (ms : List Movement)
    (b' : Book H.Token) : Prop where
  id_eq : s.id = old.id
  le : s.escrowAmount ≤ old.escrowAmount
  tokenContract : ∀ t', b.ledger.tokenContract = some t' → t' = t
  book : ∃ shipment escrow token,
    H.follow (env.tokenAuth H) b.ledger.tokenContract b.ledger.token
      (ms.flatMap (·.pays H.currentContractAddress t old.id)) = some token ∧
    (∀ r, Function.update shipment old.id r = Function.update b.ledger.shipment old.id r) ∧
    escrow = (if s.escrowAmount = old.escrowAmount then b.ledger.escrow
      else Function.update b.ledger.escrow old.id (some s.escrowAmount)) ∧
    b' = ⟨b.ledger.underway env.timestamp
        (ms.filterMap (·.draft? H.currentContractAddress old.id)) shipment escrow token,
      b.pays ++ ms.flatMap (·.pays H.currentContractAddress t old.id)⟩

namespace Paying

variable {b b' : Book H.Token} {t : Address} {old s : Shipment} {ms : List Movement}

theorem nil (b : Book H.Token) {old s : Shipment} (hid : s.id = old.id)
    (he : s.escrowAmount = old.escrowAmount) :
    Paying env b (b.ledger.tokenContract.getD H.currentContractAddress) old s [] b where
  id_eq := hid
  le := he.le
  tokenContract t' h := by rw [h]; rfl
  book := ⟨b.ledger.shipment, b.ledger.escrow, b.ledger.token, rfl, fun _ => rfl, (if_pos he).symm,
    by simp [Ledger.underway]⟩

/-- The record may be edited as long as id and escrow stay. -/
theorem edit (h : Paying env b t old s ms b') {s' : Shipment} (hid : s'.id = s.id)
    (he : s'.escrowAmount = s.escrowAmount) : Paying env b t old s' ms b' where
  id_eq := hid.trans h.id_eq
  le := by rw [he]; exact h.le
  tokenContract := h.tokenContract
  book := by rw [he]; exact h.book

/-- A milestone is announced. -/
theorem announce (h : Paying env b t old s ms b') (name : Symbol) (x : ℤ) (a : Address) :
    Paying env b t old s (ms ++ [.milestone name x a]) (b'.note (.milestone old.id name x a)) where
  id_eq := h.id_eq
  le := h.le
  tokenContract := h.tokenContract
  book := by
    obtain ⟨shipment, escrow, token, hf, hr, he, rfl⟩ := h.book
    refine ⟨shipment, escrow, token, ?_, hr, he, ?_⟩
    · rw [List.flatMap_append, Host.follow_append, hf]
      rfl
    · rw [List.filterMap_append, List.flatMap_append]
      simp [Book.note, Movement.draft?, Movement.pays]

/-- The carrier is paid. -/
theorem pay (h : Paying env b t old s ms b') {x : ℤ} {t' : Address} {token : H.Token}
    (hx : 0 < s.payable x) (ht : b'.ledger.tokenContract = some t')
    (htok : H.transfer b'.ledger.token (env.tokenAuth H) t' H.currentContractAddress s.carrier
      (s.payable x) = some token) :
    Paying env b t old (s.payOff x env.timestamp) (ms ++ s.payMoves x)
      (b'.payOut H.currentContractAddress t' token s x env.timestamp) := by
  have hm : s.payMoves x = [.settled .released s.carrier (s.payable x)] := if_pos hx
  have hle := h.le
  have hne : s.escrowAmount - s.payable x ≠ old.escrowAmount := by omega
  obtain ⟨shipment, escrow, token₀, hf, hr, he, rfl⟩ := h.book
  simp only [Ledger.underway_tokenContract] at ht
  obtain rfl := h.tokenContract t' ht
  refine ⟨h.id_eq, ?_, h.tokenContract, Function.update shipment s.id (some (s.payOff x env.timestamp)),
    Function.update escrow s.id (some (s.escrowAmount - s.payable x)), token, ?_, ?_, ?_, ?_⟩
  · rw [Shipment.payOff_escrowAmount]
    omega
  · rw [hm, List.flatMap_append, Host.follow_append, hf, Option.bind_some]
    simp only [List.flatMap_cons, List.flatMap_nil, List.append_nil, Movement.pays, Host.follow,
      Notice.payment, if_pos ht]
    exact (congrArg (Option.bind · some) htok).trans (by simp)
  · intro r
    rw [h.id_eq, Function.update_idem, hr]
  · rw [Shipment.payOff_escrowAmount, if_neg hne, he, h.id_eq]
    split
    · rfl
    · rw [Function.update_idem]
  · -- the settlement, the record and the mirrored escrow are written over what was underway
    have hd : [Movement.settled .released s.carrier (s.payable x)].filterMap
        (·.draft? H.currentContractAddress old.id) =
        [⟨s.id, .release, s.payable x, H.currentContractAddress, s.carrier⟩] := by
      rw [h.id_eq]
      rfl
    rw [hm, List.filterMap_append, List.flatMap_append, hd, ← List.append_assoc]
    refine congrArg₂ Book.mk (Ledger.underway_settle _ _ _ _) ?_
    simp [Book.store, Book.map, Book.note, Movement.pays, Notice.payment, h.id_eq]

/-- The last record is persisted, and the counters were moved before. -/
theorem persist {c : Bool} {new : Shipment}
    (h : Paying env (b.map fun l => { l with statusCount := l.recounted c old.status new.status }) t
      old s ms b') (hid : new.id = s.id) : Posted env b (b'.store new) ⟨old, new, .synced, c, ms⟩ := by
  obtain ⟨shipment, escrow, token, hf, hr, hE, rfl⟩ := h.book
  refine ⟨t, token, h.tokenContract, hf, congrArg₂ Book.mk ?_ rfl⟩
  have hid' : new.id = old.id := hid.trans h.id_eq
  have hesc : Function.update escrow old.id (some new.escrowAmount) =
      Function.update b.ledger.escrow old.id (some new.escrowAmount) := by
    rw [hE]
    split
    · rfl
    · exact Function.update_idem _ _ _
  simp only [Ledger.underway_eq, Ledger.setShipment, Ledger.setEscrow, Ledger.post, Ledger.mirrored,
    Book.map_ledger, Ledger.settleAll_statusCount, hid', hr, hesc]
  rfl

/-- The last record is stored without being persisted. -/
theorem store {new : Shipment} (h : Paying env b t old s ms b') (hid : new.id = s.id)
    (he : new.escrowAmount = s.escrowAmount) :
    Posted env b (b'.map (·.setShipment new)) ⟨old, new, .after old s, false, ms⟩ := by
  obtain ⟨shipment, escrow, token, hf, hr, hE, rfl⟩ := h.book
  refine ⟨t, token, h.tokenContract, hf, congrArg₂ Book.mk ?_ rfl⟩
  have hid' : new.id = old.id := hid.trans h.id_eq
  have hesc : b.ledger.mirrored (.after old s) new = escrow := by
    rw [hE, Mirror.after]
    split_ifs
    · rfl
    · rw [Ledger.mirrored, hid', he]
  simp only [Ledger.underway_eq, Ledger.setShipment, Ledger.post, hesc, hid', hr]
  rfl

end Paying

/-! ### One payment -/

theorem wp_pay {b : Book H.Token} {t : Address} {old s : Shipment} {ms : List Movement} {x : ℤ}
    {Q : Shipment → World H → Prop} (hp : Paying env b t old s ms w.book)
    (h : ∀ w', Paying env b t old (s.payOff x env.timestamp) (ms ++ s.payMoves x) w'.book →
      (0 < s.payable x → (s.payOff x env.timestamp).Valid) → Q (s.payOff x env.timestamp) w') :
    wp (internalReleaseEscrow s x) env w Q := by
  refine wp_internalReleaseEscrow ?_ ?_
  · intro hz
    refine h w ?_ fun hpos => absurd hz hpos.ne'
    rw [Shipment.payOff_of_zero hz]
    have hm : s.payMoves x = [] := if_neg (by omega)
    rw [hm, List.append_nil]
    exact hp
  · intro t' token w' hpos ht htok hv hb
    refine h w' ?_ fun _ => hv
    rw [hb]
    exact hp.pay hpos ht htok

theorem wp_payMilestone {b : Book H.Token} {t : Address} {old s : Shipment} {ms : List Movement}
    {x : ℤ} {name : Symbol} {Q : Shipment → World H → Prop} (hp : Paying env b t old s ms w.book)
    (h : ∀ w', Paying env b t old (s.payMilestone name x env.timestamp)
        (ms ++ s.milestoneMoves name x) w'.book →
      (0 < s.payable x → (s.payMilestone name x env.timestamp).Valid) →
      Q (s.payMilestone name x env.timestamp) w') :
    wp (emitMilestonePaymentReleased old.id name x s.carrier) env w fun _ w₁ =>
      wp (internalReleaseEscrow (s.markPaid name) x) env w₁ Q := by
  refine wp_emitMilestonePaymentReleased fun w₁ h₁ => ?_
  have hp₁ : Paying env b t old (s.markPaid name) (ms ++ [.milestone name x s.carrier]) w₁.book := by
    rw [h₁]
    exact (hp.announce name x s.carrier).edit rfl rfl
  refine wp_pay hp₁ fun w₂ h₂ hv => h w₂ ?_ hv
  rw [List.append_assoc] at h₂
  exact h₂

/-! ### Delivery and release -/

theorem effects_confirmDelivery {receiver : Address} {id : ℕ} {hash : BytesN32}
    (hk : w.ledger.Keyed) : wp (confirmDelivery receiver id hash) env w fun _ w' =>
      Effects env w (.confirmDelivery receiver id hash) w'.book := by
  unfold confirmDelivery
  simp only [wp_bind, wp_rejectIf, wp_timestamp]
  refine wp_openCall fun _ _ => ?_
  refine wp_guard fun _ => ?_
  refine wp_load hk ?_
  rintro s rfl hs hc
  obtain rfl := not_not.mp hc
  refine wp_requireNotFinalized fun hf => ?_
  refine wp_validateShipmentTransition fun ht => ?_
  refine wp_moveStatusCount fun w₁ h₁ => ?_
  refine wp_quiet fun _ w₂ h₂ => ?_
  refine wp_quiet fun _ w₃ h₃ => ?_
  refine wp_quiet fun _ w₄ h₄ => ?_
  -- the counters are moved; the payment starts from there
  have hp : Paying env w₄.book _ s ((s.withStatus .delivered).withUpdatedAt env.timestamp) []
      w₄.book := .nil _ rfl rfl
  refine wp_pay hp fun w₅ h₅ _ => ?_
  refine wp_persistShipment fun hv w₆ h₆ => ?_
  refine wp_quiet fun _ w₇ h₇ => ?_
  refine wp_quiet fun _ w₈ h₈ => ?_
  refine wp_quiet fun _ w₉ h₉ => ?_
  refine wp_quiet fun _ w₁₀ h₁₀ => ?_
  refine wp_quiet fun _ w₁₁ h₁₁ => ?_
  refine wp_quiet fun _ w₁₂ h₁₂ => ?_
  have hr : Rule env w (.confirmDelivery s.receiver s.id hash) _ := .confirmDelivery hf ht
  refine hr.effects hs (fun _ => hv) ?_
  rw [h₁₂, h₁₁, h₁₀, h₉, h₈, h₇, h₆]
  rw [h₄, h₃, h₂, h₁, signed_book] at h₅
  exact Paying.persist h₅ (by rfl)

theorem effects_confirmPartialDelivery {receiver : Address} {id : ℕ} {hash : BytesN32}
    {percent : ℕ} (hk : w.ledger.Keyed) :
    wp (confirmPartialDelivery receiver id hash percent) env w fun _ w' =>
      Effects env w (.confirmPartialDelivery receiver id hash percent) w'.book := by
  unfold confirmPartialDelivery
  simp only [wp_bind, wp_rejectIf, wp_okOr, wp_timestamp]
  refine wp_openCall fun _ _ => ?_
  refine wp_guard fun _ _ => ?_
  refine wp_load hk ?_
  rintro s rfl hs hc
  obtain rfl := not_not.mp hc
  refine wp_requireNotFinalized fun hf hst => ?_
  refine wp_checkedMulDiv fun hpos released hrel total htot hle => ?_
  rw [checkedI128_eq_some htot, checkedI128_eq_some hrel] at hle ⊢
  refine wp_moveStatusCount fun w₁ h₁ => ?_
  refine wp_quiet fun _ w₂ h₂ => ?_
  refine wp_quiet fun _ w₃ h₃ => ?_
  have hst' : s.status = .inTransit ∨ s.status = .atCheckpoint ∨ s.status = .partiallyDelivered := by
    by_contra hn
    exact hst ⟨fun h => hn (.inl h), fun h => hn (.inr (.inl h)), fun h => hn (.inr (.inr h))⟩
  have hstatus : (if s.totalEscrow - s.escrowAmount + (s.totalEscrow * percent).tdiv 100 =
      s.totalEscrow then ShipmentStatus.delivered else .partiallyDelivered) =
      if s.share percent = s.escrowAmount then .delivered else .partiallyDelivered := by
    refine if_congr ?_ rfl rfl
    unfold Shipment.share
    omega
  have hp : Paying env w₃.book _ s ((s.withStatus (if s.totalEscrow - s.escrowAmount +
      (s.totalEscrow * percent).tdiv 100 = s.totalEscrow then .delivered
      else .partiallyDelivered)).withUpdatedAt env.timestamp) [] w₃.book := .nil _ rfl rfl
  refine wp_pay hp fun w₄ h₄ _ => ?_
  refine wp_persistShipment fun hv w₅ h₅ => ?_
  refine wp_quiet fun _ w₆ h₆ => ?_
  refine wp_quiet fun _ w₇ h₇ => ?_
  have hr : Rule env w (.confirmPartialDelivery s.receiver s.id hash percent) _ :=
    .confirmPartialDelivery hf hst' (by unfold Shipment.share; omega)
      (by unfold Shipment.share; omega) hstatus
  refine hr.effects hs (fun _ => hv) ?_
  rw [h₇, h₆, h₅]
  rw [h₃, h₂, h₁, signed_book] at h₄
  exact Paying.persist h₄ (by rfl)

theorem effects_releaseEscrow {caller : Address} {id : ℕ} (hk : w.ledger.Keyed) :
    wp (releaseEscrow caller id) env w fun _ w' =>
      Effects env w (.releaseEscrow caller id) w'.book := by
  unfold releaseEscrow
  rw [wp_bind]
  refine wp_openCall fun _ _ => ?_
  refine wp_withReentrancyLock fun w₁ h₁ _ hl => ?_
  simp only [wp_bind]
  refine wp_getAdmin fun admin hadm => ?_
  refine wp_load (by rw [h₁, signed_book]; exact hk) ?_
  rintro s rfl hs
  refine wp_requireNotFinalized fun hf => ?_
  refine wp_requireEither hadm fun hc => ?_
  rw [wp_rejectIf]
  intro hst
  rw [wp_rejectIf]
  intro hne
  refine wp_pay (.nil _ rfl rfl) fun w₂ h₂ _ => ?_
  refine wp_persistShipment fun hv w₃ h₃ => ?_
  refine wp_quiet fun _ w₄ h₄ => ?_
  refine wp_quiet fun _ w₅ h₅ w₆ h₆ => ?_
  rw [h₁, signed_book] at hs
  rw [hl] at hc
  have hr : Rule env w (.releaseEscrow caller s.id) _ := .releaseEscrow hf hc (not_not.mp hst) hne
  refine hr.effects hs (fun _ => hv) ?_
  rw [h₆, h₅, h₄, h₃]
  rw [h₁, signed_book] at h₂
  exact Paying.persist h₂ (by rfl)

/-! ### Milestones -/

theorem wp_milestoneRelease {s : Shipment} {names : List Symbol} {percent : ℕ}
    {Q : ℤ → World H → Prop} (h : Q (s.milestoneDue names percent) w) :
    wp (milestoneRelease s names percent) env w Q := by
  unfold milestoneRelease
  simp only [wp_bind, wp_trapIf, wp_ite, wp_pure]
  intro _
  unfold Shipment.milestoneDue at h
  constructor
  · intro hall
    rw [if_pos hall] at h
    exact h
  · intro hall
    rw [if_neg hall] at h
    exact wp_checkedMulDiv h

/-- A record in transit is not finalized by the last write. -/
theorem Shipment.finalizeIfSettled_of_inTransit {s : Shipment} (h : s.status = .inTransit) :
    s.finalizeIfSettled = s := by
  unfold Shipment.finalizeIfSettled
  rw [if_neg]
  rintro ⟨h' | h', _⟩ <;> rw [h] at h' <;> cases h'

theorem Mirror.ne_of_after {old new : Shipment} (h : Mirror.after old new ≠ .kept) :
    new.escrowAmount ≠ old.escrowAmount := fun he => h (if_pos he)

theorem Mirror.eq_of_after {old new : Shipment} (h : Mirror.after old new = .kept) :
    new.escrowAmount = old.escrowAmount := by
  unfold Mirror.after at h
  split at h
  · assumption
  · cases h

@[simp] theorem Shipment.payMilestone_escrowAmount (s : Shipment) (name : Symbol) (x : ℤ) (now : ℕ) :
    (s.payMilestone name x now).escrowAmount = s.escrowAmount - s.payable x := rfl

/-- The escrow changed, so something was paid. -/
theorem Shipment.payable_pos_of_after {s : Shipment} {name : Symbol} {x : ℤ} {now : ℕ}
    (h : Mirror.after s (s.payMilestone name x now) ≠ .kept) : 0 < s.payable x := by
  have hne := Mirror.ne_of_after h
  rw [Shipment.payMilestone_escrowAmount] at hne
  have := s.payable_nonneg x
  omega

theorem Shipment.Valid.finalizeIfSettled {s : Shipment} (h : s.Valid) : s.finalizeIfSettled.Valid where
  escrow_nonneg := h.escrow_nonneg
  escrow_le_total := h.escrow_le_total
  finalized_settled hf := by
    rw [Shipment.finalizeIfSettled_finalized] at hf
    split at hf
    · assumption
    · exact h.finalized_settled hf
  created_unpaid := h.created_unpaid

theorem Shipment.Valid.markPaid {s : Shipment} (h : s.Valid) (hst : s.status ≠ .created)
    {name : Symbol} : (s.markPaid name).Valid where
  escrow_nonneg := h.escrow_nonneg
  escrow_le_total := h.escrow_le_total
  finalized_settled := h.finalized_settled
  created_unpaid hc := absurd hc hst

theorem effects_recordMilestone {carrier : Address} {id : ℕ} {name : Symbol} {hash : BytesN32}
    (hk : w.ledger.Keyed) : wp (recordMilestone carrier id name hash) env w fun _ w' =>
      Effects env w (.recordMilestone carrier id name hash) w'.book := by
  unfold recordMilestone
  simp only [wp_bind, wp_gets, wp_rejectIf]
  refine wp_quiet fun _ w₁ h₁ => ?_
  refine wp_load (by rw [h₁]; exact hk) ?_
  rintro s rfl hs
  rw [h₁] at hs
  refine wp_requireNotFinalized fun hf => ?_
  refine wp_guard fun _ => ?_
  refine wp_guard fun _ hc hst _ => ?_
  obtain rfl := not_not.mp hc
  have hst := not_not.mp hst
  refine wp_quiet fun _ w₂ h₂ => ?_
  rw [h₁] at h₂
  unfold payRecordedMilestone
  cases hm : s.findMilestone name with
  | none =>
    rw [wp_pure]
    refine wp_modifyLedger fun w₃ h₃ => ?_
    have hr : Rule env w (.recordMilestone s.carrier s.id name hash) _ := .recordOther hf hst hm
    refine hr.effects hs (fun h => absurd rfl h) ?_
    rw [h₃, h₂, Shipment.finalizeIfSettled_of_inTransit hst]
    exact .idle
  | some m =>
    simp only [wp_bind, wp_rejectIf]
    intro hnew
    refine wp_milestoneRelease ?_
    refine wp_payMilestone (.nil _ rfl rfl) fun w₃ h₃ hv => ?_
    refine wp_modifyLedger fun w₄ h₄ => ?_
    have hdue : (s.markPaid name).milestoneDue (s.markPaid name).paidMilestones m.2 =
        s.milestoneDue (s.paidMilestones ++ [name]) m.2 := by
      rw [Shipment.markPaid_paidMilestones, if_neg hnew]
      rfl
    have hr : Rule env w (.recordMilestone s.carrier s.id name hash) _ :=
      .recordMilestone hf hst hm hnew hdue
    refine hr.effects hs (fun h => (hv ?_).finalizeIfSettled) ?_
    · exact Shipment.payable_pos_of_after h
    · rw [h₄]
      rw [h₂] at h₃
      exact Paying.store h₃ (by rfl) (by rfl)

/-- The loop of a batch: what is still to be done finishes `payBatch`. -/
structure Batching (env : Env) (b : Book H.Token) (t : Address) (old : Shipment) (names rest : List Symbol)
    (s : Shipment) (b' : Book H.Token) (ms : List Movement) : Prop where
  paying : Paying env b t old s ms b'
  inTransit : s.status = .inTransit
  valid : s.escrowAmount ≠ old.escrowAmount → s.Valid
  batch : old.payBatch env.timestamp names =
    ((s.payBatch env.timestamp rest).1, ms ++ (s.payBatch env.timestamp rest).2)

theorem wp_recordBatchItem {b : Book H.Token} {t : Address} {old s : Shipment} {carrier : Address}
    {names rest : List Symbol} {item : Symbol × BytesN32} {ms : List Movement}
    (h : Batching env b t old names (item.1 :: rest) s w.book ms) :
    wp (recordBatchItem carrier old.id s item) env w fun s' w' =>
      ∃ ms', Batching env b t old names rest s' w'.book ms' := by
  unfold recordBatchItem
  rw [wp_bind]
  refine wp_quiet fun _ w₁ h₁ => ?_
  obtain ⟨hp, hst, hv, hb⟩ := h
  rw [← h₁] at hp
  rw [Shipment.payBatch] at hb
  cases hm : s.findMilestone item.1 with
  | none =>
    rw [hm] at hb
    rw [wp_pure]
    exact ⟨ms, hp, hst, hv, hb⟩
  | some m =>
    rw [hm] at hb
    dsimp only at hb ⊢
    by_cases hin : item.1 ∈ s.paidMilestones
    · rw [if_pos hin] at hb ⊢
      rw [wp_pure]
      exact ⟨ms, hp, hst, hv, hb⟩
    · rw [if_neg hin] at hb ⊢
      rw [wp_bind]
      refine wp_checkedMulDiv ?_
      rw [show (s.totalEscrow * (m.2 : ℤ)).tdiv 100 = s.share m.2 from rfl, wp_bind]
      refine wp_payMilestone hp fun w₂ h₂ hv₂ => ⟨_, h₂, hst, ?_, ?_⟩
      · intro hne
        by_cases hpos : 0 < s.payable (s.share m.2)
        · exact hv₂ hpos
        · have hz : s.payable (s.share m.2) = 0 := le_antisymm (not_lt.mp hpos) (s.payable_nonneg _)
          have hz' : (s.markPaid item.1).payable (s.share m.2) = 0 := hz
          have hne' : s.escrowAmount ≠ old.escrowAmount := by
            rw [Shipment.payMilestone_escrowAmount, hz, sub_zero] at hne
            exact hne
          rw [Shipment.payMilestone, Shipment.payOff_of_zero hz']
          exact (hv hne').markPaid (by rw [hst]; decide)
      · rw [hb, List.append_assoc]

theorem effects_recordMilestonesBatch {carrier : Address} {id : ℕ}
    {items : List (Symbol × BytesN32)} (hk : w.ledger.Keyed) :
    wp (recordMilestonesBatch carrier id items) env w fun _ w' =>
      Effects env w (.recordMilestonesBatch carrier id items) w'.book := by
  unfold recordMilestonesBatch
  simp only [wp_bind, wp_gets, wp_rejectIf, wp_okOr]
  refine wp_quiet fun _ w₁ h₁ _ => ?_
  refine wp_guard fun _ => ?_
  refine wp_load (by rw [h₁]; exact hk) ?_
  rintro s rfl hs
  refine wp_requireNotFinalized fun hf hc hst total _ _ => ?_
  obtain rfl := not_not.mp hc
  have hst := not_not.mp hst
  refine wp.mono (wp_foldlM _ (fun rest s' w' => ∃ ms, Batching env w₁.book
    (w₁.book.ledger.tokenContract.getD H.currentContractAddress) s (items.map (·.1)) (rest.map (·.1)) s'
    w'.book ms) items s w₁ ?_ ?_) ?_
  · exact ⟨[], .nil _ rfl rfl, hst, fun h => absurd rfl h, by simp⟩
  · rintro item rest s' w' ⟨ms, hb⟩
    exact wp_recordBatchItem hb
  · rintro s' w₂ ⟨ms, hp, hst', hv, hb⟩
    have hb : s.payBatch env.timestamp (items.map (·.1)) = (s', ms) := by
      rw [hb]
      simp [Shipment.payBatch]
    refine wp_modifyLedger fun w₃ h₃ => ?_
    have hr : Rule env w (.recordMilestonesBatch s.carrier s.id items) _ :=
      .recordMilestonesBatch hf hst
    rw [hb] at hr
    rw [h₁] at hs hp
    refine hr.effects hs (fun h => (hv ?_).finalizeIfSettled) ?_
    · exact Mirror.ne_of_after h
    · rw [h₃]
      exact Paying.store hp (by rfl) (by rfl)

theorem effects_releaseMilestonePayment {caller : Address} {id : ℕ} {name : Symbol}
    (hk : w.ledger.Keyed) : wp (releaseMilestonePayment caller id name) env w fun _ w' =>
      Effects env w (.releaseMilestonePayment caller id name) w'.book := by
  unfold releaseMilestonePayment
  simp only [wp_bind, wp_okOr]
  refine wp_openCall fun _ _ => ?_
  refine wp_load hk ?_
  rintro s rfl hs
  refine wp_requireNotFinalized fun hf => ?_
  refine wp_getAdmin fun admin hadm => ?_
  refine wp_requireEither hadm fun hc => ?_
  refine wp_guard fun _ m hm => ?_
  refine wp_guard fun _ => ?_
  refine wp_guard fun _ => ?_
  refine wp_milestoneRelease ?_
  rw [wp_ite]
  constructor
  · intro hpos
    rw [wp_bind]
    refine wp_payMilestone (.nil _ rfl rfl) fun w₁ h₁ hv => ?_
    refine wp_modifyLedger fun w₂ h₂ => ?_
    have hr : Rule env w (.releaseMilestonePayment caller s.id name) _ :=
      .releaseMilestonePayment hf hc hm rfl hpos
    refine hr.effects hs (fun h => (hv ?_).finalizeIfSettled) ?_
    · exact Shipment.payable_pos_of_after h
    · rw [h₂]
      rw [signed_book] at h₁
      exact Paying.store h₁ (by rfl) (by rfl)
  · intro hpos
    rw [wp_pure]
    refine wp_modifyLedger fun w₁ h₁ => ?_
    have hr : Rule env w (.releaseMilestonePayment caller s.id name) _ :=
      .releaseNothing hf hc hm (not_lt.mp hpos)
    refine hr.effects hs (fun h => absurd rfl h) ?_
    rw [h₁, signed_book]
    exact .idle

end Navin
