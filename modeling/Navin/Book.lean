/-
# The book

What the results about money are about: the ledger, and the payments the call
has told of so far. Everything else a call writes is invisible in the book, so
that a function is either passed over or described by what it enters.

Key definitions:
- `World.book`;
- `Draft`, `Ledger.settle`: a settlement created and completed in one call;
- `Ledger.moveCount`, `Book.store`.

Key theorems:
- `wp_persistShipment`, `wp_moveStatusCount`, `wp_settled`: what the writing
  helpers enter;
- `wp_internalReleaseEscrow`: a payment to the carrier, or nothing.
-/
import Navin.Frames

namespace Navin

open Tx

variable {H : Host} {α : Type}

structure Book (Token : Type) where
  ledger : Ledger Token
  pays : List Payment

namespace Book

variable {Token : Type}

/-- A write to the ledger. -/
@[simps]
def map (b : Book Token) (g : Ledger Token → Ledger Token) : Book Token := { b with ledger := g b.ledger }

/-- A payment told of. -/
@[simps]
def note (b : Book Token) (p : Payment) : Book Token := { b with pays := b.pays ++ [p] }

end Book

/-- The book of a world. -/
def World.book (w : World H) : Book H.Token := ⟨w.ledger, paymentsOf w.trace⟩

@[simp] theorem book_ledger (w : World H) : w.book.ledger = w.ledger := rfl

theorem paymentsOf_append (l : List Effect) (e : Effect) :
    paymentsOf (l ++ [e]) = paymentsOf l ++ (Effect.payment? e).toList := by
  simp only [paymentsOf, List.filterMap_append]
  cases h : Effect.payment? e <;> simp [h]

instance : RegistryFree (World.book : World H → _) := ⟨fun _ _ => rfl⟩

instance : DossierFree (World.book : World H → _) := ⟨fun _ _ => rfl⟩

instance : GovernanceFree (World.book : World H → _) := ⟨fun _ _ => rfl⟩

instance : AuthFree (World.book : World H → _) :=
  ⟨fun w a => by simp [World.book, paymentsOf_append]⟩

instance : PlainFree (World.book : World H → _) :=
  ⟨fun w e he => by simp [World.book, paymentsOf_append, he]⟩

/-! ### Ledger entries -/

/-- The status counters after one shipment left `s` for `t`. -/
def countMove (count : ShipmentStatus → ℕ) (s t : ShipmentStatus) : ShipmentStatus → ℕ :=
  let count' := Function.update count s (count s - 1)
  Function.update count' t (count' t + 1)

namespace Ledger

variable {Token : Type} (l : Ledger Token)

@[simps -fullyApplied]
def setToken (token : Token) : Ledger Token := { l with token := token }

/-- One shipment leaves the status `s` for the status `t`. -/
@[simps -fullyApplied]
def moveCount (s t : ShipmentStatus) : Ledger Token :=
  { l with statusCount := countMove l.statusCount s t }

end Ledger

/-- A settlement before it has a number. -/
structure Draft where
  shipmentId : ℕ
  operation : SettlementOperation
  amount : ℤ
  source : Address
  target : Address
  deriving DecidableEq

namespace Draft

/-- The completed record of a draft. -/
def record (d : Draft) (settlementId now : ℕ) : SettlementRecord where
  settlementId := settlementId
  shipmentId := d.shipmentId
  operation := d.operation
  state := .completed
  amount := d.amount
  source := d.source
  target := d.target
  initiatedAt := now
  completedAt := some now
  errorCode := none

end Draft

namespace Ledger

variable {Token : Type} (l : Ledger Token)

/-- The number `increment_settlement_counter` gives. -/
def nextSettlement : ℕ := (checkedAddU64 l.settlementCounter 1).getD l.settlementCounter

/-- A settlement created and completed at one time. -/
@[simps -fullyApplied]
def settle (now : ℕ) (d : Draft) : Ledger Token :=
  { l with
    settlementCounter := l.nextSettlement
    settlement := Function.update l.settlement l.nextSettlement (some (d.record l.nextSettlement now))
    activeSettlement := Function.update l.activeSettlement d.shipmentId none }

end Ledger

namespace Book

variable {Token : Type}

/-- `persist_shipment` in the book: the record and its mirrored escrow. -/
def store (b : Book Token) (s : Shipment) : Book Token :=
  b.map fun l => (l.setShipment s).setEscrow s.id s.escrowAmount

end Book

/-! ### Passing over and reading -/

variable {Q : α → World H → Prop} {QU : Unit → World H → Prop} {env : Env} {w : World H}

/-- A function that leaves the book alone is passed over. -/
theorem wp_quiet {m : Contract H α} [Preserves World.book m]
    (h : ∀ a w', w'.book = w.book → Q a w') : wp m env w Q :=
  Preserves.wp World.book h

theorem wp_modifyLedger_iff {g : Ledger H.Token → Ledger H.Token} :
    wp (modifyLedger g) env w QU ↔ QU () { w with ledger := g w.ledger } := by
  unfold modifyLedger
  rw [wp_modify]

theorem wp_modifyLedger {g : Ledger H.Token → Ledger H.Token}
    (h : ∀ w', w'.book = w.book.map g → QU () w') : wp (modifyLedger g) env w QU :=
  wp_modifyLedger_iff.mpr (h _ rfl)

/-- The record a view of the ledger shows: the live one, else the archived one, as long as its
temporary entry has not expired. -/
def Ledger.getShipment {Token : Type} (l : Ledger Token) (id : ℕ) : Option Shipment :=
  match l.shipment id with
  | some s => some s
  | none => l.archivedShipment id

theorem wp_loadShipment {Q : Shipment → World H → Prop} {id : ℕ}
    (h : ∀ s, w.book.ledger.getShipment id = some s → Q s w) : wp (loadShipment id) env w Q := by
  unfold loadShipment
  simp only [wp_bind, wp_gets, wp_okOr]
  exact fun s hs => h s hs

theorem wp_timestamp {Q : ℕ → World H → Prop} : wp (timestamp : Contract H ℕ) env w Q ↔
    Q env.timestamp w := by
  unfold timestamp
  simp

/-! ### Entries of the helpers -/

theorem wp_persistShipment {s : Shipment}
    (h : s.Valid → ∀ w', w'.book = w.book.store s → QU () w') :
    wp (persistShipment s) env w QU := by
  unfold persistShipment
  simp only [wp_bind, wp_liftResult]
  intro u hu
  have hv := validateShipmentInvariants_eq_ok.mp hu
  refine wp_modifyLedger fun w₁ h₁ => ?_
  refine wp_modifyLedger fun w₂ h₂ => h hv w₂ ?_
  rw [h₂, h₁]
  rfl

theorem wp_moveStatusCount {s t : ShipmentStatus}
    (h : ∀ w', w'.book = w.book.map (·.moveCount s t) → QU () w') :
    wp (moveStatusCount s t) env w QU := by
  unfold moveStatusCount decrementStatusCount incrementStatusCount
  simp only [wp_bind, wp_gets, wp_when, wp_trapIf]
  constructor
  · intro _
    refine wp_modifyLedger fun w₁ h₁ _ => ?_
    refine wp_modifyLedger fun w₂ h₂ => h w₂ ?_
    have hl : w₁.ledger = w.ledger.setStatusCount s (w.ledger.statusCount s - 1) :=
      congrArg Book.ledger h₁
    rw [h₂, h₁, hl]
    rfl
  · intro hz _
    refine wp_modifyLedger fun w₁ h₁ => h w₁ ?_
    have hz' : w.ledger.statusCount s - 1 = w.ledger.statusCount s := by omega
    rw [h₁]
    simp only [Book.map, Ledger.moveCount, countMove, book_ledger, hz', Function.update_eq_self]
    rfl

/-- The signatures a token call sees: those of the call, and the contract's own. -/
def Env.tokenAuth (env : Env) (H : Host) : Address → Bool :=
  fun a => env.auth a || a = H.currentContractAddress

/-- What the token behind the breaker leaves alone besides the book. -/
def World.purse (w : World H) : Book H.Token × Option FeeConfig := (w.book, w.governance.feeConfig)

instance : PlainFree (World.purse : World H → _) :=
  ⟨fun w e he => by simp [World.purse, World.book, paymentsOf_append, he]⟩

instance (t : CircuitBreakerTracker) : Preserves World.purse (setBreaker t : Contract H Unit) :=
  Preserves.modify fun _ => rfl

instance (c : CircuitBreakerConfig) :
    Preserves World.purse (checkTransferAllowed c : Contract H Unit) := by
  unfold checkTransferAllowed
  infer_instance

instance : Preserves World.purse (recordTransferSuccess : Contract H Unit) := by
  unfold recordTransferSuccess
  infer_instance

theorem wp_invokeTokenTransfer {t a b : Address} {x : ℤ}
    (h : ∀ token w', H.transfer w.book.ledger.token (env.tokenAuth H) t a b x = some token →
      w'.book = (w.book.map (·.setToken token)).note (.moved t a b x) →
      w'.governance.feeConfig = w.governance.feeConfig → QU () w') :
    wp (invokeTokenTransfer t a b x) env w QU := by
  unfold invokeTokenTransfer
  simp only [wp_bind, wp_gets, wp_onErr]
  refine Preserves.wp World.purse fun _ w₁ h₁ => ?_
  unfold invokeTokenOperation
  simp only [wp_bind, wp_ask, wp_gets, wp_okOr]
  intro token ht
  unfold log
  rw [wp_modifyLedger_iff, wp_modify]
  refine Preserves.wp World.purse fun _ w₃ h₃ => ?_
  have hb₁ : w₁.book = w.book := congrArg Prod.fst h₁
  have hf₁ : w₁.governance.feeConfig = w.governance.feeConfig := congrArg Prod.snd h₁
  refine h token w₃ ?_ ?_ ?_
  · rw [← hb₁]
    exact ht
  · have hb₃ : w₃.book = _ := congrArg Prod.fst h₃
    rw [hb₃, ← hb₁]
    simp only [World.purse, World.book, Book.map, Book.note, paymentsOf_append]
    rfl
  · rw [← hf₁]
    exact congrArg Prod.snd h₃

/-! ### Settlements -/

/-- A settlement around a transfer of the same amount between the same parties:
created, transferred, completed. -/
theorem wp_settled {id : ℕ} {op : SettlementOperation} {t a b : Address} {x : ℤ}
    (h : ∀ token w', H.transfer w.book.ledger.token (env.tokenAuth H) t a b x = some token →
      w'.book = ((w.book.map (·.settle env.timestamp ⟨id, op, x, a, b⟩)).map
        (·.setToken token)).note (.moved t a b x) →
      w'.governance.feeConfig = w.governance.feeConfig → QU () w') :
    wp (createSettlement id op x a b) env w fun n w₁ =>
      wp (invokeTokenTransfer t a b x) env w₁ fun _ w₂ => wp (completeSettlement n id) env w₂ QU := by
  unfold createSettlement incrementSettlementCounter
  simp only [wp_bind, wp_gets, wp_pure, wp_timestamp, wp_modifyLedger_iff]
  refine wp_invokeTokenTransfer fun token w₁ ht h₁ hf => ?_
  unfold completeSettlement
  simp only [wp_bind, wp_gets, wp_okOr, wp_timestamp, wp_modifyLedger_iff]
  intro r hr
  refine h token _ ht ?_ hf
  -- the record read back is the pending one just written
  have hl : w₁.ledger = _ := congrArg Book.ledger h₁
  have hp : paymentsOf w₁.trace = _ := congrArg Book.pays h₁
  have hn : (checkedAddU64 w.ledger.settlementCounter 1).getD w.ledger.settlementCounter =
      w.ledger.nextSettlement := rfl
  simp only [World.book, Book.map, Book.note, Ledger.setToken, Ledger.setSettlement,
    Ledger.setActiveSettlement, hn] at hl hp
  rw [hl, hn] at hr
  simp only [Function.update_self, Option.some.injEq] at hr
  subst hr
  simp only [World.book, Book.map, Book.note, hl, hp, Ledger.settle, Ledger.setSettlement,
    Ledger.setActiveSettlement, Ledger.setToken, Draft.record, Function.update_idem]

/-! ### Payment events -/

theorem wp_emitKeyed {domain id : ℕ} {topic : String} {event : EventKey → Event} {p : Payment}
    (hp : ∀ k, Effect.payment? (.event (event k)) = some p)
    (h : ∀ w', w'.book = w.book.note p → QU () w') :
    wp (emitKeyed domain topic id event : Contract H Unit) env w QU := by
  unfold emitKeyed publish log
  simp only [wp_bind, wp_gets, wp_modify]
  refine wp_quiet fun _ w₁ h₁ => h w₁ ?_
  rw [h₁]
  simp only [World.book, Book.note, paymentsOf_append, hp]
  rfl

theorem wp_emitKeyedWithToken {domain id : ℕ} {topic : String}
    {event : Address → EventKey → Event} {p : Payment}
    (hp : ∀ t k, Effect.payment? (.event (event t k)) = some p)
    (h : ∀ t w', w.book.ledger.tokenContract = some t → w'.book = w.book.note p → QU () w') :
    wp (emitKeyedWithToken domain topic id event : Contract H Unit) env w QU := by
  unfold emitKeyedWithToken
  simp only [wp_bind, wp_gets, wp_unwrap]
  intro t ht
  exact wp_emitKeyed (hp t) fun w' hw' => h t w' ht hw'

theorem wp_emitEscrowReleased {id : ℕ} {a : Address} {x : ℤ}
    (h : ∀ t w', w.book.ledger.tokenContract = some t → w'.book = w.book.note (.released id a x) →
      QU () w') : wp (emitEscrowReleased id a x : Contract H Unit) env w QU :=
  wp_emitKeyedWithToken (fun _ _ => rfl) h

theorem wp_emitEscrowRefunded {id : ℕ} {a : Address} {x : ℤ}
    (h : ∀ t w', w.book.ledger.tokenContract = some t → w'.book = w.book.note (.refunded id a x) →
      QU () w') : wp (emitEscrowRefunded id a x : Contract H Unit) env w QU :=
  wp_emitKeyedWithToken (fun _ _ => rfl) h

theorem wp_emitMilestonePaymentReleased {id : ℕ} {m : Symbol} {x : ℤ} {a : Address}
    (h : ∀ w', w'.book = w.book.note (.milestone id m x a) → QU () w') :
    wp (emitMilestonePaymentReleased id m x a : Contract H Unit) env w QU :=
  wp_emitKeyed (fun _ => rfl) h

theorem wp_emitPlatformFeeCollected {id : ℕ} {a : Address} {x : ℤ}
    (h : ∀ w', w'.book = w.book.note (.fee id a x) → QU () w') :
    wp (emitPlatformFeeCollected id a x : Contract H Unit) env w QU :=
  wp_emitKeyed (fun _ => rfl) h

/-! ### Paying the carrier -/

namespace Shipment

/-- What `internal_release_escrow` pays when asked for `x`: never more than the
escrow, and nothing when asked for nothing. -/
def payable (s : Shipment) (x : ℤ) : ℤ := max 0 (min x s.escrowAmount)

theorem payable_nonneg (s : Shipment) (x : ℤ) : 0 ≤ s.payable x := le_max_left _ _

theorem payable_le (s : Shipment) (x : ℤ) (h : 0 ≤ s.escrowAmount) : s.payable x ≤ s.escrowAmount :=
  max_le h (min_le_right _ _)

/-- Asked for all of it, it pays all of it. -/
theorem payable_all (s : Shipment) (h : 0 ≤ s.escrowAmount) :
    s.payable s.escrowAmount = s.escrowAmount := by
  unfold payable
  rw [min_self, max_eq_right h]

/-- The record after `internal_release_escrow` was asked for `x`. -/
@[simps]
def payOff (s : Shipment) (x : ℤ) (now : ℕ) : Shipment :=
  { s with
    escrowAmount := s.escrowAmount - s.payable x
    updatedAt := if 0 < s.payable x then now else s.updatedAt
    integrationNonce := if 0 < s.payable x then saturatingAddU32 s.integrationNonce 1
      else s.integrationNonce }

theorem payOff_of_zero {s : Shipment} {x : ℤ} (h : s.payable x = 0) (now : ℕ) : s.payOff x now = s := by
  unfold payOff
  rw [h]
  simp

theorem payOff_of_pos {s : Shipment} {x : ℤ} (h : 0 < s.payable x) (now : ℕ) :
    s.payOff x now = (s.withEscrow (s.escrowAmount - s.payable x)).touch now := by
  unfold payOff
  rw [if_pos h, if_pos h]
  rfl

end Shipment

namespace Book

variable {Token : Type}

/-- A payment to the carrier in the book: settlement, transfer, record, event. -/
def payOut (b : Book Token) (self t : Address) (token : Token) (s : Shipment) (x : ℤ) (now : ℕ) :
    Book Token :=
  (((b.map (·.settle now ⟨s.id, .release, s.payable x, self, s.carrier⟩)).map (·.setToken token)).note
    (.moved t self s.carrier (s.payable x))).store (s.payOff x now) |>.note
      (.released s.id s.carrier (s.payable x))

end Book

/-- `internal_release_escrow` pays the payable amount and enters it, or it does
nothing. -/
theorem wp_internalReleaseEscrow {s : Shipment} {x : ℤ} {Q : Shipment → World H → Prop}
    (hnone : s.payable x = 0 → Q (s.payOff x env.timestamp) w)
    (hpay : ∀ t token w', 0 < s.payable x → w.book.ledger.tokenContract = some t →
      H.transfer w.book.ledger.token (env.tokenAuth H) t H.currentContractAddress s.carrier
        (s.payable x) = some token →
      (s.payOff x env.timestamp).Valid →
      w'.book = w.book.payOut H.currentContractAddress t token s x env.timestamp →
      Q (s.payOff x env.timestamp) w') :
    wp (internalReleaseEscrow s x) env w Q := by
  unfold internalReleaseEscrow
  have hzero : s.payable x = 0 → Q s w := fun h => by
    have hq := hnone h
    rw [Shipment.payOff_of_zero h] at hq
    exact hq
  by_cases hx : x ≤ 0
  · rw [if_pos hx, wp_pure]
    refine hzero ?_
    unfold Shipment.payable
    omega
  rw [if_neg hx]
  have hmin : (if s.escrowAmount < x then s.escrowAmount else x) = min x s.escrowAmount := by
    split <;> omega
  dsimp only
  rw [hmin]
  by_cases hy : 0 < min x s.escrowAmount
  · rw [if_pos hy]
    have hp : min x s.escrowAmount = s.payable x := (max_eq_right hy.le).symm
    rw [hp] at hy ⊢
    simp only [wp_bind, wp_gets, wp_okOr, wp_onErr, wp_timestamp, wp_pure]
    intro t ht
    refine wp_settled fun token w₁ htok h₁ _ => ?_
    unfold checkedSubEscrow
    simp only [wp_bind, wp_okOr, wp_rejectIf, wp_pure]
    intro res hres _
    rw [checkedI128_eq_some hres, ← Shipment.payOff_of_pos hy]
    refine wp_persistShipment fun hv w₂ h₂ => ?_
    refine wp_emitEscrowReleased fun _ w₃ _ h₃ => ?_
    refine hpay t token w₃ hy ht htok hv ?_
    rw [h₃, h₂, h₁]
    rfl
  · rw [if_neg hy, wp_pure]
    refine hzero ?_
    unfold Shipment.payable
    omega

end Navin
