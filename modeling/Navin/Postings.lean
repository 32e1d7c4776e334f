/-
# Postings

Every call that changes an existing record is one posting: the record before and
after, what becomes of its `Escrow` entry and of the status counters, and the
movements of money on its account. The entry points differ in the posting they
make; what a posting does to the book is said here once.

Key definitions:
- `Movement`: a payment with or without a settlement, an announcement, a deposit;
- `Posting`, `Ledger.post`, `Posted`;
- `Host.follow`: the token after the transfers of a list of payments.

Key theorems:
- `Host.follow_balance`: what a holder has afterwards, when the token moves exactly.
-/
import Navin.Guards

namespace Navin

open Tx

/-! ### Movements -/

/-- The two events that tell of a payment out of escrow. -/
inductive Notice where
  | released | refunded
  deriving DecidableEq

namespace Notice

def operation : Notice → SettlementOperation
  | released => .release
  | refunded => .refund

def payment (n : Notice) (id : ℕ) (recipient : Address) (amount : ℤ) : Payment :=
  match n with
  | released => .released id recipient amount
  | refunded => .refunded id recipient amount

end Notice

/-- What a call does with money on account of one shipment. -/
inductive Movement where
  /-- Out of the contract, with a settlement and an event. -/
  | settled (n : Notice) (recipient : Address) (amount : ℤ)
  /-- Out of the contract, with an event and no settlement. -/
  | bare (n : Notice) (recipient : Address) (amount : ℤ)
  /-- An `escrow_released` event and no transfer. -/
  | announced (recipient : Address) (amount : ℤ)
  /-- A `milestone_payment_released` event; the payment is a movement of its own. -/
  | milestone (name : Symbol) (amount : ℤ) (recipient : Address)
  /-- Into the contract, with a settlement. -/
  | deposit (source : Address) (amount : ℤ)
  /-- Out of the contract to the treasury. -/
  | fee (treasury : Address) (amount : ℤ)
  deriving DecidableEq

namespace Movement

/-- The payments a movement leaves in the trace. -/
def pays (self token : Address) (id : ℕ) : Movement → List Payment
  | settled n recipient amount =>
    [.moved token self recipient amount, n.payment id recipient amount]
  | bare n recipient amount => [.moved token self recipient amount, n.payment id recipient amount]
  | announced recipient amount => [.released id recipient amount]
  | milestone name amount recipient => [.milestone id name amount recipient]
  | deposit source amount => [.moved token source self amount]
  | fee treasury amount => [.moved token self treasury amount, .fee id treasury amount]

/-- The settlement of a movement, if it has one. -/
def draft? (self : Address) (id : ℕ) : Movement → Option Draft
  | settled n recipient amount => some ⟨id, n.operation, amount, self, recipient⟩
  | deposit source amount => some ⟨id, .deposit, amount, source, self⟩
  | _ => none

end Movement

/-! ### Postings -/

/-- What becomes of the `Escrow` entry. -/
inductive Mirror where
  | kept | synced | removed
  deriving DecidableEq

/-- A change of one record. -/
structure Posting where
  old : Shipment
  new : Shipment
  mirror : Mirror
  /-- The status counters follow the change of status. -/
  counted : Bool
  moves : List Movement

namespace Posting

variable (p : Posting)

def pays (self token : Address) : List Payment := p.moves.flatMap (·.pays self token p.old.id)

def drafts (self : Address) : List Draft := p.moves.filterMap (·.draft? self p.old.id)

end Posting

namespace Ledger

variable {Token : Type} (l : Ledger Token)

/-- The settlements of several drafts, in order. -/
def settleAll (now : ℕ) (ds : List Draft) : Ledger Token := ds.foldl (·.settle now ·) l

/-- The `Escrow` entries after a posting. -/
def mirrored (m : Mirror) (s : Shipment) : ℕ → Option ℤ :=
  match m with
  | .kept => l.escrow
  | .synced => Function.update l.escrow s.id (some s.escrowAmount)
  | .removed => Function.update l.escrow s.id none

theorem mirrored_of_ne (m : Mirror) {s : Shipment} {id : ℕ} (hid : id ≠ s.id) :
    l.mirrored m s id = l.escrow id := by
  unfold mirrored
  cases m with
  | kept => rfl
  | synced => exact Function.update_of_ne hid _ _
  | removed => exact Function.update_of_ne hid _ _

/-- The status counters after a posting. -/
def recounted (counted : Bool) (s t : ShipmentStatus) : ShipmentStatus → ℕ :=
  if counted = true then countMove l.statusCount s t else l.statusCount

/-- What a posting does to the ledger. -/
@[simps -fullyApplied]
def post (self : Address) (now : ℕ) (p : Posting) (token : Token) : Ledger Token where
  admin := l.admin
  tokenContract := l.tokenContract
  shipmentCount := l.shipmentCount
  shipment := Function.update l.shipment p.new.id (some p.new)
  archivedShipment := l.archivedShipment
  escrow := l.mirrored p.mirror p.new
  statusCount := l.recounted p.counted p.old.status p.new.status
  settlementCounter := (l.settleAll now (p.drafts self)).settlementCounter
  settlement := (l.settleAll now (p.drafts self)).settlement
  activeSettlement := (l.settleAll now (p.drafts self)).activeSettlement
  token := token

@[simp] theorem settleAll_nil (now : ℕ) : l.settleAll now [] = l := rfl

@[simp] theorem settleAll_cons (now : ℕ) (d : Draft) (ds : List Draft) :
    l.settleAll now (d :: ds) = (l.settle now d).settleAll now ds := rfl

theorem settleAll_append (now : ℕ) (ds es : List Draft) :
    l.settleAll now (ds ++ es) = (l.settleAll now ds).settleAll now es := List.foldl_append

end Ledger

/-! ### The token along a list of payments -/

namespace Host

variable (H : Host)

/-- The token after the transfers among the payments, all at the stored token
contract; `none` when one is refused. -/
def follow (auth : Address → Bool) (tokenContract : Option Address) :
    H.Token → List Payment → Option H.Token
  | token, [] => some token
  | token, .moved t source target amount :: ps =>
    if tokenContract = some t then
      (H.transfer token auth t source target amount).bind fun token => follow auth tokenContract token ps
    else none
  | token, .released .. :: ps => follow auth tokenContract token ps
  | token, .refunded .. :: ps => follow auth tokenContract token ps
  | token, .milestone .. :: ps => follow auth tokenContract token ps
  | token, .fee .. :: ps => follow auth tokenContract token ps

theorem follow_append (auth : Address → Bool) (tokenContract : Option Address) (ps qs : List Payment)
    (token : H.Token) : H.follow auth tokenContract token (ps ++ qs) =
      (H.follow auth tokenContract token ps).bind (H.follow auth tokenContract · qs) := by
  induction ps generalizing token with
  | nil => rfl
  | cons p ps ih =>
    cases p with
    | moved t a b x =>
      simp only [List.cons_append, follow]
      split
      · rw [Option.bind_assoc]
        exact congrArg _ (funext fun token => ih token)
      · rfl
    | released => exact ih token
    | refunded => exact ih token
    | milestone => exact ih token
    | fee => exact ih token

end Host

namespace Payment

/-- What a payment adds to a holder's balance at a token contract. -/
def gain (t holder : Address) : Payment → ℤ
  | moved t' source target amount =>
    if t = t' then (if holder = target then amount else 0) - (if holder = source then amount else 0)
    else 0
  | _ => 0

end Payment

/-- What a holder has after a list of payments. -/
theorem Host.follow_balance {H : Host} (hH : H.MovesExactly) {auth : Address → Bool}
    {tokenContract : Option Address} {ps : List Payment} {token token' : H.Token}
    (h : H.follow auth tokenContract token ps = some token') (t holder : Address) :
    H.balance token' t holder = H.balance token t holder + (ps.map (·.gain t holder)).sum := by
  induction ps generalizing token with
  | nil =>
    cases h
    simp
  | cons p ps ih =>
    rw [List.map_cons, List.sum_cons]
    cases p with
    | moved t' a b x =>
      simp only [Host.follow] at h
      split at h
      · obtain ⟨token₁, h₁, h₂⟩ := Option.bind_eq_some_iff.mp h
        rw [ih h₂, hH _ _ _ _ _ _ _ h₁]
        unfold Payment.gain
        split_ifs <;> simp_all <;> omega
      · cases h
    | released => rw [ih h]; simp [Payment.gain]
    | refunded => rw [ih h]; simp [Payment.gain]
    | milestone => rw [ih h]; simp [Payment.gain]
    | fee => rw [ih h]; simp [Payment.gain]

/-! ### A posting entered in the book -/

variable {H : Host}

/-- The book after a posting: its transfers went through at the stored token, and
ledger and payments are as the posting says. -/
def Posted (env : Env) (b b' : Book H.Token) (p : Posting) : Prop :=
  ∃ t token, (∀ t', b.ledger.tokenContract = some t' → t' = t) ∧
    H.follow (env.tokenAuth H) b.ledger.tokenContract b.ledger.token
      (p.pays H.currentContractAddress t) = some token ∧
    b' = ⟨b.ledger.post H.currentContractAddress env.timestamp p token,
      b.pays ++ p.pays H.currentContractAddress t⟩

/-- A posting without movements. -/
theorem Posted.idle {env : Env} {b : Book H.Token} {s new : Shipment} {m : Mirror} {c : Bool} :
    Posted env b ⟨b.ledger.post H.currentContractAddress env.timestamp ⟨s, new, m, c, []⟩
      b.ledger.token, b.pays⟩ ⟨s, new, m, c, []⟩ :=
  ⟨b.ledger.tokenContract.getD H.currentContractAddress, b.ledger.token, fun t' h => by rw [h]; rfl,
    rfl, by simp [Posting.pays]⟩

end Navin
