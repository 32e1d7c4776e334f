/-
# What a call may do to the book

The rules of the contract as an abstract machine over the ledger: a call leaves
the book alone, sets the contract up, hands it over, enrols new shipments, moves
a record to the archive, or makes one posting. Each posting is listed with the
conditions under which the contract makes it.

Key definitions:
- `Rule`: the postings of the entry points;
- `Effects`: what a committed call does to the book.
-/
import Navin.Postings

namespace Navin

open Tx

namespace Shipment

variable (s : Shipment)

/-- The movement of a release of `x` to the carrier. -/
def payMoves (x : ℤ) : List Movement :=
  if 0 < s.payable x then [.settled .released s.carrier (s.payable x)] else []

/-- The record after a milestone was marked and paid. -/
def payMilestone (name : Symbol) (x : ℤ) (now : ℕ) : Shipment := (s.markPaid name).payOff x now

/-- The movements of a milestone payment; the event carries what was asked for. -/
def milestoneMoves (name : Symbol) (x : ℤ) : List Movement :=
  .milestone name x s.carrier :: (s.markPaid name).payMoves x

/-- A share of the deposit in percent. -/
def share (percent : ℕ) : ℤ := (s.totalEscrow * percent).tdiv 100

/-- What a milestone is asked to pay once `names` are accounted for. -/
def milestoneDue (names : List Symbol) (percent : ℕ) : ℤ :=
  if scheduledShare s.paymentMilestones names = 100 then s.escrowAmount else s.share percent

/-- The scheduled milestones a batch finds unpaid are marked and paid in order. -/
def payBatch (now : ℕ) (s : Shipment) : List Symbol → Shipment × List Movement
  | [] => (s, [])
  | name :: names =>
    match s.findMilestone name with
    | none => payBatch now s names
    | some m =>
      if name ∈ s.paidMilestones then payBatch now s names
      else
        let rest := payBatch now (s.payMilestone name (s.share m.2) now) names
        (rest.1, s.milestoneMoves name (s.share m.2) ++ rest.2)

end Shipment

/-- The `Escrow` entry is rewritten with the record when the escrow was paid from. -/
def Mirror.after (old new : Shipment) : Mirror :=
  if new.escrowAmount = old.escrowAmount then .kept else .synced

variable {H : Host}

/-- The admin action a call executes, given the proposals before it: an approval
executes when it makes up the threshold. -/
def World.executing (w : World H) : Call → Option AdminAction
  | .executeProposal id => (w.governance.proposal id).map (·.action)
  | .approveAction _ id => (w.governance.proposal id).bind fun p =>
      if w.governance.multisigThreshold.getD 2 ≤ p.approvals.length + 1 then some p.action else none
  | _ => none

/-- The movements of a whole escrow to one recipient, if there is anything in it. -/
def payAll (m : Address → ℤ → Movement) (recipient : Address) (amount : ℤ) : List Movement :=
  if 0 < amount then [m recipient amount] else []

/-- What is left of an escrow that was paid out in full. -/
def escrowLeft (amount : ℤ) : ℤ := if 0 < amount then 0 else amount

/-- The fee of a deposit, as configured. -/
def feeMoves (config : Option FeeConfig) (amount : ℤ) : List Movement :=
  match config with
  | none => []
  | some c =>
    if 0 < c.feeBps ∧ 0 < (amount * c.feeBps).tdiv 10000 then
      [.fee c.treasury ((amount * c.feeBps).tdiv 10000)]
    else []

/-- What is left of a deposit after the fee. -/
def netOfFee (config : Option FeeConfig) (amount : ℤ) : ℤ :=
  match config with
  | none => amount
  | some c =>
    if 0 < c.feeBps ∧ 0 < (amount * c.feeBps).tdiv 10000 then
      amount - (amount * c.feeBps).tdiv 10000
    else amount

/-- The postings of the entry points, each under the conditions the code checks.
The call is about the shipment `s` it finds stored. -/
inductive Rule (env : Env) (w : World H) : Call → Posting → Prop
  | setShipmentMetadata {caller : Address} {s : Shipment} {key value : Symbol} :
      s.finalized = false → caller = s.sender ∨ w.ledger.admin = some caller →
      Rule env w (.setShipmentMetadata caller s.id key value)
        ⟨s, (s.withMetadata (mapSet (s.metadata.getD []) key value)).touch env.timestamp, .synced,
          false, []⟩
  | addDisputeEvidenceHash {reporter : Address} {s : Shipment} {hash : BytesN32} :
      s.finalized = false → s.status = .disputed →
      Rule env w (.addDisputeEvidenceHash reporter s.id hash) ⟨s, s.bumpNonce, .kept, false, []⟩
  | handoffShipment {newCarrier : Address} {s : Shipment} {hash : BytesN32} :
      s.finalized = false → s.status ≠ .delivered → s.status ≠ .cancelled →
      Rule env w (.handoffShipment s.carrier newCarrier s.id hash)
        ⟨s, (s.withCarrier newCarrier).touch env.timestamp, .synced, false, []⟩
  | reportConditionBreach {s : Shipment} {breach : BreachType} {hash : BytesN32} :
      s.finalized = false → s.status ≠ .cancelled → s.status ≠ .disputed →
      Rule env w (.reportConditionBreach s.carrier s.id breach .critical hash)
        ⟨s, (s.withStatus .disputed).touch env.timestamp, .kept, true, []⟩
  | updateStatus {caller : Address} {s : Shipment} {status : ShipmentStatus} {hash : BytesN32} :
      s.finalized = false → caller = s.carrier ∨ w.ledger.admin = some caller →
      s.status.isValidTransition status = true →
      Rule env w (.updateStatus caller s.id status hash)
        ⟨s, (((s.withStatus status).withDataHash hash).touch env.timestamp).finalizeIfSettled,
          .synced, true, []⟩
  | confirmDelivery {s : Shipment} {hash : BytesN32} :
      s.finalized = false → s.status.isValidTransition .delivered = true →
      Rule env w (.confirmDelivery s.receiver s.id hash)
        ⟨s, (((s.withStatus .delivered).withUpdatedAt env.timestamp).payOff s.escrowAmount
            env.timestamp).finalizeIfSettled, .synced, true, s.payMoves s.escrowAmount⟩
  | confirmPartialDelivery {s : Shipment} {hash : BytesN32} {percent : ℕ}
      {status : ShipmentStatus} : s.finalized = false →
      s.status = .inTransit ∨ s.status = .atCheckpoint ∨ s.status = .partiallyDelivered →
      0 < s.share percent → s.share percent ≤ s.escrowAmount →
      status = (if s.share percent = s.escrowAmount then .delivered else .partiallyDelivered) →
      Rule env w (.confirmPartialDelivery s.receiver s.id hash percent)
        ⟨s, (((s.withStatus status).withUpdatedAt env.timestamp).payOff (s.share percent)
            env.timestamp).finalizeIfSettled, .synced, true, s.payMoves (s.share percent)⟩
  | recordOther {s : Shipment} {name : Symbol} {hash : BytesN32} :
      s.finalized = false → s.status = .inTransit → s.findMilestone name = none →
      Rule env w (.recordMilestone s.carrier s.id name hash) ⟨s, s, .kept, false, []⟩
  | recordMilestone {s : Shipment} {name : Symbol} {hash : BytesN32} {m : Symbol × ℕ} {x : ℤ} :
      s.finalized = false → s.status = .inTransit → s.findMilestone name = some m →
      name ∉ s.paidMilestones → x = s.milestoneDue (s.paidMilestones ++ [name]) m.2 →
      Rule env w (.recordMilestone s.carrier s.id name hash)
        ⟨s, (s.payMilestone name x env.timestamp).finalizeIfSettled,
          .after s (s.payMilestone name x env.timestamp), false, s.milestoneMoves name x⟩
  | recordMilestonesBatch {s : Shipment} {items : List (Symbol × BytesN32)} :
      s.finalized = false → s.status = .inTransit →
      Rule env w (.recordMilestonesBatch s.carrier s.id items)
        ⟨s, (s.payBatch env.timestamp (items.map (·.1))).1.finalizeIfSettled,
          .after s (s.payBatch env.timestamp (items.map (·.1))).1, false,
          (s.payBatch env.timestamp (items.map (·.1))).2⟩
  | releaseNothing {caller : Address} {s : Shipment} {name : Symbol} {m : Symbol × ℕ} :
      s.finalized = false → caller = s.carrier ∨ w.ledger.admin = some caller →
      s.findMilestone name = some m →
      s.milestoneDue (s.milestonesCompleted ++ [name]) m.2 ≤ 0 →
      Rule env w (.releaseMilestonePayment caller s.id name) ⟨s, s.finalizeIfSettled, .kept, false, []⟩
  | releaseMilestonePayment {caller : Address} {s : Shipment} {name : Symbol} {m : Symbol × ℕ}
      {x : ℤ} : s.finalized = false → caller = s.carrier ∨ w.ledger.admin = some caller →
      s.findMilestone name = some m → x = s.milestoneDue (s.milestonesCompleted ++ [name]) m.2 →
      0 < x →
      Rule env w (.releaseMilestonePayment caller s.id name)
        ⟨s, (s.payMilestone name x env.timestamp).finalizeIfSettled,
          .after s (s.payMilestone name x env.timestamp), false, s.milestoneMoves name x⟩
  | depositEscrow {source : Address} {s : Shipment} {amount : ℤ} : 0 < amount →
      env.auth source = true → s.finalized = false → s.status = .created → s.escrowAmount ≤ 0 →
      Rule env w (.depositEscrow source s.id amount)
        ⟨s, (s.fund (netOfFee w.governance.feeConfig amount)).touch env.timestamp, .synced, false,
          .deposit source amount :: feeMoves w.governance.feeConfig amount⟩
  | cancelShipment {caller : Address} {s : Shipment} {hash : BytesN32} : s.finalized = false →
      caller = s.sender ∨ w.ledger.admin = some caller → s.status ≠ .delivered →
      s.status ≠ .disputed →
      Rule env w (.cancelShipment caller s.id hash)
        ⟨s, (((s.withStatus .cancelled).withEscrow 0).touch env.timestamp).finalizeIfSettled,
          .removed, true, payAll .announced s.sender s.escrowAmount⟩
  | forceCancelShipment {admin : Address} {s : Shipment} {hash : BytesN32} : s.finalized = false →
      w.ledger.admin = some admin → s.status ≠ .delivered → s.status ≠ .cancelled →
      Rule env w (.forceCancelShipment admin s.id hash)
        ⟨s, (((s.withStatus .cancelled).withEscrow (escrowLeft s.escrowAmount)).touch
            env.timestamp).finalizeIfSettled, .synced, true,
          payAll (.bare .refunded) s.sender s.escrowAmount⟩
  | checkDeadline {s : Shipment} :
      saturatingAddU64 s.deadline w.getConfig.deadlineGraceSeconds ≤ env.timestamp →
      s.status ≠ .delivered → s.status ≠ .disputed → s.status ≠ .cancelled →
      Rule env w (.checkDeadline s.id)
        ⟨s, ((s.withStatus .cancelled).withEscrow 0).touch env.timestamp,
          (if 0 < s.escrowAmount then .removed else .synced), true,
          payAll (.bare .refunded) s.sender s.escrowAmount⟩
  | releaseEscrow {caller : Address} {s : Shipment} : s.finalized = false →
      caller = s.receiver ∨ w.ledger.admin = some caller → s.status = .delivered →
      s.escrowAmount ≠ 0 →
      Rule env w (.releaseEscrow caller s.id)
        ⟨s, (s.payOff s.escrowAmount env.timestamp).finalizeIfSettled, .synced, false,
          s.payMoves s.escrowAmount⟩
  | refundEscrow {caller : Address} {s : Shipment} : s.finalized = false →
      caller = s.sender ∨ w.ledger.admin = some caller →
      s.status = .created ∨ s.status = .cancelled → s.escrowAmount ≠ 0 →
      Rule env w (.refundEscrow caller s.id)
        ⟨s, (((s.withEscrow 0).withStatus .cancelled).touch env.timestamp).finalizeIfSettled,
          .synced, true, [.settled .refunded s.sender s.escrowAmount]⟩
  | raiseDispute {caller : Address} {s : Shipment} {hash : BytesN32} : s.finalized = false →
      caller = s.sender ∨ caller = s.receiver ∨ caller = s.carrier → s.status ≠ .cancelled →
      s.status ≠ .disputed →
      Rule env w (.raiseDispute caller s.id hash)
        ⟨s, (s.withStatus .disputed).touch env.timestamp, .synced, true, []⟩
  | releaseToCarrier {admin : Address} {s : Shipment} {hash : BytesN32} : s.finalized = false →
      w.ledger.admin = some admin ∨ w.hasActiveRole admin .guardian = true →
      s.status = .disputed → s.escrowAmount ≠ 0 →
      Rule env w (.resolveDispute admin s.id .releaseToCarrier hash)
        ⟨s, (((s.withEscrow 0).touch env.timestamp).withStatus .delivered).finalizeIfSettled,
          .removed, true, [.settled .released s.carrier s.escrowAmount]⟩
  | refundToCompany {admin : Address} {s : Shipment} {hash : BytesN32} : s.finalized = false →
      w.ledger.admin = some admin ∨ w.hasActiveRole admin .guardian = true →
      s.status = .disputed → s.escrowAmount ≠ 0 →
      Rule env w (.resolveDispute admin s.id .refundToCompany hash)
        ⟨s, (((s.withEscrow 0).touch env.timestamp).withStatus .cancelled).finalizeIfSettled,
          .removed, true, [.settled .refunded s.sender s.escrowAmount]⟩
  | forceRelease {call : Call} {s : Shipment} : w.executing call = some (.forceRelease s.id) →
      s.status ≠ .delivered → s.status ≠ .cancelled →
      Rule env w call
        ⟨s, (((s.withEscrow (escrowLeft s.escrowAmount)).withStatus .delivered).touch
            env.timestamp).finalizeIfSettled, .synced, true,
          payAll (.bare .released) s.carrier s.escrowAmount⟩
  | forceRefund {call : Call} {s : Shipment} : w.executing call = some (.forceRefund s.id) →
      s.status ≠ .delivered → s.status ≠ .cancelled →
      Rule env w call
        ⟨s, (((s.withEscrow (escrowLeft s.escrowAmount)).withStatus .cancelled).touch
            env.timestamp).finalizeIfSettled, .synced, true,
          payAll (.bare .refunded) s.sender s.escrowAmount⟩
  | recoverShipment {admin : Address} {s : Shipment} {status : ShipmentStatus} {hash : BytesN32} :
      w.ledger.admin = some admin → s.status ≠ status →
      isValidRecoveryTransition s.status status = true →
      Rule env w (.recoverShipment admin s.id status hash)
        ⟨s, (s.withStatus status).withUpdatedAt env.timestamp, .kept, false, []⟩
  | unlockEscrow {admin : Address} {s : Shipment} {hash : BytesN32} : w.ledger.admin = some admin →
      s.escrowAmount ≠ 0 →
      Rule env w (.unlockEscrow admin s.id hash)
        ⟨s, (s.withEscrow 0).withUpdatedAt env.timestamp, .kept, false, []⟩
  | clearFinalization {admin : Address} {s : Shipment} {hash : BytesN32} :
      w.ledger.admin = some admin → s.finalized = true →
      Rule env w (.clearFinalization admin s.id hash)
        ⟨s, (s.withFinalized false).withUpdatedAt env.timestamp, .kept, false, []⟩
  | rollbackOnExternalFailure {admin : Address} {s : Shipment} {status : ShipmentStatus}
      {hash : BytesN32} : w.ledger.admin = some admin →
      Rule env w (.rollbackOnExternalFailure admin s.id status hash)
        ⟨s, ((s.withFinalized false).withStatus status).touch env.timestamp, .kept, false, []⟩

namespace Ledger

variable {Token : Type} (l : Ledger Token)

/-- A new record is stored under the next id and counted. -/
@[simps -fullyApplied]
def enrol (s : Shipment) : Ledger Token :=
  { l with
    shipmentCount := s.id
    shipment := Function.update l.shipment s.id (some s)
    escrow := Function.update l.escrow s.id (some s.escrowAmount)
    statusCount := Function.update l.statusCount .created (l.statusCount .created + 1) }

/-- The record leaves for the archive, with its `Escrow` entry and its active
settlement. -/
def putAway (id : ℕ) (s : Shipment) : Ledger Token :=
  ((l.archive id s).removeEscrow id).setActiveSettlement id none

/-- New shipments of one sender, each under the next id. -/
inductive Enrolled (sender : Address) (now : ℕ) : Ledger Token → Ledger Token → Prop
  | nil {l : Ledger Token} : Enrolled sender now l l
  | snoc {l l' : Ledger Token} {input : ShipmentInput} : Enrolled sender now l l' →
      l'.shipmentCount + 1 ≤ u64Max → now < input.deadline →
      Enrolled sender now l (l'.enrol (Shipment.new (l'.shipmentCount + 1) sender input now))

end Ledger

/-- The calls that cannot commit without a posting. -/
def Call.posts : Call → Bool
  | .setShipmentMetadata .. | .addDisputeEvidenceHash .. | .handoffShipment .. | .updateStatus ..
  | .confirmDelivery .. | .confirmPartialDelivery .. | .recordMilestone ..
  | .recordMilestonesBatch .. | .releaseMilestonePayment .. | .depositEscrow ..
  | .cancelShipment .. | .forceCancelShipment .. | .checkDeadline .. | .releaseEscrow ..
  | .refundEscrow .. | .raiseDispute .. | .resolveDispute .. | .recoverShipment ..
  | .unlockEscrow .. | .clearFinalization .. | .rollbackOnExternalFailure .. => true
  | _ => false

/-- What a committed call does to the book. -/
inductive Effects (env : Env) (w : World H) (call : Call) : Book H.Token → Prop
  | quiet : call.posts = false → Effects env w call w.book
  | initialized {admin tokenContract : Address} : call = .initializeContract admin tokenContract →
      w.ledger.admin = none →
      Effects env w call (w.book.map fun l =>
        { l with admin := some admin, tokenContract := some tokenContract, shipmentCount := 0 })
  | handedOver {admin : Address} : call.posts = false →
      Effects env w call (w.book.map fun l => { l with admin := some admin })
  | enrolled {sender : Address} {l : Ledger H.Token} : call.posts = false → env.auth sender = true →
      w.ledger.admin ≠ none → w.ledger.Enrolled sender env.timestamp l → Effects env w call ⟨l, w.book.pays⟩
  | archived {admin : Address} {id : ℕ} {s : Shipment} : call = .archiveShipment admin id →
      w.ledger.shipment id = some s → s.status = .delivered ∨ s.status = .cancelled →
      Effects env w call (w.book.map (·.putAway id s))
  | posted {p : Posting} {b : Book H.Token} : w.ledger.getShipment p.old.id = some p.old →
      (p.mirror ≠ .kept → p.new.Valid) → Rule env w call p → Posted env w.book b p →
      Effects env w call b

/-- The call made the posting `p`, which took the book to `b`. -/
structure PostedBy (env : Env) (w : World H) (call : Call) (p : Posting) (b : Book H.Token) : Prop where
  stored : w.ledger.getShipment p.old.id = some p.old
  valid : p.mirror ≠ .kept → p.new.Valid
  rule : Rule env w call p
  posted : Posted env w.book b p

/-- A call that cannot commit without a posting made one. -/
theorem Effects.exists_posting {env : Env} {w : World H} {call : Call} {b : Book H.Token}
    (he : Effects env w call b) (hc : call.posts = true) : ∃ p, PostedBy env w call p b := by
  cases he with
  | quiet hn => rw [hn] at hc; cases hc
  | initialized hcall => rw [hcall] at hc; cases hc
  | handedOver hn => rw [hn] at hc; cases hc
  | enrolled hn => rw [hn] at hc; cases hc
  | archived hcall => rw [hcall] at hc; cases hc
  | posted hs hv hr hp => exact ⟨_, hs, hv, hr, hp⟩

/-- A posting made under its rule. -/
theorem Rule.effects {env : Env} {w : World H} {call : Call} {p : Posting} {b : Book H.Token}
    (hr : Rule env w call p) (hs : w.ledger.getShipment p.old.id = some p.old)
    (hv : p.mirror ≠ .kept → p.new.Valid) (hp : Posted env w.book b p) : Effects env w call b :=
  .posted hs hv hr hp

end Navin
