/-
# The accounts of a posting

What the rules say about money, once for all of them: what a shipment's escrow
loses leaves the contract, except where a rule drops it; what leaves the contract
goes to the carrier or the sender, except the platform fee.

Key definitions:
- `Movement.inflow`, `Movement.out?`, `outflow`, `inflow`;
- `Call.drops`: the two calls that lower an escrow and pay nobody.

Key theorems:
- `Rule.balanced`: the balance of one posting;
- `Rule.moveOf`: who is paid, and how.
-/
import Navin.Refine

namespace Navin

variable {H : Host}

/-! ### Movements -/

namespace Movement

/-- Who is paid out of the contract, and how much. -/
def out? : Movement → Option (Address × ℤ)
  | settled _ recipient amount => some (recipient, amount)
  | bare _ recipient amount => some (recipient, amount)
  | fee treasury amount => some (treasury, amount)
  | _ => none

/-- What a movement brings into the contract. -/
def inflow : Movement → ℤ
  | deposit _ amount => amount
  | _ => 0

/-- What a movement takes out of the contract. -/
def outflow (m : Movement) : ℤ := (m.out?.map (·.2)).getD 0

@[simp] theorem outflow_settled (n : Notice) (a : Address) (x : ℤ) : (settled n a x).outflow = x := rfl

@[simp] theorem outflow_bare (n : Notice) (a : Address) (x : ℤ) : (bare n a x).outflow = x := rfl

@[simp] theorem outflow_announced (a : Address) (x : ℤ) : (announced a x).outflow = 0 := rfl

@[simp] theorem outflow_milestone (n : Symbol) (x : ℤ) (a : Address) :
    (milestone n x a).outflow = 0 := rfl

@[simp] theorem outflow_deposit (a : Address) (x : ℤ) : (deposit a x).outflow = 0 := rfl

@[simp] theorem outflow_fee (a : Address) (x : ℤ) : (fee a x).outflow = x := rfl

@[simp] theorem inflow_settled (n : Notice) (a : Address) (x : ℤ) : (settled n a x).inflow = 0 := rfl

@[simp] theorem inflow_bare (n : Notice) (a : Address) (x : ℤ) : (bare n a x).inflow = 0 := rfl

@[simp] theorem inflow_announced (a : Address) (x : ℤ) : (announced a x).inflow = 0 := rfl

@[simp] theorem inflow_milestone (n : Symbol) (x : ℤ) (a : Address) : (milestone n x a).inflow = 0 := rfl

@[simp] theorem inflow_deposit (a : Address) (x : ℤ) : (deposit a x).inflow = x := rfl

@[simp] theorem inflow_fee (a : Address) (x : ℤ) : (fee a x).inflow = 0 := rfl

end Movement

/-- The sum of what a list of movements takes out. -/
def outflow (ms : List Movement) : ℤ := (ms.map (·.outflow)).sum

/-- The sum of what a list of movements brings in. -/
def inflow (ms : List Movement) : ℤ := (ms.map (·.inflow)).sum

@[simp] theorem outflow_nil : outflow [] = 0 := rfl

@[simp] theorem inflow_nil : inflow [] = 0 := rfl

@[simp] theorem outflow_cons (m : Movement) (ms : List Movement) :
    outflow (m :: ms) = m.outflow + outflow ms := by simp [outflow]

@[simp] theorem inflow_cons (m : Movement) (ms : List Movement) :
    inflow (m :: ms) = m.inflow + inflow ms := by simp [inflow]

@[simp] theorem outflow_append (ms ns : List Movement) :
    outflow (ms ++ ns) = outflow ms + outflow ns := by simp [outflow]

@[simp] theorem inflow_append (ms ns : List Movement) : inflow (ms ++ ns) = inflow ms + inflow ns := by
  simp [inflow]

/-! ### The lists of the rules -/

/-- The movements the rules make on account of a shipment. -/
inductive MoveOf (env : Env) (s : Shipment) : Movement → Prop
  | release {x : ℤ} : 0 < x → MoveOf env s (.settled .released s.carrier x)
  | refund {x : ℤ} : 0 < x → MoveOf env s (.settled .refunded s.sender x)
  | bareRelease {x : ℤ} : 0 < x → MoveOf env s (.bare .released s.carrier x)
  | bareRefund {x : ℤ} : 0 < x → MoveOf env s (.bare .refunded s.sender x)
  | announced {x : ℤ} : 0 < x → MoveOf env s (.announced s.sender x)
  | milestone {name : Symbol} {x : ℤ} : MoveOf env s (.milestone name x s.carrier)
  | deposit {source : Address} {x : ℤ} : 0 < x → env.auth source = true → s.escrowAmount ≤ 0 →
      MoveOf env s (.deposit source x)
  | fee {treasury : Address} {x : ℤ} : 0 < x → s.escrowAmount ≤ 0 → MoveOf env s (.fee treasury x)

/-- The movements of a payout to the carrier. -/
inductive PayoutOf (carrier : Address) : Movement → Prop
  | release {x : ℤ} : 0 < x → PayoutOf carrier (.settled .released carrier x)
  | milestone {name : Symbol} {x : ℤ} : PayoutOf carrier (.milestone name x carrier)

theorem PayoutOf.moveOf {env : Env} {s : Shipment} {m : Movement} (h : PayoutOf s.carrier m) :
    MoveOf env s m := by
  cases h with
  | release hx => exact .release hx
  | milestone => exact .milestone

namespace Shipment

variable (s : Shipment)

@[simp] theorem payable_withStatus (t : ShipmentStatus) (x : ℤ) :
    (s.withStatus t).payable x = s.payable x := rfl

@[simp] theorem payable_withUpdatedAt (n : ℕ) (x : ℤ) :
    (s.withUpdatedAt n).payable x = s.payable x := rfl

@[simp] theorem outflow_payMoves (x : ℤ) : outflow (s.payMoves x) = s.payable x := by
  unfold payMoves
  split
  · simp
  · have := s.payable_nonneg x
    rw [outflow_nil]
    omega

@[simp] theorem inflow_payMoves (x : ℤ) : inflow (s.payMoves x) = 0 := by
  unfold payMoves
  split <;> simp [Movement.inflow]

@[simp] theorem outflow_milestoneMoves (name : Symbol) (x : ℤ) :
    outflow (s.milestoneMoves name x) = s.payable x := by
  rw [milestoneMoves, outflow_cons, outflow_payMoves, Movement.outflow_milestone, zero_add]
  rfl

@[simp] theorem inflow_milestoneMoves (name : Symbol) (x : ℤ) :
    inflow (s.milestoneMoves name x) = 0 := by
  simp [milestoneMoves, Movement.inflow]

/-- The parts of a record no posting writes, and when it was written. -/
structure Keeps (s t : Shipment) (now : ℕ) : Prop where
  id_eq : t.id = s.id
  sender_eq : t.sender = s.sender
  receiver_eq : t.receiver = s.receiver
  createdAt_eq : t.createdAt = s.createdAt
  deadline_eq : t.deadline = s.deadline
  schedule_eq : t.paymentMilestones = s.paymentMilestones
  updatedAt : t.updatedAt = s.updatedAt ∨ t.updatedAt = now

/-- What a batch does to the record: nothing but payments and marks. -/
structure BatchOf (s t : Shipment) (ms : List Movement) (now : ℕ) : Prop where
  keeps : s.Keeps t now
  balanced : t.escrowAmount + outflow ms = s.escrowAmount
  inflow_eq : inflow ms = 0
  carrier_eq : t.carrier = s.carrier
  status_eq : t.status = s.status
  total_eq : t.totalEscrow = s.totalEscrow
  finalized_eq : t.finalized = s.finalized
  paid : ∀ name ∈ t.paidMilestones, name ∈ s.paidMilestones ∨ name ∈ s.paymentMilestones.map (·.1)
  moves : ∀ m ∈ ms, PayoutOf s.carrier m

theorem payoutOf_payMoves {x : ℤ} {m : Movement} (hm : m ∈ s.payMoves x) : PayoutOf s.carrier m := by
  unfold payMoves at hm
  split at hm
  · rw [List.mem_singleton] at hm
    subst hm
    exact .release ‹_›
  · cases hm

theorem payoutOf_milestoneMoves {name : Symbol} {x : ℤ} {m : Movement}
    (hm : m ∈ s.milestoneMoves name x) : PayoutOf s.carrier m := by
  rcases List.mem_cons.mp hm with rfl | hm
  · exact .milestone
  · exact (s.markPaid name).payoutOf_payMoves hm

theorem keeps_payOff (x : ℤ) (now : ℕ) : s.Keeps (s.payOff x now) now where
  id_eq := rfl
  sender_eq := rfl
  receiver_eq := rfl
  createdAt_eq := rfl
  deadline_eq := rfl
  schedule_eq := rfl
  updatedAt := by
    rw [payOff_updatedAt]
    split
    · exact .inr rfl
    · exact .inl rfl

theorem keeps_payMilestone (name : Symbol) (x : ℤ) (now : ℕ) :
    s.Keeps (s.payMilestone name x now) now :=
  have h := (s.markPaid name).keeps_payOff x now
  ⟨h.id_eq, h.sender_eq, h.receiver_eq, h.createdAt_eq, h.deadline_eq, h.schedule_eq, h.updatedAt⟩

variable {s} in
theorem Keeps.trans {t u : Shipment} {now : ℕ} (h : s.Keeps t now) (h' : t.Keeps u now) :
    s.Keeps u now where
  id_eq := h'.id_eq.trans h.id_eq
  sender_eq := h'.sender_eq.trans h.sender_eq
  receiver_eq := h'.receiver_eq.trans h.receiver_eq
  createdAt_eq := h'.createdAt_eq.trans h.createdAt_eq
  deadline_eq := h'.deadline_eq.trans h.deadline_eq
  schedule_eq := h'.schedule_eq.trans h.schedule_eq
  updatedAt := by
    rcases h'.updatedAt with h₁ | h₁
    · rw [h₁]
      exact h.updatedAt
    · exact .inr h₁

theorem keeps_withUpdatedAt (status : ShipmentStatus) (now : ℕ) :
    s.Keeps ((s.withStatus status).withUpdatedAt now) now :=
  ⟨rfl, rfl, rfl, rfl, rfl, rfl, .inr rfl⟩

variable {s} in
/-- The flag is none of them. -/
theorem Keeps.finalizeIfSettled {t : Shipment} {now : ℕ} (h : s.Keeps t now) :
    s.Keeps t.finalizeIfSettled now :=
  ⟨h.id_eq, h.sender_eq, h.receiver_eq, h.createdAt_eq, h.deadline_eq, h.schedule_eq, h.updatedAt⟩

theorem mem_schedule {name : Symbol} {m : Symbol × ℕ} (h : s.findMilestone name = some m) :
    name ∈ s.paymentMilestones.map (·.1) := by
  have hm : m.1 = name := by simpa using List.find?_some h
  exact List.mem_map.mpr ⟨m, List.mem_of_find?_eq_some h, hm⟩

/-- A payment marks the milestone it is for and no other. -/
theorem mem_paid_markPaid {name : Symbol} {m : Symbol × ℕ} (h : s.findMilestone name = some m)
    {n : Symbol} (hn : n ∈ (s.markPaid name).paidMilestones) :
    n ∈ s.paidMilestones ∨ n ∈ s.paymentMilestones.map (·.1) := by
  rw [markPaid_paidMilestones] at hn
  split at hn
  · exact .inl hn
  · rcases List.mem_append.mp hn with hn | hn
    · exact .inl hn
    · rw [List.mem_singleton.mp hn]
      exact .inr (s.mem_schedule h)

theorem batchOf_payBatch (now : ℕ) (names : List Symbol) :
    s.BatchOf (s.payBatch now names).1 (s.payBatch now names).2 now := by
  induction names generalizing s with
  | nil =>
    refine ⟨⟨rfl, rfl, rfl, rfl, rfl, rfl, .inl rfl⟩, ?_, rfl, rfl, rfl, rfl, rfl, fun _ => .inl,
      fun m hm => ?_⟩
    · simp [payBatch]
    · simp [payBatch] at hm
  | cons name names ih =>
    rw [payBatch]
    split
    · exact ih s
    · rename_i m hm
      split
      · exact ih s
      · have h := ih (s.payMilestone name (s.share m.2) now)
        refine ⟨(s.keeps_payMilestone name _ now).trans h.keeps, ?_, ?_, h.carrier_eq, h.status_eq,
          h.total_eq, h.finalized_eq, fun n hn => ?_, ?_⟩
        · have hb := h.balanced
          rw [payMilestone_escrowAmount] at hb
          dsimp only
          rw [outflow_append, outflow_milestoneMoves]
          omega
        · rw [inflow_append, inflow_milestoneMoves, h.inflow_eq, zero_add]
        · exact (h.paid n hn).elim (s.mem_paid_markPaid hm) .inr
        · intro mv hmv
          rcases List.mem_append.mp hmv with hmv | hmv
          · exact s.payoutOf_milestoneMoves hmv
          · exact h.moves mv hmv

end Shipment

/-! ### Balance -/

/-- The calls that lower an escrow and transfer nothing. -/
def Call.drops : Call → Bool
  | .cancelShipment .. | .unlockEscrow .. => true
  | _ => false

theorem outflow_payAll_bare {n : Notice} {a : Address} {x : ℤ} (hx : 0 ≤ x) :
    outflow (payAll (.bare n) a x) = x := by
  unfold payAll
  split
  · simp
  · rw [outflow_nil]
    omega

@[simp] theorem outflow_payAll_announced (a : Address) (x : ℤ) : outflow (payAll .announced a x) = 0 := by
  unfold payAll
  split <;> simp

@[simp] theorem inflow_payAll_bare (n : Notice) (a : Address) (x : ℤ) :
    inflow (payAll (.bare n) a x) = 0 := by
  unfold payAll
  split <;> simp

@[simp] theorem inflow_payAll_announced (a : Address) (x : ℤ) : inflow (payAll .announced a x) = 0 := by
  unfold payAll
  split <;> simp

theorem escrowLeft_eq {x : ℤ} (hx : 0 ≤ x) : escrowLeft x = 0 := by
  unfold escrowLeft
  split <;> omega

theorem netOfFee_add (config : Option FeeConfig) (x : ℤ) :
    netOfFee config x + outflow (feeMoves config x) = x := by
  unfold netOfFee feeMoves
  cases config with
  | none => simp
  | some c =>
    dsimp only
    split <;> simp

@[simp] theorem inflow_feeMoves (config : Option FeeConfig) (x : ℤ) :
    inflow (feeMoves config x) = 0 := by
  unfold feeMoves
  cases config with
  | none => rfl
  | some c =>
    dsimp only
    split <;> simp

/-- A call that executes a proposal drops nothing. -/
theorem drops_of_executing {w : World H} {call : Call} {a : AdminAction}
    (h : w.executing call = some a) : call.drops = false := by
  cases call <;> first | rfl | cases h

variable {env : Env} {w : World H} {call : Call} {p : Posting}

/-- What comes in and what was there is what goes out, what stays, and what the
two dropping calls lose track of. -/
theorem Rule.balanced (hr : Rule env w call p) (h₀ : 0 ≤ p.old.escrowAmount) :
    p.new.escrowAmount + outflow p.moves + (if call.drops = true then p.old.escrowAmount else 0) =
      p.old.escrowAmount + inflow p.moves := by
  cases hr with
  | @recordMilestonesBatch s items =>
    have hb := s.batchOf_payBatch env.timestamp (items.map (·.1))
    simp [Call.drops, hb.balanced, hb.inflow_eq]
  | @depositEscrow source s amount _ _ _ _ hle =>
    have hn := netOfFee_add w.governance.feeConfig amount
    dsimp only at h₀
    simp [Call.drops]
    omega
  | forceRelease hx => simp [drops_of_executing hx, escrowLeft_eq h₀, outflow_payAll_bare h₀]
  | forceRefund hx => simp [drops_of_executing hx, escrowLeft_eq h₀, outflow_payAll_bare h₀]
  | forceCancelShipment => simp [Call.drops, escrowLeft_eq h₀, outflow_payAll_bare h₀]
  | checkDeadline => simp [Call.drops, outflow_payAll_bare h₀]
  | _ => simp [Call.drops]

theorem mem_payAll {f : Address → ℤ → Movement} {a : Address} {x : ℤ} {m : Movement}
    (hm : m ∈ payAll f a x) : m = f a x ∧ 0 < x := by
  unfold payAll at hm
  split at hm
  · exact ⟨List.mem_singleton.mp hm, ‹_›⟩
  · cases hm

theorem mem_feeMoves {config : Option FeeConfig} {x : ℤ} {m : Movement}
    (hm : m ∈ feeMoves config x) : ∃ treasury fee, m = .fee treasury fee ∧ 0 < fee := by
  unfold feeMoves at hm
  cases config with
  | none => cases hm
  | some c =>
    dsimp only at hm
    split at hm
    · rename_i hpos
      exact ⟨_, _, List.mem_singleton.mp hm, hpos.2⟩
    · cases hm

/-- Every movement of a posting is one of these. -/
theorem Rule.moveOf (hr : Rule env w call p) (h₀ : 0 ≤ p.old.escrowAmount) {m : Movement}
    (hm : m ∈ p.moves) : MoveOf env p.old m := by
  cases hr with
  | @confirmDelivery s => exact (s.payoutOf_payMoves hm).moveOf
  | @confirmPartialDelivery s => exact (s.payoutOf_payMoves hm).moveOf
  | @recordMilestone s => exact (s.payoutOf_milestoneMoves hm).moveOf
  | @recordMilestonesBatch s items =>
    exact ((s.batchOf_payBatch env.timestamp (items.map (·.1))).moves m hm).moveOf
  | @releaseMilestonePayment _ s => exact (s.payoutOf_milestoneMoves hm).moveOf
  | @releaseEscrow _ s => exact (s.payoutOf_payMoves hm).moveOf
  | depositEscrow hx ha _ _ hle =>
    rcases List.mem_cons.mp hm with rfl | hm
    · exact .deposit hx ha hle
    · obtain ⟨_, _, rfl, hfee⟩ := mem_feeMoves hm
      exact .fee hfee hle
  | cancelShipment =>
    obtain ⟨rfl, hx⟩ := mem_payAll hm
    exact .announced hx
  | forceCancelShipment =>
    obtain ⟨rfl, hx⟩ := mem_payAll hm
    exact .bareRefund hx
  | checkDeadline =>
    obtain ⟨rfl, hx⟩ := mem_payAll hm
    exact .bareRefund hx
  | forceRelease =>
    obtain ⟨rfl, hx⟩ := mem_payAll hm
    exact .bareRelease hx
  | forceRefund =>
    obtain ⟨rfl, hx⟩ := mem_payAll hm
    exact .bareRefund hx
  | refundEscrow _ _ _ hne =>
    obtain rfl := List.mem_singleton.mp hm
    exact .refund (lt_of_le_of_ne h₀ (Ne.symm hne))
  | releaseToCarrier _ _ _ hne =>
    obtain rfl := List.mem_singleton.mp hm
    exact .release (lt_of_le_of_ne h₀ (Ne.symm hne))
  | refundToCompany _ _ _ hne =>
    obtain rfl := List.mem_singleton.mp hm
    exact .refund (lt_of_le_of_ne h₀ (Ne.symm hne))
  | _ => cases hm

/-! ### The record -/

/-- No posting writes the identity, the parties, the schedule or the dates of a
record, its carrier and its update time apart. -/
theorem Rule.keeps (hr : Rule env w call p) : p.old.Keeps p.new env.timestamp := by
  cases hr with
  | @confirmDelivery s =>
    exact ((s.keeps_withUpdatedAt .delivered _).trans (Shipment.keeps_payOff _ _ _)).finalizeIfSettled
  | @confirmPartialDelivery s _ percent status =>
    exact ((s.keeps_withUpdatedAt status _).trans (Shipment.keeps_payOff _ _ _)).finalizeIfSettled
  | @recordMilestone s => exact (s.keeps_payMilestone _ _ _).finalizeIfSettled
  | @releaseMilestonePayment _ s => exact (s.keeps_payMilestone _ _ _).finalizeIfSettled
  | @releaseEscrow _ s => exact (s.keeps_payOff _ _).finalizeIfSettled
  | @recordMilestonesBatch s items => exact (s.batchOf_payBatch _ _).keeps.finalizeIfSettled
  | addDisputeEvidenceHash => exact ⟨rfl, rfl, rfl, rfl, rfl, rfl, .inl rfl⟩
  | recordOther => exact ⟨rfl, rfl, rfl, rfl, rfl, rfl, .inl rfl⟩
  | releaseNothing => exact ⟨rfl, rfl, rfl, rfl, rfl, rfl, .inl rfl⟩
  | updateStatus => exact .finalizeIfSettled ⟨rfl, rfl, rfl, rfl, rfl, rfl, .inr rfl⟩
  | cancelShipment => exact .finalizeIfSettled ⟨rfl, rfl, rfl, rfl, rfl, rfl, .inr rfl⟩
  | forceCancelShipment => exact .finalizeIfSettled ⟨rfl, rfl, rfl, rfl, rfl, rfl, .inr rfl⟩
  | refundEscrow => exact .finalizeIfSettled ⟨rfl, rfl, rfl, rfl, rfl, rfl, .inr rfl⟩
  | releaseToCarrier => exact .finalizeIfSettled ⟨rfl, rfl, rfl, rfl, rfl, rfl, .inr rfl⟩
  | refundToCompany => exact .finalizeIfSettled ⟨rfl, rfl, rfl, rfl, rfl, rfl, .inr rfl⟩
  | forceRelease => exact .finalizeIfSettled ⟨rfl, rfl, rfl, rfl, rfl, rfl, .inr rfl⟩
  | forceRefund => exact .finalizeIfSettled ⟨rfl, rfl, rfl, rfl, rfl, rfl, .inr rfl⟩
  | _ => exact ⟨rfl, rfl, rfl, rfl, rfl, rfl, .inr rfl⟩

/-- The escrow of the new record is between zero and what it started from. -/
theorem Rule.bounds (hr : Rule env w call p) (hv : p.mirror ≠ .kept → p.new.Valid)
    (h₀ : 0 ≤ p.old.escrowAmount) (h₁ : p.old.escrowAmount ≤ p.old.totalEscrow) :
    0 ≤ p.new.escrowAmount ∧ p.new.escrowAmount ≤ p.new.totalEscrow := by
  by_cases hm : p.mirror = .kept
  · -- what is not persisted keeps the escrow, or sets it to zero
    have hnew : p.new.totalEscrow = p.old.totalEscrow ∧
        (p.new.escrowAmount = p.old.escrowAmount ∨ p.new.escrowAmount = 0) := by
      cases hr with
      | recordMilestone => exact ⟨rfl, .inl (Mirror.eq_of_after hm)⟩
      | releaseMilestonePayment => exact ⟨rfl, .inl (Mirror.eq_of_after hm)⟩
      | @recordMilestonesBatch s items =>
        have h := (s.batchOf_payBatch env.timestamp (items.map (·.1))).total_eq
        exact ⟨h, .inl (Mirror.eq_of_after hm)⟩
      | unlockEscrow => exact ⟨rfl, .inr rfl⟩
      | checkDeadline => exact ⟨rfl, .inr rfl⟩
      | addDisputeEvidenceHash => exact ⟨rfl, .inl rfl⟩
      | reportConditionBreach => exact ⟨rfl, .inl rfl⟩
      | recordOther => exact ⟨rfl, .inl rfl⟩
      | releaseNothing => exact ⟨rfl, .inl rfl⟩
      | recoverShipment => exact ⟨rfl, .inl rfl⟩
      | clearFinalization => exact ⟨rfl, .inl rfl⟩
      | rollbackOnExternalFailure => exact ⟨rfl, .inl rfl⟩
      | _ => cases hm
    omega
  · exact ⟨(hv hm).escrow_nonneg, (hv hm).escrow_le_total⟩

/-! ### The shipment of a call -/

/-- The shipment a call is about, for the calls that make a posting by themselves. -/
def Call.target? : Call → Option ℕ
  | .setShipmentMetadata _ id _ _ | .addDisputeEvidenceHash _ id _ | .handoffShipment _ _ id _
  | .reportConditionBreach _ id _ _ _ | .updateStatus _ id _ _ | .confirmDelivery _ id _
  | .confirmPartialDelivery _ id _ _ | .recordMilestone _ id _ _ | .recordMilestonesBatch _ id _
  | .releaseMilestonePayment _ id _ | .depositEscrow _ id _ | .cancelShipment _ id _
  | .forceCancelShipment _ id _ | .checkDeadline id | .releaseEscrow _ id | .refundEscrow _ id
  | .raiseDispute _ id _ | .resolveDispute _ id _ _ | .recoverShipment _ id _ _
  | .unlockEscrow _ id _ | .clearFinalization _ id _ | .rollbackOnExternalFailure _ id _ _ => some id
  | _ => none

theorem target?_of_executing {w : World H} {call : Call} {a : AdminAction}
    (h : w.executing call = some a) : call.target? = none := by
  cases call <;> first | rfl | cases h

/-- The call is about the shipment, or executes a proposal about it. -/
def World.Concerns (w : World H) (call : Call) (id : ℕ) : Prop :=
  call.target? = some id ∨ w.executing call = some (.forceRelease id) ∨
    w.executing call = some (.forceRefund id)

/-- A call that names a shipment concerns no other. -/
theorem World.Concerns.eq_of_target {w : World H} {call : Call} {id id' : ℕ} (h : w.Concerns call id)
    (ht : call.target? = some id') : id = id' := by
  rcases h with h | h | h
  · exact Option.some.inj (h.symm.trans ht)
  · rw [target?_of_executing h] at ht
    cases ht
  · rw [target?_of_executing h] at ht
    cases ht

/-- A posting is on the shipment the call is about. -/
theorem Rule.concerns (hr : Rule env w call p) : w.Concerns call p.old.id := by
  cases hr with
  | forceRelease hx => exact .inr (.inl hx)
  | forceRefund hx => exact .inr (.inr hx)
  | _ => exact .inl rfl

end Navin
