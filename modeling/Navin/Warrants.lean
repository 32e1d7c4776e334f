/-
# Who may direct the money

A token leaves the contract only on account of one shipment, and only for somebody's
say-so. The carrier is paid on the receiver's word, for a milestone, by the admin after
delivery, in a ruling on a dispute, or on a vote of the council; the sender is paid back
when nothing was shipped, by the admin, in a ruling, on a vote, or when the deadline has
passed; the treasury has its fee of a deposit. What the say-so consists of can be read off
the state before the call and the signatures in its trace.

Key definitions:
- `World.Passes`: a proposal of the council has the approvals it needs;
- `ReleaseRight`, `RefundRight`, `Warranted`: the grounds of a payment.

Key theorems:
- `World.passes_of_executing`: what is executed was passed;
- `Rule.warranted`: every movement of a posting that pays has its ground;
- `payment_warranted`: every transfer out of the contract, in any reachable state.
-/
import Navin.Signatures
import Navin.Proposals
import Navin.Stranding
import Navin.Milestones
import Mathlib.Algebra.Order.BigOperators.Group.List
import Mathlib.Algebra.Order.Ring.Int

namespace Navin

open Tx

variable {H : Host} {env : Env} {w w' : World H} {call : Call} {trace : List Effect} {p : Posting}
  {s : Shipment} {o : Address × ℤ} {m : Movement}

/-! ### The council -/

/-- The address signed the call, alone. -/
def SignedBy (trace : List Effect) (a : Address) : Prop := signersOf trace = [a]

/-- The approvals of a proposal once the call has been counted. -/
inductive Offices.Counted (o : Offices) (n : ℕ) (p : Proposal) (trace : List Effect) :
    Call → List Address → Prop
  | executed : o.Counted n p trace (.executeProposal n) p.approvals
  | approved {x : Address} : x ∈ o.members → x ∉ p.approvals → SignedBy trace x →
      o.Counted n p trace (.approveAction x n) (p.approvals ++ [x])

/-- A stored proposal of the action, not executed and in time, has as many approvals as
are asked for. -/
def World.Passes (w : World H) (env : Env) (call : Call) (trace : List Effect) (action : AdminAction) :
    Prop :=
  ∃ n p approvals, Pending env w.offices n p ∧ p.action = action ∧ w.offices.Counted n p trace call approvals ∧
    w.offices.threshold ≤ approvals.length

/-- An approval executes the proposal whose threshold it meets. -/
theorem World.executing_approveAction {x : Address} {n : ℕ} {q : Proposal} {action : AdminAction}
    (hx : w.executing (.approveAction x n) = some action) (hq : w.governance.proposal n = some q) :
    q.action = action ∧ w.offices.threshold ≤ q.approvals.length + 1 := by
  obtain ⟨r, hr, hx⟩ := Option.bind_eq_some_iff.mp hx
  obtain rfl : r = q := Option.some.inj (hr.symm.trans hq)
  split at hx
  · rename_i hthr
    exact ⟨Option.some.inj hx, hthr⟩
  · cases hx

/-- What a call executes was passed. -/
theorem World.passes_of_executing {o' : Offices} {action : AdminAction}
    (hm : Motion env w.offices call trace o') (hx : w.executing call = some action)
    (hsig : ∀ a, call.caller? = some a → SignedBy trace a) : w.Passes env call trace action := by
  cases call with
  | approveAction x n =>
    have hpend : ∃ q, Pending env w.offices n q ∧ x ∈ w.offices.members ∧ x ∉ q.approvals := by
      cases hm with
      | kept hno => cases hno
      | seconded hpend hmem hnew => exact ⟨_, hpend, hmem, hnew⟩
      | enacted hpend hmem hnew => exact ⟨_, hpend, hmem, hnew⟩
      | tabled hprop => cases hprop
    obtain ⟨q, hpend, hmem, hnew⟩ := hpend
    obtain ⟨hact, hthr⟩ := w.executing_approveAction hx hpend.stored
    refine ⟨n, q, _, hpend, hact, .approved hmem hnew (hsig x rfl), ?_⟩
    rw [List.length_append]
    exact hthr
  | executeProposal n =>
    have hpend : ∃ q, Pending env w.offices n q ∧ w.offices.threshold ≤ q.approvals.length := by
      cases hm with
      | kept hno => cases hno
      | executed hpend hthr => exact ⟨_, hpend, hthr⟩
      | tabled hprop => cases hprop
    obtain ⟨q, hpend, hthr⟩ := hpend
    have hact : q.action = action := by
      obtain ⟨r, hr, hact⟩ := Option.map_eq_some_iff.mp hx
      obtain rfl : r = q := Option.some.inj (hr.symm.trans hpend.stored)
      exact hact
    exact ⟨n, q, _, hpend, hact, .executed, hthr⟩
  | _ => cases hx

/-! ### The grounds -/

/-- The admin signed the call, alone. -/
def World.ByAdmin (w : World H) (trace : List Effect) : Prop :=
  ∃ a, w.ledger.admin = some a ∧ SignedBy trace a

/-- On what ground the carrier of a shipment is paid, and how much: the receiver confirms
the delivery, or part of it; what is left is released after delivery; a milestone is
recorded, alone or after others of a batch, or released; or a dispute or the council is for
the carrier. -/
inductive ReleaseRight (env : Env) (w : World H) (call : Call) (trace : List Effect) (s : Shipment) :
    ℤ → Prop
  | receipt {hash : BytesN32} : call = .confirmDelivery s.receiver s.id hash →
      SignedBy trace s.receiver → s.status.isValidTransition .delivered = true →
      ReleaseRight env w call trace s s.escrowAmount
  | partialReceipt {hash : BytesN32} {percent : ℕ} :
      call = .confirmPartialDelivery s.receiver s.id hash percent → SignedBy trace s.receiver →
      s.status = .inTransit ∨ s.status = .atCheckpoint ∨ s.status = .partiallyDelivered →
      ReleaseRight env w call trace s (s.share percent)
  | delivered {a : Address} : call = .releaseEscrow a s.id →
      SignedBy trace s.receiver ∨ w.ByAdmin trace → s.status = .delivered →
      ReleaseRight env w call trace s s.escrowAmount
  | recorded {name : Symbol} {hash : BytesN32} {m : Symbol × ℕ} :
      call = .recordMilestone s.carrier s.id name hash → SignedBy trace s.carrier →
      s.status = .inTransit → s.findMilestone name = some m → name ∉ s.paidMilestones →
      ReleaseRight env w call trace s (s.payable (s.milestoneDue (s.paidMilestones ++ [name]) m.2))
  | recordedAfter {items : List (Symbol × BytesN32)} {before after : List Symbol} {name : Symbol}
      {m : Symbol × ℕ} : call = .recordMilestonesBatch s.carrier s.id items →
      SignedBy trace s.carrier → s.status = .inTransit →
      items.map (·.1) = before ++ name :: after → s.findMilestone name = some m →
      name ∉ (s.payBatch env.timestamp before).1.paidMilestones →
      ReleaseRight env w call trace s ((s.payBatch env.timestamp before).1.payable (s.share m.2))
  | milestone {a : Address} {name : Symbol} {m : Symbol × ℕ} :
      call = .releaseMilestonePayment a s.id name → SignedBy trace s.carrier ∨ w.ByAdmin trace →
      s.findMilestone name = some m → name ∉ s.milestonesCompleted →
      ReleaseRight env w call trace s
        (s.payable (s.milestoneDue (s.milestonesCompleted ++ [name]) m.2))
  | ruling {a : Address} {hash : BytesN32} : call = .resolveDispute a s.id .releaseToCarrier hash →
      w.Arbiter a → SignedBy trace a → s.status = .disputed →
      ReleaseRight env w call trace s s.escrowAmount
  | passed : w.Passes env call trace (.forceRelease s.id) → s.status ≠ .delivered →
      s.status ≠ .cancelled → ReleaseRight env w call trace s s.escrowAmount

/-- On what ground the sender of a shipment is paid back. -/
inductive RefundRight (env : Env) (w : World H) (call : Call) (trace : List Effect) (s : Shipment) : Prop
  | unshipped {a : Address} : call = .refundEscrow a s.id → SignedBy trace s.sender ∨ w.ByAdmin trace →
      s.status = .created ∨ s.status = .cancelled → RefundRight env w call trace s
  | forced {a : Address} {hash : BytesN32} : call = .forceCancelShipment a s.id hash →
      w.ByAdmin trace → s.status ≠ .delivered → s.status ≠ .cancelled →
      RefundRight env w call trace s
  | ruling {a : Address} {hash : BytesN32} : call = .resolveDispute a s.id .refundToCompany hash →
      w.Arbiter a → SignedBy trace a → s.status = .disputed → RefundRight env w call trace s
  | expired : call = .checkDeadline s.id →
      saturatingAddU64 s.deadline w.getConfig.deadlineGraceSeconds ≤ env.timestamp →
      s.status ≠ .delivered → s.status ≠ .disputed → s.status ≠ .cancelled →
      RefundRight env w call trace s
  | passed : w.Passes env call trace (.forceRefund s.id) → s.status ≠ .delivered →
      s.status ≠ .cancelled → RefundRight env w call trace s

/-- A payment out of the contract on account of a shipment, with its ground: what the carrier
has a right to, all of the escrow to the sender, or the fee of a deposit. -/
inductive Warranted (env : Env) (w : World H) (call : Call) (trace : List Effect) (s : Shipment) :
    Address × ℤ → Prop
  | release {x : ℤ} : x ≤ s.escrowAmount → ReleaseRight env w call trace s x →
      Warranted env w call trace s (s.carrier, x)
  | refund : RefundRight env w call trace s → Warranted env w call trace s (s.sender, s.escrowAmount)
  | fee {source treasury : Address} {amount x : ℤ} {bps : ℕ} :
      call = .depositEscrow source s.id amount → SignedBy trace source → s.status = .created →
      s.escrowAmount = 0 → w.governance.feeConfig = some ⟨bps, treasury⟩ →
      x = (amount * bps).tdiv 10000 → Warranted env w call trace s (treasury, x)

/-- The trace is not looked at. -/
theorem Warranted.of_fresh (h : Warranted env w.fresh call trace s o) :
    Warranted env w call trace s o := by
  cases h with
  | release hle hr =>
    refine .release hle ?_
    cases hr with
    | receipt hcall hsig hst => exact .receipt hcall hsig hst
    | partialReceipt hcall hsig hst => exact .partialReceipt hcall hsig hst
    | delivered hcall hsig hst => exact .delivered hcall hsig hst
    | recorded hcall hsig hst hk hnew => exact .recorded hcall hsig hst hk hnew
    | recordedAfter hcall hsig hst hitems hk hnew => exact .recordedAfter hcall hsig hst hitems hk hnew
    | milestone hcall hsig hk hnew => exact .milestone hcall hsig hk hnew
    | ruling hcall ha hsig hst => exact .ruling hcall ha hsig hst
    | passed hp hdel hcan => exact .passed hp hdel hcan
  | refund hr =>
    refine .refund ?_
    cases hr with
    | unshipped hcall hsig hst => exact .unshipped hcall hsig hst
    | forced hcall hsig hdel hcan => exact .forced hcall hsig hdel hcan
    | ruling hcall ha hsig hst => exact .ruling hcall ha hsig hst
    | expired hcall htime hdel hdis hcan => exact .expired hcall htime hdel hdis hcan
    | passed hp hdel hcan => exact .passed hp hdel hcan
  | fee hcall hsig hst hzero hfee hx => exact .fee hcall hsig hst hzero hfee hx

/-! ### The movements -/

theorem Movement.outflow_of_out? (h : m.out? = some o) : m.outflow = o.2 := by
  rw [Movement.outflow, h]
  rfl

theorem MoveOf.out_pos (hm : MoveOf env s m) (ho : m.out? = some o) : 0 < o.2 := by
  cases hm with
  | release hx => cases ho; exact hx
  | refund hx => cases ho; exact hx
  | bareRelease hx => cases ho; exact hx
  | bareRefund hx => cases ho; exact hx
  | fee hx => cases ho; exact hx
  | _ => cases ho

theorem MoveOf.outflow_nonneg (hm : MoveOf env s m) : 0 ≤ m.outflow := by
  cases ho : m.out? with
  | none => rw [Movement.outflow, ho]; exact le_rfl
  | some o =>
    rw [Movement.outflow_of_out? ho]
    exact (hm.out_pos ho).le

/-- One of the movements takes out no more than all of them. -/
theorem outflow_le_of_mem {ms : List Movement} (hms : ∀ m ∈ ms, MoveOf env s m) (hm : m ∈ ms) :
    m.outflow ≤ outflow ms := by
  refine List.single_le_sum (fun x hx => ?_) _ (List.mem_map_of_mem hm)
  obtain ⟨n, hn, rfl⟩ := List.mem_map.mp hx
  exact (hms n hn).outflow_nonneg

/-- A payment to the carrier, taken out of what is there. -/
theorem Shipment.out_payMoves {x : ℤ} (hm : m ∈ s.payMoves x) (ho : m.out? = some o) :
    o = (s.carrier, s.payable x) := by
  unfold payMoves at hm
  split at hm
  · obtain rfl := List.mem_singleton.mp hm
    exact (Option.some.inj ho).symm
  · cases hm

/-- A payment of a batch is for a milestone that was scheduled, and not paid by the items
before it; it is its share, as far as these have left it. -/
theorem Shipment.out_payBatch {now : ℕ} {names : List Symbol} (hm : m ∈ (s.payBatch now names).2)
    (ho : m.out? = some o) : ∃ before name after k, names = before ++ name :: after ∧
      s.findMilestone name = some k ∧ name ∉ (s.payBatch now before).1.paidMilestones ∧
      o = (s.carrier, (s.payBatch now before).1.payable (s.share k.2)) := by
  induction names generalizing s with
  | nil => cases hm
  | cons n names ih =>
    have hskip : (∀ before, (s.payBatch now (n :: before)).1 = (s.payBatch now before).1) →
        m ∈ (s.payBatch now names).2 → ∃ before name after k, n :: names = before ++ name :: after ∧
          s.findMilestone name = some k ∧ name ∉ (s.payBatch now before).1.paidMilestones ∧
          o = (s.carrier, (s.payBatch now before).1.payable (s.share k.2)) := fun hsame hm => by
      obtain ⟨before, name, after, k, rfl, hk, hnew, rfl⟩ := ih hm
      exact ⟨n :: before, name, after, k, rfl, hk, hsame before ▸ hnew, by rw [hsame before]⟩
    rw [payBatch] at hm
    split at hm
    · rename_i hnone
      exact hskip (fun before => by rw [payBatch, hnone]) hm
    · rename_i k hk
      split at hm
      · rename_i hpaid
        exact hskip (fun before => by rw [payBatch, hk]; dsimp only; rw [if_pos hpaid]) hm
      · rename_i hnew
        have hrest : ∀ before, (s.payBatch now (n :: before)).1 =
            ((s.payMilestone n (s.share k.2) now).payBatch now before).1 := fun before => by
          rw [payBatch, hk]
          dsimp only
          rw [if_neg hnew]
        rcases List.mem_append.mp hm with hm | hm
        · rcases List.mem_cons.mp hm with rfl | hm
          · cases ho
          · exact ⟨[], n, names, k, rfl, hk, hnew, Shipment.out_payMoves hm ho⟩
        · obtain ⟨before, name, after, k', rfl, hk', hnew', rfl⟩ := ih hm
          refine ⟨n :: before, name, after, k', rfl, hk', ?_, ?_⟩
          · rw [hrest before]
            exact hnew'
          · rw [hrest before]
            rfl

/-- What pays all there is. -/
theorem out_payAll {f : Address → ℤ → Movement} (hf : ∀ a x, (f a x).out? = some (a, x)) {a : Address}
    {x : ℤ} (hm : m ∈ payAll f a x) (ho : m.out? = some o) : o = (a, x) := by
  obtain ⟨rfl, -⟩ := mem_payAll hm
  exact Option.some.inj (ho.symm.trans (hf _ _))

/-- What the ground of a movement is made of. -/
structure Grounds (env : Env) (w : World H) (call : Call) (trace : List Effect) (p : Posting) : Prop where
  stored : w.getShipment p.old.id = some p.old
  old_nonneg : 0 ≤ p.old.escrowAmount
  new_nonneg : 0 ≤ p.new.escrowAmount
  signed : ∀ a, call.caller? = some a → SignedBy trace a
  passed : ∀ action, w.executing call = some action → w.Passes env call trace action
  released : ∀ a id name, call = .releaseMilestonePayment a id name →
    ∃ s, w.getShipment id = some s ∧ name ∉ s.milestonesCompleted

namespace Grounds

variable (g : Grounds env w call trace p)

include g

theorem byAdmin {a : Address} (hcall : call.caller? = some a) (ha : w.ledger.admin = some a) :
    w.ByAdmin trace := ⟨a, ha, g.signed a hcall⟩

/-- The caller is a party, who signed, or the admin. -/
theorem by_party {a b : Address} (hcall : call.caller? = some a) (ha : a = b ∨ w.ledger.admin = some a) :
    SignedBy trace b ∨ w.ByAdmin trace := by
  rcases ha with rfl | ha
  · exact .inl (g.signed a hcall)
  · exact .inr (g.byAdmin hcall ha)

end Grounds

/-- Every movement of a posting that pays has its ground. -/
theorem Rule.warranted (hr : Rule env w call p) (g : Grounds env w call trace p) (hm : m ∈ p.moves)
    (ho : m.out? = some o) : Warranted env w call trace p.old o := by
  have h₀ := g.old_nonneg
  cases hr with
  | @confirmDelivery s =>
    obtain rfl := Shipment.out_payMoves hm ho
    rw [s.payable_all h₀]
    exact .release le_rfl (.receipt rfl (g.signed _ rfl) ‹_›)
  | @confirmPartialDelivery s hash percent status _ hst hpos hle =>
    obtain rfl := Shipment.out_payMoves hm ho
    have hpay : s.payable (s.share percent) = s.share percent := by
      unfold Shipment.payable
      omega
    rw [hpay]
    exact .release hle (.partialReceipt rfl (g.signed _ rfl) hst)
  | @recordMilestone s name hash k x hfin hst hk hnew hx =>
    rcases List.mem_cons.mp hm with rfl | hm
    · cases ho
    obtain rfl := Shipment.out_payMoves hm ho
    subst hx
    exact .release (s.payable_le _ h₀) (.recorded rfl (g.signed _ rfl) hst hk hnew)
  | @recordMilestonesBatch s items _ hst =>
    have hb := s.batchOf_payBatch env.timestamp (items.map (·.1))
    have hms : ∀ m ∈ (s.payBatch env.timestamp (items.map (·.1))).2, MoveOf env s m :=
      fun m hm => (hb.moves m hm).moveOf
    have hle : o.2 ≤ s.escrowAmount := by
      have hnew : 0 ≤ (s.payBatch env.timestamp (items.map (·.1))).1.escrowAmount := g.new_nonneg
      have hout := outflow_le_of_mem hms hm
      rw [Movement.outflow_of_out? ho] at hout
      have hbal := hb.balanced
      omega
    obtain ⟨before, name, after, k, hitems, hk, hnew, rfl⟩ := Shipment.out_payBatch hm ho
    exact .release hle (.recordedAfter rfl (g.signed _ rfl) hst hitems hk hnew)
  | @releaseMilestonePayment a s name k x hfin hcaller hk hx =>
    rcases List.mem_cons.mp hm with rfl | hm
    · cases ho
    obtain rfl := Shipment.out_payMoves hm ho
    obtain ⟨t, ht, hnew⟩ := g.released _ _ _ rfl
    obtain rfl : s = t := Option.some.inj (g.stored.symm.trans ht)
    subst hx
    exact .release (s.payable_le _ h₀) (.milestone rfl (g.by_party rfl hcaller) hk hnew)
  | @releaseEscrow a s hfin hcaller hst =>
    obtain rfl := Shipment.out_payMoves hm ho
    rw [s.payable_all h₀]
    exact .release le_rfl (.delivered rfl (g.by_party rfl hcaller) hst)
  | @depositEscrow source s amount _ _ _ hst hle =>
    rcases List.mem_cons.mp hm with rfl | hm
    · cases ho
    have hfee : ∃ cfg, w.governance.feeConfig = some cfg ∧
        m = .fee cfg.treasury ((amount * cfg.feeBps).tdiv 10000) := by
      unfold feeMoves at hm
      split at hm
      · cases hm
      · rename_i cfg hcfg
        split at hm
        · exact ⟨cfg, hcfg, List.mem_singleton.mp hm⟩
        · cases hm
    obtain ⟨cfg, hcfg, rfl⟩ := hfee
    cases ho
    exact .fee rfl (g.signed _ rfl) hst (le_antisymm hle h₀) hcfg rfl
  | cancelShipment =>
    obtain ⟨rfl, -⟩ := mem_payAll hm
    cases ho
  | forceCancelShipment _ hadmin hdel hcan =>
    obtain rfl := out_payAll (fun _ _ => rfl) hm ho
    exact .refund (.forced rfl (g.byAdmin rfl hadmin) hdel hcan)
  | checkDeadline htime hdel hdis hcan =>
    obtain rfl := out_payAll (fun _ _ => rfl) hm ho
    exact .refund (.expired rfl htime hdel hdis hcan)
  | refundEscrow _ hcaller hst =>
    obtain rfl := List.mem_singleton.mp hm
    cases ho
    exact .refund (.unshipped rfl (g.by_party rfl hcaller) hst)
  | releaseToCarrier _ hcaller hst =>
    obtain rfl := List.mem_singleton.mp hm
    cases ho
    exact .release le_rfl (.ruling rfl hcaller (g.signed _ rfl) hst)
  | refundToCompany _ hcaller hst =>
    obtain rfl := List.mem_singleton.mp hm
    cases ho
    exact .refund (.ruling rfl hcaller (g.signed _ rfl) hst)
  | forceRelease hx hdel hcan =>
    obtain rfl := out_payAll (fun _ _ => rfl) hm ho
    exact .release le_rfl (.passed (g.passed _ hx) hdel hcan)
  | forceRefund hx hdel hcan =>
    obtain rfl := out_payAll (fun _ _ => rfl) hm ho
    exact .refund (.passed (g.passed _ hx) hdel hcan)
  | _ => cases hm

variable {c c' : Chain H}

theorem Reachable.filed (hc : Reachable c) : c.world.offices.Filed := by
  obtain ⟨c₀, ls, hd, hr⟩ := hc
  exact Run.filed hd hr

/-- The grounds of a posting are there when its call returns. -/
theorem PostedBy.grounds (hp : PostedBy env c.world.fresh call p w'.book)
    (hx : (call.exec : Contract H Unit) env c.world.fresh = .ok () w') (hc : Reachable c) :
    Grounds env c.world.fresh call w'.trace p := by
  have hsound : c.world.fresh.ledger.Sound := hc.sound
  have hfiled : c.world.fresh.offices.Filed := hc.filed
  have hsigned : ∀ a, call.caller? = some a → SignedBy w'.trace a :=
    fun a ha => (signs_exec ha).signersOf_eq hx
  obtain ⟨h₀, h₁⟩ := hp.bounds hsound
  refine ⟨hp.stored, h₀, h₁, hsigned, fun action ha => ?_, ?_⟩
  · have hmotion : Motion env c.world.fresh.offices call w'.trace w'.offices :=
      motion_exec hfiled rfl () w' hx
    exact World.passes_of_executing hmotion ha hsigned
  · rintro a id name rfl
    obtain ⟨s, hs, hnew, -⟩ := wp_releaseMilestonePayment (w := c.world.fresh) () w' hx
    exact ⟨s, hs, hnew⟩

/-- In every reachable state, whatever is transferred out of the contract in a call is a
payment on account of a stored shipment, and has its ground. -/
theorem payment_warranted (hc : Reachable c) (hstep : Step c (.committed call env trace) c')
    (ho : o ∈ transfersOut H.currentContractAddress trace) :
    ∃ s, c.world.getShipment s.id = some s ∧ 0 < o.2 ∧ Warranted env c.world call trace s o := by
  cases hstep with
  | @committed _ _ w' ha hx =>
    have hsound : c.world.fresh.ledger.Sound := hc.sound
    rcases (exec_effects hsound.keyed hx).idle_or_posted hsound with ⟨-, hnone, -⟩ | ⟨p, hp⟩
    · have hpays : paymentsOf w'.trace = [] := hnone
      rw [transfersOut_eq, hpays] at ho
      cases ho
    · have g : Grounds env c.world.fresh call w'.trace p := hp.grounds hx hc
      rw [hp.transfersOut_eq ha.self g.old_nonneg] at ho
      obtain ⟨m, hm, hmo⟩ := List.mem_filterMap.mp ho
      have hpos : 0 < o.2 := (hp.rule.moveOf g.old_nonneg hm).out_pos hmo
      exact ⟨p.old, g.stored, hpos, (hp.rule.warranted g hm hmo).of_fresh⟩

/-- A release the council votes for. -/
theorem payment_warranted_by_vote : ∃ (c c' : Chain Deployment.host) (call : Call) (env : Env)
    (trace : List Effect) (o : Address × ℤ), Reachable c ∧ Step c (.committed call env trace) c' ∧
      o ∈ transfersOut Deployment.self trace ∧ o = (Deployment.carrier, 1000) ∧
      ∃ s, c.world.getShipment s.id = some s ∧ 0 < o.2 ∧ Warranted env c.world call trace s o := by
  obtain ⟨ls, c, trace, c', hr, hstep, ho⟩ := exists_commit Deployment.chain
    (Deployment.opening ++ [
      Deployment.signed Deployment.company 5 (.depositEscrow Deployment.company 1 1000),
      Deployment.signed Deployment.admin 6
        (.initMultisig Deployment.admin [Deployment.admin, Deployment.treasury] 2),
      Deployment.signed Deployment.admin 7 (.proposeAction Deployment.admin (.forceRelease 1))])
    (.approveAction Deployment.treasury 1) ⟨8, 8, fun a => a = Deployment.treasury, fun _ => true⟩
    (fun _ trace _ => transfersOut Deployment.self trace = [(Deployment.carrier, 1000)])
    (by decide +kernel)
  have hc : Reachable c := ⟨_, ls, Deployment.deployed, hr⟩
  have hmem : (Deployment.carrier, 1000) ∈ transfersOut Deployment.self trace := by simp [ho]
  exact ⟨c, c', _, _, trace, _, hc, hstep, hmem, rfl, payment_warranted hc hstep hmem⟩

end Navin
