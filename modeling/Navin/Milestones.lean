/-
# Milestones are paid once

A record lists its milestones twice, as completed and as paid. Recording looks at the paid
ones and releasing at the completed ones before it pays, so a milestone is paid once only
while the two lists agree. They do: whatever announces the payment of a milestone enters it
in both lists at once, a release that pays nothing enters it in neither, and nothing takes
a milestone out again.

Key definitions:
- `Shipment.Marked`: what milestone payments do to the lists of a record;
- `Shipment.Listed`: the lists agree, without duplicates, and name scheduled milestones;
- `paidOver`: the milestones of a shipment whose payment a run announces;
- `payoutsOver`: the transfers of a run, each under the milestone it is for.

Key theorems:
- `wp_releaseMilestonePayment`: what a release checks before it pays;
- `Rule.marked`: a posting marks the milestones it announces;
- `Run.announces`: the paid milestones of a record are those announced, in order;
- `Step.payouts`, `Run.payouts_le`: a milestone is paid when it is announced, and once each time;
- `milestones_paid_once`.
-/
import Navin.Settlements
import Navin.Token
import Mathlib.Data.List.Nodup

namespace Navin

open Tx

variable {H : Host} {env : Env} {w w' : World H} {call : Call} {p : Posting} {id : ℕ}

/-! ### What a release checks -/

/-- The place of a milestone in the schedule. -/
def Shipment.indexOf (s : Shipment) (name : Symbol) : ℕ :=
  s.paymentMilestones.findIdx (·.1 = name)

/-- A release is for a milestone that is not completed, and as many are completed as stand
before it in the schedule. -/
theorem wp_releaseMilestonePayment {caller : Address} {name : Symbol} :
    wp (releaseMilestonePayment caller id name) env w fun _ _ => ∃ s, w.getShipment id = some s ∧
      name ∉ s.milestonesCompleted ∧ s.indexOf name ≤ s.milestonesCompleted.length := by
  unfold releaseMilestonePayment loadShipment
  simp only [wp_bind, wp_gets, wp_okOr, wp_rejectIf]
  refine wp_openCall fun _ _ => ?_
  intro s hs
  refine wp_guard fun _ => ?_
  refine wp_guard fun _ => ?_
  intro _
  refine wp_guard fun _ => ?_
  intro _ _ hnew hidx
  refine wp.of_forall fun _ _ => wp.of_forall fun _ _ => wp.of_forall fun _ _ => ⟨s, hs, hnew, ?_⟩
  show s.paymentMilestones.findIdx (·.1 = name) ≤ _
  omega

/-! ### The lists of a record -/

namespace Shipment

/-- Scheduled milestones that were not paid were completed and paid. -/
structure Marked (s t : Shipment) (names : List Symbol) : Prop where
  completed : t.milestonesCompleted = s.milestonesCompleted ++ names
  paid : t.paidMilestones = s.paidMilestones ++ names
  schedule : t.paymentMilestones = s.paymentMilestones
  scheduled : ∀ name ∈ names, name ∈ s.paymentMilestones.map (·.1)
  fresh : ∀ name ∈ names, name ∉ s.paidMilestones
  nodup : names.Nodup

/-- The milestones of a record. -/
structure Listed (s : Shipment) : Prop where
  agree : s.milestonesCompleted = s.paidMilestones
  nodup : s.paidMilestones.Nodup
  scheduled : ∀ name ∈ s.paidMilestones, name ∈ s.paymentMilestones.map (·.1)

variable {s t u : Shipment} {names names' : List Symbol} {name : Symbol} {m : Symbol × ℕ}

theorem Marked.refl (hc : t.milestonesCompleted = s.milestonesCompleted)
    (hp : t.paidMilestones = s.paidMilestones) (hs : t.paymentMilestones = s.paymentMilestones) :
    s.Marked t [] :=
  ⟨by simp [hc], by simp [hp], hs, by simp, by simp, List.nodup_nil⟩

theorem Marked.trans (h : s.Marked t names) (h' : t.Marked u names') :
    s.Marked u (names ++ names') where
  completed := by rw [h'.completed, h.completed, List.append_assoc]
  paid := by rw [h'.paid, h.paid, List.append_assoc]
  schedule := h'.schedule.trans h.schedule
  scheduled name hn := by
    rcases List.mem_append.mp hn with hn | hn
    · exact h.scheduled name hn
    · rw [← h.schedule]
      exact h'.scheduled name hn
  fresh name hn := by
    rcases List.mem_append.mp hn with hn | hn
    · exact h.fresh name hn
    · have := h'.fresh name hn
      rw [h.paid, List.mem_append, not_or] at this
      exact this.1
  nodup := by
    refine h.nodup.append h'.nodup fun name hn hn' => ?_
    have := h'.fresh name hn'
    rw [h.paid, List.mem_append, not_or] at this
    exact this.2 hn

theorem Marked.listed (h : s.Marked t names) (hs : s.Listed) : t.Listed where
  agree := by rw [h.completed, h.paid, hs.agree]
  nodup := by
    rw [h.paid]
    exact hs.nodup.append h.nodup fun name hn hn' => h.fresh name hn' hn
  scheduled name hn := by
    rw [h.paid, List.mem_append] at hn
    rw [h.schedule]
    rcases hn with hn | hn
    · exact hs.scheduled name hn
    · exact h.scheduled name hn

/-- The flag is in none of the lists. -/
theorem Marked.finalizeIfSettled (h : s.Marked t names) : s.Marked t.finalizeIfSettled names :=
  ⟨h.completed, h.paid, h.schedule, h.scheduled, h.fresh, h.nodup⟩

/-- One scheduled milestone that was not paid. -/
theorem marked_payMilestone (hm : s.findMilestone name = some m) (hnew : name ∉ s.paidMilestones)
    (x : ℤ) (now : ℕ) : s.Marked (s.payMilestone name x now) [name] where
  completed := rfl
  paid := if_neg hnew
  schedule := rfl
  scheduled := by simpa using s.mem_schedule hm
  fresh := by simpa using hnew
  nodup := List.nodup_singleton name

end Shipment

/-! ### What is announced -/

/-- The milestone a movement announces the payment of. -/
def Movement.milestone? : Movement → Option Symbol
  | milestone name _ _ => some name
  | _ => none

/-- The milestones that some movements announce. -/
def announced (ms : List Movement) : List Symbol := ms.filterMap (·.milestone?)

/-- The milestones of the shipment that the events of a trace announce. -/
def paidIn (id : ℕ) (trace : List Effect) : List Symbol :=
  trace.filterMap fun
    | .event (.milestonePaymentReleased i name _ _ _) => if i = id then some name else none
    | _ => none

theorem announced_append (ms ns : List Movement) :
    announced (ms ++ ns) = announced ms ++ announced ns := List.filterMap_append

theorem announced_payMoves (s : Shipment) (x : ℤ) : announced (s.payMoves x) = [] := by
  unfold Shipment.payMoves
  split <;> rfl

theorem announced_payAll {f : Address → ℤ → Movement} (hf : ∀ a x, (f a x).milestone? = none)
    (a : Address) (x : ℤ) : announced (payAll f a x) = [] := by
  unfold payAll announced
  split <;> simp [hf]

theorem announced_feeMoves (config : Option FeeConfig) (x : ℤ) :
    announced (feeMoves config x) = [] := by
  unfold feeMoves
  cases config with
  | none => rfl
  | some c =>
    dsimp only
    split <;> rfl

theorem announced_milestoneMoves (s : Shipment) (name : Symbol) (x : ℤ) :
    announced (s.milestoneMoves name x) = [name] := by
  show name :: announced ((s.markPaid name).payMoves x) = [name]
  rw [announced_payMoves]

/-- A posting that announces no milestone and leaves the lists. -/
theorem Shipment.Marked.quiet {s t : Shipment} {ms : List Movement} (hms : announced ms = [])
    (hc : t.milestonesCompleted = s.milestonesCompleted) (hp : t.paidMilestones = s.paidMilestones)
    (hs : t.paymentMilestones = s.paymentMilestones) : s.Marked t (announced ms) := by
  rw [hms]
  exact .refl hc hp hs

/-- A batch marks what it announces. -/
theorem Shipment.marked_payBatch (now : ℕ) (s : Shipment) (names : List Symbol) :
    s.Marked (s.payBatch now names).1 (announced (s.payBatch now names).2) := by
  induction names generalizing s with
  | nil => exact .refl rfl rfl rfl
  | cons name names ih =>
    rw [payBatch]
    split
    · exact ih s
    · rename_i m hm
      split
      · exact ih s
      · rename_i hnew
        show s.Marked _ (announced (_ ++ _))
        rw [announced_append, announced_milestoneMoves]
        exact (marked_payMilestone hm hnew _ now).trans (ih _)

/-- A posting marks the milestones it announces, provided that a release is for one that is
not completed. -/
theorem Rule.marked (hr : Rule env w call p) (hlisted : p.old.Listed)
    (hrelease : ∀ caller name, call = .releaseMilestonePayment caller p.old.id name →
      name ∉ p.old.milestonesCompleted) : p.old.Marked p.new (announced p.moves) := by
  cases hr with
  | @recordMilestone s name _ m x _ _ hm hnew =>
    rw [announced_milestoneMoves]
    exact (Shipment.marked_payMilestone hm hnew x env.timestamp).finalizeIfSettled
  | @recordMilestonesBatch s items =>
    exact (s.marked_payBatch env.timestamp (items.map (·.1))).finalizeIfSettled
  | @releaseMilestonePayment caller s name m x _ _ hm =>
    rw [announced_milestoneMoves]
    have hnew : name ∉ s.paidMilestones := hlisted.agree ▸ hrelease caller name rfl
    exact (Shipment.marked_payMilestone hm hnew x env.timestamp).finalizeIfSettled
  | depositEscrow => exact .quiet (announced_feeMoves _ _) rfl rfl rfl
  | confirmDelivery | confirmPartialDelivery | releaseEscrow =>
    exact .quiet (announced_payMoves _ _) rfl rfl rfl
  | cancelShipment | forceCancelShipment | checkDeadline | forceRelease | forceRefund =>
    exact .quiet (announced_payAll (fun _ _ => rfl) _ _) rfl rfl rfl
  | _ => exact .refl rfl rfl rfl

/-! ### What is transferred -/

/-- The transfers out of the contract among some payments, each under the milestone of the
shipment that was announced last before it. -/
def payoutsUnder (self : Address) (id : ℕ) (name : Option Symbol) :
    List Payment → List (Option Symbol × Address × ℤ)
  | [] => []
  | .moved _ source target amount :: ps =>
    if source = self then (name, target, amount) :: payoutsUnder self id name ps
    else payoutsUnder self id name ps
  | .milestone i name' _ _ :: ps => payoutsUnder self id (if i = id then some name' else none) ps
  | .released .. :: ps => payoutsUnder self id name ps
  | .refunded .. :: ps => payoutsUnder self id name ps
  | .fee .. :: ps => payoutsUnder self id name ps

/-- The transfers out of the contract in a trace, each under the milestone of the shipment
that is announced last before it, if there is one. -/
def payouts (self : Address) (id : ℕ) (trace : List Effect) : List (Option Symbol × Address × ℤ) :=
  payoutsUnder self id none (paymentsOf trace)

/-- The milestones of the shipment that a call records or releases. -/
def Call.milestones (id : ℕ) : Call → List Symbol
  | .recordMilestone _ i name _ => if i = id then [name] else []
  | .recordMilestonesBatch _ i items => if i = id then items.map (·.1) else []
  | .releaseMilestonePayment _ i name => if i = id then [name] else []
  | _ => []

/-- The milestone under which the transfers after a movement stand. -/
def Movement.heading (i id : ℕ) (name : Option Symbol) : Movement → Option Symbol
  | milestone name' _ _ => if i = id then some name' else none
  | _ => name

section Payouts

variable {self t : Address} {i : ℕ} {s : Shipment} {name : Option Symbol} {m : Movement}
  {ms : List Movement} {ps : List Payment} {o : Option Symbol × Address × ℤ}

/-- A movement makes its transfer under the milestone before it. -/
theorem MoveOf.payoutsUnder_pays (hm : MoveOf env s m) (hself : env.auth self = false) :
    payoutsUnder self id name (m.pays self t i ++ ps) =
      (m.out?.toList.map fun o => (name, o)) ++ payoutsUnder self id (m.heading i id name) ps := by
  cases hm with
  | @deposit source x _ ha =>
    have hne : source ≠ self := fun he => by rw [he, hself] at ha; cases ha
    simp [Movement.pays, Movement.out?, Movement.heading, payoutsUnder, hne]
  | _ => simp [Movement.pays, Notice.payment, Movement.out?, Movement.heading, payoutsUnder]

/-- Without an announcement the transfers stand under the milestone before. -/
theorem payoutsUnder_of_quiet (hms : ∀ m ∈ ms, MoveOf env s m) (hself : env.auth self = false)
    (hq : ∀ m ∈ ms, m.heading i id name = name)
    (ho : o ∈ payoutsUnder self id name (ms.flatMap (·.pays self t i))) : o.1 = name := by
  induction ms with
  | nil => cases ho
  | cons m ms ih =>
    rw [List.flatMap_cons, (hms m (by simp)).payoutsUnder_pays hself, hq m (by simp)] at ho
    rcases List.mem_append.mp ho with ho | ho
    · obtain ⟨_, -, rfl⟩ := List.mem_map.mp ho
      rfl
    · exact ih (fun n hn => hms n (by simp [hn])) (fun n hn => hq n (by simp [hn])) ho

/-- A payment of a milestone is one transfer, or none. -/
theorem payoutsUnder_milestoneMoves (hself : env.auth self = false) (n : Symbol) (x : ℤ) :
    payoutsUnder self id name ((s.milestoneMoves n x).flatMap (·.pays self t id) ++ ps) =
      (if 0 < (s.markPaid n).payable x then [(some n, s.carrier, (s.markPaid n).payable x)] else []) ++
        payoutsUnder self id (some n) ps := by
  have hm : MoveOf env s (.milestone n x s.carrier) := .milestone
  unfold Shipment.milestoneMoves Shipment.payMoves
  rw [List.flatMap_cons, List.append_assoc, hm.payoutsUnder_pays hself]
  show payoutsUnder self id (if id = id then some n else none) _ = _
  rw [if_pos rfl]
  split <;> simp [Movement.pays, Notice.payment, payoutsUnder]

/-- The one transfer for a milestone stands under it. -/
theorem heading_of_mem {n : Symbol} {c : Prop} [Decidable c] {a : Address} {x : ℤ}
    (ho : o ∈ if c then [(some n, a, x)] else []) : o.1 = some n := by
  split at ho
  · rw [List.mem_singleton.mp ho]
  · cases ho

theorem countP_heading_le (n k : Symbol) {c : Prop} [Decidable c] (a : Address) (x : ℤ) :
    (if c then [(some n, a, x)] else []).countP (·.1 = some k) ≤ [n].count k := by
  split
  · simp [List.countP_cons, List.count_cons]
  · exact Nat.zero_le _

/-- A batch transfers for each milestone it announces once, or not at all. -/
theorem payoutsUnder_payBatch (hself : env.auth self = false) (now : ℕ) (names : List Symbol) :
    (∀ o ∈ payoutsUnder self id name ((s.payBatch now names).2.flatMap (·.pays self t id)),
      ∃ n ∈ names, o.1 = some n) ∧
    ∀ n, (payoutsUnder self id name ((s.payBatch now names).2.flatMap (·.pays self t id))).countP
      (·.1 = some n) ≤ (announced (s.payBatch now names).2).count n := by
  induction names generalizing s name with
  | nil => exact ⟨fun _ ho => (List.not_mem_nil ho).elim, fun _ => le_rfl⟩
  | cons n names ih =>
    have hpass := @ih s name
    have hskip : (∀ o ∈ payoutsUnder self id name ((s.payBatch now names).2.flatMap (·.pays self t id)),
        ∃ k ∈ n :: names, o.1 = some k) := fun o ho => by
      obtain ⟨k, hk, he⟩ := hpass.1 o ho
      exact ⟨k, List.mem_cons_of_mem n hk, he⟩
    rw [Shipment.payBatch]
    split
    · exact ⟨hskip, hpass.2⟩
    · rename_i m hm
      split
      · exact ⟨hskip, hpass.2⟩
      · dsimp only
        rw [List.flatMap_append, payoutsUnder_milestoneMoves hself, announced_append,
          announced_milestoneMoves]
        obtain ⟨hname, hcount⟩ := @ih (s.payMilestone n (s.share m.2) now) (some n)
        constructor
        · intro o ho
          rcases List.mem_append.mp ho with ho | ho
          · exact ⟨n, List.mem_cons_self, heading_of_mem ho⟩
          · obtain ⟨k, hk, he⟩ := hname o ho
            exact ⟨k, List.mem_cons_of_mem n hk, he⟩
        · intro k
          rw [List.countP_append, List.count_append]
          exact Nat.add_le_add (countP_heading_le n k _ _) (hcount k)

/-- The movements that announce milestones are those of the calls that name them. -/
theorem Rule.moves_cases (hr : Rule env w call p) :
    (call.milestones p.old.id = [] ∧ announced p.moves = []) ∨ p.moves = [] ∨
      (∃ n x, call.milestones p.old.id = [n] ∧ p.moves = p.old.milestoneMoves n x) ∨
      ∃ names now, call.milestones p.old.id = names ∧ p.moves = (p.old.payBatch now names).2 := by
  cases hr with
  | recordMilestone => exact .inr (.inr (.inl ⟨_, _, if_pos rfl, rfl⟩))
  | recordMilestonesBatch => exact .inr (.inr (.inr ⟨_, _, if_pos rfl, rfl⟩))
  | releaseMilestonePayment => exact .inr (.inr (.inl ⟨_, _, if_pos rfl, rfl⟩))
  | depositEscrow => exact .inl ⟨rfl, announced_feeMoves _ _⟩
  | confirmDelivery | confirmPartialDelivery | releaseEscrow =>
    exact .inl ⟨rfl, announced_payMoves _ _⟩
  | cancelShipment | forceCancelShipment | checkDeadline =>
    exact .inl ⟨rfl, announced_payAll (fun _ _ => rfl) _ _⟩
  | forceRelease hx | forceRefund hx =>
    refine .inl ⟨?_, announced_payAll (fun _ _ => rfl) _ _⟩
    cases call <;> first | rfl | cases hx
  | refundEscrow | releaseToCarrier | refundToCompany => exact .inl ⟨rfl, rfl⟩
  | _ => exact .inr (.inl rfl)

theorem target?_of_milestones (h : call.milestones id ≠ []) : call.target? = some id := by
  cases call with
  | recordMilestone _ i | recordMilestonesBatch _ i | releaseMilestonePayment _ i =>
    by_cases hi : i = id
    · exact congrArg some hi
    · exact absurd (if_neg hi) h
  | _ => exact absurd rfl h

theorem heading_of_announced (h : announced ms = []) (hm : m ∈ ms) : m.heading i id name = name := by
  have hnone : m.milestone? = none := List.filterMap_eq_nil_iff.mp h m hm
  cases m <;> first | rfl | cases hnone

/-- Which transfers the movements of a posting are. -/
theorem Rule.payouts_named (hr : Rule env w call p) (h₀ : 0 ≤ p.old.escrowAmount)
    (hself : env.auth self = false) :
    (call.milestones id ≠ [] → ∀ o ∈ payoutsUnder self id none (p.pays self t),
      ∃ n ∈ call.milestones id, o.1 = some n) ∧
    ∀ n, (payoutsUnder self id none (p.pays self t)).countP (·.1 = some n) ≤
      if p.old.id = id then (announced p.moves).count n else 0 := by
  have hms : ∀ m ∈ p.moves, MoveOf env p.old m := fun m hm => hr.moveOf h₀ hm
  have hquiet : (∀ m ∈ p.moves, m.heading p.old.id id none = none) →
      ∀ n, (payoutsUnder self id none (p.pays self t)).countP (·.1 = some n) = 0 := fun hq n => by
    refine List.countP_eq_zero.mpr fun o ho => ?_
    rw [payoutsUnder_of_quiet hms hself hq ho]
    simp
  by_cases hid : p.old.id = id
  · subst hid
    simp only [if_true]
    unfold Posting.pays at hquiet ⊢
    obtain ⟨hnone, hann⟩ | hmoves | ⟨n, x, hn, hmoves⟩ | ⟨names, now, hnames, hmoves⟩ := hr.moves_cases
    · refine ⟨fun h => absurd hnone h, fun n => ?_⟩
      rw [hquiet fun m hm => heading_of_announced hann hm]
      exact Nat.zero_le _
    · rw [hmoves]
      exact ⟨fun _ _ ho => (List.not_mem_nil ho).elim, fun _ => le_rfl⟩
    · have hpays : payoutsUnder self p.old.id none
          ((p.old.milestoneMoves n x).flatMap (·.pays self t p.old.id) ++ []) = _ :=
        payoutsUnder_milestoneMoves hself n x
      rw [List.append_nil, payoutsUnder, List.append_nil] at hpays
      rw [hmoves, hpays, hn, announced_milestoneMoves]
      exact ⟨fun _ o ho => ⟨n, List.mem_singleton_self n, heading_of_mem ho⟩,
        fun k => countP_heading_le n k _ _⟩
    · rw [hmoves, hnames]
      exact ⟨fun _ => (payoutsUnder_payBatch hself now names).1,
        (payoutsUnder_payBatch hself now names).2⟩
  · constructor
    · exact fun h => absurd (hr.concerns.eq_of_target (target?_of_milestones h)) hid
    · intro n
      rw [if_neg hid]
      refine (hquiet (fun m _ => ?_) n).le
      cases m <;> first | rfl | exact if_neg hid

end Payouts

/-! ### A step -/

/-- The milestone of a payment on account of a shipment. -/
def Payment.milestone? (id : ℕ) : Payment → Option Symbol
  | milestone i name _ _ => if i = id then some name else none
  | _ => none

theorem paidIn_eq (trace : List Effect) :
    paidIn id trace = (paymentsOf trace).filterMap (·.milestone? id) := by
  unfold paidIn paymentsOf
  rw [List.filterMap_filterMap]
  refine List.filterMap_congr fun e _ => ?_
  cases e with
  | auth => rfl
  | transfer => rfl
  | event ev => cases ev <;> rfl

/-- A posting on one shipment announces nothing for another. -/
theorem milestone?_pays (self t : Address) (i : ℕ) (ms : List Movement) :
    (ms.flatMap (·.pays self t i)).filterMap (·.milestone? id) =
      if i = id then announced ms else [] := by
  induction ms with
  | nil => simp [announced]
  | cons m ms ih =>
    rw [List.flatMap_cons, List.filterMap_append, ih]
    cases m with
    | settled n => cases n <;> rfl
    | bare n => cases n <;> rfl
    | announced => rfl
    | milestone name =>
      show [Payment.milestone i name _ _].filterMap (·.milestone? id) ++ _ = _
      by_cases hi : i = id
      · simp [Payment.milestone?, Movement.milestone?, announced, hi]
      · simp [Payment.milestone?, hi]
    | deposit => rfl
    | fee => rfl

theorem PostedBy.paidIn_eq (hp : PostedBy env w.fresh call p w'.book) :
    paidIn id w'.trace = if p.old.id = id then announced p.moves else [] := by
  obtain ⟨t, token, -, -, hb⟩ := hp.posted
  have hpays : paymentsOf w'.trace = p.pays H.currentContractAddress t := congrArg Book.pays hb
  rw [Navin.paidIn_eq, hpays]
  exact milestone?_pays _ _ _ _

/-- The milestones of the shipment whose payment a run announces, in order. -/
def paidOver (id : ℕ) (ls : List Label) : List Symbol := ls.flatMap fun l => paidIn id l.trace

/-- A call without a posting pays nothing and leaves the records; what is new is a new
shipment. -/
theorem Effects.kept_or_posted {b : Book H.Token} (he : Effects env w call b) (h : w.ledger.Sound) :
    (b.pays = w.book.pays ∧ ∀ id, b.ledger.getShipment id = w.ledger.getShipment id ∨
      w.ledger.getShipment id = none ∧ ∃ sender input, b.ledger.getShipment id =
        some (Shipment.new id sender input env.timestamp)) ∨ ∃ p, PostedBy env w call p b := by
  cases he with
  | quiet => exact .inl ⟨rfl, fun _ => .inl rfl⟩
  | initialized => exact .inl ⟨rfl, fun _ => .inl rfl⟩
  | handedOver => exact .inl ⟨rfl, fun _ => .inl rfl⟩
  | @enrolled sender l _ _ hadm he =>
    refine .inl ⟨rfl, fun id => ?_⟩
    cases hg : w.ledger.getShipment id with
    | some s => exact .inl (Ledger.getShipment_enrolled h hadm he hg)
    | none =>
      show l.getShipment id = none ∨ _
      cases hg' : l.getShipment id with
      | none => exact .inl rfl
      | some s =>
        refine .inr ⟨rfl, ?_⟩
        induction he with
        | nil =>
          rw [hg] at hg'
          cases hg'
        | @snoc l' input _ _ _ ih =>
          rw [Ledger.getShipment_enrol] at hg'
          split at hg'
          · rename_i hid
            obtain rfl : id = l'.shipmentCount + 1 := hid
            exact ⟨sender, input, hg'.symm⟩
          · exact ih hg'
  | archived _ hs _ =>
    refine .inl ⟨rfl, fun id => .inl ?_⟩
    rw [Book.map_ledger, book_ledger, Ledger.getShipment_putAway _ hs]
  | posted hg hv hr hp => exact .inr ⟨_, hg, hv, hr, hp⟩

/-- The lists of the records, and what was announced. -/
structure World.Announces (w : World H) (paid : ℕ → List Symbol) : Prop where
  listed : ∀ id s, w.getShipment id = some s → s.Listed
  paid_eq : ∀ id s, w.getShipment id = some s → paid id = s.paidMilestones
  unpaid : ∀ id, w.getShipment id = none → paid id = []

variable {c c' c₀ : Chain H} {l : Label} {ls : List Label} {s : Shipment}

/-- A release goes through for a milestone that is not completed. -/
theorem Step.release_new {trace : List Effect} {caller : Address} {name : Symbol}
    (hstep : Step c (.committed (.releaseMilestonePayment caller id name) env trace) c')
    (hs : c.world.getShipment id = some s) :
    name ∉ s.milestonesCompleted ∧ s.indexOf name ≤ s.milestonesCompleted.length := by
  cases hstep with
  | @committed _ _ w' _ hx =>
    obtain ⟨t, ht, h⟩ := wp_releaseMilestonePayment () w' hx
    obtain rfl : s = t := Option.some.inj (hs.symm.trans ht)
    exact h

namespace World.Announces

variable {paid : ℕ → List Symbol}

/-- Records that stay, and new ones, when nothing is announced. -/
theorem kept (h : w.Announces paid) (hw : ∀ id, w'.getShipment id = w.getShipment id ∨
      w.getShipment id = none ∧ ∃ sender input now, w'.getShipment id =
        some (Shipment.new id sender input now)) : w'.Announces paid where
  listed id s hs := by
    rcases hw id with heq | ⟨-, sender, input, now, hnew⟩
    · exact h.listed id s (heq ▸ hs)
    · obtain rfl := Option.some.inj (hnew.symm.trans hs)
      exact ⟨rfl, List.nodup_nil, by simp [Shipment.new]⟩
  paid_eq id s hs := by
    rcases hw id with heq | ⟨hnone, sender, input, now, hnew⟩
    · exact h.paid_eq id s (heq ▸ hs)
    · obtain rfl := Option.some.inj (hnew.symm.trans hs)
      exact h.unpaid id hnone
  unpaid id hs := by
    rcases hw id with heq | ⟨hnone, -⟩
    · exact h.unpaid id (heq ▸ hs)
    · exact h.unpaid id hnone

/-- A record that is marked as announced. -/
theorem posted {s t : Shipment} {names : List Symbol} (h : w.Announces paid)
    (hs : w.getShipment id = some s) (hm : s.Marked t names)
    (hw : ∀ i, w'.getShipment i = if i = id then some t else w.getShipment i) :
    w'.Announces fun i => paid i ++ if id = i then names else [] where
  listed i u hu := by
    rw [hw] at hu
    split at hu
    · obtain rfl := Option.some.inj hu
      exact hm.listed (h.listed id s hs)
    · exact h.listed i u hu
  paid_eq i u hu := by
    rw [hw] at hu
    by_cases hi : i = id
    · subst hi
      rw [if_pos rfl] at hu ⊢
      obtain rfl := Option.some.inj hu
      rw [h.paid_eq i s hs, hm.paid]
    · rw [if_neg hi] at hu
      rw [if_neg (Ne.symm hi), List.append_nil]
      exact h.paid_eq i u hu
  unpaid i hi := by
    rw [hw] at hi
    split at hi
    · cases hi
    · rename_i hne
      rw [if_neg (Ne.symm hne), List.append_nil]
      exact h.unpaid i hi

end World.Announces

/-- A step marks what it announces. -/
theorem Step.announces {paid : ℕ → List Symbol} (hstep : Step c l c')
    (hs : c.world.ledger.Sound) (h : c.world.Announces paid) :
    c'.world.Announces fun id => paid id ++ paidIn id l.trace := by
  have hrelease : ∀ caller id name env trace s, c.world.getShipment id = some s →
      l = .committed (.releaseMilestonePayment caller id name) env trace →
      name ∉ s.milestonesCompleted := by
    rintro caller id name env trace s hs rfl
    exact (hstep.release_new hs).1
  cases hstep with
  | @committed call env w' ha hx =>
    have hs : c.world.fresh.ledger.Sound := hs
    have h : c.world.fresh.Announces paid := ⟨h.listed, h.paid_eq, h.unpaid⟩
    rcases (exec_effects hs.keyed hx).kept_or_posted hs with ⟨hpays, hrec⟩ | ⟨p, hp⟩
    · have hnone : ∀ id, paid id ++ paidIn id w'.trace = paid id := fun id => by
        rw [paidIn_eq, show paymentsOf w'.trace = [] from hpays, List.filterMap_nil, List.append_nil]
      show w'.fresh.Announces fun id => paid id ++ paidIn id w'.trace
      simp only [hnone]
      apply h.kept
      intro id
      rcases hrec id with heq | ⟨hn, sender, input, hnew⟩
      · exact .inl heq
      · exact .inr ⟨hn, sender, input, env.timestamp, hnew⟩
    · show w'.fresh.Announces fun id => paid id ++ paidIn id w'.trace
      simp only [hp.paidIn_eq]
      refine h.posted hp.stored (hp.rule.marked (h.listed _ _ hp.stored) ?_) hp.getShipment
      rintro caller name rfl
      exact hrelease caller _ name env _ _ hp.stored rfl
  | reverted =>
    simp only [Label.trace, paidIn, List.filterMap_nil, List.append_nil]
    exact h
  | outside =>
    simp only [Label.trace, paidIn, List.filterMap_nil, List.append_nil]
    exact h.kept fun _ => .inl rfl

/-- A call that names milestones of the shipment transfers for these only, and whatever a step
transfers for a milestone it announces. -/
theorem Step.payouts {trace : List Effect} (hstep : Step c (.committed call env trace) c')
    (hs : c.world.ledger.Sound) :
    (call.milestones id ≠ [] → ∀ o ∈ payouts H.currentContractAddress id trace,
      ∃ n ∈ call.milestones id, o.1 = some n) ∧
    ∀ n, (payouts H.currentContractAddress id trace).countP (·.1 = some n) ≤ (paidIn id trace).count n := by
  cases hstep with
  | @committed _ _ w' ha hx =>
    have hs : c.world.fresh.ledger.Sound := hs
    unfold Navin.payouts
    rcases (exec_effects hs.keyed hx).kept_or_posted hs with ⟨hpays, -⟩ | ⟨p, hp⟩
    · rw [show paymentsOf w'.trace = [] from hpays]
      exact ⟨fun _ _ ho => (List.not_mem_nil ho).elim, fun _ => Nat.zero_le _⟩
    · obtain ⟨t, token, -, -, hb⟩ := hp.posted
      have hpays : paymentsOf w'.trace = p.pays H.currentContractAddress t := congrArg Book.pays hb
      rw [hpays, hp.paidIn_eq]
      obtain ⟨hnamed, hcount⟩ := hp.rule.payouts_named (hp.bounds hs).1 ha.self
      refine ⟨hnamed, fun n => (hcount n).trans ?_⟩
      split
      · exact le_rfl
      · exact Nat.zero_le _

/-! ### A run -/

/-- The transfers out of the contract over a run, each under the milestone of the shipment that
is announced last before it in the same call. -/
def payoutsOver (self : Address) (id : ℕ) (ls : List Label) : List (Option Symbol × Address × ℤ) :=
  ls.flatMap fun l => payouts self id l.trace

/-- No milestone is paid more often than it is announced. -/
theorem Run.payouts_le (hd : Deployed c₀) (hr : Run Step c₀ ls c) (name : Symbol) :
    (payoutsOver H.currentContractAddress id ls).countP (·.1 = some name) ≤
      (paidOver id ls).count name := by
  refine (hr.inv_hist (I := fun ls c => c.world.ledger.Sound ∧
    (payoutsOver H.currentContractAddress id ls).countP (·.1 = some name) ≤
      (paidOver id ls).count name) ⟨Deployed.sound hd, le_rfl⟩ ?_).2
  rintro ks a l b - ⟨hs, hle⟩ hstep
  refine ⟨hstep.sound hs, ?_⟩
  have hone : (payouts H.currentContractAddress id l.trace).countP (·.1 = some name) ≤
      (paidIn id l.trace).count name := by
    cases l with
    | committed call env trace => exact (hstep.payouts hs).2 name
    | reverted => exact le_rfl
    | outside => exact le_rfl
  simp only [payoutsOver, paidOver, List.flatMap_append, List.flatMap_cons, List.flatMap_nil,
    List.append_nil, List.countP_append, List.count_append] at hle ⊢
  exact Nat.add_le_add hle hone

/-- The records of a run list what the run announced. -/
theorem Run.announces (hd : Deployed c₀) (hr : Run Step c₀ ls c) :
    c.world.Announces fun id => paidOver id ls := by
  refine hr.inv_hist (I := fun ls c => c.world.Announces fun id => paidOver id ls) ?_ ?_
  · cases hd
    exact ⟨(fun _ _ h => by cases h), (fun _ _ h => by cases h), fun _ _ => rfl⟩
  · intro ks a l b hrun h hstep
    have hb := hstep.announces (hrun.sound hd) h
    simpa [paidOver] using hb

theorem paidOver_append (ks ls : List Label) :
    paidOver id (ks ++ ls) = paidOver id ks ++ paidOver id ls := List.flatMap_append

/-- In every run each milestone of a shipment is paid at most once: its two lists are free
of duplicates, hold the same milestones, all of them scheduled, and lose none of them
later; a call that records or releases milestones makes every transfer for one that it
names; and for one milestone there is one transfer out of the contract in the whole run at
the most, and one announcement. -/
theorem milestones_paid_once (hd : Deployed c₀) (hr : Run Step c₀ ls c)
    (hs : c.world.getShipment id = some s) :
    s.paidMilestones.Nodup ∧ s.milestonesCompleted.Nodup ∧
    (∀ name, name ∈ s.paidMilestones ↔ name ∈ s.milestonesCompleted) ∧
    (∀ name ∈ s.paidMilestones, name ∈ s.paymentMilestones.map (·.1)) ∧
    (∀ ks c' s', Run Step c ks c' → c'.world.getShipment id = some s' →
      s.paidMilestones ⊆ s'.paidMilestones ∧ s.milestonesCompleted ⊆ s'.milestonesCompleted) ∧
    (∀ call env trace, .committed call env trace ∈ ls → call.milestones id ≠ [] →
      ∀ o ∈ payouts H.currentContractAddress id trace, ∃ name ∈ call.milestones id, o.1 = some name) ∧
    ∀ name, (payoutsOver H.currentContractAddress id ls).countP (·.1 = some name) ≤ 1 ∧
      (paidOver id ls).count name ≤ 1 := by
  have h := Run.announces hd hr
  have hlisted := h.listed id s hs
  have hpaid := h.paid_eq id s hs
  refine ⟨hlisted.nodup, ?_, ?_, hlisted.scheduled, ?_, ?_, ?_⟩
  · rw [hlisted.agree]
    exact hlisted.nodup
  · rw [hlisted.agree]
    exact fun _ => Iff.rfl
  · intro ks c' s' hks hs'
    have h' := Run.announces hd (hr.append hks)
    have hpaid' : paidOver id ls ++ paidOver id ks = s'.paidMilestones := by
      rw [← paidOver_append]
      exact h'.paid_eq id s' hs'
    have hsub : s.paidMilestones ⊆ s'.paidMilestones := by
      rw [← hpaid', ← hpaid]
      exact List.subset_append_left _ _
    refine ⟨hsub, ?_⟩
    rw [hlisted.agree, (h'.listed id s' hs').agree]
    exact hsub
  · intro call env trace hl
    obtain ⟨ks, -, a, b, -, hra, hstep, -⟩ := hr.at_step hl
    exact (hstep.payouts (hra.sound hd)).1
  · intro name
    have hone : (paidOver id ls).count name ≤ 1 := by
      rw [hpaid]
      exact List.nodup_iff_count_le_one.mp hlisted.nodup name
    exact ⟨(hr.payouts_le hd name).trans hone, hone⟩

/-- One milestone is recorded, then both in a batch: two payments. -/
theorem milestones_paid_once_batch : ∃ (ls : List Label) (c : Chain Deployment.host) (s : Shipment),
    Run Step Deployment.chain ls c ∧ c.world.getShipment 1 = some s ∧
      payoutsOver Deployment.self 1 ls = [(some Deployment.pickup, Deployment.carrier, 400),
        (some Deployment.port, Deployment.carrier, 600)] ∧ s.paidMilestones.Nodup ∧
      ∀ name, (payoutsOver Deployment.self 1 ls).countP (·.1 = some name) ≤ 1 := by
  obtain ⟨ls, c, hr, -, hs, hpaid⟩ := exists_play Deployment.chain
    (Deployment.opening ++ [
      Deployment.signed Deployment.company 5 (.depositEscrow Deployment.company 1 1000),
      Deployment.signed Deployment.carrier 6 (.updateStatus Deployment.carrier 1 .inTransit 2),
      Deployment.signed Deployment.carrier 7
        (.recordMilestone Deployment.carrier 1 Deployment.pickup 3),
      Deployment.signed Deployment.carrier 8 (.recordMilestonesBatch Deployment.carrier 1
        [(Deployment.pickup, 4), (Deployment.port, 5)])])
    (fun r => (r.2.world.getShipment 1).isSome = true ∧
      payoutsOver Deployment.self 1 r.1 = [(some Deployment.pickup, Deployment.carrier, 400),
        (some Deployment.port, Deployment.carrier, 600)])
    (by decide +kernel)
  obtain ⟨s, hs⟩ := Option.isSome_iff_exists.mp hs
  obtain ⟨hnodup, -, -, -, -, -, honce⟩ := milestones_paid_once Deployment.deployed hr hs
  exact ⟨ls, c, s, hr, hs, hpaid, hnodup, fun name => (honce name).1⟩

end Navin
