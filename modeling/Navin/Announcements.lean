/-
# What the payment events tell

The `escrow_released` and `escrow_refunded` events of a call against its
transfers, and each `milestone_payment_released` event against what was
transferred after it. They agree except in three places: a cancellation announces
a payment it does not make, the platform fee may go to somebody who is a party to
a shipment, and a milestone is announced with the amount asked for, of which only
what is left in escrow is paid.

Key definitions:
- `noticesOf`, `milestonesOf`: the events of a trace;
- `Truthful`: the events tell what was transferred;
- `Faithful`: the condition on the call and the state before it.

Key theorems:
- `Rule.truthfulMoves_iff`, `truthful_iff`.
-/
import Navin.Solvency
import Navin.Stranding
import Mathlib.Algebra.Order.BigOperators.Group.Finset

namespace Navin

variable {H : Host}

/-! ### Events and transfers of a trace -/

/-- The recipients and amounts of the release and refund events. -/
def noticesOf (trace : List Effect) : List (Address × ℤ) :=
  trace.filterMap fun
    | .event (.escrowReleased _ recipient _ amount _) => some (recipient, amount)
    | .event (.escrowRefunded _ recipient _ amount _) => some (recipient, amount)
    | _ => none

/-- Reading a trace from its end: what was transferred since, and the milestone
events met so far. -/
def collect (self : Address) : Effect → ℤ × List (ℤ × ℤ) → ℤ × List (ℤ × ℤ)
  | .transfer _ source _ amount, acc => (if source = self then acc.1 + amount else acc.1, acc.2)
  | .event (.milestonePaymentReleased _ _ amount _ _), acc => (0, (amount, acc.1) :: acc.2)
  | _, acc => acc

/-- Each milestone event of a trace: the amount it carries, and what the contract
transferred after it and before the next one. -/
def milestonesOf (self : Address) (trace : List Effect) : List (ℤ × ℤ) :=
  (trace.foldr (collect self) (0, [])).2

/-- The carriers and senders of all shipments. -/
def World.parties (w : World H) : List Address :=
  (List.range' 1 w.ledger.shipmentCount).flatMap fun id =>
    (w.getShipment id).elim [] fun s => [s.carrier, s.sender]

/-- The events of a call tell what it transferred to carriers and senders, and the
milestone events what was transferred for each milestone. -/
structure Truthful (w : World H) (trace : List Effect) : Prop where
  notices : (noticesOf trace).Perm
    ((transfersOut H.currentContractAddress trace).filter fun o => o.1 ∈ w.parties)
  milestones : ∀ q ∈ milestonesOf H.currentContractAddress trace, q.1 = q.2

/-! ### The same of movements -/

namespace Payment

def notice? : Payment → Option (Address × ℤ)
  | released _ recipient amount => some (recipient, amount)
  | refunded _ recipient amount => some (recipient, amount)
  | _ => none

def collect (self : Address) : Payment → ℤ × List (ℤ × ℤ) → ℤ × List (ℤ × ℤ)
  | moved _ source _ amount, acc => (if source = self then acc.1 + amount else acc.1, acc.2)
  | milestone _ _ amount _, acc => (0, (amount, acc.1) :: acc.2)
  | _, acc => acc

end Payment

namespace Movement

/-- The event a movement leaves. -/
def notice? : Movement → Option (Address × ℤ)
  | settled _ recipient amount => some (recipient, amount)
  | bare _ recipient amount => some (recipient, amount)
  | announced recipient amount => some (recipient, amount)
  | _ => none

def collect (m : Movement) (acc : ℤ × List (ℤ × ℤ)) : ℤ × List (ℤ × ℤ) :=
  match m with
  | milestone _ amount _ => (0, (amount, acc.1) :: acc.2)
  | m => (acc.1 + m.outflow, acc.2)

/-- The event and the transfer of a movement agree. -/
def Told (parties : List Address) : Movement → Prop
  | settled _ recipient _ => recipient ∈ parties
  | bare _ recipient _ => recipient ∈ parties
  | announced .. => False
  | fee treasury _ => treasury ∉ parties
  | milestone .. => True
  | deposit .. => True

end Movement

theorem noticesOf_eq (trace : List Effect) :
    noticesOf trace = (paymentsOf trace).filterMap (·.notice?) := by
  unfold noticesOf paymentsOf
  rw [List.filterMap_filterMap]
  refine List.filterMap_congr fun e _ => ?_
  cases e with
  | auth => rfl
  | transfer => rfl
  | event ev => cases ev <;> rfl

theorem milestonesOf_eq (self : Address) (trace : List Effect) : milestonesOf self trace =
    ((paymentsOf trace).foldr (Payment.collect self) (0, [])).2 := by
  have key : trace.foldr (collect self) (0, []) =
      (paymentsOf trace).foldr (Payment.collect self) (0, []) := by
    unfold paymentsOf
    induction trace with
    | nil => rfl
    | cons e trace ih =>
      rw [List.foldr_cons, ih, List.filterMap_cons]
      cases e with
      | auth => rfl
      | transfer => rfl
      | event ev => cases ev <;> rfl
  rw [milestonesOf, key]

section Moves

variable {env : Env} {s : Shipment} {self : Address} {ms : List Movement}

/-- The events of a posting are those of its movements. -/
theorem notice?_pays (ms : List Movement) (self t : Address) (id : ℕ) :
    (ms.flatMap (·.pays self t id)).filterMap (·.notice?) = ms.filterMap (·.notice?) := by
  induction ms with
  | nil => rfl
  | cons m ms ih =>
    rw [List.flatMap_cons, List.filterMap_append, ih, List.filterMap_cons]
    cases m with
    | settled n => cases n <;> rfl
    | bare n => cases n <;> rfl
    | announced => rfl
    | milestone => rfl
    | deposit => rfl
    | fee => rfl

/-- The milestones of a posting are those of its movements. -/
theorem collect_pays (hms : ∀ m ∈ ms, MoveOf env s m) (hself : env.auth self = false) (t : Address)
    (id : ℕ) : (ms.flatMap (·.pays self t id)).foldr (Payment.collect self) (0, []) =
      ms.foldr (·.collect) (0, []) := by
  induction ms with
  | nil => rfl
  | cons m ms ih =>
    rw [List.flatMap_cons, List.foldr_append, ih fun n hn => hms n (by simp [hn]), List.foldr_cons]
    cases hms m (by simp) with
    | @deposit source _ _ ha =>
      have hne : source ≠ self := fun he => by rw [he, hself] at ha; cases ha
      simp [Movement.pays, Payment.collect, Movement.collect, hne]
    | _ => simp [Movement.pays, Notice.payment, Payment.collect, Movement.collect]

theorem Movement.Told.notice? {parties : List Address} {m : Movement} (h : m.Told parties) :
    m.notice? = m.out?.filter fun o => o.1 ∈ parties := by
  cases m with
  | settled n a x =>
    have h : a ∈ parties := h
    simp [Movement.notice?, Movement.out?, Option.filter, h]
  | bare n a x =>
    have h : a ∈ parties := h
    simp [Movement.notice?, Movement.out?, Option.filter, h]
  | announced => cases h
  | milestone => rfl
  | deposit => rfl
  | fee a x =>
    have h : a ∉ parties := h
    simp [Movement.notice?, Movement.out?, Option.filter, h]

/-- Movements whose events and transfers agree. -/
theorem notices_of_told {parties : List Address} (h : ∀ m ∈ ms, m.Told parties) :
    ms.filterMap (·.notice?) = (ms.filterMap (·.out?)).filter fun o => o.1 ∈ parties := by
  rw [List.filter_filterMap]
  exact List.filterMap_congr fun m hm => (h m hm).notice?

end Moves

/-- The two parts of `Truthful`, of a list of movements. -/
structure TruthfulMoves (parties : List Address) (ms : List Movement) : Prop where
  notices : (ms.filterMap (·.notice?)).Perm ((ms.filterMap (·.out?)).filter fun o => o.1 ∈ parties)
  milestones : ∀ q ∈ (ms.foldr (·.collect) (0, [])).2, q.1 = q.2

variable {env : Env} {w w' : World H} {call : Call} {p : Posting}

theorem PostedBy.truthful (hp : PostedBy env w.fresh call p w'.book) (hs : w.fresh.ledger.Sound)
    (hself : env.auth H.currentContractAddress = false) :
    Truthful w w'.trace ↔ TruthfulMoves w.parties p.moves := by
  obtain ⟨h₀, -⟩ := hp.bounds hs
  obtain ⟨t, token, -, -, hb⟩ := hp.posted
  have hpays : paymentsOf w'.trace = p.pays H.currentContractAddress t := congrArg Book.pays hb
  have hms : ∀ m ∈ p.moves, MoveOf env p.old m := fun m hm => hp.rule.moveOf h₀ hm
  have h₁ : noticesOf w'.trace = p.moves.filterMap (·.notice?) := by
    rw [noticesOf_eq, hpays]
    exact notice?_pays ..
  have h₂ := hp.transfersOut_eq hself h₀
  have h₃ : milestonesOf H.currentContractAddress w'.trace =
      (p.moves.foldr (·.collect) (0, [])).2 := by
    rw [milestonesOf_eq, hpays]
    exact congrArg Prod.snd (collect_pays hms hself t p.old.id)
  constructor
  · rintro ⟨hn, hm⟩
    rw [h₁, h₂] at hn
    rw [h₃] at hm
    exact ⟨hn, hm⟩
  · rintro ⟨hn, hm⟩
    rw [← h₁, ← h₂] at hn
    rw [← h₃] at hm
    exact ⟨hn, hm⟩

/-! ### Milestones -/

namespace Shipment

variable (s : Shipment)

/-- The share of a milestone in the deposit, rounded down; zero outside the
schedule. -/
def shareOf (name : Symbol) : ℤ := (s.findMilestone name).elim 0 fun m => s.share m.2

/-- The shares of the milestones in a batch that are not paid yet. -/
def askedBy (names : List Symbol) : ℤ :=
  ∑ name ∈ names.toFinset \ s.paidMilestones.toFinset, s.shareOf name

theorem share_nonneg (h : 0 ≤ s.totalEscrow) (percent : ℕ) : 0 ≤ s.share percent :=
  Int.tdiv_nonneg (Int.mul_nonneg h (Int.natCast_nonneg _)) (by decide)

theorem shareOf_nonneg (h : 0 ≤ s.totalEscrow) (name : Symbol) : 0 ≤ s.shareOf name := by
  unfold shareOf
  cases s.findMilestone name with
  | none => exact le_rfl
  | some m => exact s.share_nonneg h m.2

theorem askedBy_nonneg (h : 0 ≤ s.totalEscrow) (names : List Symbol) : 0 ≤ s.askedBy names :=
  Finset.sum_nonneg fun name _ => s.shareOf_nonneg h name

/-- A name outside the schedule asks for nothing. -/
theorem askedBy_cons_of_none {name : Symbol} (h : s.findMilestone name = none) (names : List Symbol) :
    s.askedBy (name :: names) = s.askedBy names := by
  have hz : s.shareOf name = 0 := by
    unfold shareOf
    rw [h]
    rfl
  unfold askedBy
  rw [List.toFinset_cons]
  refine (Finset.sum_subset (Finset.sdiff_subset_sdiff (Finset.subset_insert _ _) le_rfl) ?_).symm
  intro n hn hn'
  obtain rfl : n = name := by
    rw [Finset.mem_sdiff, Finset.mem_insert] at hn
    rw [Finset.mem_sdiff] at hn'
    exact hn.1.resolve_right fun h => hn' ⟨h, hn.2⟩
  exact hz

/-- Nor does one that is paid. -/
theorem askedBy_cons_of_paid {name : Symbol} (h : name ∈ s.paidMilestones) (names : List Symbol) :
    s.askedBy (name :: names) = s.askedBy names := by
  unfold askedBy
  rw [List.toFinset_cons, Finset.insert_sdiff_of_mem _ (List.mem_toFinset.mpr h)]

/-- A milestone that is due asks for its share, and only once. -/
theorem askedBy_cons_of_due {name : Symbol} {m : Symbol × ℕ} (hm : s.findMilestone name = some m)
    (h : name ∉ s.paidMilestones) (x : ℤ) (now : ℕ) (names : List Symbol) :
    s.askedBy (name :: names) = s.share m.2 + (s.payMilestone name x now).askedBy names := by
  have hshare : s.shareOf name = s.share m.2 := by
    unfold shareOf
    rw [hm]
    rfl
  have hpaid : (s.payMilestone name x now).paidMilestones = s.paidMilestones ++ [name] := if_neg h
  have hrest : (s.payMilestone name x now).askedBy names =
      ∑ n ∈ (names.toFinset \ s.paidMilestones.toFinset).erase name, s.shareOf n := by
    unfold askedBy
    rw [hpaid]
    refine Finset.sum_congr ?_ fun _ _ => rfl
    ext n
    simp only [Finset.mem_sdiff, List.mem_toFinset, List.mem_append, List.mem_singleton,
      Finset.mem_erase]
    tauto
  rw [hrest, ← hshare]
  unfold askedBy
  rw [List.toFinset_cons, Finset.insert_sdiff_of_notMem _ (by simpa using h),
    ← Finset.add_sum_erase _ _ (Finset.mem_insert_self ..), Finset.erase_insert_eq_erase]

/-- What a payment to the carrier adds to the count. -/
theorem collect_payMoves (x : ℤ) (acc : ℤ × List (ℤ × ℤ)) :
    (s.payMoves x).foldr (·.collect) acc = (acc.1 + s.payable x, acc.2) := by
  unfold payMoves
  split
  · rfl
  · have := s.payable_nonneg x
    have hz : s.payable x = 0 := by omega
    rw [hz, add_zero]
    rfl

/-- A milestone is announced with `x` and paid what is left of it. -/
theorem collect_milestoneMoves (name : Symbol) (x : ℤ) (qs : List (ℤ × ℤ)) :
    (s.milestoneMoves name x).foldr (·.collect) (0, qs) = (0, (x, s.payable x) :: qs) := by
  rw [milestoneMoves, List.foldr_cons, collect_payMoves]
  simp only [Movement.collect, zero_add]
  rfl

theorem payable_eq_iff {x : ℤ} (hx : 0 ≤ x) : x = s.payable x ↔ x ≤ s.escrowAmount ∨ x = 0 := by
  unfold payable
  omega

/-- A batch pays what it announces exactly when the shares it asks for are in the
escrow. -/
theorem collect_payBatch (now : ℕ) (names : List Symbol) (h₀ : 0 ≤ s.escrowAmount)
    (h₁ : s.escrowAmount ≤ s.totalEscrow) :
    ∃ qs, (s.payBatch now names).2.foldr (·.collect) (0, []) = (0, qs) ∧
      ((∀ q ∈ qs, q.1 = q.2) ↔ s.askedBy names ≤ s.escrowAmount) := by
  induction names generalizing s with
  | nil =>
    refine ⟨[], rfl, ?_⟩
    simpa [askedBy] using h₀
  | cons name names ih =>
    rw [payBatch]
    split
    · rename_i hnone
      rw [s.askedBy_cons_of_none hnone]
      exact ih s h₀ h₁
    · rename_i m hm
      split
      · rename_i hpaid
        rw [s.askedBy_cons_of_paid hpaid]
        exact ih s h₀ h₁
      · rename_i hdue
        have hx := s.share_nonneg (h₀.trans h₁) m.2
        have hle := s.payable_le (s.share m.2) h₀
        have hpos := s.payable_nonneg (s.share m.2)
        have hnew : (s.payMilestone name (s.share m.2) now).escrowAmount =
            s.escrowAmount - s.payable (s.share m.2) := rfl
        have htotal : (s.payMilestone name (s.share m.2) now).totalEscrow = s.totalEscrow := rfl
        obtain ⟨qs, hqs, hiff⟩ := ih (s.payMilestone name (s.share m.2) now) (by omega) (by omega)
        have hrest := (s.payMilestone name (s.share m.2) now).askedBy_nonneg (h₀.trans h₁) names
        refine ⟨(s.share m.2, s.payable (s.share m.2)) :: qs, ?_, ?_⟩
        · dsimp only
          rw [List.foldr_append, hqs, collect_milestoneMoves]
        · rw [List.forall_mem_cons, hiff, s.askedBy_cons_of_due hm hdue (s.share m.2) now,
            s.payable_eq_iff hx]
          unfold payable at hnew
          constructor <;> omega

end Shipment

/-! ### The condition -/

/-- Events and transfers agree: a cancellation finds no escrow, a fee does not go to
a party, and the milestones ask for no more than is in escrow. -/
def Faithful (w : World H) : Call → Prop
  | .cancelShipment _ id _ => ∀ s, w.getShipment id = some s → s.escrowAmount ≤ 0
  | .depositEscrow _ _ amount => ∀ c, w.governance.feeConfig = some c → 0 < c.feeBps →
      0 < (amount * c.feeBps).tdiv 10000 → c.treasury ∉ w.parties
  | .recordMilestone _ id name _ => ∀ s, w.getShipment id = some s →
      scheduledShare s.paymentMilestones (s.paidMilestones ++ [name]) ≠ 100 →
      s.shareOf name ≤ s.escrowAmount
  | .releaseMilestonePayment _ id name => ∀ s, w.getShipment id = some s →
      scheduledShare s.paymentMilestones (s.milestonesCompleted ++ [name]) ≠ 100 →
      s.shareOf name ≤ s.escrowAmount
  | .recordMilestonesBatch _ id items => ∀ s, w.getShipment id = some s →
      s.askedBy (items.map (·.1)) ≤ s.escrowAmount
  | _ => True

theorem faithful_of_posts (h : call.posts = false) : Faithful w call := by
  cases call <;> trivial

/-- The stored record is the one the rule is about. -/
theorem forall_stored_iff {id : ℕ} {s : Shipment} (hs : w.getShipment id = some s)
    (P : Shipment → Prop) : (∀ t, w.getShipment id = some t → P t) ↔ P s := by
  constructor
  · exact fun h => h s hs
  · intro h t ht
    obtain rfl : s = t := Option.some.inj (hs.symm.trans ht)
    exact h

section

variable {id : ℕ} {s : Shipment} (hs : w.getShipment id = some s)

include hs

theorem faithful_cancelShipment (caller : Address) (hash : BytesN32) :
    Faithful w (.cancelShipment caller id hash) ↔ s.escrowAmount ≤ 0 :=
  forall_stored_iff hs (·.escrowAmount ≤ 0)

theorem faithful_recordMilestone (carrier : Address) (name : Symbol) (hash : BytesN32) :
    Faithful w (.recordMilestone carrier id name hash) ↔
      (scheduledShare s.paymentMilestones (s.paidMilestones ++ [name]) ≠ 100 →
        s.shareOf name ≤ s.escrowAmount) :=
  forall_stored_iff hs fun s => scheduledShare s.paymentMilestones (s.paidMilestones ++ [name]) ≠ 100 →
    s.shareOf name ≤ s.escrowAmount

theorem faithful_releaseMilestonePayment (caller : Address) (name : Symbol) :
    Faithful w (.releaseMilestonePayment caller id name) ↔
      (scheduledShare s.paymentMilestones (s.milestonesCompleted ++ [name]) ≠ 100 →
        s.shareOf name ≤ s.escrowAmount) :=
  forall_stored_iff hs fun s =>
    scheduledShare s.paymentMilestones (s.milestonesCompleted ++ [name]) ≠ 100 →
      s.shareOf name ≤ s.escrowAmount

theorem faithful_recordMilestonesBatch (carrier : Address) (items : List (Symbol × BytesN32)) :
    Faithful w (.recordMilestonesBatch carrier id items) ↔
      s.askedBy (items.map (·.1)) ≤ s.escrowAmount :=
  forall_stored_iff hs fun s => s.askedBy (items.map (·.1)) ≤ s.escrowAmount

end

/-- Movements without milestones. -/
theorem TruthfulMoves.of_told {parties : List Address} {ms : List Movement}
    (h : ∀ m ∈ ms, m.Told parties) (hq : (ms.foldr (·.collect) (0, [])).2 = []) :
    TruthfulMoves parties ms where
  notices := by rw [notices_of_told h]
  milestones q hm := by
    rw [hq] at hm
    cases hm

theorem PayoutOf.told {carrier : Address} {parties : List Address} {m : Movement}
    (h : PayoutOf carrier m) (hc : carrier ∈ parties) : m.Told parties := by
  cases h with
  | release => exact hc
  | milestone => trivial

theorem told_payAll {parties : List Address} {n : Notice} {a : Address} {x : ℤ} (ha : a ∈ parties) :
    ∀ m ∈ payAll (.bare n) a x, m.Told parties := by
  intro m hm
  obtain ⟨rfl, -⟩ := mem_payAll hm
  exact ha

theorem told_settled {parties : List Address} {n : Notice} {a : Address} {x : ℤ} (ha : a ∈ parties) :
    ∀ m ∈ [Movement.settled n a x], m.Told parties := by
  intro m hm
  obtain rfl := List.mem_singleton.mp hm
  exact ha

theorem collect_payAll (n : Notice) (a : Address) (x : ℤ) :
    ((payAll (.bare n) a x).foldr (·.collect) (0, [])).2 = [] := by
  unfold payAll
  split <;> rfl

/-- One milestone is told of truly when what it asks for is in escrow. -/
theorem truthfulMoves_milestone {parties : List Address} {s : Shipment} {name : Symbol} {x : ℤ}
    (hc : s.carrier ∈ parties) (hx : 0 ≤ x) (h₀ : 0 ≤ s.escrowAmount) :
    TruthfulMoves parties (s.milestoneMoves name x) ↔ x ≤ s.escrowAmount := by
  have hpay := s.payable_eq_iff hx
  have hiff : (∀ q ∈ ((s.milestoneMoves name x).foldr (·.collect) (0, [])).2, q.1 = q.2) ↔
      x ≤ s.escrowAmount := by
    rw [s.collect_milestoneMoves, List.forall_mem_singleton, hpay]
    omega
  refine ⟨fun h => hiff.mp h.milestones, fun h => ⟨?_, hiff.mpr h⟩⟩
  rw [notices_of_told fun m hm => (s.payoutOf_milestoneMoves hm).told hc]

/-- The due amount of a milestone is in escrow unless it is a share that is not. -/
theorem Shipment.milestoneDue_le_iff {s : Shipment} {name : Symbol} {m : Symbol × ℕ}
    (hm : s.findMilestone name = some m) (names : List Symbol) :
    s.milestoneDue names m.2 ≤ s.escrowAmount ↔
      (scheduledShare s.paymentMilestones names ≠ 100 → s.shareOf name ≤ s.escrowAmount) := by
  have hshare : s.shareOf name = s.share m.2 := by
    unfold Shipment.shareOf
    rw [hm]
    rfl
  rw [hshare]
  unfold Shipment.milestoneDue
  split
  · rename_i h
    exact ⟨fun _ hne => absurd h hne, fun _ => le_rfl⟩
  · rename_i h
    exact ⟨fun hle _ => hle, fun hle => hle h⟩

theorem Shipment.milestoneDue_nonneg {s : Shipment} (h₀ : 0 ≤ s.escrowAmount)
    (h₁ : s.escrowAmount ≤ s.totalEscrow) (names : List Symbol) (percent : ℕ) :
    0 ≤ s.milestoneDue names percent := by
  unfold Shipment.milestoneDue
  split
  · exact h₀
  · exact s.share_nonneg (h₀.trans h₁) percent

theorem truthfulMoves_nil (parties : List Address) : TruthfulMoves parties [] :=
  .of_told (by simp) rfl

/-- An escrow event without a transfer. -/
theorem truthfulMoves_announced {parties : List Address} {a : Address} {amount : ℤ} :
    TruthfulMoves parties (payAll .announced a amount) ↔ amount ≤ 0 := by
  unfold payAll
  split
  · rename_i hpos
    refine iff_of_false (fun h => ?_) (not_le.mpr hpos)
    have hlen := h.notices.length_eq
    simp [Movement.notice?, Movement.out?] at hlen
  · rename_i hle
    exact iff_of_true (truthfulMoves_nil parties) (not_lt.mp hle)

/-- A deposit, whose fee is a transfer without an escrow event. -/
theorem truthfulMoves_deposit {parties : List Address} {source : Address} {amount : ℤ}
    {config : Option FeeConfig} :
    TruthfulMoves parties (.deposit source amount :: feeMoves config amount) ↔
      ∀ c, config = some c → 0 < c.feeBps → 0 < (amount * c.feeBps).tdiv 10000 →
        c.treasury ∉ parties := by
  have free : TruthfulMoves parties [.deposit source amount] := by
    refine .of_told (fun m hm => ?_) rfl
    obtain rfl := List.mem_singleton.mp hm
    trivial
  unfold feeMoves
  cases config with
  | none => exact iff_of_true free (fun c hc => by cases hc)
  | some c =>
    dsimp only
    split
    · rename_i hpos
      constructor
      · rintro ⟨hn, -⟩ c' hc' - - hmem
        obtain rfl : c = c' := Option.some.inj hc'
        -- a transfer to a party, and no event
        have hlen := hn.length_eq
        simp [Movement.notice?, Movement.out?, hmem] at hlen
      · intro h
        refine .of_told (fun m hm => ?_) rfl
        rcases List.mem_cons.mp hm with rfl | hm
        · trivial
        · obtain rfl := List.mem_singleton.mp hm
          exact h c rfl hpos.1 hpos.2
    · rename_i hnot
      refine iff_of_true free fun c' hc' h h' => ?_
      obtain rfl : c = c' := Option.some.inj hc'
      exact absurd ⟨h, h'⟩ hnot

/-- A batch of milestones, of which each is paid what is asked for it. -/
theorem truthfulMoves_batch {parties : List Address} {s : Shipment} {now : ℕ} {names : List Symbol}
    (hc : s.carrier ∈ parties) (h₀ : 0 ≤ s.escrowAmount) (h₁ : s.escrowAmount ≤ s.totalEscrow) :
    TruthfulMoves parties (s.payBatch now names).2 ↔ s.askedBy names ≤ s.escrowAmount := by
  obtain ⟨qs, hqs, hiff⟩ := s.collect_payBatch now names h₀ h₁
  have hb := s.batchOf_payBatch now names
  rw [← hiff]
  constructor
  · intro h
    have hm := h.milestones
    rwa [hqs] at hm
  · intro h
    refine ⟨by rw [notices_of_told fun m hm => (hb.moves m hm).told hc], ?_⟩
    rwa [hqs]

/-- The movements of a posting are told of truly under the condition, and only
under it. -/
theorem Rule.truthfulMoves_iff (hr : Rule env w call p) (hs : w.getShipment p.old.id = some p.old)
    (h₀ : 0 ≤ p.old.escrowAmount) (h₁ : p.old.escrowAmount ≤ p.old.totalEscrow)
    (hc : p.old.carrier ∈ w.parties) (hsend : p.old.sender ∈ w.parties) :
    TruthfulMoves w.parties p.moves ↔ Faithful w call := by
  have still : TruthfulMoves w.parties [] := truthfulMoves_nil w.parties
  have payouts : ∀ x, TruthfulMoves w.parties (p.old.payMoves x) := fun x =>
    .of_told (fun m hm => (p.old.payoutOf_payMoves hm).told hc) (by rw [p.old.collect_payMoves])
  cases hr with
  | confirmDelivery => exact iff_of_true (payouts _) trivial
  | confirmPartialDelivery => exact iff_of_true (payouts _) trivial
  | releaseEscrow => exact iff_of_true (payouts _) trivial
  | @recordOther s name _ _ _ hnone =>
    refine iff_of_true still ((faithful_recordMilestone hs ..).mpr fun _ => ?_)
    unfold Shipment.shareOf
    rw [hnone]
    exact h₀
  | @recordMilestone s name _ m x _ _ hm _ hx =>
    subst hx
    rw [truthfulMoves_milestone hc (Shipment.milestoneDue_nonneg h₀ h₁ _ _) h₀,
      Shipment.milestoneDue_le_iff hm]
    exact (faithful_recordMilestone hs ..).symm
  | @recordMilestonesBatch s items =>
    exact (truthfulMoves_batch hc h₀ h₁).trans (faithful_recordMilestonesBatch hs ..).symm
  | @releaseNothing _ s name m _ _ hm hle =>
    refine iff_of_true still ((faithful_releaseMilestonePayment hs ..).mpr ?_)
    exact (Shipment.milestoneDue_le_iff hm _).mp (hle.trans h₀)
  | @releaseMilestonePayment _ s name m x _ _ hm hx =>
    subst hx
    rw [truthfulMoves_milestone hc (Shipment.milestoneDue_nonneg h₀ h₁ _ _) h₀,
      Shipment.milestoneDue_le_iff hm]
    exact (faithful_releaseMilestonePayment hs ..).symm
  | depositEscrow => exact truthfulMoves_deposit
  | @cancelShipment _ s => exact truthfulMoves_announced.trans (faithful_cancelShipment hs ..).symm
  | forceCancelShipment => exact iff_of_true (.of_told (told_payAll hsend) (collect_payAll ..)) trivial
  | checkDeadline => exact iff_of_true (.of_told (told_payAll hsend) (collect_payAll ..)) trivial
  | refundEscrow => exact iff_of_true (.of_told (told_settled hsend) rfl) trivial
  | releaseToCarrier => exact iff_of_true (.of_told (told_settled hc) rfl) trivial
  | refundToCompany => exact iff_of_true (.of_told (told_settled hsend) rfl) trivial
  | forceRelease hx =>
    exact iff_of_true (.of_told (told_payAll hc) (collect_payAll ..))
      (faithful_of_posts (posts_of_executing hx))
  | forceRefund hx =>
    exact iff_of_true (.of_told (told_payAll hsend) (collect_payAll ..))
      (faithful_of_posts (posts_of_executing hx))
  | _ => exact iff_of_true still trivial

/-! ### Calls -/

/-- The carrier and the sender of a stored shipment are parties. -/
theorem mem_parties {id : ℕ} {s : Shipment} (hs : w.ledger.Sound) (hg : w.getShipment id = some s) :
    s.carrier ∈ w.parties ∧ s.sender ∈ w.parties := by
  have hid := hs.ids id s hg
  have hmem : id ∈ List.range' 1 w.ledger.shipmentCount := by
    rw [List.mem_range'_1]
    omega
  unfold World.parties
  rw [List.mem_flatMap, List.mem_flatMap]
  refine ⟨⟨id, hmem, ?_⟩, ⟨id, hmem, ?_⟩⟩ <;> rw [hg] <;> simp

/-- A call that tells of no payment and makes none. -/
theorem truthful_of_nil {trace : List Effect} (h : paymentsOf trace = []) : Truthful w trace where
  notices := by
    rw [noticesOf_eq, transfersOut_eq, h]
    exact .refl _
  milestones q hq := by
    rw [milestonesOf_eq, h] at hq
    cases hq

/-- In every reachable state, the payment events of a committed call tell what it
transferred exactly when the call is faithful. -/
theorem truthful_iff {c c' : Chain H} (hc : Reachable c) {call : Call} {env : Env}
    {trace : List Effect} (hstep : Step c (.committed call env trace) c') :
    Truthful c.world trace ↔ Faithful c.world call := by
  cases hstep with
  | @committed _ _ w' ha hx =>
  have hs : c.world.fresh.ledger.Sound := hc.sound
  have he := exec_effects hs.keyed hx
  rcases he.idle_or_posted hs with ⟨hposts, hpays, -⟩ | ⟨p, hp⟩
  · have hpays : paymentsOf w'.trace = [] := hpays
    exact iff_of_true (truthful_of_nil hpays) (faithful_of_posts hposts)
  · have hg := hp.stored
    obtain ⟨hcar, hsend⟩ := mem_parties hs hg
    rw [hp.truthful hs ha.self]
    exact hp.rule.truthfulMoves_iff hg (hs.escrow_nonneg _ _ hg) (hs.escrow_le_total _ _ hg) hcar hsend

/-- The second milestone finds what is left and announces it. -/
theorem truthful_of_last_milestone : ∃ (c c' : Chain Deployment.host) (call : Call) (env : Env)
    (trace : List Effect), Reachable c ∧ Step c (.committed call env trace) c' ∧
      noticesOf trace = [(Deployment.carrier, 600)] ∧
      milestonesOf Deployment.self trace = [(600, 600)] ∧ Faithful c.world call := by
  obtain ⟨ls, c, trace, c', hr, hstep, hn, hm, hout, hpar⟩ := exists_commit Deployment.chain
    (Deployment.opening ++ [
      Deployment.signed Deployment.company 5 (.depositEscrow Deployment.company 1 1000),
      Deployment.signed Deployment.carrier 6 (.updateStatus Deployment.carrier 1 .inTransit 2),
      Deployment.signed Deployment.carrier 7
        (.recordMilestone Deployment.carrier 1 Deployment.pickup 3)])
    (.recordMilestone Deployment.carrier 1 Deployment.port 4)
    ⟨8, 8, fun a => a = Deployment.carrier, fun _ => true⟩
    (fun r trace _ => noticesOf trace = [(Deployment.carrier, 600)] ∧
      milestonesOf Deployment.self trace = [(600, 600)] ∧
      transfersOut Deployment.self trace = [(Deployment.carrier, 600)] ∧
      Deployment.carrier ∈ r.2.world.parties)
    (by decide +kernel)
  have hc : Reachable c := ⟨_, ls, Deployment.deployed, hr⟩
  have htrue : Truthful c.world trace := by
    constructor
    · change (noticesOf trace).Perm ((transfersOut Deployment.self trace).filter _)
      have hpar : Deployment.carrier ∈ c.world.parties := hpar
      rw [hn, hout, List.filter_cons_of_pos (by simpa using hpar)]
      exact .refl _
    · change ∀ q ∈ milestonesOf Deployment.self trace, q.1 = q.2
      rw [hm]
      simp
  exact ⟨c, c', _, _, trace, hc, hstep, hn, hm, (truthful_iff hc hstep).mp htrue⟩

/-- A cancellation after a deposit of 1000 announces a payment that is not made. -/
theorem cancelShipment_not_truthful :
    ¬∀ (c c' : Chain Deployment.host) (call : Call) (env : Env) (trace : List Effect), Reachable c →
      Step c (.committed call env trace) c' → Truthful c.world trace := by
  intro hall
  obtain ⟨ls, c, trace, c', hr, hstep, hn, hout⟩ := exists_commit Deployment.chain
    (Deployment.opening ++ [
      Deployment.signed Deployment.company 5 (.depositEscrow Deployment.company 1 1000)])
    (.cancelShipment Deployment.company 1 9)
    ⟨6, 6, fun a => a = Deployment.company, fun _ => true⟩
    (fun _ trace _ => noticesOf trace = [(Deployment.company, 1000)] ∧
      transfersOut Deployment.self trace = [])
    (by decide +kernel)
  have ht := (hall c c' _ _ trace ⟨_, ls, Deployment.deployed, hr⟩ hstep).notices
  have ht : (noticesOf trace).Perm ((transfersOut Deployment.self trace).filter _) := ht
  rw [hn, hout, List.filter_nil] at ht
  exact absurd ht.length_eq (by decide)

end Navin
