/-
# Reconciling the settlement history

The settlements of a shipment account for its escrow: deposits less fees less
payouts is what is left. Five operations take an escrow and make no settlement;
along runs in which none of them finds anything to take, the history adds up.

Key definitions:
- `Ledger.depositsOf`, `Ledger.payoutsOf`, `feesCollected`;
- `World.Unsettles`: a call that takes an escrow without a settlement;
- `Audited`: the steps of a run that can be reconciled.

Key theorems:
- `Ledger.Appends.settledFor_eq`: what new settlements add to the sums;
- `PostedBy.reconciles`, `Audited.gap_eq`: one posting, one step;
- `settlement_history_complete`: a whole run.
-/
import Navin.Carriers
import Navin.Orderly
import Navin.Settlements

namespace Navin

variable {H : Host}

/-! ### Sums of settlements -/

/-- The operations that pay out of an escrow. -/
def SettlementOperation.paysOut : SettlementOperation → Bool
  | release | refund | milestonePayment => true
  | deposit => false

/-- The amount of a completed settlement of a shipment, for some operations. -/
def SettlementRecord.amountFor (id : ℕ) (ops : SettlementOperation → Bool) (r : SettlementRecord) : ℤ :=
  if r.shipmentId = id ∧ r.state = .completed ∧ ops r.operation = true then r.amount else 0

def Draft.amountFor (id : ℕ) (ops : SettlementOperation → Bool) (d : Draft) : ℤ :=
  if d.shipmentId = id ∧ ops d.operation = true then d.amount else 0

theorem Draft.amountFor_record (id : ℕ) (ops : SettlementOperation → Bool) (d : Draft) (n now : ℕ) :
    (d.record n now).amountFor id ops = d.amountFor id ops := by
  simp [SettlementRecord.amountFor, Draft.amountFor, Draft.record]

namespace Ledger

variable {Token : Type} (l : Ledger Token)

/-- The completed settlements of a shipment for some operations, summed up. -/
def settledFor (id : ℕ) (ops : SettlementOperation → Bool) : ℤ :=
  ((List.range' 1 l.settlementCounter).map fun n =>
    ((l.settlement n).map (·.amountFor id ops)).getD 0).sum

def depositsOf (id : ℕ) : ℤ := l.settledFor id fun op => op = .deposit

def payoutsOf (id : ℕ) : ℤ := l.settledFor id (·.paysOut)

variable {l} {l' : Ledger Token} {now : ℕ} {ds : List Draft}

/-- New settlements add their amounts. -/
theorem Appends.settledFor_eq (h : l.Appends l' now ds) (id : ℕ) (ops : SettlementOperation → Bool) :
    l'.settledFor id ops = l.settledFor id ops + (ds.map (·.amountFor id ops)).sum := by
  have hold : (List.range' 1 l.settlementCounter).map
      (fun n => ((l'.settlement n).map (·.amountFor id ops)).getD 0) =
      (List.range' 1 l.settlementCounter).map
        fun n => ((l.settlement n).map (·.amountFor id ops)).getD 0 := by
    refine List.map_congr_left fun n hn => ?_
    rw [List.mem_range'_1] at hn
    rw [h.old n (by omega)]
  have hnew : (List.range' (1 + l.settlementCounter) ds.length).map
      (fun n => ((l'.settlement n).map (·.amountFor id ops)).getD 0) =
      ds.map (·.amountFor id ops) := by
    have := congrArg (List.map (Option.getD · 0))
      (h.map_settlement (·.amountFor id ops) (·.amountFor id ops) fun d n => d.amountFor_record id ops n now)
    rw [List.map_map, List.map_map, Nat.add_comm] at this
    exact this
  unfold settledFor
  rw [h.counter, ← List.range'_append_1, List.map_append, List.sum_append, hold, hnew]

end Ledger

/-- The platform fees a run collected for a shipment. -/
def feesCollected (id : ℕ) (ls : List Label) : ℤ := (ls.map fun l => feesOf id l.trace).sum

/-! ### Settlements and movements -/

/-- What a movement takes out is in a settlement, or is the fee. -/
def Movement.Booked : Movement → Prop
  | bare .. => False
  | _ => True

theorem PayoutOf.booked {carrier : Address} {m : Movement} (h : PayoutOf carrier m) : m.Booked := by
  cases h with
  | release => trivial
  | milestone => trivial

/-- The settlements of deposits are what comes in. -/
theorem Movement.deposit_draft? (self : Address) (id target : ℕ) (m : Movement) :
    ((m.draft? self target).map (·.amountFor id fun op => op = .deposit)).getD 0 =
      if target = id then m.inflow else 0 := by
  cases m with
  | settled n => cases n <;> simp [draft?, Draft.amountFor, Notice.operation]
  | deposit => simp [draft?, Draft.amountFor]
  | bare => simp [draft?]
  | announced => simp [draft?]
  | milestone => simp [draft?]
  | fee => simp [draft?]

/-- The settlements of payouts are what goes out, the fee apart. -/
theorem Movement.payout_draft? (self : Address) (id target : ℕ) {m : Movement} (hm : m.Booked) :
    ((m.draft? self target).map (·.amountFor id (·.paysOut))).getD 0 =
      if target = id then m.outflow - m.feePaid else 0 := by
  cases m with
  | settled n =>
    cases n <;> simp [draft?, Draft.amountFor, Notice.operation, SettlementOperation.paysOut, feePaid]
  | deposit => simp [draft?, Draft.amountFor, SettlementOperation.paysOut, feePaid]
  | bare => exact hm.elim
  | announced => simp [draft?, feePaid]
  | milestone => simp [draft?, feePaid]
  | fee => simp [draft?, feePaid]

variable {env : Env} {w w' : World H} {call : Call} {p : Posting}

theorem Posting.depositsOf_drafts (self : Address) (id : ℕ) (p : Posting) :
    ((p.drafts self).map (·.amountFor id fun op => op = .deposit)).sum =
      if p.old.id = id then inflow p.moves else 0 := by
  rw [drafts, sum_filterMap]
  simp only [Movement.deposit_draft?]
  split
  · rfl
  · simp

theorem Posting.payoutsOf_drafts (self : Address) (id : ℕ) {p : Posting} (hp : ∀ m ∈ p.moves, m.Booked) :
    ((p.drafts self).map (·.amountFor id (·.paysOut))).sum =
      if p.old.id = id then outflow p.moves - (p.moves.map (·.feePaid)).sum else 0 := by
  rw [drafts, sum_filterMap, List.map_congr_left fun m hm => Movement.payout_draft? self id p.old.id (hp m hm)]
  split
  · have hsum : (p.moves.map fun m => m.outflow - m.feePaid).sum + (p.moves.map (·.feePaid)).sum =
        outflow p.moves := by
      rw [← List.sum_map_add]
      simp [outflow]
    omega
  · simp

/-! ### One posting -/

/-- The calls that take an escrow and make no settlement of it. -/
def Call.unsettles : Call → Bool
  | .cancelShipment .. | .forceCancelShipment .. | .checkDeadline .. => true
  | _ => false

/-- The call takes what a shipment holds in escrow without a settlement: it cancels
the shipment, finds it expired, or executes a forced release or refund of it. -/
def World.Unsettles (w : World H) (call : Call) : Prop :=
  ∃ id s, w.Concerns call id ∧ w.getShipment id = some s ∧ 0 < s.escrowAmount ∧
    (call.unsettles = true ∨ w.executing call ≠ none)

/-- Without such a call every movement is booked. -/
theorem Rule.booked (hr : Rule env w call p) (hs : w.getShipment p.old.id = some p.old)
    (hu : ¬w.Unsettles call) {m : Movement} (hm : m ∈ p.moves) : m.Booked := by
  have hempty : call.unsettles = true ∨ w.executing call ≠ none → ¬0 < p.old.escrowAmount :=
    fun h hpos => hu ⟨_, _, hr.concerns, hs, hpos, h⟩
  cases hr with
  | @confirmDelivery s => exact (s.payoutOf_payMoves hm).booked
  | @confirmPartialDelivery s => exact (s.payoutOf_payMoves hm).booked
  | @recordMilestone s => exact (s.payoutOf_milestoneMoves hm).booked
  | @recordMilestonesBatch s items =>
    exact ((s.batchOf_payBatch env.timestamp (items.map (·.1))).moves m hm).booked
  | @releaseMilestonePayment _ s => exact (s.payoutOf_milestoneMoves hm).booked
  | @releaseEscrow _ s => exact (s.payoutOf_payMoves hm).booked
  | depositEscrow =>
    rcases List.mem_cons.mp hm with rfl | hm
    · trivial
    · obtain ⟨_, _, rfl, -⟩ := mem_feeMoves hm
      trivial
  | cancelShipment => exact absurd (mem_payAll hm).2 (hempty (.inl rfl))
  | forceCancelShipment => exact absurd (mem_payAll hm).2 (hempty (.inl rfl))
  | checkDeadline => exact absurd (mem_payAll hm).2 (hempty (.inl rfl))
  | forceRelease hx => exact absurd (mem_payAll hm).2 (hempty (.inr (by rw [hx]; simp)))
  | forceRefund hx => exact absurd (mem_payAll hm).2 (hempty (.inr (by rw [hx]; simp)))
  | refundEscrow => obtain rfl := List.mem_singleton.mp hm; trivial
  | releaseToCarrier => obtain rfl := List.mem_singleton.mp hm; trivial
  | refundToCompany => obtain rfl := List.mem_singleton.mp hm; trivial
  | _ => cases hm

/-- Nor is anything dropped. -/
theorem Rule.not_dropped (hr : Rule env w call p) (hs : w.getShipment p.old.id = some p.old)
    (h₀ : 0 ≤ p.old.escrowAmount) (hn : call.isRecovery = false) (hu : ¬w.Unsettles call) :
    (if call.drops = true then p.old.escrowAmount else 0) = 0 := by
  split
  · rename_i hdrops
    have hunsettles : call.unsettles = true := by
      cases call <;> first | rfl | (cases hdrops; done) | cases hn
    by_contra hne
    exact hu ⟨_, _, hr.concerns, hs, by omega, .inl hunsettles⟩
  · rfl

/-! ### Steps and runs -/

/-- What the settlements and the fees of a shipment leave unexplained of its
escrow. -/
def Ledger.gap {Token : Type} (l : Ledger Token) (id : ℕ) (fees : ℤ) : ℤ :=
  l.depositsOf id - fees - l.payoutsOf id - l.escrowOf id

/-- A posting whose movements are booked explains the change of the escrow. -/
theorem PostedBy.reconciles (hp : PostedBy env w.fresh call p w'.book) (hs : w.fresh.ledger.Sound)
    (hlt : w'.ledger.settlementCounter < u64Max) (hn : call.isRecovery = false)
    (hu : ¬w.Unsettles call) (id : ℕ) (fees : ℤ) :
    w'.ledger.gap id (fees + feesOf id w'.trace) = w.ledger.gap id fees := by
  have hu : ¬w.fresh.Unsettles call := hu
  obtain ⟨h₀, -⟩ := hp.bounds hs
  have happ := hp.appends hlt
  have hdep := happ.settledFor_eq id fun op => op = .deposit
  have hpay := happ.settledFor_eq id (·.paysOut)
  rw [Posting.depositsOf_drafts] at hdep
  rw [Posting.payoutsOf_drafts _ _ fun m hm => hp.rule.booked hp.stored hu hm] at hpay
  have hfees := hp.feesOf_eq id
  have hdep : w'.ledger.depositsOf id = w.ledger.depositsOf id + _ := hdep
  have hpay : w'.ledger.payoutsOf id = w.ledger.payoutsOf id + _ := hpay
  have hesc : w'.ledger.escrowOf id = if id = p.old.id then p.new.escrowAmount
    else w.ledger.escrowOf id := hp.escrowOf_eq id
  unfold Ledger.gap
  rw [hdep, hpay, hfees, hesc]
  by_cases hid : id = p.old.id
  · subst hid
    have hold : w.ledger.escrowOf p.old.id = p.old.escrowAmount := w.ledger.escrowOf_of_some hp.stored
    have hb := hp.rule.balanced h₀
    rw [hp.rule.not_dropped hp.stored h₀ hn hu] at hb
    simp only [if_true, hold]
    omega
  · simp only [if_neg hid, if_neg (Ne.symm hid)]
    omega

theorem Ledger.Idle.gap_eq {Token : Type} {l l' : Ledger Token} (h : l.Idle l') (id : ℕ) (fees : ℤ) :
    l'.gap id fees = l.gap id fees := by
  unfold gap depositsOf payoutsOf settledFor
  rw [h.escrowOf_eq, h.counter_eq, h.settlement_eq]

/-- The step is no recovery, and takes no escrow without a settlement. -/
def Label.Settles (w : World H) : Label → Prop
  | .committed call _ _ => call.isRecovery = false ∧ ¬w.Unsettles call
  | _ => True

/-- A step that can be reconciled. -/
def Audited (c : Chain H) (l : Label) (c' : Chain H) : Prop := Step c l c' ∧ l.Settles c.world

variable {c c' : Chain H} {l : Label}

theorem Audited.gap_eq (h : Audited c l c') (hs : c.world.ledger.Sound)
    (hlt : c'.world.ledger.settlementCounter < u64Max) (id : ℕ) (fees : ℤ) :
    c'.world.ledger.gap id (fees + feesOf id l.trace) = c.world.ledger.gap id fees := by
  obtain ⟨hstep, hl⟩ := h
  cases hstep with
  | @committed call env w' ha hx =>
    have hs : c.world.fresh.ledger.Sound := hs
    rcases (exec_effects hs.keyed hx).idle_or_posted hs with ⟨-, hpays, hidle⟩ | ⟨p, hp⟩
    · have hpays : paymentsOf w'.trace = [] := hpays
      have hnone : feesOf id w'.trace = 0 := by
        rw [feesOf_eq, hpays]
        rfl
      change w'.ledger.gap id (fees + feesOf id w'.trace) = _
      rw [hnone, add_zero]
      exact hidle.gap_eq id fees
    · exact hp.reconciles hs hlt hl.1 hl.2 id fees
  | reverted =>
    change c.world.ledger.gap id (fees + 0) = _
    rw [add_zero]
  | outside =>
    change c.world.ledger.gap id (fees + 0) = _
    rw [add_zero]

theorem Run.step_of_audited {ls : List Label} (hr : Run Audited c ls c') : Run Step c ls c' := by
  induction hr with
  | nil => exact .nil
  | snoc _ hl ih => exact .snoc ih hl.1

/-- Along a run of such steps nothing is left unexplained. -/
theorem Run.gap_eq_zero {ls : List Label} (hr : Run Audited c ls c') (hd : Deployed c)
    (hlt : c'.world.ledger.settlementCounter < u64Max) (id : ℕ) :
    c'.world.ledger.gap id (feesCollected id ls) = 0 := by
  induction hr with
  | nil =>
    cases hd
    rfl
  | @snoc ls l a b hr hl ih =>
    have hs := hr.step_of_audited.sound hd
    have hfees : feesCollected id (ls ++ [l]) = feesCollected id ls + feesOf id l.trace := by
      simp [feesCollected]
    rw [hfees, hl.gap_eq hs hlt]
    exact ih (lt_of_le_of_lt (hl.1.counter_le hs) hlt)

/-- Along every run from a deployed contract without recovery, in which no call
takes an escrow without a settlement, the settlements of a shipment and the fees
collected on its deposits add up to its escrow. -/
theorem settlement_history_complete {ls : List Label} (hd : Deployed c) (hr : Run Audited c ls c')
    (hlt : c'.world.ledger.settlementCounter < u64Max) {id : ℕ} {s : Shipment}
    (hs : c'.world.getShipment id = some s) :
    c'.world.ledger.depositsOf id - feesCollected id ls - c'.world.ledger.payoutsOf id =
      s.escrowAmount := by
  have hgap := hr.gap_eq_zero hd hlt id
  unfold Ledger.gap at hgap
  rw [c'.world.ledger.escrowOf_of_some hs] at hgap
  omega

/-- A run of ordinary calls that do not leave an escrow can be reconciled. -/
theorem Run.audited {ls : List Label} (hr : Run Step c ls c')
    (hls : ∀ l ∈ ls, l.Ordinary ∧ l.Inside) : Run Audited c ls c' := by
  induction hr with
  | nil => exact .nil
  | @snoc ls l a b hr hstep ih =>
    refine .snoc (ih fun k hk => hls k (by simp [hk])) ⟨hstep, ?_⟩
    obtain ⟨hord, hin⟩ := hls l (by simp)
    cases l with
    | committed call env trace =>
      refine ⟨hord.1, ?_⟩
      rintro ⟨id, s, -, -, -, hun | hexec⟩
      · have hexits : call.exits = true := by
          cases call <;> first | rfl | cases hun
        rw [hin.1] at hexits
        cases hexits
      · exact hexec (executing_eq_none hin.2 a.world)
    | reverted => trivial
    | outside => trivial

/-- A deposit of 1000 with a fee of one percent, and a milestone of 40 percent of
the rest: 1000 less 10 less 396 is 594. -/
theorem settlement_history_complete_after_milestone :
    ∃ (ls : List Label) (c : Chain Deployment.host) (s : Shipment),
      Run Audited Deployment.chain ls c ∧ c.world.getShipment 1 = some s ∧
      c.world.ledger.depositsOf 1 = 1000 ∧ feesCollected 1 ls = 10 ∧
      c.world.ledger.payoutsOf 1 = 396 ∧ s.escrowAmount = 594 := by
  obtain ⟨ls, c, hr, -, hls, hsome, hcount, hdep, hfee, hpay⟩ := exists_play Deployment.chain
    (Deployment.opening ++ [
      Deployment.signed Deployment.admin 5 (.setPlatformFee Deployment.admin 100 (.contract 3)),
      Deployment.signed Deployment.company 6 (.depositEscrow Deployment.company 1 1000),
      Deployment.signed Deployment.carrier 7 (.updateStatus Deployment.carrier 1 .inTransit 2),
      Deployment.signed Deployment.carrier 8
        (.recordMilestone Deployment.carrier 1 Deployment.pickup 3)])
    (fun r => (∀ l ∈ r.1, l.Ordinary ∧ l.Inside) ∧ (r.2.world.getShipment 1).isSome = true ∧
      r.2.world.ledger.settlementCounter = 2 ∧ r.2.world.ledger.depositsOf 1 = 1000 ∧
      feesCollected 1 r.1 = 10 ∧ r.2.world.ledger.payoutsOf 1 = 396)
    (by decide +kernel)
  obtain ⟨s, hs⟩ := Option.isSome_iff_exists.mp hsome
  dsimp only at hcount hdep hfee hpay
  have hr := hr.audited hls
  have hsum := settlement_history_complete Deployment.deployed hr (by rw [hcount]; decide) hs
  exact ⟨ls, c, s, hr, hs, hdep, hfee, hpay, by omega⟩

/-- The admin force-cancels a shipment that holds 1000: they are refunded, and no
settlement tells of it. -/
theorem forceCancelShipment_unsettled :
    ∃ (ls : List Label) (c : Chain Deployment.host) (s : Shipment),
      Run Step Deployment.chain ls c ∧ (∀ l ∈ ls, l.Ordinary) ∧ c.world.getShipment 1 = some s ∧
      c.world.ledger.depositsOf 1 - feesCollected 1 ls - c.world.ledger.payoutsOf 1 = 1000 ∧
      s.escrowAmount = 0 := by
  obtain ⟨ls, c, hr, -, hls, hsum, hesc⟩ := exists_play Deployment.chain
    (Deployment.opening ++ [
      Deployment.signed Deployment.company 5 (.depositEscrow Deployment.company 1 1000),
      Deployment.signed Deployment.admin 6 (.forceCancelShipment Deployment.admin 1 9)])
    (fun r => (∀ l ∈ r.1, l.Ordinary) ∧ r.2.world.ledger.depositsOf 1 - feesCollected 1 r.1 -
      r.2.world.ledger.payoutsOf 1 = 1000 ∧
      (r.2.world.getShipment 1).map (·.escrowAmount) = some 0)
    (by decide +kernel)
  obtain ⟨s, hs, h₀⟩ := Option.map_eq_some_iff.mp hesc
  exact ⟨ls, c, s, hr, hls, hs, hsum, h₀⟩

end Navin
