/-
# What the carriers of a shipment are paid

Milestones, partial deliveries and full releases share one escrow. Along a run in
which the escrow has no other way out, what was paid to the successive carriers
and what is left add up to what was deposited.

Key definitions:
- `Tally`, `Tallied`: a run that keeps count of deposits and payments of one
  shipment;
- `World.Leaves`: the other ways out of an escrow.

Key theorems:
- `Tallied.balanced`: one step;
- `carrier_paid_eq`: a whole run, and the escrow after a delivery.
-/
import Navin.Solvency
import Navin.Stranding

namespace Navin

variable {H : Host}

/-! ### The count -/

/-- The calls that empty an escrow otherwise than by paying the carrier for a
delivery. -/
def Call.exits : Call → Bool
  | .cancelShipment .. | .forceCancelShipment .. | .checkDeadline .. | .refundEscrow ..
  | .resolveDispute .. | .unlockEscrow .. => true
  | _ => false

/-- The call concerns the shipment, and is one of these or executes a proposal. -/
def World.Leaves (w : World H) (call : Call) (id : ℕ) : Prop :=
  w.Concerns call id ∧ (call.exits = true ∨ w.executing call ≠ none)

def World.carrierOf (w : World H) (id : ℕ) : Option Address := (w.getShipment id).map (·.carrier)

/-- The platform fee a trace tells of for a shipment. -/
def feesOf (id : ℕ) (trace : List Effect) : ℤ :=
  (trace.map fun
    | .event (.platformFeeCollected target _ amount _) => if target = id then amount else 0
    | _ => 0).sum

/-- What a step brings into the escrow of a shipment: a deposit less its fee. -/
def netDeposit (id : ℕ) : Label → ℤ
  | .committed (.depositEscrow _ target amount) _ trace =>
    if target = id then amount - feesOf id trace else 0
  | _ => 0

/-- What a step pays for a shipment to the carrier it has then. A fee is paid to
the treasury, whoever that is. -/
def paidToCarrier (w : World H) (id : ℕ) : Label → ℤ
  | .committed (.depositEscrow ..) _ _ => 0
  | .committed call _ trace =>
    if call.target? = some id then
      (((transfersOut H.currentContractAddress trace).filter fun o =>
        w.carrierOf id = some o.1).map (·.2)).sum
    else 0
  | _ => 0

/-- The step is none of the other ways out of the escrow. -/
def Label.Stays (w : World H) (id : ℕ) : Label → Prop
  | .committed call _ _ => ¬w.Leaves call id
  | _ => True

/-- The chain, and what one shipment has received and paid so far. -/
structure Tally (H : Host) where
  chain : Chain H
  deposited : ℤ
  paid : ℤ

/-- A step that is counted. -/
inductive Tallied (id : ℕ) : Tally H → Label → Tally H → Prop
  | mk {t : Tally H} {l : Label} {c : Chain H} : Step t.chain l c → l.Stays t.chain.world id →
      Tallied id t l ⟨c, t.deposited + netDeposit id l, t.paid + paidToCarrier t.chain.world id l⟩

/-! ### One posting -/

variable {env : Env} {w w' : World H} {call : Call} {p : Posting}

/-- A call that does not leave the escrow and is no deposit pays the carrier only. -/
theorem Rule.payouts (hr : Rule env w call p) (hl : ¬w.Leaves call p.old.id)
    (hd : ∀ source id amount, call ≠ .depositEscrow source id amount) :
    ∀ m ∈ p.moves, PayoutOf p.old.carrier m := by
  have hconc := hr.concerns
  have hexits : call.exits = true → False := fun h => hl ⟨hconc, .inl h⟩
  intro m hm
  cases hr with
  | @confirmDelivery s => exact s.payoutOf_payMoves hm
  | @confirmPartialDelivery s => exact s.payoutOf_payMoves hm
  | @recordMilestone s => exact s.payoutOf_milestoneMoves hm
  | @recordMilestonesBatch s items =>
    exact (s.batchOf_payBatch env.timestamp (items.map (·.1))).moves m hm
  | @releaseMilestonePayment _ s => exact s.payoutOf_milestoneMoves hm
  | @releaseEscrow _ s => exact s.payoutOf_payMoves hm
  | depositEscrow => exact absurd rfl (hd _ _ _)
  | cancelShipment => exact (hexits rfl).elim
  | forceCancelShipment => exact (hexits rfl).elim
  | checkDeadline => exact (hexits rfl).elim
  | refundEscrow => exact (hexits rfl).elim
  | releaseToCarrier => exact (hexits rfl).elim
  | refundToCompany => exact (hexits rfl).elim
  | forceRelease hx => exact absurd ⟨hconc, .inr (by rw [hx]; simp)⟩ hl
  | forceRefund hx => exact absurd ⟨hconc, .inr (by rw [hx]; simp)⟩ hl
  | _ => cases hm

theorem PayoutOf.out? {carrier : Address} {m : Movement} (h : PayoutOf carrier m)
    {o : Address × ℤ} (ho : m.out? = some o) : o.1 = carrier := by
  cases h with
  | release => cases ho; rfl
  | milestone => cases ho

theorem inflow_payouts {carrier : Address} {ms : List Movement} (h : ∀ m ∈ ms, PayoutOf carrier m) :
    inflow ms = 0 := by
  induction ms with
  | nil => rfl
  | cons m ms ih =>
    rw [inflow_cons, ih fun n hn => h n (by simp [hn]), add_zero]
    cases h m (by simp) <;> rfl

/-- The fee a payment tells of for a shipment. -/
def Payment.feeFor (id : ℕ) : Payment → ℤ
  | fee target _ amount => if target = id then amount else 0
  | _ => 0

/-- The fee a movement pays. -/
def Movement.feePaid : Movement → ℤ
  | fee _ amount => amount
  | _ => 0

theorem feesOf_eq (id : ℕ) (trace : List Effect) :
    feesOf id trace = ((paymentsOf trace).map (·.feeFor id)).sum := by
  unfold feesOf paymentsOf
  induction trace with
  | nil => rfl
  | cons e trace ih =>
    rw [List.map_cons, List.sum_cons, ih, List.filterMap_cons]
    -- an effect that tells of no payment counts for nothing
    cases e with
    | auth => exact zero_add _
    | transfer => exact (List.sum_cons ..).symm
    | event ev => cases ev <;> first | exact zero_add _ | exact (List.sum_cons ..).symm

theorem feeFor_pays (self t : Address) (id target : ℕ) (ms : List Movement) :
    ((ms.flatMap (·.pays self t target)).map (·.feeFor id)).sum =
      if target = id then (ms.map (·.feePaid)).sum else 0 := by
  induction ms with
  | nil => simp
  | cons m ms ih =>
    rw [List.flatMap_cons, List.map_append, List.sum_append, ih, List.map_cons, List.sum_cons]
    cases m with
    | settled n => cases n <;> simp [Movement.pays, Notice.payment, Payment.feeFor, Movement.feePaid]
    | bare n => cases n <;> simp [Movement.pays, Notice.payment, Payment.feeFor, Movement.feePaid]
    | announced => simp [Movement.pays, Payment.feeFor, Movement.feePaid]
    | milestone => simp [Movement.pays, Payment.feeFor, Movement.feePaid]
    | deposit => simp [Movement.pays, Payment.feeFor, Movement.feePaid]
    | fee =>
      by_cases h : target = id
      · simp [Movement.pays, Payment.feeFor, Movement.feePaid, h]
      · simp [Movement.pays, Payment.feeFor, h]

/-- The fees a posting tells of are the fees it pays. -/
theorem PostedBy.feesOf_eq (hp : PostedBy env w.fresh call p w'.book) (id : ℕ) :
    feesOf id w'.trace = if p.old.id = id then (p.moves.map (·.feePaid)).sum else 0 := by
  obtain ⟨t, token, -, -, hb⟩ := hp.posted
  have hpays : paymentsOf w'.trace = p.pays H.currentContractAddress t := congrArg Book.pays hb
  rw [Navin.feesOf_eq, hpays, Posting.pays, feeFor_pays]

theorem feePaid_feeMoves (config : Option FeeConfig) (x : ℤ) :
    ((feeMoves config x).map (·.feePaid)).sum = outflow (feeMoves config x) := by
  unfold feeMoves
  cases config with
  | none => rfl
  | some c =>
    dsimp only
    split <;> simp [Movement.feePaid]

theorem paidToCarrier_of_nil {trace : List Effect} (h : paymentsOf trace = []) (id : ℕ) :
    paidToCarrier w id (.committed call env trace) = 0 := by
  have hout : transfersOut H.currentContractAddress trace = [] := by
    rw [transfersOut_eq, h]
    rfl
  unfold paidToCarrier
  split
  · rfl
  · rename_i heq
    cases heq
    rw [hout]
    simp
  · rfl

theorem netDeposit_of_posts {trace : List Effect} (h : call.posts = false) (id : ℕ) :
    netDeposit id (.committed call env trace) = 0 := by
  cases call <;> first | rfl | cases h

/-- A call pays for the shipment it is about and for no other. -/
theorem paidToCarrier_of_ne {trace : List Effect} {id : ℕ} (h : call.target? ≠ some id) :
    paidToCarrier w id (.committed call env trace) = 0 := by
  unfold paidToCarrier
  split
  · rfl
  · rename_i heq
    cases heq
    exact if_neg h
  · rfl

theorem netDeposit_of_ne {trace : List Effect} {id : ℕ} (h : call.target? ≠ some id) :
    netDeposit id (.committed call env trace) = 0 := by
  unfold netDeposit
  split
  · rename_i heq
    cases heq
    exact if_neg fun he => h (congrArg some he)
  · rfl

/-- A posting that pays the carrier: the escrow lost what he was paid. -/
theorem PostedBy.paidToCarrier_eq (hp : PostedBy env w.fresh call p w'.book)
    (hs : w.fresh.ledger.Sound) (hself : env.auth H.currentContractAddress = false)
    (hl : ¬w.Leaves call p.old.id) (hd : ∀ source id amount, call ≠ .depositEscrow source id amount) :
    paidToCarrier w p.old.id (.committed call env w'.trace) =
      p.old.escrowAmount - p.new.escrowAmount := by
  have hl' : ¬w.fresh.Leaves call p.old.id := hl
  obtain ⟨h₀, -⟩ := hp.bounds hs
  have hpay := hp.rule.payouts hl' hd
  have hexec : w.fresh.executing call = none := by
    by_contra hne
    exact hl' ⟨hp.rule.concerns, .inr hne⟩
  have htarget : call.target? = some p.old.id := by
    rcases hp.rule.concerns with h | h | h
    · exact h
    · rw [hexec] at h
      cases h
    · rw [hexec] at h
      cases h
  have hdrops : call.drops = false := by
    by_contra hne
    have hexits : call.exits = true := by
      cases call <;> first | rfl | exact absurd rfl hne
    exact hl' ⟨hp.rule.concerns, .inl hexits⟩
  have hcarrier : w.carrierOf p.old.id = some p.old.carrier := congrArg (Option.map _) hp.stored
  -- every transfer of the call goes to the carrier
  have hall : (p.moves.filterMap (·.out?)).filter (fun o => w.carrierOf p.old.id = some o.1) =
      p.moves.filterMap (·.out?) := by
    rw [List.filter_eq_self]
    intro o ho
    obtain ⟨m, hm, hmo⟩ := List.mem_filterMap.mp ho
    rw [hcarrier, (hpay m hm).out? hmo]
    simp
  have hb := hp.rule.balanced h₀
  rw [hdrops, inflow_payouts hpay, if_neg Bool.false_ne_true] at hb
  unfold paidToCarrier
  split
  · rename_i heq
    cases heq
    exact absurd rfl (hd _ _ _)
  · rename_i heq
    cases heq
    rw [if_pos htarget, hp.transfersOut_eq hself h₀, hall, sum_out?]
    omega
  · rename_i hne
    exact absurd rfl (hne _ _ _)

/-- A deposit: the escrow holds what came in less the fee. -/
theorem PostedBy.netDeposit_eq {source : Address} {id : ℕ} {amount : ℤ}
    (hp : PostedBy env w.fresh (.depositEscrow source id amount) p w'.book)
    (hs : w.fresh.ledger.Sound) : p.new.escrowAmount = p.old.escrowAmount +
      netDeposit p.old.id (.committed (.depositEscrow source id amount) env w'.trace) := by
  obtain ⟨h₀, -⟩ := hp.bounds hs
  have hfees := hp.feesOf_eq p.old.id
  rw [if_pos rfl] at hfees
  cases hr : hp.rule with
  | @depositEscrow _ s _ _ _ _ _ hle =>
    have hn := netOfFee_add w.fresh.governance.feeConfig amount
    rw [List.map_cons, List.sum_cons, feePaid_feeMoves] at hfees
    change feesOf s.id w'.trace = 0 + _ at hfees
    have h₀ : 0 ≤ s.escrowAmount := h₀
    simp only [netDeposit, if_pos]
    rw [hfees]
    change netOfFee w.fresh.governance.feeConfig amount = _
    omega
  | forceRelease hx => cases hx
  | forceRefund hx => cases hx

/-! ### Steps and runs -/

/-- What an escrow holds after a committed call, and what the call paid from it. -/
theorem Effects.escrowOf_eq (he : Effects env w.fresh call w'.book) (hs : w.fresh.ledger.Sound)
    (hself : env.auth H.currentContractAddress = false) {id : ℕ} (hl : ¬w.Leaves call id) :
    w'.ledger.escrowOf id + paidToCarrier w id (.committed call env w'.trace) =
      w.ledger.escrowOf id + netDeposit id (.committed call env w'.trace) := by
  rcases he.idle_or_posted hs with ⟨hposts, hpays, hidle⟩ | ⟨p, hp⟩
  · have hpays : paymentsOf w'.trace = [] := hpays
    have heq : w'.ledger.escrowOf id = w.ledger.escrowOf id := congrFun hidle.escrowOf_eq id
    rw [heq, paidToCarrier_of_nil hpays, netDeposit_of_posts hposts]
  · have hg := hp.stored
    by_cases hid : id = p.old.id
    · subst hid
      have hold : w.ledger.escrowOf p.old.id = p.old.escrowAmount := w.ledger.escrowOf_of_some hg
      have hnew : w'.ledger.escrowOf p.old.id = p.new.escrowAmount :=
        (hp.escrowOf_eq p.old.id).trans (if_pos rfl)
      rw [hold, hnew]
      by_cases hd : ∃ source id amount, call = .depositEscrow source id amount
      · obtain ⟨source, id, amount, rfl⟩ := hd
        have := hp.netDeposit_eq hs
        change _ + 0 = _
        omega
      · have hd : ∀ source id amount, call ≠ .depositEscrow source id amount :=
          fun source id amount h => hd ⟨source, id, amount, h⟩
        have hnone : netDeposit p.old.id (.committed call env w'.trace) = 0 := by
          unfold netDeposit
          split
          · rename_i heq
            cases heq
            exact absurd rfl (hd _ _ _)
          · rfl
        rw [hp.paidToCarrier_eq hs hself hl hd, hnone]
        omega
    · -- a posting on another shipment
      have htarget : call.target? ≠ some id := fun ht => hid (hp.rule.concerns.eq_of_target ht).symm
      have hsame : w'.ledger.escrowOf id = w.ledger.escrowOf id :=
        (hp.escrowOf_eq id).trans (if_neg hid)
      rw [hsame, paidToCarrier_of_ne htarget, netDeposit_of_ne htarget]

/-- What a counted step keeps. -/
structure Tally.Balanced (id : ℕ) (t : Tally H) : Prop where
  sound : t.chain.world.ledger.Sound
  balanced : t.paid + t.chain.world.ledger.escrowOf id = t.deposited

theorem Tallied.balanced {id : ℕ} {t t' : Tally H} {l : Label} (h : Tallied id t l t')
    (hb : t.Balanced id) : t'.Balanced id := by
  cases h with
  | mk hstep hstay =>
    refine ⟨hstep.sound hb.sound, ?_⟩
    have hbal := hb.balanced
    cases hstep with
    | @committed call env w' ha hx =>
      have hs : t.chain.world.fresh.ledger.Sound := hb.sound
      have he := (exec_effects hs.keyed hx).escrowOf_eq hs ha.self hstay
      change t.paid + paidToCarrier t.chain.world id _ + w'.ledger.escrowOf id =
        t.deposited + netDeposit id _
      omega
    | reverted =>
      change t.paid + 0 + t.chain.world.ledger.escrowOf id = t.deposited + 0
      omega
    | outside =>
      change t.paid + 0 + t.chain.world.ledger.escrowOf id = t.deposited + 0
      omega

/-- A confirmed delivery leaves nothing in escrow. -/
theorem PostedBy.escrow_of_confirmDelivery {receiver : Address} {id : ℕ} {hash : BytesN32}
    {b : Book H.Token} (hp : PostedBy env w (.confirmDelivery receiver id hash) p b)
    (hs : w.ledger.Sound) : p.new.escrowAmount = 0 := by
  obtain ⟨h₀, -⟩ := hp.bounds hs
  cases hp.rule with
  | @confirmDelivery s =>
    have hall := s.payable_all h₀
    change s.escrowAmount - s.payable s.escrowAmount = 0
    omega
  | forceRelease hx => cases hx
  | forceRefund hx => cases hx

/-- A partial delivery completes the shipment exactly when it empties the escrow. -/
theorem PostedBy.escrow_of_confirmPartialDelivery {receiver : Address} {id percent : ℕ}
    {hash : BytesN32} {b : Book H.Token}
    (hp : PostedBy env w (.confirmPartialDelivery receiver id hash percent) p b) :
    (p.new.escrowAmount = 0 ∧ p.new.status = .delivered) ∨
      (0 < p.new.escrowAmount ∧ p.new.status = .partiallyDelivered) := by
  cases hp.rule with
  | @confirmPartialDelivery s _ _ status _ _ hpos hle hst =>
    have hpay : s.payable (s.share percent) = s.share percent := by
      unfold Shipment.payable
      omega
    have hnew : s.escrowAmount - s.payable (s.share percent) = s.escrowAmount - s.share percent := by
      rw [hpay]
    by_cases heq : s.share percent = s.escrowAmount
    · rw [if_pos heq] at hst
      refine .inl ⟨?_, hst⟩
      change s.escrowAmount - s.payable (s.share percent) = 0
      omega
    · rw [if_neg heq] at hst
      refine .inr ⟨?_, hst⟩
      change 0 < s.escrowAmount - s.payable (s.share percent)
      omega
  | forceRelease hx => cases hx
  | forceRefund hx => cases hx

/-- Along every run from a deployed contract in which the escrow of a shipment has
no way out but to its carriers, they were paid what was deposited less what is
left; and a delivery confirmed in full or in the last part leaves nothing. -/
theorem carrier_paid_eq {d : Chain H} (hd : Deployed d) {id : ℕ} {ls : List Label} {t : Tally H}
    (hr : Run (Tallied id) ⟨d, 0, 0⟩ ls t) {s : Shipment}
    (hs : t.chain.world.getShipment id = some s) :
    t.paid = t.deposited - s.escrowAmount ∧ t.paid ≤ t.deposited ∧
    ∀ call env trace c' s', Step t.chain (.committed call env trace) c' →
      c'.world.getShipment id = some s' →
      (∀ receiver hash, call = .confirmDelivery receiver id hash → s'.escrowAmount = 0) ∧
      ∀ receiver hash percent, call = .confirmPartialDelivery receiver id hash percent →
        (s'.status = .delivered → s'.escrowAmount = 0) ∧
        (0 < s'.escrowAmount → s'.status = .partiallyDelivered) := by
  have hinv : t.Balanced id := hr.inv ⟨hd.sound, by cases hd; rfl⟩ fun _ _ _ hb h => h.balanced hb
  have hbal := hinv.balanced
  rw [t.chain.world.ledger.escrowOf_of_some hs] at hbal
  have h₀ := hinv.sound.escrow_nonneg id s hs
  refine ⟨by omega, by omega, fun call env trace c' s' hstep hs' => ?_⟩
  cases hstep with
  | @committed _ _ w' ha hx =>
  have hsound : t.chain.world.fresh.ledger.Sound := hinv.sound
  have he := exec_effects hsound.keyed hx
  -- the posting of the call is on this shipment
  have hnew : ∀ p, PostedBy env t.chain.world.fresh call p w'.book → call.target? = some id →
      p.new = s' := by
    intro p hp ht
    have hid : p.old.id = id := hp.rule.concerns.eq_of_target ht
    have hget := hp.getShipment id
    rw [if_pos hid.symm] at hget
    exact Option.some.inj (hget.symm.trans hs')
  constructor
  · rintro receiver hash rfl
    obtain ⟨p, hp⟩ := he.exists_posting rfl
    rw [← hnew p hp rfl]
    exact hp.escrow_of_confirmDelivery hsound
  · rintro receiver hash percent rfl
    obtain ⟨p, hp⟩ := he.exists_posting rfl
    rw [← hnew p hp rfl]
    rcases hp.escrow_of_confirmPartialDelivery with ⟨h, hst⟩ | ⟨h, hst⟩
    · exact ⟨fun _ => h, fun hpos => by omega⟩
    · exact ⟨fun h' => absurd (hst.symm.trans h') (by decide), fun _ => hst⟩

/-! ### Runs of delivery and payout calls -/

/-- The calls that may execute a proposal. -/
def Call.executes : Call → Bool
  | .approveAction .. | .executeProposal .. => true
  | _ => false

theorem executing_eq_none (h : call.executes = false) (w : World H) : w.executing call = none := by
  cases call <;> first | rfl | cases h

/-- A step that cannot leave any escrow by another way: neither one of those calls
nor the execution of a proposal. -/
def Label.Inside : Label → Prop
  | .committed call _ _ => call.exits = false ∧ call.executes = false
  | _ => True

instance : DecidablePred Label.Inside
  | .committed call _ _ => inferInstanceAs (Decidable (call.exits = false ∧ call.executes = false))
  | .reverted .. => instDecidableTrue
  | .outside => instDecidableTrue

theorem Label.Inside.stays {l : Label} (h : l.Inside) (w : World H) (id : ℕ) : l.Stays w id := by
  cases l with
  | committed call env trace =>
    rintro ⟨-, hexits | hexec⟩
    · rw [h.1] at hexits
      cases hexits
    · exact hexec (executing_eq_none h.2 w)
  | reverted => trivial
  | outside => trivial

/-- Such a run can be counted for any shipment. -/
theorem Run.tallied {c c' : Chain H} {ls : List Label} (hr : Run Step c ls c')
    (hls : ∀ l ∈ ls, l.Inside) (id : ℕ) : ∃ t : Tally H, Run (Tallied id) ⟨c, 0, 0⟩ ls t ∧
      t.chain = c' ∧ t.deposited = (ls.map (netDeposit id)).sum := by
  induction hr with
  | nil => exact ⟨⟨c, 0, 0⟩, .nil, rfl, rfl⟩
  | @snoc ls l _ c'' _ hstep ih =>
    obtain ⟨t, ht, rfl, hdep⟩ := ih fun k hk => hls k (by simp [hk])
    refine ⟨_, .snoc ht (.mk hstep ((hls l (by simp)).stays _ id)), rfl, ?_⟩
    rw [List.map_append, List.sum_append, ← hdep]
    simp

/-- A deposit of 1000, a milestone of 400, a partial delivery of 30 percent, then the
shipment is handed over: 700 were paid by then. -/
theorem carrier_paid_eq_after_handoff : ∃ (ls : List Label) (t : Tally Deployment.host),
    Run (Tallied 1) ⟨Deployment.chain, 0, 0⟩ ls t ∧ t.deposited = 1000 ∧ t.paid = 700 ∧
      t.chain.world.carrierOf 1 = some Deployment.treasury := by
  obtain ⟨ls, c, hr, -, hls, hdep, hesc, hcar⟩ := exists_play Deployment.chain
    (Deployment.opening ++ [
      Deployment.signed Deployment.admin 5 (.addCarrier Deployment.admin Deployment.treasury),
      Deployment.signed Deployment.company 6 (.depositEscrow Deployment.company 1 1000),
      Deployment.signed Deployment.carrier 7 (.updateStatus Deployment.carrier 1 .inTransit 2),
      Deployment.signed Deployment.carrier 8
        (.recordMilestone Deployment.carrier 1 Deployment.pickup 3),
      Deployment.signed Deployment.receiver 9 (.confirmPartialDelivery Deployment.receiver 1 4 30),
      Deployment.signed Deployment.carrier 10
        (.handoffShipment Deployment.carrier Deployment.treasury 1 5)])
    (fun r => (∀ l ∈ r.1, l.Inside) ∧ (r.1.map (netDeposit 1)).sum = 1000 ∧
      (r.2.world.getShipment 1).map (·.escrowAmount) = some 300 ∧
      r.2.world.carrierOf 1 = some Deployment.treasury)
    (by decide +kernel)
  obtain ⟨s, hg, hs⟩ := Option.map_eq_some_iff.mp hesc
  obtain ⟨t, ht, rfl, hd⟩ := hr.tallied hls 1
  have hpaid := (carrier_paid_eq Deployment.deployed ht hg).1
  have hdep : t.deposited = 1000 := hd.trans hdep
  exact ⟨ls, t, ht, hdep, by omega, hcar⟩

end Navin
