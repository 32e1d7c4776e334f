/-
# Where an escrow goes

What an escrow loses in a call leaves the contract in the same call, for the
carrier or the sender, except in a cancellation of a funded shipment and when an
escrow is unlocked.

Key definitions:
- `transfersOut`: the transfers out of the contract in a trace;
- `Strands`: the two exceptions.

Key theorems:
- `lowered_escrow_paid_iff`.
-/
import Navin.Sound
import Navin.Token

namespace Navin

variable {H : Host}

/-! ### The transfers of a trace -/

/-- Who was paid out of the contract in a trace, and how much. -/
def transfersOut (self : Address) (trace : List Effect) : List (Address × ℤ) :=
  trace.filterMap fun
    | .transfer _ source target amount => if source = self then some (target, amount) else none
    | _ => none

/-- The payment takes money out of the holder's account. -/
def Payment.out? (self : Address) : Payment → Option (Address × ℤ)
  | .moved _ source target amount => if source = self then some (target, amount) else none
  | _ => none

theorem transfersOut_eq (self : Address) (trace : List Effect) :
    transfersOut self trace = (paymentsOf trace).filterMap (·.out? self) := by
  unfold transfersOut paymentsOf
  rw [List.filterMap_filterMap]
  refine List.filterMap_congr fun e _ => ?_
  cases e with
  | auth => rfl
  | transfer => rfl
  | event ev => cases ev <;> rfl

theorem MoveOf.out?_pays {env : Env} {s : Shipment} {self : Address} {m : Movement}
    (hm : MoveOf env s m) (t : Address) (id : ℕ) (hself : env.auth self = false) :
    (m.pays self t id).filterMap (·.out? self) = m.out?.toList := by
  cases hm with
  | @deposit source x _ ha =>
    have hne : source ≠ self := fun he => by rw [he, hself] at ha; cases ha
    simp [Movement.pays, Payment.out?, Movement.out?, hne]
  | _ => simp [Movement.pays, Notice.payment, Payment.out?, Movement.out?]

/-- The transfers out of the contract that a posting leaves in the trace are those
of its movements. -/
theorem out?_pays_of_moves {env : Env} {s : Shipment} {self : Address} {ms : List Movement}
    (hms : ∀ m ∈ ms, MoveOf env s m) (t : Address) (id : ℕ) (hself : env.auth self = false) :
    (ms.flatMap (·.pays self t id)).filterMap (·.out? self) = ms.filterMap (·.out?) := by
  induction ms with
  | nil => rfl
  | cons m ms ih =>
    rw [List.flatMap_cons, List.filterMap_append, ih fun n hn => hms n (by simp [hn]),
      (hms m (by simp)).out?_pays t id hself, List.filterMap_cons]
    cases m.out? <;> rfl

/-- A sum over what is there, as a sum over everything. -/
theorem sum_filterMap {α β : Type} (f : α → Option β) (g : β → ℤ) (xs : List α) :
    ((xs.filterMap f).map g).sum = (xs.map fun x => ((f x).map g).getD 0).sum := by
  induction xs with
  | nil => rfl
  | cons x xs ih =>
    rw [List.filterMap_cons, List.map_cons, List.sum_cons, ← ih]
    cases f x <;> simp

theorem sum_out? (ms : List Movement) : ((ms.filterMap (·.out?)).map (·.2)).sum = outflow ms :=
  sum_filterMap _ _ ms

/-- The transfers out of the contract of a call that made a posting. -/
theorem PostedBy.transfersOut_eq {env : Env} {w w' : World H} {call : Call} {p : Posting}
    (h : PostedBy env w.fresh call p w'.book) (hself : env.auth H.currentContractAddress = false)
    (h₀ : 0 ≤ p.old.escrowAmount) :
    transfersOut H.currentContractAddress w'.trace = p.moves.filterMap (·.out?) := by
  obtain ⟨t, token, _, _, hb⟩ := h.posted
  have hp : paymentsOf w'.trace = p.pays H.currentContractAddress t := congrArg Book.pays hb
  rw [Navin.transfersOut_eq, hp]
  exact out?_pays_of_moves (fun m hm => h.rule.moveOf h₀ hm) t p.old.id hself

/-! ### The exceptions -/

/-- The calls that zero an escrow and pay nobody: a cancellation of a shipment
that holds escrow, and unlocking an escrow. -/
def Strands (w : World H) : Call → Prop
  | .cancelShipment _ id _ => ∃ s, w.getShipment id = some s ∧ 0 < s.escrowAmount
  | .unlockEscrow .. => True
  | _ => False

/-- What the record `s` lost on its way to `s'` was paid to its carrier or its
sender in the trace. -/
def LossPaid (self : Address) (trace : List Effect) (s s' : Shipment) : Prop :=
  s'.escrowAmount < s.escrowAmount →
    ((transfersOut self trace).map (·.2)).sum = s.escrowAmount - s'.escrowAmount ∧
    ∀ o ∈ transfersOut self trace, o.1 = s.carrier ∨ o.1 = s.sender

variable {env : Env} {w w' : World H} {call : Call} {p : Posting}

/-- Nothing is paid into an escrow that is not empty. -/
theorem inflow_eq_zero {s : Shipment} {ms : List Movement} (hms : ∀ m ∈ ms, MoveOf env s m)
    (hs : 0 < s.escrowAmount) : inflow ms = 0 := by
  induction ms with
  | nil => rfl
  | cons m ms ih =>
    rw [inflow_cons, ih fun n hn => hms n (by simp [hn]), add_zero]
    cases hms m (by simp) with
    | deposit _ _ hle => omega
    | _ => rfl

/-- Payments out of an escrow that is not empty go to the carrier or the sender. -/
theorem recipient_of_moves {s : Shipment} {ms : List Movement} (hms : ∀ m ∈ ms, MoveOf env s m)
    (hs : 0 < s.escrowAmount) {o : Address × ℤ} (ho : o ∈ ms.filterMap (·.out?)) :
    o.1 = s.carrier ∨ o.1 = s.sender := by
  obtain ⟨m, hm, hmo⟩ := List.mem_filterMap.mp ho
  cases hms m hm with
  | release => cases hmo; exact .inl rfl
  | refund => cases hmo; exact .inr rfl
  | bareRelease => cases hmo; exact .inl rfl
  | bareRefund => cases hmo; exact .inr rfl
  | fee _ hle => omega
  | _ => cases hmo

/-- A posting of a call that does not drop escrow pays what the record loses. -/
theorem PostedBy.lossPaid (h : PostedBy env w.fresh call p w'.book) (hs : w.fresh.ledger.Sound)
    (hself : env.auth H.currentContractAddress = false) (hd : call.drops = false) :
    LossPaid H.currentContractAddress w'.trace p.old p.new := by
  intro hlt
  obtain ⟨h₀, hnew⟩ := h.bounds hs
  have hms : ∀ m ∈ p.moves, MoveOf env p.old m := fun m hm => h.rule.moveOf h₀ hm
  have hb := h.rule.balanced h₀
  rw [hd, inflow_eq_zero hms (by omega), if_neg Bool.false_ne_true] at hb
  rw [h.transfersOut_eq hself h₀]
  refine ⟨?_, fun o ho => recipient_of_moves hms (by omega) ho⟩
  rw [sum_out?]
  omega

/-- A posting of a call that drops escrow pays nobody. -/
theorem Rule.moves_of_drops (hr : Rule env w call p) (hd : call.drops = true) :
    p.new.escrowAmount = 0 ∧ p.moves.filterMap (·.out?) = [] := by
  cases hr with
  | cancelShipment =>
    refine ⟨rfl, ?_⟩
    unfold payAll
    split <;> rfl
  | unlockEscrow => exact ⟨rfl, rfl⟩
  | forceRelease hx => rw [drops_of_executing hx] at hd; cases hd
  | forceRefund hx => rw [drops_of_executing hx] at hd; cases hd
  | _ => cases hd

/-- Of the calls that drop escrow, those that find some. -/
theorem Rule.strands_iff (hr : Rule env w call p) (hs : w.getShipment p.old.id = some p.old)
    (h₀ : 0 ≤ p.old.escrowAmount) (hd : call.drops = true) :
    Strands w call ↔ 0 < p.old.escrowAmount := by
  cases hr with
  | @cancelShipment _ s =>
    constructor
    · rintro ⟨t, ht, hpos⟩
      obtain rfl : t = s := Option.some.inj (ht.symm.trans hs)
      exact hpos
    · exact fun hpos => ⟨s, hs, hpos⟩
  | unlockEscrow _ hne => exact ⟨fun _ => lt_of_le_of_ne h₀ (Ne.symm hne), fun _ => trivial⟩
  | forceRelease hx => rw [drops_of_executing hx] at hd; cases hd
  | forceRefund hx => rw [drops_of_executing hx] at hd; cases hd
  | _ => cases hd

theorem Strands.drops (h : Strands w call) : call.drops = true ∧ call.posts = true := by
  cases call <;> first | exact ⟨rfl, rfl⟩ | cases h

/-- In every reachable state and for every committed call, what any record loses
is paid to its carrier or sender in the same call exactly when the call is no
cancellation of a shipment that holds escrow and does not unlock an escrow. -/
theorem lowered_escrow_paid_iff {c c' : Chain H} (hc : Reachable c) {call : Call} {env : Env}
    {trace : List Effect} (hstep : Step c (.committed call env trace) c') :
    (∀ id s s', c.world.getShipment id = some s → c'.world.getShipment id = some s' →
      LossPaid H.currentContractAddress trace s s') ↔ ¬Strands c.world call := by
  cases hstep with
  | @committed _ _ w' ha hx =>
  have hs : c.world.fresh.ledger.Sound := hc.sound
  have he := exec_effects hs.keyed hx
  constructor
  · intro hall hstr
    obtain ⟨p, hp⟩ := he.exists_posting hstr.drops.2
    have hpos : 0 < p.old.escrowAmount :=
      (hp.rule.strands_iff hp.stored (hp.bounds hs).1 hstr.drops.1).mp hstr
    obtain ⟨hnew, hout⟩ := hp.rule.moves_of_drops hstr.drops.1
    have hg' : w'.ledger.getShipment p.old.id = some p.new := hp.stored_new
    have hl := hall p.old.id p.old p.new hp.stored hg' (by omega)
    -- nothing was paid, and something was lost
    rw [hp.transfersOut_eq ha.self (hp.bounds hs).1, hout] at hl
    have hsum := hl.1
    rw [List.map_nil, List.sum_nil] at hsum
    omega
  · intro hstr id s s' hg hg'
    obtain ⟨s₁, hs₁, hcase⟩ := he.record hs hg
    obtain rfl : s₁ = s' := Option.some.inj (hs₁.symm.trans hg')
    rcases hcase with rfl | ⟨p, hp, rfl, rfl⟩
    · exact fun hlt => absurd hlt (lt_irrefl _)
    · by_cases hd : call.drops = true
      · -- an empty escrow was dropped
        intro hlt
        refine absurd ((hp.rule.strands_iff hp.stored (hp.bounds hs).1 hd).mpr ?_) hstr
        have := (hp.bounds hs).2
        omega
      · exact hp.lossPaid hs ha.self (by simpa using hd)

/-- The first milestone of a deposit of 1000 takes 400 out of the escrow and pays
them to the carrier. -/
theorem lowered_escrow_paid_by_milestone : ∃ (c c' : Chain Deployment.host) (call : Call) (env : Env)
    (trace : List Effect), Reachable c ∧ Step c (.committed call env trace) c' ∧
      transfersOut Deployment.self trace = [(Deployment.carrier, 400)] ∧
      ∀ id s s', c.world.getShipment id = some s → c'.world.getShipment id = some s' →
        LossPaid Deployment.self trace s s' := by
  obtain ⟨ls, c, trace, c', hr, hstep, hout⟩ := exists_commit Deployment.chain
    (Deployment.opening ++ [
      Deployment.signed Deployment.company 5 (.depositEscrow Deployment.company 1 1000),
      Deployment.signed Deployment.carrier 6 (.updateStatus Deployment.carrier 1 .inTransit 2)])
    (.recordMilestone Deployment.carrier 1 Deployment.pickup 3)
    ⟨7, 7, fun a => a = Deployment.carrier, fun _ => true⟩
    (fun _ trace _ => transfersOut Deployment.self trace = [(Deployment.carrier, 400)])
    (by decide +kernel)
  have hc : Reachable c := ⟨_, ls, Deployment.deployed, hr⟩
  exact ⟨c, c', _, _, trace, hc, hstep, hout, (lowered_escrow_paid_iff hc hstep).mpr id⟩

/-- A cancellation after a deposit of 1000 zeroes the escrow and pays nobody. -/
theorem cancelShipment_strands_escrow : Deployment.host.MovesExactly ∧
    ¬∀ (c c' : Chain Deployment.host) (call : Call) (env : Env) (trace : List Effect), Reachable c →
      Step c (.committed call env trace) c' →
      ∀ id s s', c.world.getShipment id = some s → c'.world.getShipment id = some s' →
        LossPaid Deployment.self trace s s' := by
  refine ⟨tokenHost_movesExactly _ _, fun hall => ?_⟩
  obtain ⟨ls, c, trace, c', hr, hstep, hs, hs', hout⟩ := exists_commit Deployment.chain
    (Deployment.opening ++ [
      Deployment.signed Deployment.company 5 (.depositEscrow Deployment.company 1 1000)])
    (.cancelShipment Deployment.company 1 9)
    ⟨6, 6, fun a => a = Deployment.company, fun _ => true⟩
    (fun r trace c' => (r.2.world.getShipment 1).map (·.escrowAmount) = some 1000 ∧
      (c'.world.getShipment 1).map (·.escrowAmount) = some 0 ∧ transfersOut Deployment.self trace = [])
    (by decide +kernel)
  obtain ⟨s, hg, hs⟩ := Option.map_eq_some_iff.mp hs
  obtain ⟨s', hg', hs'⟩ := Option.map_eq_some_iff.mp hs'
  have hl := hall c c' _ _ trace ⟨_, ls, Deployment.deployed, hr⟩ hstep 1 s s' hg hg' (by omega)
  rw [hout, hs, hs'] at hl
  exact absurd hl.1 (by decide)

end Navin
