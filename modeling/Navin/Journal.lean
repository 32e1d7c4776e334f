/-
# The journal of a run

What the contract did with money in a run can be written down as a journal: one account for
each shipment, an entry for each transfer into or out of the contract, in the order of the
transfers, and an entry for whatever was written off. At the end every shipment holds what
its account holds. Every payment in is the signed deposit of somebody, every payment out
has its ground, and what is written off is the whole escrow of a shipment that its sender
or the admin cancelled, or that the admin unlocked.

Key definitions:
- `Item`, `Flow`: the entries, and what can be seen of them in the trace;
- `flowsOf`: the transfers of a trace into and out of the contract;
- `Grounded`, `Justified`: why an entry was made.

Key theorems:
- `PostedBy.enters`: the entries of a posting;
- `run_journaled`: the journal of a run.
-/
import Navin.Lib.Journals
import Navin.Warrants

namespace Navin

variable {H : Host} {env : Env} {w w' : World H} {call : Call} {trace : List Effect} {p : Posting}
  {s : Shipment} {m : Movement} {self : Address}

/-! ### Items and flows -/

/-- A transfer into or out of the contract. -/
inductive Flow where
  | into (source : Address) (amount : ℤ)
  | out (recipient : Address) (amount : ℤ)
  deriving DecidableEq

/-- An entry in the account of a shipment. -/
inductive Item where
  | paidIn (source : Address) (amount : ℤ)
  | paidOut (recipient : Address) (amount : ℤ)
  | writtenOff (amount : ℤ)
  deriving DecidableEq

namespace Item

def worth : Item → ℤ
  | paidIn _ amount => amount
  | paidOut _ amount => -amount
  | writtenOff amount => -amount

def flow? : Item → Option Flow
  | paidIn source amount => some (.into source amount)
  | paidOut recipient amount => some (.out recipient amount)
  | writtenOff _ => none

end Item

/-- The transfers of a trace into and out of the contract, in order. -/
def flowsOf (self : Address) (trace : List Effect) : List Flow :=
  trace.filterMap fun
    | .transfer _ source target amount =>
      if source = self then some (.out target amount)
      else if target = self then some (.into source amount)
      else none
    | _ => none

def Label.flows (self : Address) : Label → List Flow
  | .committed _ _ trace => flowsOf self trace
  | _ => []

def Payment.flow? (self : Address) : Payment → Option Flow
  | .moved _ source target amount =>
    if source = self then some (.out target amount)
    else if target = self then some (.into source amount)
    else none
  | _ => none

theorem flowsOf_eq (self : Address) (trace : List Effect) :
    flowsOf self trace = (paymentsOf trace).filterMap (·.flow? self) := by
  unfold flowsOf paymentsOf
  rw [List.filterMap_filterMap]
  refine List.filterMap_congr fun e _ => ?_
  cases e with
  | auth => rfl
  | transfer => rfl
  | event ev => cases ev <;> rfl

/-- The entry of a movement; what it announces is none. -/
def Movement.item? : Movement → Option Item
  | .settled _ recipient amount => some (.paidOut recipient amount)
  | .bare _ recipient amount => some (.paidOut recipient amount)
  | .fee treasury amount => some (.paidOut treasury amount)
  | .deposit source amount => some (.paidIn source amount)
  | _ => none

theorem Movement.item?_eq_paidOut {a : Address} {x : ℤ} (h : m.item? = some (.paidOut a x)) :
    m.out? = some (a, x) := by
  cases m with
  | settled => cases h; rfl
  | bare => cases h; rfl
  | fee => cases h; rfl
  | _ => cases h

theorem Movement.item?_eq_paidIn {a : Address} {x : ℤ} (h : m.item? = some (.paidIn a x)) :
    m = .deposit a x := by
  cases m with
  | deposit => cases h; rfl
  | _ => cases h

theorem Movement.item?_ne_writtenOff {x : ℤ} : m.item? ≠ some (.writtenOff x) := by
  intro h
  cases m <;> cases h

/-- What a movement shows of the flows is what its entry shows. -/
theorem MoveOf.flow?_pays (hm : MoveOf env s m) (t : Address) (id : ℕ) (hself : env.auth self = false) :
    (m.pays self t id).filterMap (·.flow? self) = (m.item?.bind Item.flow?).toList := by
  cases hm with
  | @deposit source x _ ha =>
    have hne : source ≠ self := fun he => by
      rw [he, hself] at ha
      cases ha
    simp [Movement.pays, Payment.flow?, Movement.item?, Item.flow?, hne]
  | _ => simp [Movement.pays, Notice.payment, Payment.flow?, Movement.item?, Item.flow?]

theorem flow?_pays_of_moves {ms : List Movement} (hms : ∀ m ∈ ms, MoveOf env s m) (t : Address) (id : ℕ)
    (hself : env.auth self = false) : (ms.flatMap (·.pays self t id)).filterMap (·.flow? self) =
      (ms.filterMap (·.item?)).filterMap Item.flow? := by
  induction ms with
  | nil => rfl
  | cons m ms ih =>
    have hrest := ih fun n hn => hms n (List.mem_cons_of_mem m hn)
    have hfirst := (hms m List.mem_cons_self).flow?_pays t id hself
    rw [List.flatMap_cons, List.filterMap_append, hrest, hfirst, List.filterMap_cons]
    cases m.item? with
    | none => rfl
    | some i => cases hi : i.flow? <;> simp [hi]

/-- The entries of the movements are worth what comes in less what goes out. -/
theorem worth_of_moves (ms : List Movement) :
    ((ms.filterMap (·.item?)).map Item.worth).sum = inflow ms - outflow ms := by
  induction ms with
  | nil => rfl
  | cons m ms ih =>
    have hm : ((m.item?).map Item.worth).getD 0 = m.inflow - m.outflow := by
      cases m <;> simp [Movement.item?, Item.worth]
    rw [inflow_cons, outflow_cons, List.filterMap_cons]
    cases hi : m.item? with
    | none =>
      rw [hi] at hm
      have hm : 0 = m.inflow - m.outflow := hm
      show ((ms.filterMap (·.item?)).map Item.worth).sum = _
      omega
    | some i =>
      rw [hi] at hm
      have hm : i.worth = m.inflow - m.outflow := hm
      show ((i :: ms.filterMap (·.item?)).map Item.worth).sum = _
      rw [List.map_cons, List.sum_cons]
      omega

/-! ### The entries of a posting -/

/-- The entries a posting makes: those of its movements, and what its call writes off. -/
def Posting.items (p : Posting) (call : Call) : List Item :=
  p.moves.filterMap (·.item?) ++
    if call.drops = true ∧ 0 < p.old.escrowAmount then [.writtenOff p.old.escrowAmount] else []

theorem Posting.worth_items (hr : Rule env w call p) (h₀ : 0 ≤ p.old.escrowAmount) :
    ((p.items call).map Item.worth).sum = p.new.escrowAmount - p.old.escrowAmount := by
  have hbal := hr.balanced h₀
  unfold items
  rw [List.map_append, List.sum_append, worth_of_moves]
  by_cases hd : call.drops = true
  · rw [if_pos hd] at hbal
    by_cases hpos : 0 < p.old.escrowAmount
    · rw [if_pos ⟨hd, hpos⟩]
      show _ + ([-p.old.escrowAmount] : List ℤ).sum = _
      rw [List.sum_singleton]
      omega
    · rw [if_neg fun h => hpos h.2]
      show _ + ([] : List ℤ).sum = _
      rw [List.sum_nil]
      omega
  · rw [if_neg hd] at hbal
    rw [if_neg fun h => hd h.1]
    show _ + ([] : List ℤ).sum = _
    rw [List.sum_nil]
    omega

theorem Posting.flows_items : (p.items call).filterMap Item.flow? =
    (p.moves.filterMap (·.item?)).filterMap Item.flow? := by
  unfold items
  split <;> simp [Item.flow?]

/-- Why an entry was made in the account of a shipment. -/
inductive Grounded (env : Env) (w : World H) (call : Call) (trace : List Effect) (s : Shipment) : Item → Prop
  | paidIn {source : Address} {x : ℤ} : call = .depositEscrow source s.id x → 0 < x →
      SignedBy trace source → s.status = .created → s.escrowAmount = 0 →
      Grounded env w call trace s (.paidIn source x)
  | paidOut {a : Address} {x : ℤ} : 0 < x → Warranted env w call trace s (a, x) →
      Grounded env w call trace s (.paidOut a x)
  | cancelled {a : Address} {hash : BytesN32} : call = .cancelShipment a s.id hash →
      SignedBy trace s.sender ∨ w.ByAdmin trace → s.status ≠ .delivered → s.status ≠ .disputed →
      0 < s.escrowAmount → Grounded env w call trace s (.writtenOff s.escrowAmount)
  | unlocked {a : Address} {hash : BytesN32} : call = .unlockEscrow a s.id hash → w.ByAdmin trace →
      0 < s.escrowAmount → Grounded env w call trace s (.writtenOff s.escrowAmount)

theorem Grounded.of_fresh {i : Item} (h : Grounded env w.fresh call trace s i) :
    Grounded env w call trace s i := by
  cases h with
  | paidIn hcall hx hsig hst hzero => exact .paidIn hcall hx hsig hst hzero
  | paidOut hx hw => exact .paidOut hx hw.of_fresh
  | cancelled hcall hsig hdel hdis hpos => exact .cancelled hcall hsig hdel hdis hpos
  | unlocked hcall hsig hpos => exact .unlocked hcall hsig hpos

/-- Money comes in by a deposit. -/
theorem Rule.deposit_of_mem (hr : Rule env w call p) {a : Address} {x : ℤ}
    (hm : .deposit a x ∈ p.moves) : call = .depositEscrow a p.old.id x ∧ p.old.status = .created := by
  have hpayout : ∀ {carrier : Address}, ¬PayoutOf carrier (.deposit a x) := by
    intro carrier h
    cases h
  cases hr with
  | @confirmDelivery s => exact absurd (s.payoutOf_payMoves hm) hpayout
  | @confirmPartialDelivery s => exact absurd (s.payoutOf_payMoves hm) hpayout
  | @recordMilestone s => exact absurd (s.payoutOf_milestoneMoves hm) hpayout
  | @recordMilestonesBatch s items =>
    exact absurd ((s.batchOf_payBatch env.timestamp (items.map (·.1))).moves _ hm) hpayout
  | @releaseMilestonePayment _ s => exact absurd (s.payoutOf_milestoneMoves hm) hpayout
  | @releaseEscrow _ s => exact absurd (s.payoutOf_payMoves hm) hpayout
  | depositEscrow _ _ _ hst =>
    rcases List.mem_cons.mp hm with h | h
    · cases h
      exact ⟨rfl, hst⟩
    · obtain ⟨_, _, hfee, -⟩ := mem_feeMoves h
      cases hfee
  | cancelShipment => cases (mem_payAll hm).1
  | forceCancelShipment => cases (mem_payAll hm).1
  | checkDeadline => cases (mem_payAll hm).1
  | forceRelease => cases (mem_payAll hm).1
  | forceRefund => cases (mem_payAll hm).1
  | refundEscrow => cases List.mem_singleton.mp hm
  | releaseToCarrier => cases List.mem_singleton.mp hm
  | refundToCompany => cases List.mem_singleton.mp hm
  | _ => cases hm

/-- Every movement of a posting is entered with its ground. -/
theorem Rule.grounded_move (hr : Rule env w call p) (g : Grounds env w call trace p) (hm : m ∈ p.moves)
    {i : Item} (hi : m.item? = some i) : Grounded env w call trace p.old i := by
  have hmove := hr.moveOf g.old_nonneg hm
  cases i with
  | paidIn source x =>
    obtain rfl := Movement.item?_eq_paidIn hi
    obtain ⟨hcall, hst⟩ := hr.deposit_of_mem hm
    cases hmove with
    | deposit hx _ hle =>
      have hsig : SignedBy trace source := g.signed source (by rw [hcall]; rfl)
      exact .paidIn hcall hx hsig hst (le_antisymm hle g.old_nonneg)
  | paidOut a x =>
    have ho := Movement.item?_eq_paidOut hi
    exact .paidOut (hmove.out_pos ho) (hr.warranted g hm ho)
  | writtenOff x => exact absurd hi Movement.item?_ne_writtenOff

/-- So is what is written off. -/
theorem Rule.grounded_drop (hr : Rule env w call p) (g : Grounds env w call trace p)
    (hd : call.drops = true) (hpos : 0 < p.old.escrowAmount) :
    Grounded env w call trace p.old (.writtenOff p.old.escrowAmount) := by
  cases hr with
  | cancelShipment _ hcaller hdel hdis => exact .cancelled rfl (g.by_party rfl hcaller) hdel hdis hpos
  | unlockEscrow hadmin => exact .unlocked rfl (g.byAdmin rfl hadmin) hpos
  | forceRelease hx =>
    rw [drops_of_executing hx] at hd
    cases hd
  | forceRefund hx =>
    rw [drops_of_executing hx] at hd
    cases hd
  | _ => cases hd

theorem Rule.grounded (hr : Rule env w call p) (g : Grounds env w call trace p) {i : Item}
    (hi : i ∈ p.items call) : Grounded env w call trace p.old i := by
  unfold Posting.items at hi
  rcases List.mem_append.mp hi with hi | hi
  · obtain ⟨m, hm, hmi⟩ := List.mem_filterMap.mp hi
    exact hr.grounded_move g hm hmi
  · split at hi
    · rename_i hd
      obtain rfl := List.mem_singleton.mp hi
      exact hr.grounded_drop g hd.1 hd.2
    · cases hi

/-! ### The run -/

variable {c c' c₀ : Chain H} {l : Label} {ls : List Label}

/-- The step made the entry, in the account of a stored shipment and with its ground. -/
def Justified (c : Chain H) (l : Label) (e : ℕ × Item) : Prop :=
  ∃ call env trace s, l = .committed call env trace ∧ c.world.getShipment e.1 = some s ∧
    Grounded env c.world call trace s e.2

/-- What the accounts of a state hold. -/
def Chain.escrowOf (c : Chain H) (id : ℕ) : ℤ := c.world.ledger.escrowOf id

/-- The transfers of a posting are those its entries show. -/
theorem PostedBy.flowsOf_eq (hp : PostedBy env w.fresh call p w'.book)
    (hself : env.auth H.currentContractAddress = false) (h₀ : 0 ≤ p.old.escrowAmount) :
    (p.items call).filterMap Item.flow? = flowsOf H.currentContractAddress w'.trace := by
  obtain ⟨t, token, _, _, hb⟩ := hp.posted
  have hpays : paymentsOf w'.trace = p.pays H.currentContractAddress t := congrArg Book.pays hb
  rw [p.flows_items, Navin.flowsOf_eq, hpays]
  exact (flow?_pays_of_moves (fun m hm => hp.rule.moveOf h₀ hm) t p.old.id hself).symm

/-- A posting enters its items in the account of its shipment. -/
theorem PostedBy.enters (hp : PostedBy env c.world.fresh call p w'.book)
    (hself : env.auth H.currentContractAddress = false) (h₀ : 0 ≤ p.old.escrowAmount) (now : ℕ) :
    Enters Item.worth Chain.escrowOf (fun e => e.2.flow?) (flowsOf H.currentContractAddress w'.trace) c
      ⟨w'.fresh, now⟩ ((p.items call).map (Prod.mk p.old.id)) where
  value_eq k := by
    have hold : c.world.ledger.escrowOf p.old.id = p.old.escrowAmount :=
      c.world.ledger.escrowOf_of_some hp.stored
    have hnew : w'.ledger.escrowOf k = if k = p.old.id then p.new.escrowAmount
        else c.world.ledger.escrowOf k := hp.escrowOf_eq k
    show w'.ledger.escrowOf k = c.world.ledger.escrowOf k + _
    rw [hnew, balance_map_mk, Posting.worth_items hp.rule h₀]
    by_cases hk : k = p.old.id
    · rw [if_pos hk, if_pos hk.symm, hk, hold]
      omega
    · rw [if_neg hk, if_neg (Ne.symm hk), add_zero]
  shown_eq := by
    rw [List.filterMap_map]
    exact hp.flowsOf_eq hself h₀

/-- Every step from a reachable state can be entered. -/
theorem Step.enters (hc : Reachable c) (hstep : Step c l c') : ∃ es,
    Enters Item.worth Chain.escrowOf (fun e => e.2.flow?) (l.flows H.currentContractAddress) c c' es ∧
      ∀ e ∈ es, Justified c l e := by
  have hnil : ∀ b : Chain H, (∀ k, b.escrowOf k = c.escrowOf k) → ∃ es,
      Enters Item.worth Chain.escrowOf (fun e : ℕ × Item => e.2.flow?) [] c b es ∧
        ∀ e ∈ es, Justified c l e :=
    fun b hb => ⟨[], .nil hb, fun e he => by cases he⟩
  cases hstep with
  | @committed call env w' ha hx =>
    have hsound : c.world.fresh.ledger.Sound := hc.sound
    rcases (exec_effects hsound.keyed hx).idle_or_posted hsound with ⟨-, hnone, hidle⟩ | ⟨p, hp⟩
    · have hpays : paymentsOf w'.trace = [] := hnone
      have hflows : (Label.committed call env w'.trace).flows H.currentContractAddress = [] := by
        show flowsOf _ w'.trace = []
        rw [flowsOf_eq, hpays]
        rfl
      rw [hflows]
      exact hnil _ fun k => congrFun hidle.escrowOf_eq k
    · have g : Grounds env c.world.fresh call w'.trace p := hp.grounds hx hc
      refine ⟨_, hp.enters ha.self g.old_nonneg _, fun e he => ?_⟩
      obtain ⟨i, hi, rfl⟩ := List.mem_map.mp he
      exact ⟨call, env, w'.trace, p.old, rfl, g.stored, (hp.rule.grounded g hi).of_fresh⟩
  | reverted => exact hnil _ fun _ => rfl
  | outside => exact hnil _ fun _ => rfl

/-- Every run of a deployed contract has a journal: each shipment holds what its account
holds at the end, the entries show the transfers into and out of the contract in their
order, and each entry was made, with its ground, in a step of the run. -/
theorem run_journaled (hd : Deployed c₀) (hr : Run Step c₀ ls c) : ∃ es : List (ℕ × Item),
    (∀ id, c.escrowOf id = balance Item.worth id es) ∧
      es.filterMap (fun e => e.2.flow?) = ls.flatMap (·.flows H.currentContractAddress) ∧
      ∀ e ∈ es, Past Step (fun a l _ => Justified a l e) c₀ ls c := by
  obtain ⟨es, hes, hpast⟩ := hr.journal Chain.escrowOf (P := Justified)
    fun ks a l b hra hl => Step.enters ⟨c₀, ks, hd, hra⟩ hl
  refine ⟨es, fun id => ?_, hes.shown_eq, hpast⟩
  have hzero : c₀.escrowOf id = 0 := by
    cases hd
    rfl
  rw [hes.value_eq, hzero, zero_add]

/-- A deposit, a milestone, and a cancellation that writes off the rest. -/
theorem run_journaled_cancelled : ∃ (c : Chain Deployment.host) (ls : List Label),
    Run Step Deployment.chain ls c ∧ c.escrowOf 1 = 0 ∧
      ls.flatMap (·.flows Deployment.self) =
        [.into Deployment.company 1000, .out Deployment.carrier 400] ∧
      ∃ es : List (ℕ × Item), (∀ id, c.escrowOf id = balance Item.worth id es) ∧
        es.filterMap (fun e => e.2.flow?) = ls.flatMap (·.flows Deployment.self) ∧
        ∀ e ∈ es, Past Step (fun a l _ => Justified a l e) Deployment.chain ls c := by
  obtain ⟨ls, c, hr, -, hzero, hflows⟩ := exists_play Deployment.chain
    (Deployment.opening ++ [
      Deployment.signed Deployment.company 5 (.depositEscrow Deployment.company 1 1000),
      Deployment.signed Deployment.carrier 6 (.updateStatus Deployment.carrier 1 .inTransit 2),
      Deployment.signed Deployment.carrier 80 (.recordMilestone Deployment.carrier 1 Deployment.pickup 3),
      Deployment.signed Deployment.company 90 (.cancelShipment Deployment.company 1 4)])
    (fun r => r.2.escrowOf 1 = 0 ∧ r.1.flatMap (·.flows Deployment.self) =
      [.into Deployment.company 1000, .out Deployment.carrier 400]) (by decide +kernel)
  exact ⟨c, ls, hr, hzero, hflows, run_journaled Deployment.deployed hr⟩

end Navin
