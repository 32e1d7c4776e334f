/-
# Solvency

The contract never owes more than it holds: in every reachable state the escrows
of all shipments together are at most the contract's balance at its token.

Key definitions:
- `Ledger.escrowTotal`: the escrows of all shipments;
- `Ledger.Idle`: escrows and settlements are as they were;
- `Solvent`.

Key theorems:
- `Effects.idle_or_posted`: without a posting escrows and settlements stay;
- `Effects.solvent`: a committed call keeps it, when the token moves exactly;
- `escrowTotal_le_balance`: the statement over all reachable states.
-/
import Navin.Sound
import Navin.Token
import Mathlib.Algebra.BigOperators.Intervals

namespace Navin

variable {H : Host}

namespace Ledger

variable {Token : Type} (l : Ledger Token)

/-- `get_shipment(id).escrow_amount`, and zero where there is no shipment. -/
def escrowOf (id : ℕ) : ℤ := ((l.getShipment id).map (·.escrowAmount)).getD 0

/-- The escrows of all shipments: ids run from 1 to the count. -/
def escrowTotal : ℤ := ∑ id ∈ Finset.Icc 1 l.shipmentCount, l.escrowOf id

theorem escrowOf_of_some {id : ℕ} {s : Shipment} (h : l.getShipment id = some s) :
    l.escrowOf id = s.escrowAmount := by
  rw [escrowOf, h]
  rfl

theorem escrowOf_post (self : Address) (now : ℕ) (p : Posting) (token : Token) :
    (l.post self now p token).escrowOf = Function.update l.escrowOf p.new.id p.new.escrowAmount := by
  funext id
  rw [escrowOf, getShipment_post, Function.update_apply]
  split_ifs <;> rfl

theorem escrowOf_enrol (s : Shipment) :
    (l.enrol s).escrowOf = Function.update l.escrowOf s.id s.escrowAmount := by
  funext id
  rw [escrowOf, getShipment_enrol, Function.update_apply]
  split_ifs <;> rfl

/-- A posting changes the total by what it changes the record by. -/
theorem escrowTotal_post (self : Address) (now : ℕ) {p : Posting} (token : Token) (h : l.Sound)
    (hs : l.getShipment p.old.id = some p.old) (hid : p.new.id = p.old.id) :
    (l.post self now p token).escrowTotal =
      l.escrowTotal - p.old.escrowAmount + p.new.escrowAmount := by
  have hmem : p.new.id ∈ Finset.Icc 1 l.shipmentCount := by
    rw [hid]
    exact Finset.mem_Icc.mpr (h.ids _ _ hs)
  have hold : l.escrowOf p.new.id = p.old.escrowAmount := by
    rw [hid]
    exact l.escrowOf_of_some hs
  unfold escrowTotal
  rw [post_shipmentCount, escrowOf_post, Finset.sum_update_of_mem hmem,
    Finset.sum_eq_add_sum_sdiff_singleton_of_mem hmem l.escrowOf, hold]
  omega

/-- A new record is empty. -/
theorem escrowTotal_enrol (sender : Address) (input : ShipmentInput) (now : ℕ) :
    (l.enrol (Shipment.new (l.shipmentCount + 1) sender input now)).escrowTotal = l.escrowTotal := by
  unfold escrowTotal
  rw [escrowOf_enrol, enrol_shipmentCount]
  change ∑ id ∈ Finset.Icc 1 (l.shipmentCount + 1),
    Function.update l.escrowOf (l.shipmentCount + 1) 0 id = _
  rw [Finset.sum_Icc_succ_top (by omega), Function.update_self, add_zero]
  refine Finset.sum_update_of_notMem ?_ _ _
  rw [Finset.mem_Icc]
  omega

theorem escrowTotal_enrolled {l' : Ledger Token} {sender : Address} {now : ℕ}
    (he : l.Enrolled sender now l') :
    l'.escrowTotal = l.escrowTotal ∧ l'.tokenContract = l.tokenContract ∧ l'.token = l.token := by
  induction he with
  | nil => exact ⟨rfl, rfl, rfl⟩
  | snoc _ _ _ ih => exact ⟨(escrowTotal_enrol _ _ _ _).trans ih.1, ih.2⟩

theorem escrowTotal_putAway {id : ℕ} {s : Shipment} (hs : l.shipment id = some s) :
    (l.putAway id s).escrowTotal = l.escrowTotal := by
  unfold escrowTotal escrowOf
  rw [show (l.putAway id s).getShipment = l.getShipment from funext (l.getShipment_putAway hs)]
  rfl

end Ledger

/-! ### Calls without a posting -/

/-- Escrows and settlements are as they were. -/
structure Ledger.Idle {Token : Type} (l l' : Ledger Token) : Prop where
  escrowOf_eq : l'.escrowOf = l.escrowOf
  counter_eq : l'.settlementCounter = l.settlementCounter
  settlement_eq : l'.settlement = l.settlement
  inactive : (∀ id, l.activeSettlement id = none) → ∀ id, l'.activeSettlement id = none

namespace Ledger.Idle

variable {Token : Type} {l l' l'' : Ledger Token}

theorem refl (l : Ledger Token) : l.Idle l := ⟨rfl, rfl, rfl, id⟩

theorem trans (h : l.Idle l') (h' : l'.Idle l'') : l.Idle l'' where
  escrowOf_eq := h'.escrowOf_eq.trans h.escrowOf_eq
  counter_eq := h'.counter_eq.trans h.counter_eq
  settlement_eq := h'.settlement_eq.trans h.settlement_eq
  inactive ha := h'.inactive (h.inactive ha)

/-- Nothing is stored under the next id, and a new record has no escrow. -/
theorem enrol (h : l.Sound) (sender : Address) (input : ShipmentInput) (now : ℕ) :
    l.Idle (l.enrol (Shipment.new (l.shipmentCount + 1) sender input now)) := by
  refine ⟨?_, rfl, rfl, id⟩
  have hnone : l.getShipment (l.shipmentCount + 1) = none := by
    by_contra hne
    obtain ⟨s, hs⟩ := Option.ne_none_iff_exists'.mp hne
    have := h.ids _ _ hs
    omega
  rw [Ledger.escrowOf_enrol]
  refine Function.update_eq_self_iff.mpr ?_
  change 0 = l.escrowOf (l.shipmentCount + 1)
  rw [Ledger.escrowOf, hnone]
  rfl

theorem enrolled {sender : Address} {now : ℕ} (h : l.Sound) (hadm : l.admin ≠ none)
    (he : l.Enrolled sender now l') : l.Idle l' := by
  induction he with
  | nil => exact .refl l
  | snoc he _ _ ih => exact ih.trans (.enrol (h.enrolled hadm he).1 _ _ _)

theorem putAway {id : ℕ} {s : Shipment} (hs : l.shipment id = some s) : l.Idle (l.putAway id s) := by
  refine ⟨?_, rfl, rfl, fun ha i => ?_⟩
  · funext i
    rw [Ledger.escrowOf, l.getShipment_putAway hs]
    rfl
  · change Function.update l.activeSettlement id none i = none
    rw [Function.update_apply, ha i]
    split <;> rfl

end Ledger.Idle

/-- A committed call made a posting, or it moved no money and made no settlement. -/
theorem Effects.idle_or_posted {env : Env} {w : World H} {call : Call} {b : Book H.Token}
    (he : Effects env w call b) (h : w.ledger.Sound) :
    (call.posts = false ∧ b.pays = w.book.pays ∧ w.ledger.Idle b.ledger) ∨
      ∃ p, PostedBy env w call p b := by
  cases he with
  | quiet hn => exact .inl ⟨hn, rfl, .refl _⟩
  | initialized hcall => exact .inl ⟨by rw [hcall]; rfl, rfl, ⟨rfl, rfl, rfl, id⟩⟩
  | handedOver hn => exact .inl ⟨hn, rfl, ⟨rfl, rfl, rfl, id⟩⟩
  | enrolled hn _ hadm he => exact .inl ⟨hn, rfl, .enrolled h hadm he⟩
  | archived hcall hlive => exact .inl ⟨by rw [hcall]; rfl, rfl, .putAway hlive⟩
  | posted hg hv hr hp => exact .inr ⟨_, hg, hv, hr, hp⟩

/-- A posting writes one escrow. -/
theorem PostedBy.escrowOf_eq {env : Env} {w : World H} {call : Call} {p : Posting} {b : Book H.Token}
    (hp : PostedBy env w call p b) (id : ℕ) : b.ledger.escrowOf id =
      if id = p.old.id then p.new.escrowAmount else w.ledger.escrowOf id := by
  rw [Ledger.escrowOf, hp.getShipment id]
  split <;> rfl

/-! ### The balance after a posting -/

/-- The contract's balance gains at least what comes in less what goes out; more
when it pays itself. -/
theorem MoveOf.le_gain {env : Env} {s : Shipment} {self : Address} {m : Movement}
    (hm : MoveOf env s m) (t : Address) (id : ℕ) (hself : env.auth self = false) :
    m.inflow - m.outflow ≤ ((m.pays self t id).map (·.gain t self)).sum := by
  cases hm with
  | release => simp [Movement.pays, Notice.payment, Payment.gain]; split_ifs <;> omega
  | refund => simp [Movement.pays, Notice.payment, Payment.gain]; split_ifs <;> omega
  | bareRelease => simp [Movement.pays, Notice.payment, Payment.gain]; split_ifs <;> omega
  | bareRefund => simp [Movement.pays, Notice.payment, Payment.gain]; split_ifs <;> omega
  | announced => simp [Movement.pays, Payment.gain]
  | milestone => simp [Movement.pays, Payment.gain]
  | @deposit source x _ ha =>
    have hne : self ≠ source := fun he => by rw [← he, hself] at ha; cases ha
    simp [Movement.pays, Payment.gain, hne]
  | fee => simp [Movement.pays, Payment.gain]; split_ifs <;> omega

theorem le_gain_of_moves {env : Env} {s : Shipment} {self t : Address} {id : ℕ} {ms : List Movement}
    (hms : ∀ m ∈ ms, MoveOf env s m) (hself : env.auth self = false) :
    inflow ms - outflow ms ≤ ((ms.flatMap (·.pays self t id)).map (·.gain t self)).sum := by
  induction ms with
  | nil => simp
  | cons m ms ih =>
    have h₁ := (hms m (by simp)).le_gain t id hself
    have h₂ := ih fun n hn => hms n (by simp [hn])
    rw [List.flatMap_cons, List.map_append, List.sum_append, inflow_cons, outflow_cons]
    omega

/-! ### The invariant -/

/-- The escrows are covered by the balance at the token, once there is one. -/
structure Solvent (H : Host) (l : Ledger H.Token) : Prop where
  covered : ∀ t, l.tokenContract = some t →
    l.escrowTotal ≤ H.balance l.token t H.currentContractAddress
  unset : l.admin = none → ∀ t, 0 ≤ H.balance l.token t H.currentContractAddress

variable {env : Env} {w : World H} {call : Call} {b : Book H.Token}

theorem Effects.solvent (hH : H.MovesExactly) (hself : env.auth H.currentContractAddress = false)
    (he : Effects env w call b) (h : w.ledger.Sound) (hs : Solvent H w.ledger) : Solvent H b.ledger := by
  cases he with
  | quiet => exact hs
  | initialized _ hn =>
    refine ⟨fun t _ => ?_, fun hadm => by cases hadm⟩
    -- no shipment, nothing owed
    exact hs.unset hn t
  | handedOver => exact ⟨hs.covered, fun hadm => by cases hadm⟩
  | @enrolled sender l _ _ hadm he =>
    obtain ⟨htot, ht, htok⟩ := w.ledger.escrowTotal_enrolled he
    refine ⟨?_, fun hn => ?_⟩
    · rw [htot, ht, htok]
      exact hs.covered
    · rw [(h.enrolled hadm he).2] at hn
      exact absurd hn hadm
  | archived _ hl _ =>
    refine ⟨fun t ht => ?_, hs.unset⟩
    have htot := w.ledger.escrowTotal_putAway hl
    exact htot.le.trans (hs.covered t ht)
  | @posted p b hg hv hr hp =>
    obtain ⟨t₀, token, huniq, hf, rfl⟩ := hp
    have h₀ := h.escrow_nonneg _ _ hg
    refine ⟨fun t ht => ?_, fun hn => ?_⟩
    · obtain rfl := huniq t ht
      have hbal := Host.follow_balance hH hf t H.currentContractAddress
      have hgain : inflow p.moves - outflow p.moves ≤
          ((p.pays H.currentContractAddress t).map (·.gain t H.currentContractAddress)).sum :=
        le_gain_of_moves (fun m hm => hr.moveOf h₀ hm) hself
      have hcov := hs.covered t ht
      have htot := w.ledger.escrowTotal_post H.currentContractAddress env.timestamp token h hg
        hr.keeps.id_eq
      have hacc := hr.balanced h₀
      have hdrop : 0 ≤ if call.drops = true then p.old.escrowAmount else 0 := by split <;> omega
      rw [book_ledger] at hbal
      rw [book_ledger, htot, Ledger.post_token, hbal]
      omega
    · rw [h.unset hn] at hg
      cases hg

theorem Step.solvent (hH : H.MovesExactly) {c c' : Chain H} {l : Label} (hstep : Step c l c')
    (h : c.world.ledger.Sound) (hs : Solvent H c.world.ledger) : Solvent H c'.world.ledger := by
  cases hstep with
  | @committed call env w ha hx =>
    have h : c.world.fresh.ledger.Sound := h
    exact (exec_effects h.keyed hx).solvent hH ha.self h hs
  | reverted => exact hs
  | outside _ hle =>
    refine ⟨fun t ht => ?_, fun hn t => ?_⟩
    · exact (hs.covered t ht).trans (hle t)
    · exact (hs.unset hn t).trans (hle t)

theorem Deployed.solvent {c : Chain H} (h : Deployed c) : Solvent H c.world.ledger := by
  cases h with
  | mk hbal => exact ⟨fun t ht => (by cases ht), fun _ => hbal⟩

/-- In every reachable state the escrows of all shipments together are at most the
contract's balance, and each of them is between zero and what it started from. -/
theorem escrowTotal_le_balance (hH : H.MovesExactly) {c : Chain H} (hc : Reachable c) :
    (∀ t, c.world.ledger.tokenContract = some t → c.world.ledger.escrowTotal ≤
      H.balance c.world.ledger.token t H.currentContractAddress) ∧
    ∀ id s, c.world.getShipment id = some s → id ∈ Finset.Icc 1 c.world.ledger.shipmentCount ∧
      0 ≤ s.escrowAmount ∧ s.escrowAmount ≤ s.totalEscrow := by
  obtain ⟨c₀, ls, hd, hr⟩ := hc
  have hinv : c.world.ledger.Sound ∧ Solvent H c.world.ledger :=
    hr.inv (I := fun c => c.world.ledger.Sound ∧ Solvent H c.world.ledger) ⟨hd.sound, hd.solvent⟩
      fun _ _ _ h hs => ⟨hs.sound h.1, hs.solvent hH h.1 h.2⟩
  refine ⟨hinv.2.covered, fun id s hs => ?_⟩
  have hs : c.world.ledger.getShipment id = some s := hs
  exact ⟨Finset.mem_Icc.mpr (hinv.1.ids id s hs), hinv.1.escrow_nonneg id s hs,
    hinv.1.escrow_le_total id s hs⟩

/-- After a deposit of 1000 into one shipment, and 400 of it paid out, 600 are
owed and held. -/
theorem escrowTotal_le_balance_after_milestone : ∃ c : Chain Deployment.host, Reachable c ∧
    c.world.ledger.tokenContract = some Deployment.tokenContract ∧ c.world.ledger.escrowTotal = 600 ∧
    c.world.ledger.escrowTotal ≤ Deployment.host.balance c.world.ledger.token
      Deployment.tokenContract Deployment.self := by
  obtain ⟨ls, c, hr, _, ht, hx⟩ := exists_play Deployment.chain
    (Deployment.opening ++ [
      Deployment.signed Deployment.company 5 (.depositEscrow Deployment.company 1 1000),
      Deployment.signed Deployment.carrier 6 (.updateStatus Deployment.carrier 1 .inTransit 2),
      Deployment.signed Deployment.carrier 7
        (.recordMilestone Deployment.carrier 1 Deployment.pickup 3)])
    (fun r => r.2.world.ledger.tokenContract = some Deployment.tokenContract ∧
      r.2.world.ledger.escrowTotal = 600) (by decide +kernel)
  have hc : Reachable c := ⟨_, ls, Deployment.deployed, hr⟩
  exact ⟨c, hc, ht, hx, (escrowTotal_le_balance (tokenHost_movesExactly _ _) hc).1 _ ht⟩

end Navin
