/-
# Quorums

What enough members want is done. An approval goes through exactly when a member who has
not approved yet signs it in time and, if it makes up the threshold, the action can be
performed; so once as many members as the threshold asks for have tried to approve a
proposal, whatever else is called in between and in whatever order they come, it has been
executed, and what its action says has happened.

Key definitions:
- `World.Performs`: what the action of a proposal needs to take effect;
- `World.Enacted`: what has happened when it has;
- `Label.tries`: the steps in which a member tries to approve, whether or not they go through;
- `Chain.Favours`: the steps that do not stand in the way of a proposal;
- `Chain.Stands`: how a proposal stands after some steps.

Key theorems:
- `succeeds_approveAction`: exactly when an approval goes through;
- `Step.enacted`: a proposal that is executed does what it says;
- `Step.tried`: no approval of a member who tries is lost;
- `Chain.Stands.step`: the invariant of an open proposal;
- `quorum_executes`: enough members have their way.
-/
import Navin.Exits
import Navin.Powers
import Navin.Analytics
import Navin.Carriers

namespace Navin

open Tx

variable {H : Host} {env : Env} {w w' : World H} {id n : ℕ} {s : Shipment} {a x : Address}
  {p : Proposal}

/-! ### What an action needs -/

/-- One more shipment can be counted under `st'` when one leaves `st`. -/
def World.CountsOne (w : World H) (st st' : ShipmentStatus) : Prop :=
  Function.update w.ledger.statusCount st (w.ledger.statusCount st - 1) st' + 1 ≤ u64Max

/-- A shipment can be settled by force: it is open, it can be counted where it goes, and the
token pays out its escrow, if there is any. -/
structure World.Forces (w : World H) (env : Env) (s : Shipment) (st : ShipmentStatus)
    (recipient : Address) : Prop where
  isOpen : ¬(s.status = .delivered ∨ s.status = .cancelled)
  pays : 0 < s.escrowAmount → ∃ a token, w.ledger.tokenContract = some a ∧
    H.transfer w.ledger.token (env.tokenAuth H) a H.currentContractAddress recipient s.escrowAmount =
      some token
  counts : w.CountsOne s.status st

/-- What an action needs to take effect. -/
def World.Performs (w : World H) (env : Env) : AdminAction → Prop
  | .upgrade hash => w.getVersion + 1 ≤ u32Max ∧ env.wasmUploaded hash = true
  | .transferAdmin _ => True
  | .forceRelease id => ∃ s, w.getShipment id = some s ∧ w.Forces env s .delivered s.carrier
  | .forceRefund id => ∃ s, w.getShipment id = some s ∧ w.Forces env s .cancelled s.sender

/-- The records of a state that can be reached, as far as a forced settlement looks at them. -/
structure World.Orderly (w : World H) : Prop where
  idle : w.BreakerIdle
  bounds : ∀ id s, w.getShipment id = some s → 0 ≤ s.escrowAmount ∧ s.escrowAmount ≤ s.totalEscrow
  token : ∀ id s, w.getShipment id = some s → 0 < s.totalEscrow → w.ledger.tokenContract ≠ none

theorem Reachable.orderly {c : Chain H} (hc : Reachable c) : c.world.Orderly where
  idle := hc.breakerIdle
  bounds id s hs := ⟨hc.sound.escrow_nonneg id s hs, hc.sound.escrow_le_total id s hs⟩
  token _ _ hs hpos := hc.tokenContract_ne hs hpos

theorem succeeds_persistShipment {r : Shipment} :
    Succeeds (persistShipment r : Contract H Unit) env w ↔ r.Valid := by
  constructor
  · intro h
    obtain ⟨u, w', hx⟩ := h
    exact (returns_persistShipment.mp hx).1
  · intro hv
    exact (returns_persistShipment (u := ()).mpr ⟨hv, rfl⟩).succeeds

/-- The end of a forced settlement, once the escrow is paid out. -/
theorem succeeds_forced {st : ShipmentStatus} {r : Shipment} (hv : r.Valid) :
    Succeeds (do
      moveStatusCount s.status st
      decrementActiveShipmentCount s.sender
      persistShipment r) env w ↔ w.CountsOne s.status st := by
  rw [succeeds_unit_bind fun _ _ => returns_moveStatusCount,
    (returns_decrementActiveShipmentCount _ _ _).succeeds_iff, succeeds_persistShipment]
  exact and_iff_left hv

/-- The end of a forced settlement with escrow, which is paid out first. -/
theorem succeeds_forced_paid {st : ShipmentStatus} {b : Address} {y : ℤ} {domain : ℕ} {topic : String}
    {event : Address → EventKey → Event} {g : ℕ → Shipment} (hidle : w.BreakerIdle)
    (ha : w.ledger.tokenContract = some a) (hv : (g env.timestamp).Valid) :
    Succeeds (payIfTokenSet b y >>= fun _ => emitKeyedWithToken domain topic id event >>= fun _ =>
      ask >>= fun env => moveStatusCount s.status st >>= fun _ =>
      decrementActiveShipmentCount s.sender >>= fun _ => persistShipment (g env.timestamp)) env w ↔
      (∃ token, H.transfer w.ledger.token (env.tokenAuth H) a H.currentContractAddress b y = some token) ∧
        w.CountsOne s.status st := by
  unfold payIfTokenSet
  rw [bind_assoc, succeeds_gets_bind, ha]
  refine (succeeds_transfer_bind hidle).trans ?_
  rw [← exists_and_right]
  refine exists_congr fun token => and_congr_right fun _ => ?_
  have ha' : (w.transferred a H.currentContractAddress b y token).ledger.tokenContract = some a := ha
  rw [(returns_emitKeyedWithToken ha').succeeds_iff, succeeds_ask_bind]
  exact succeeds_forced hv

/-- A settled record without escrow passes the check. -/
theorem Shipment.valid_forced {st : ShipmentStatus} (hst : st = .delivered ∨ st = .cancelled)
    (htotal : 0 ≤ s.totalEscrow) (now : ℕ) :
    (((s.withEscrow 0).withStatus st).touch now).finalizeIfSettled.Valid := by
  refine Shipment.Valid.finalizeIfSettled ⟨le_rfl, htotal, fun _ => ⟨hst, rfl⟩, fun hc => ?_⟩
  have hc : st = .created := hc
  rw [hc] at hst
  rcases hst with h | h <;> cases h

theorem succeeds_forceSettle {st : ShipmentStatus} {recipient : Shipment → Address} {domain : ℕ}
    {topic : String} {event : ℕ → Address → ℤ → Address → EventKey → Event}
    {emitPaid : ℕ → Address → ℤ → Contract H Unit}
    (hemit : ∀ i target amount, emitPaid i target amount =
      emitKeyedWithToken domain topic i (event i target amount))
    (hw : w.Orderly) (hst : st = .delivered ∨ st = .cancelled) :
    Succeeds (forceSettle id st recipient emitPaid) env w ↔
      ∃ s, w.getShipment id = some s ∧ w.Forces env s st (recipient s) := by
  rcases hs : w.getShipment id with _ | s
  · constructor
    · intro h
      obtain ⟨u, w', hx⟩ := h
      obtain ⟨r, w₁, hr, -⟩ := returns_bind.mp hx
      obtain ⟨hr, -⟩ := returns_loadShipment.mp hr
      rw [hs] at hr
      cases hr
    · intro h
      obtain ⟨r, hr, -⟩ := h
      cases hr
  obtain ⟨hnn, hle⟩ := hw.bounds id s hs
  have hv := s.valid_forced hst (hnn.trans hle) env.timestamp
  have hforces : (∃ r, some s = some r ∧ w.Forces env r st (recipient r)) ↔
      w.Forces env s st (recipient s) := by simp
  rw [hforces]
  unfold forceSettle timestamp
  rw [succeeds_loadShipment_bind hs, succeeds_rejectIf_bind]
  by_cases hpos : 0 < s.escrowAmount
  · obtain ⟨a, ha⟩ := Option.ne_none_iff_exists'.mp (hw.token id s hs (hpos.trans_le hle))
    rw [if_pos hpos, hemit]
    simp only [bind_assoc, pure_bind]
    refine (and_congr_right fun _ => succeeds_forced_paid
      (g := fun now => (((s.withEscrow 0).withStatus st).touch now).finalizeIfSettled) hw.idle ha hv).trans ?_
    constructor
    · intro h
      obtain ⟨hopen, ⟨token, ht⟩, hcount⟩ := h
      exact ⟨hopen, fun _ => ⟨a, token, ha, ht⟩, hcount⟩
    · intro h
      obtain ⟨b, token, hb, ht⟩ := h.pays hpos
      obtain rfl : a = b := Option.some.inj (ha.symm.trans hb)
      exact ⟨h.isOpen, ⟨token, ht⟩, h.counts⟩
  · have hzero : s.escrowAmount = 0 := le_antisymm (not_lt.mp hpos) hnn
    rw [if_neg hpos, hzero]
    simp only [bind_assoc, pure_bind]
    rw [succeeds_ask_bind, succeeds_forced hv]
    constructor
    · intro h
      exact ⟨h.1, fun hp => absurd hp hpos, h.2⟩
    · intro h
      exact ⟨h.isOpen, h.counts⟩

theorem World.Forces.congr {st : ShipmentStatus} {recipient : Address}
    (h : w.Forces env s st recipient) (hl : w'.ledger = w.ledger) : w'.Forces env s st recipient where
  isOpen := h.isOpen
  pays := by
    rw [hl]
    exact h.pays
  counts := by
    unfold World.CountsOne
    rw [hl]
    exact h.counts

/-- What an action needs, it needs of the ledger and the version. -/
theorem World.Performs.congr {action : AdminAction} (h : w.Performs env action)
    (hl : w'.ledger = w.ledger) (hv : w'.getVersion = w.getVersion) : w'.Performs env action := by
  cases action with
  | upgrade hash => exact ⟨hv ▸ h.1, h.2⟩
  | transferAdmin => trivial
  | forceRelease id =>
    obtain ⟨s, hs, hf⟩ := h
    refine ⟨s, ?_, hf.congr hl⟩
    unfold World.getShipment
    rw [hl]
    exact hs
  | forceRefund id =>
    obtain ⟨s, hs, hf⟩ := h
    refine ⟨s, ?_, hf.congr hl⟩
    unfold World.getShipment
    rw [hl]
    exact hs

/-- A part that always returns, at the end. -/
theorem succeeds_bind_total {α β : Type} {m : Contract H α} {k : α → Contract H β} [hk : ∀ a, Total (k a)] :
    Succeeds (m >>= k) env w ↔ Succeeds m env w := by
  constructor
  · intro h
    obtain ⟨b, w', hx⟩ := h
    obtain ⟨a, w₁, h₁, -⟩ := returns_bind.mp hx
    exact h₁.succeeds
  · intro h
    exact succeeds_bind h (.of_forall fun a w₁ => (hk a).out env w₁)

theorem checkedAddU32_one {version : ℕ} :
    (∃ next, checkedAddU32 version 1 = some next) ↔ version + 1 ≤ u32Max := by
  unfold checkedAddU32
  by_cases h : version + 1 ≤ u32Max
  · simp [h]
  · simp [h]

/-- The action of a proposal takes effect exactly when it can. -/
theorem succeeds_performAction {admin : Address} {action : AdminAction} (hw : w.Orderly)
    (hadmin : w.ledger.admin = some admin) :
    Succeeds (performAction x action) env w ↔ w.Performs env action := by
  cases action with
  | upgrade hash =>
    unfold performAction
    rw [succeeds_gets_bind, succeeds_okOr_bind]
    have hrest : ∀ next, Succeeds (setVersion next >>= fun _ =>
        log (.event (.contractUpgraded x hash next)) >>= fun _ =>
        (updateCurrentContractWasm hash : Contract H Unit)) env w ↔ env.wasmUploaded hash = true := by
      intro next
      unfold updateCurrentContractWasm setVersion modifyGovernance log
      rw [succeeds_modify_bind, succeeds_modify_bind, succeeds_ask_bind, succeeds_trapIf_bind,
        Bool.not_eq_false]
      exact and_iff_left (Total.out _ _)
    constructor
    · intro h
      obtain ⟨next, hnext, h⟩ := h
      exact ⟨checkedAddU32_one.mp ⟨next, hnext⟩, (hrest next).mp h⟩
    · intro h
      obtain ⟨next, hnext⟩ := checkedAddU32_one.mpr h.1
      exact ⟨next, hnext, (hrest next).mpr h.2⟩
  | transferAdmin b =>
    unfold performAction setAdmin setRole modifyLedger modifyRegistry
    rw [succeeds_getAdmin_bind hadmin]
    exact iff_true_intro (Total.out _ _)
  | forceRelease id => exact succeeds_forceSettle (fun _ _ _ => rfl) hw (.inl rfl)
  | forceRefund id => exact succeeds_forceSettle (fun _ _ _ => rfl) hw (.inr rfl)

/-! ### What an approval needs -/

/-- The proposal is stored under its id. -/
def World.withProposal (w : World H) (p : Proposal) : World H :=
  { w with governance := { w.governance with
      proposal := Function.update w.governance.proposal p.id (some p) } }

theorem succeeds_setProposal_bind {n : Unit → Contract H Unit} :
    Succeeds (setProposal p >>= n) env w ↔ Succeeds (n ()) env (w.withProposal p) := succeeds_modify_bind

/-- What is orderly stays so while proposals and signatures are recorded. -/
theorem World.Orderly.congr (h : w.Orderly) (hl : w'.ledger = w.ledger)
    (hb : w'.governance.breaker = w.governance.breaker) : w'.Orderly where
  idle := by
    unfold World.BreakerIdle
    rw [hb]
    exact h.idle
  bounds := by
    unfold World.getShipment
    rw [hl]
    exact h.bounds
  token := by
    unfold World.getShipment
    rw [hl]
    exact h.token

/-- A stored proposal is executed exactly when it is pending, approved, and can be performed. -/
theorem succeeds_executeProposalInternal {admin : Address} (hw : w.Orderly)
    (hadmin : w.ledger.admin = some admin) (hp : w.governance.proposal n = some p) :
    Succeeds (executeProposalInternal n) env w ↔
      Pending env w.offices n p ∧ w.offices.threshold ≤ p.approvals.length ∧ w.Performs env p.action := by
  have hw' : (w.withProposal { p with executed := true }).Orderly := hw.congr rfl rfl
  have hadmin' : (w.withProposal { p with executed := true }).ledger.admin = some admin := hadmin
  unfold executeProposalInternal timestamp
  simp only [bind_assoc, pure_bind]
  rw [succeeds_gets_bind, hp, (returns_okOr.mpr ⟨rfl, rfl⟩).succeeds_iff, succeeds_ask_bind,
    succeeds_rejectIf_bind, succeeds_rejectIf_bind, succeeds_gets_bind, succeeds_rejectIf_bind,
    succeeds_setProposal_bind, succeeds_bind_total, succeeds_performAction hw' hadmin']
  constructor
  · intro h
    obtain ⟨htime, hex, hthr, hperf⟩ := h
    exact ⟨⟨hp, Bool.eq_false_of_not_eq_true hex, not_lt.mp htime⟩, not_lt.mp hthr,
      hperf.congr rfl rfl⟩
  · intro h
    obtain ⟨hpend, hthr, hperf⟩ := h
    exact ⟨not_lt.mpr hpend.time, by simp [hpend.unexecuted], not_lt.mpr hthr, hperf.congr rfl rfl⟩

/-- The approval is stored and announced. -/
def World.approved (w : World H) (n : ℕ) (x : Address) (p : Proposal) : World H :=
  { (w.signed x).withProposal { p with approvals := p.approvals ++ [x] } with
    trace := (w.signed x).trace ++ [.event (.actionApproved n x (p.approvals ++ [x]).length)] }

/-- What is left to do once a proposal is stored with its approvals as they are now. -/
theorem succeeds_enough {admin : Address} {q : Proposal} (hw : w'.Orderly)
    (hadmin : w.ledger.admin = some admin) (hl : w'.ledger = w.ledger) (hv : w'.getVersion = w.getVersion)
    (ho : w'.offices = w.offices.record q) (hq : q.id = n) :
    Succeeds (when (w'.governance.multisigThreshold.getD 2 ≤ q.approvals.length) do
      executeProposalInternal n) env w' ↔
      (w.offices.threshold ≤ q.approvals.length →
        (q.executed = false ∧ env.timestamp ≤ q.expiresAt) ∧ w.Performs env q.action) := by
  have hthr : w'.offices.threshold = w.offices.threshold := by
    rw [ho]
    rfl
  have hq' : w'.offices.council.proposal n = some q := by
    rw [ho, ← hq]
    exact Function.update_self ..
  have hadmin' : w'.ledger.admin = some admin := hl ▸ hadmin
  show Succeeds (when (w'.offices.threshold ≤ q.approvals.length) _) env w' ↔ _
  rw [hthr]
  by_cases hle : w.offices.threshold ≤ q.approvals.length
  · rw [when, if_pos hle, succeeds_executeProposalInternal hw hadmin' hq']
    constructor
    · intro h _
      exact ⟨⟨h.1.unexecuted, h.1.time⟩, h.2.2.congr hl.symm hv.symm⟩
    · intro h
      obtain ⟨⟨hex, htime⟩, hperf⟩ := h hle
      exact ⟨⟨hq', hex, htime⟩, hthr.le.trans hle, hperf.congr hl hv⟩
  · rw [when, if_neg hle]
    exact ⟨fun _ h => absurd h hle, fun _ => succeeds_pure ()⟩

/-- An approval goes through exactly when a member who has not approved yet signs it in time
and, where it makes up the threshold, the action can be performed. -/
theorem succeeds_approveAction {admin : Address} (hw : w.Orderly) (hfiled : w.offices.Filed)
    (hadmin : w.ledger.admin = some admin) (hp : w.governance.proposal n = some p) :
    Succeeds (approveAction x n) env w ↔
      (env.auth x = true ∧ x ∈ w.offices.members) ∧ (Pending env w.offices n p ∧ x ∉ p.approvals) ∧
        (w.offices.threshold ≤ p.approvals.length + 1 → w.Performs env p.action) := by
  have hid : p.id = n := hfiled n p hp
  have hinit : w.ledger.admin.isSome = true := by
    rw [hadmin]
    rfl
  have hp' : (w.signed x).governance.proposal n = some p := hp
  have hlen : (p.approvals ++ [x]).length = p.approvals.length + 1 := by simp
  unfold approveAction timestamp
  simp only [bind_assoc, pure_bind]
  rw [succeeds_unit_bind fun _ _ => returns_requireInitialized, and_iff_right hinit,
    succeeds_unit_bind fun _ _ => returns_requireAuth, succeeds_gets_bind, succeeds_rejectIf_bind,
    succeeds_gets_bind, hp', (returns_okOr.mpr ⟨rfl, rfl⟩).succeeds_iff, succeeds_ask_bind,
    succeeds_rejectIf_bind, succeeds_rejectIf_bind, succeeds_rejectIf_bind, succeeds_setProposal_bind]
  unfold publish log
  rw [succeeds_modify_bind, succeeds_gets_bind]
  have hw₁ : (w.approved n x p).Orderly := hw.congr rfl rfl
  have ho₁ : (w.approved n x p).offices = w.offices.record { p with approvals := p.approvals ++ [x] } := rfl
  refine (and_congr_right fun _ => and_congr_right fun _ => and_congr_right fun _ =>
    and_congr_right fun _ => and_congr_right fun _ =>
      succeeds_enough hw₁ hadmin rfl rfl ho₁ hid).trans ?_
  rw [hlen]
  constructor
  · intro h
    obtain ⟨hauth, hlisted, htime, hex, hnew, hperf⟩ := h
    have hm : x ∈ w.offices.members := isAdmin_iff.mp (Bool.eq_true_of_not_eq_false hlisted)
    exact ⟨⟨hauth, hm⟩, ⟨⟨hp, Bool.eq_false_of_not_eq_true hex, not_lt.mp htime⟩, hnew⟩,
      fun hle => (hperf hle).2⟩
  · intro h
    obtain ⟨⟨hauth, hm⟩, ⟨hpend, hnew⟩, hperf⟩ := h
    have hlisted : w.isAdmin x = true := isAdmin_iff.mpr hm
    refine ⟨hauth, ?_, not_lt.mpr hpend.time, by simp [hpend.unexecuted], hnew, fun hle => ?_⟩
    · show ¬w.isAdmin x = false
      rw [hlisted]
      decide
    · exact ⟨⟨hpend.unexecuted, hpend.time⟩, hperf hle⟩

/-! ### What has happened -/

/-- The shipment was open, and now has the status `st`. -/
def World.Closes (w w' : World H) (id : ℕ) (st : ShipmentStatus) : Prop :=
  (∃ s, w.getShipment id = some s ∧ ¬(s.status = .delivered ∨ s.status = .cancelled)) ∧
    ∃ s, w'.getShipment id = some s ∧ s.status = st

/-- A forced settlement closes its shipment. -/
def World.Settles (w w' : World H) : AdminAction → Prop
  | .forceRelease id => w.Closes w' id .delivered
  | .forceRefund id => w.Closes w' id .cancelled
  | _ => True

/-- Before an action is performed, the records are as they were before the call. -/
theorem wp_forceSettle_closes {w₀ : World H} {st : ShipmentStatus} {recipient : Shipment → Address}
    {emitPaid : ℕ → Address → ℤ → Contract H Unit} (hk : w₀.ledger.Keyed) (hl : w₀.ledger = w.ledger) :
    wp (forceSettle id st recipient emitPaid) env w₀ fun _ w' => w.Closes w' id st := by
  unfold forceSettle
  simp only [wp_bind, wp_timestamp]
  refine wp_load hk fun s hid hs => ?_
  rw [wp_rejectIf]
  intro hopen
  refine .of_forall fun x w₁ => .of_forall fun _ w₂ => .of_forall fun _ w₃ => ?_
  have hs₀ : w.getShipment id = some s := by
    have hs : w₀.ledger.getShipment s.id = some s := hs
    rw [hid, hl] at hs
    exact hs
  refine wp_persistShipment fun _ w₄ h₄ => ⟨⟨s, hs₀, hopen⟩, ?_⟩
  obtain ⟨r, hr, hrid, hrst⟩ : ∃ r : Shipment, r =
      (((s.withEscrow x).withStatus st).touch env.timestamp).finalizeIfSettled ∧ r.id = id ∧ r.status = st :=
    ⟨_, rfl, by simp [hid], by simp⟩
  rw [← hr] at h₄
  refine ⟨r, ?_, hrst⟩
  have hled : w₄.ledger.shipment = Function.update w₃.ledger.shipment r.id (some r) :=
    congrArg (fun b : Book H.Token => b.ledger.shipment) h₄
  unfold World.getShipment
  rw [hled, hrid, Function.update_self]

/-- Closing looks at the records only. -/
theorem World.Settles.congr {action : AdminAction} {w₁ : World H} (h : w.Settles w' action)
    (hl : w₁.ledger = w'.ledger) : w.Settles w₁ action := by
  have hget : ∀ id, w₁.getShipment id = w'.getShipment id := fun id => by
    unfold World.getShipment
    rw [hl]
  cases action with
  | upgrade => trivial
  | transferAdmin => trivial
  | forceRelease id => exact ⟨h.1, by rw [hget]; exact h.2⟩
  | forceRefund id => exact ⟨h.1, by rw [hget]; exact h.2⟩

theorem wp_performAction_settles {w₀ : World H} {action : AdminAction} (hk : w₀.ledger.Keyed)
    (hl : w₀.ledger = w.ledger) :
    wp (performAction x action) env w₀ fun _ w' => w.Settles w' action := by
  cases action with
  | upgrade => exact .of_forall fun _ _ => trivial
  | transferAdmin => exact .of_forall fun _ _ => trivial
  | forceRelease => exact wp_forceSettle_closes hk hl
  | forceRefund => exact wp_forceSettle_closes hk hl

/-- An execution settles what its proposal says. -/
theorem wp_executeProposalInternal_settles {w₀ : World H} (hk : w₀.ledger.Keyed) (hl : w₀.ledger = w.ledger) :
    wp (executeProposalInternal n) env w₀ fun _ w' =>
      ∀ p, w₀.governance.proposal n = some p → w.Settles w' p.action := by
  unfold executeProposalInternal
  simp only [wp_bind, wp_gets, wp_okOr, wp_rejectIf, wp_timestamp, wp_modifyGovernance, wp_log]
  intro p hp _ _ _
  refine (wp_performAction_settles (w := w) ?_ ?_).mono ?_
  · exact hk
  · exact hl
  intro _ w₁ h₁ q hq
  obtain rfl : p = q := Option.some.inj (hp.symm.trans hq)
  exact h₁.congr rfl

/-- An approval that makes up the threshold executes the proposal. -/
theorem wp_approveAction_enacts (hk : w.ledger.Keyed) (hfiled : w.offices.Filed)
    (hp : w.governance.proposal n = some p) (hthr : w.offices.threshold ≤ p.approvals.length + 1) :
    wp (approveAction x n) env w fun _ w' =>
      w'.offices = w.offices.enact { p with approvals := p.approvals ++ [x] } ∧
        .event (.proposalExecuted n p.action) ∈ w'.trace ∧ w.Settles w' p.action := by
  have hid : p.id = n := hfiled n p hp
  unfold approveAction
  simp only [wp_bind, wp_gets, wp_okOr, wp_rejectIf, wp_timestamp, wp_modifyGovernance, wp_log, wp_when]
  refine wp_guard fun _ => ?_
  refine wp_requireAuth fun _ _ q hq _ _ _ => ?_
  obtain rfl : p = q := Option.some.inj (hp.symm.trans hq)
  have hlen : (p.approvals ++ [x]).length = p.approvals.length + 1 := by simp
  have hread : Function.update w.governance.proposal p.id
      (some { p with approvals := p.approvals ++ [x] }) n =
      some { p with approvals := p.approvals ++ [x] } := by
    rw [← hid]
    exact Function.update_self ..
  refine ⟨fun _ => ?_, fun hno => absurd (hlen ▸ hthr) hno⟩
  refine (offices_executeProposalInternal.and (wp_executeProposalInternal_settles (w := w) ?_ ?_)).mono ?_
  · exact hk
  · rfl
  intro _ w' h
  obtain ⟨⟨r, hr, -, hw', hev⟩, hsettles⟩ := h
  obtain rfl : { p with approvals := p.approvals ++ [x] } = r := Option.some.inj (hread.symm.trans hr.stored)
  have hdone := hsettles { p with approvals := p.approvals ++ [x] } hread
  exact ⟨hw'.trans (w.offices.enact_record _), hev, hdone⟩

theorem wp_executeProposal_enacts (hk : w.ledger.Keyed) (hp : w.governance.proposal n = some p) :
    wp (executeProposal n) env w fun _ w' =>
      w'.offices = w.offices.enact p ∧ w.Settles w' p.action := by
  unfold executeProposal
  rw [wp_bind]
  refine wp_guard fun _ => ?_
  refine (offices_executeProposalInternal.and (wp_executeProposalInternal_settles hk rfl)).mono ?_
  intro _ w' h
  obtain ⟨⟨r, hr, -, hw', -⟩, hsettles⟩ := h
  obtain rfl : p = r := Option.some.inj (hp.symm.trans hr.stored)
  exact ⟨hw', hsettles p hp⟩

/-- The shipment is settled, and all that was in its escrow went to one holder. -/
def World.Settled (w w' : World H) (trace : List Effect) (id : ℕ) (st : ShipmentStatus)
    (recipient : Shipment → Address) : Prop :=
  ∃ s s', w.getShipment id = some s ∧ w'.getShipment id = some s' ∧ s'.status = st ∧
    s'.escrowAmount = 0 ∧ transfersOut H.currentContractAddress trace =
      if 0 < s.escrowAmount then [(recipient s, s.escrowAmount)] else []

/-- The action of a proposal has taken effect. -/
def World.Enacted (w w' : World H) (trace : List Effect) : AdminAction → Prop
  | .upgrade hash => w'.getVersion = w.getVersion + 1 ∧ w'.governance.wasm = some hash
  | .transferAdmin a => w'.ledger.admin = some a
  | .forceRelease id => w.Settled w' trace id .delivered (·.carrier)
  | .forceRefund id => w.Settled w' trace id .cancelled (·.sender)

/-- A shipment that a call closes by executing a proposal was settled. -/
theorem settled_of_closes {st : ShipmentStatus} {recipient : Shipment → Address} {call : Call}
    (hsound : w.fresh.ledger.Sound) (hself : env.auth H.currentContractAddress = false)
    (hx : call.exec env w.fresh = .ok () w') (hcreates : call.creates = false)
    (hrule : ∀ q, Rule env w.fresh call q → q.old.id = id ∧ q.new.escrowAmount = escrowLeft q.old.escrowAmount ∧
      q.moves.filterMap (·.out?) =
        if 0 < q.old.escrowAmount then [(recipient q.old, q.old.escrowAmount)] else [])
    (hst : st = .delivered ∨ st = .cancelled) (hcl : w.Closes w' id st) :
    w.Settled w' w'.trace id st recipient := by
  obtain ⟨⟨s, hs, hopen⟩, s', hs', hst'⟩ := hcl
  rcases posted_or_same hsound.keyed hcreates hx with hp | hsame
  · obtain ⟨q, hp⟩ := hp
    obtain ⟨hid, hleft, hmoves⟩ := hrule q hp.rule
    have hnn := (hp.bounds hsound).1
    have hold : w.getShipment q.old.id = some q.old := hp.stored
    have hnew : w'.getShipment q.old.id = some q.new := hp.stored_new
    rw [hid] at hold hnew
    obtain rfl : q.new = s' := Option.some.inj (hnew.symm.trans hs')
    refine ⟨q.old, q.new, hold, hnew, hst', ?_, ?_⟩
    · rw [hleft]
      exact escrowLeft_eq hnn
    · rw [hp.transfersOut_eq hself hnn, hmoves]
  · have hsame : w'.getShipment id = w.getShipment id := hsame id
    rw [hsame, hs] at hs'
    obtain rfl := Option.some.inj hs'
    rw [hst'] at hopen
    exact absurd hst hopen

variable {c c' : Chain H} {call : Call} {trace : List Effect} {action : AdminAction}

/-- What a call that executes does to the records and the offices. -/
theorem settles_of_executing (hk : w.ledger.Keyed) (hfiled : w.offices.Filed)
    (hexec : w.executing call = some action) (hx : call.exec env w = .ok () w') :
    w.Settles w' action ∧ w'.ledger.admin = action.successor?.or w.ledger.admin := by
  cases call with
  | approveAction x n =>
    obtain ⟨p, hp, hthr⟩ := Option.bind_eq_some_iff.mp hexec
    obtain ⟨hact, hle⟩ := World.executing_approveAction hexec hp
    obtain ⟨ho, -, hsettles⟩ := wp_approveAction_enacts hk hfiled hp hle () w' hx
    rw [← hact]
    exact ⟨hsettles, congrArg Offices.admin ho⟩
  | executeProposal n =>
    obtain ⟨p, hp, hact⟩ := Option.map_eq_some_iff.mp hexec
    obtain ⟨ho, hsettles⟩ := wp_executeProposal_enacts hk hp () w' hx
    rw [← hact]
    exact ⟨hsettles, congrArg Offices.admin ho⟩
  | _ => cases hexec

/-- What a call posts that executes a proposal. -/
theorem Rule.forced {q : Posting} (hr : Rule env w call q) (hexec : w.executing call = some action) :
    ∃ n payee, (action = .forceRelease q.old.id ∧ payee = q.old.carrier ∨
        action = .forceRefund q.old.id ∧ payee = q.old.sender) ∧
      q.new.escrowAmount = escrowLeft q.old.escrowAmount ∧
      q.moves = payAll (.bare n) payee q.old.escrowAmount := by
  have hcall : call.executes = true := by
    by_contra hno
    rw [executing_eq_none (Bool.eq_false_of_not_eq_true hno)] at hexec
    cases hexec
  cases hr with
  | forceRelease hx => exact ⟨_, _, .inl ⟨Option.some.inj (hexec.symm.trans hx), rfl⟩, rfl, rfl⟩
  | forceRefund hx => exact ⟨_, _, .inr ⟨Option.some.inj (hexec.symm.trans hx), rfl⟩, rfl, rfl⟩
  | _ => cases hcall

/-- A proposal that is executed does what it says. -/
theorem Step.enacted (hc : Reachable c) (hstep : Step c (.committed call env trace) c')
    (hexec : c.world.executing call = some action) : c.world.Enacted c'.world trace action := by
  cases hstep with
  | @committed _ _ w' ha hx =>
    have hsound : c.world.fresh.ledger.Sound := hc.sound
    have hexec₀ : c.world.fresh.executing call = some action := by
      cases call <;> exact hexec
    have hcreates : call.creates = false := by cases call <;> first | rfl | cases hexec
    obtain ⟨hsettles, hadmin⟩ := settles_of_executing hsound.keyed hc.filed hexec₀ hx
    cases action with
    | upgrade hash =>
      have hregs : w'.registers = (c.world.fresh.noted call).foldl Registers.write c.world.fresh.registers :=
        registers_exec call () w' hx
      have hnoted : c.world.fresh.noted call = [.upgraded hash] := by
        cases call with
        | approveAction | executeProposal =>
          unfold World.noted
          rw [hexec₀]
          rfl
        | _ => cases hexec
      rw [hnoted] at hregs
      exact ⟨congrArg Registers.shown hregs, congrArg Registers.wasm hregs⟩
    | transferAdmin b => exact hadmin
    | forceRelease id =>
      refine settled_of_closes hsound ha.self hx hcreates (fun q hq => ?_) (.inl rfl) hsettles
      obtain ⟨n, payee, hact, hleft, hmoves⟩ := hq.forced hexec₀
      rcases hact with ⟨heq, rfl⟩ | ⟨heq, rfl⟩
      · cases heq
        exact ⟨rfl, hleft, hmoves ▸ out?_payAll _ _ n⟩
      · cases heq
    | forceRefund id =>
      refine settled_of_closes hsound ha.self hx hcreates (fun q hq => ?_) (.inr rfl) hsettles
      obtain ⟨n, payee, hact, hleft, hmoves⟩ := hq.forced hexec₀
      rcases hact with ⟨heq, rfl⟩ | ⟨heq, rfl⟩
      · cases heq
      · cases heq
        exact ⟨rfl, hleft, hmoves ▸ out?_payAll _ _ n⟩

/-! ### Members who try -/

/-- Members belong to a contract that was set up. -/
theorem Reachable.admin_of_member (hc : Reachable c) (hx : x ∈ c.world.offices.members) :
    ∃ admin, c.world.ledger.admin = some admin := by
  have key : c.world.ledger.admin = none → c.world.offices.members = [] := by
    refine hc.inv (I := fun c => c.world.ledger.admin = none → c.world.offices.members = [])
      (fun _ _ _ => rfl) fun a l b ha h hstep => ?_
    cases hstep with
    | reverted => exact h
    | outside => exact h
    | @committed call env w' _ hx =>
      intro hnone
      have hsound : a.world.fresh.ledger.Sound := ha.sound
      have hold : a.world.ledger.admin = none := (exec_effects hsound.keyed hx).admin_none hnone
      have hmot : Motion env a.world.fresh.offices call w'.trace w'.offices :=
        motion_exec (w := a.world.fresh) ha.filed rfl () w' hx
      have hmem : w'.offices.members = a.world.fresh.offices.members := by
        by_contra hne
        obtain ⟨b, xs, k, rfl⟩ := hmot.constituted_of_ne fun hsame => hne hsame.1
        have hb : a.world.ledger.admin = some b := wp_byAdminAnyTime (w := a.world.fresh) id () w' hx
        rw [hold] at hb
        cases hb
      exact hmem.trans (h hold)
  rcases hadmin : c.world.ledger.admin with _ | admin
  · rw [key hadmin] at hx
    cases hx
  · exact ⟨admin, rfl⟩

/-- The call of a step, whether it went through or not. -/
def Label.asked : Label → Option (Call × Env)
  | .committed call env _ | .reverted call env => some (call, env)
  | .outside => none

def Call.approves (x : Address) (n : ℕ) : Call → Bool
  | .approveAction y m => y = x ∧ m = n
  | _ => false

/-- A member tries to approve the proposal: it signs, no later than `time`. -/
def Label.tries (x : Address) (n time : ℕ) (l : Label) : Bool :=
  l.asked.any fun r => r.1.approves x n && r.2.auth x && decide (r.2.timestamp ≤ time)

/-- The step installs a list of members. -/
def Label.relists : Label → Bool
  | .committed call _ _ => call.isInitMultisig
  | _ => false

variable {l : Label} {ls ks : List Label} {o o' : Offices} {q q' : Proposal} {time : ℕ}

theorem Call.approves_iff : call.approves x n = true ↔ call = .approveAction x n := by
  constructor
  · intro h
    cases call with
    | approveAction y m =>
      obtain ⟨rfl, rfl⟩ := of_decide_eq_true h
      rfl
    | _ => cases h
  · rintro rfl
    exact decide_eq_true ⟨rfl, rfl⟩

theorem Label.exists_of_tries (h : l.tries x n time = true) :
    ∃ env, l.asked = some (.approveAction x n, env) ∧ env.auth x = true ∧ env.timestamp ≤ time := by
  obtain ⟨r, hr, h⟩ := (Option.any_eq_true _ _).mp h
  obtain ⟨h, htime⟩ := (Bool.and_eq_true _ _).mp h
  obtain ⟨hcall, hauth⟩ := (Bool.and_eq_true _ _).mp h
  obtain ⟨call, env⟩ := r
  obtain rfl : call = .approveAction x n := Call.approves_iff.mp hcall
  exact ⟨env, hr, hauth, of_decide_eq_true htime⟩

/-- The step does not stand in the way of the proposal: its number is not given to another one, the
members stay who they are, and where an approval makes up the threshold the action is possible. -/
structure Chain.Favours (n : ℕ) (action : AdminAction) (c : Chain H) (l : Label) : Prop where
  numbered : l.tables n = false
  listed : l.relists = false
  performs : ∀ x env q, l.asked = some (.approveAction x n, env) → c.world.governance.proposal n = some q →
    c.world.offices.threshold ≤ q.approvals.length + 1 → c.world.Performs env action

theorem Step.listed (hc : Reachable c) (hstep : Step c l c') (hl : l.relists = false) :
    c'.world.offices.members = c.world.offices.members ∧
      c'.world.offices.threshold = c.world.offices.threshold := by
  rcases hstep.motion hc.filed with ⟨call, env, trace, rfl, hm⟩ | ⟨-, heq⟩
  · by_contra hne
    obtain ⟨a, xs, k, rfl⟩ := hm.constituted_of_ne hne
    cases hl
  · rw [heq]
    exact ⟨rfl, rfl⟩

theorem Offices.record_self (o : Offices) (hid : q.id = n) : (o.record q).council.proposal n = some q := by
  rw [← hid]
  exact Function.update_self ..

/-- What a step makes of a proposal whose number it does not give away: its terms stay, and while it is
not executed no approval is lost and the threshold is not met. -/
theorem Step.course (hc : Reachable c) (hstep : Step c l c') (hl : l.tables n = false)
    (hq : c.world.governance.proposal n = some q) :
    ∃ q', c'.world.governance.proposal n = some q' ∧ q'.action = q.action ∧ q'.expiresAt = q.expiresAt ∧
      (q'.executed = false → q.executed = false ∧ q.approvals <+: q'.approvals ∧
        (q.approvals.length < c.world.offices.threshold →
          q'.approvals.length < c.world.offices.threshold)) := by
  cases hstep.fate hc.filed n with
  | kept _ _ heq _ =>
    exact ⟨q, heq.trans hq, rfl, rfl, fun hex => ⟨hex, List.prefix_refl _, id⟩⟩
  | tabled _ _ _ _ _ _ _ _ hyes =>
    rw [hyes] at hl
    cases hl
  | @acted call env trace p approvals _ hpend hj hq' _ _ _ =>
    obtain rfl : p = q := Option.some.inj (hpend.stored.symm.trans hq)
    refine ⟨_, hq', rfl, rfl, fun hex => ⟨hpend.unexecuted, hj.isPrefix, fun hshort => ?_⟩⟩
    cases hj with
    | same => exact hshort
    | @new x hcall =>
      subst hcall
      by_contra hno
      have hthr : c.world.offices.threshold ≤ p.approvals.length + 1 := by
        simpa using hno
      -- an approval that makes up the threshold executes the proposal
      cases hstep with
      | @committed _ _ w' _ hx =>
        have hsound : c.world.fresh.ledger.Sound := hc.sound
        obtain ⟨ho, -⟩ := wp_approveAction_enacts (w := c.world.fresh) hsound.keyed hc.filed hq hthr () w' hx
        have hdone : w'.offices.council.proposal n =
            some { p with approvals := p.approvals ++ [x], executed := true } := by
          rw [ho]
          exact Offices.record_self _ (hc.filed n p hq)
        have hq' := Option.some.inj (hdone.symm.trans hq')
        have hex' : true = false := (congrArg Proposal.executed hq').trans hex
        cases hex'

theorem World.executing_of_threshold (hq : w.governance.proposal n = some q)
    (hle : w.offices.threshold ≤ q.approvals.length + 1) :
    w.executing (.approveAction x n) = some q.action := by
  show (w.governance.proposal n).bind _ = _
  rw [hq]
  exact if_pos hle

/-- A step that executes the proposal carries out what it says. -/
theorem Step.executes (hc : Reachable c) (hstep : Step c l c') (hl : l.tables n = false)
    (hq : c.world.governance.proposal n = some q) (hex : q.executed = false)
    (hq' : c'.world.governance.proposal n = some q') (hex' : q'.executed = true) :
    ∃ call env trace, l = .committed call env trace ∧ .event (.proposalExecuted n q.action) ∈ trace ∧
      c.world.executing call = some q.action := by
  cases hstep.fate hc.filed n with
  | kept _ _ heq _ =>
    obtain rfl : q = q' := Option.some.inj (hq.symm.trans (heq.symm.trans hq'))
    rw [hex] at hex'
    cases hex'
  | tabled _ _ _ _ _ _ _ _ hyes =>
    rw [hyes] at hl
    cases hl
  | @acted call env trace p approvals _ hpend hj hnew _ hthr _ =>
    obtain rfl : p = q := Option.some.inj (hpend.stored.symm.trans hq)
    have hyes : (Label.committed call env trace).enacts n = true :=
      (congrArg Proposal.executed (Option.some.inj (hnew.symm.trans hq'))).trans hex'
    obtain ⟨hle, hev⟩ := hthr hyes
    refine ⟨call, env, trace, rfl, hev, ?_⟩
    cases hj with
    | same =>
      by_cases hcall : call = .executeProposal n
      · rw [hcall]
        exact congrArg (Option.map (·.action)) hq
      · by_cases happ : ∃ x, call = .approveAction x n
        · obtain ⟨x, rfl⟩ := happ
          exact World.executing_of_threshold hq (Nat.le_succ_of_le hle)
        · rw [Label.enacts_of_ne hcall (not_exists.mp happ) env trace] at hyes
          cases hyes
    | @new x hcall =>
      subst hcall
      have hle : c.world.offices.threshold ≤ p.approvals.length + 1 := by
        simpa using hle
      exact World.executing_of_threshold hq hle

theorem Motion.approval_mem (hm : Motion env o (.approveAction x n) trace o') (ho : o.Filed)
    (hq' : o'.council.proposal n = some q') (hex' : q'.executed = false) : x ∈ q'.approvals := by
  cases hm with
  | kept hno => cases hno
  | tabled hprop => cases hprop
  | @seconded _ _ p hpend =>
    have hid : p.id = n := ho n p hpend.stored
    have hstored := o.record_self (q := { p with approvals := p.approvals ++ [x] }) hid
    obtain rfl := Option.some.inj (hstored.symm.trans hq')
    simp
  | @enacted _ _ p _ hpend =>
    have hid : p.id = n := ho n p hpend.stored
    have hstored := o.record_self (q := { p with approvals := p.approvals ++ [x], executed := true }) hid
    obtain rfl := Option.some.inj (hstored.symm.trans hq')
    cases hex'

/-- The approval of a member who tries is there afterwards, unless the proposal is executed: an approval
that is refused was not needed any more. -/
theorem Step.tried (hc : Reachable c) (hstep : Step c l c') (hfav : c.Favours n q.action l)
    (hq : c.world.governance.proposal n = some q) (hex : q.executed = false)
    (hx : x ∈ c.world.offices.members) (htry : l.tries x n q.expiresAt = true)
    (hq' : c'.world.governance.proposal n = some q') (hex' : q'.executed = false) : x ∈ q'.approvals := by
  obtain ⟨env, hasked, hauth, htime⟩ := Label.exists_of_tries htry
  cases hstep with
  | outside => cases hasked
  | reverted _ hno =>
    cases hasked
    obtain rfl : q = q' := Option.some.inj (hq.symm.trans hq')
    by_contra hnew
    obtain ⟨admin, hadmin⟩ := hc.admin_of_member hx
    have horderly : c.world.fresh.Orderly := hc.orderly.congr rfl rfl
    have hgoes : Succeeds (approveAction x n) env c.world.fresh :=
      (succeeds_approveAction horderly hc.filed hadmin hq).mpr ⟨⟨hauth, hx⟩, ⟨⟨hq, hex, htime⟩, hnew⟩,
        fun hle => (hfav.performs x env q rfl hq hle).congr rfl rfl⟩
    obtain ⟨u, w', hw⟩ := hgoes
    exact hno w' hw
  | @committed _ _ w' _ hexec =>
    cases hasked
    have hm : Motion env c.world.fresh.offices (.approveAction x n) w'.trace w'.offices :=
      motion_exec (w := c.world.fresh) hc.filed rfl () w' hexec
    exact hm.approval_mem hc.filed hq' hex'

/-- How the proposal `p` of the state `c₀` stands after the steps `ks`, as `q`: its terms are the same,
and while it is not executed it is short of approvals, has those it had, and that of every member who
tried. -/
structure Chain.Stands (c₀ : Chain H) (n : ℕ) (p : Proposal) (ks : List Label) (c : Chain H)
    (q : Proposal) : Prop where
  stored : c.world.governance.proposal n = some q
  action_eq : q.action = p.action
  expiresAt_eq : q.expiresAt = p.expiresAt
  members_eq : c.world.offices.members = c₀.world.offices.members
  threshold_eq : c.world.offices.threshold = c₀.world.offices.threshold
  short : q.executed = false → q.approvals.length < c₀.world.offices.threshold
  kept : q.executed = false → ∀ x ∈ p.approvals, x ∈ q.approvals
  counted : q.executed = false → ∀ x ∈ c₀.world.offices.members, ∀ k ∈ ks,
    k.tries x n p.expiresAt = true → x ∈ q.approvals

variable {c₀ : Chain H}

theorem Chain.Stands.step (h : c₀.Stands n p ks c q) (hc : Reachable c) (hstep : Step c l c')
    (hfav : c.Favours n p.action l) : ∃ q', c₀.Stands n p (ks ++ [l]) c' q' := by
  obtain ⟨hmembers, hthreshold⟩ := hstep.listed hc hfav.listed
  obtain ⟨q', hq', haction, hexpires, hopen⟩ := hstep.course hc hfav.numbered h.stored
  refine ⟨q', hq', haction.trans h.action_eq, hexpires.trans h.expiresAt_eq, hmembers.trans h.members_eq,
    hthreshold.trans h.threshold_eq, fun hex' => ?_, fun hex' x hx => ?_, fun hex' x hx k hk htry => ?_⟩
  · obtain ⟨hex, -, hshort⟩ := hopen hex'
    rw [h.threshold_eq] at hshort
    exact hshort (h.short hex)
  · obtain ⟨hex, hpre, -⟩ := hopen hex'
    exact hpre.subset (h.kept hex x hx)
  · obtain ⟨hex, hpre, -⟩ := hopen hex'
    rcases List.mem_append.mp hk with hk | hk
    · exact hpre.subset (h.counted hex x hx k hk htry)
    · obtain rfl := List.mem_singleton.mp hk
      rw [← h.action_eq] at hfav
      rw [← h.expiresAt_eq] at htry
      rw [← h.members_eq] at hx
      exact hstep.tried hc hfav h.stored hex hx htry hq' hex'

theorem Run.stands (hc : Reachable c₀) (hp : c₀.world.governance.proposal n = some p)
    (hshort : p.approvals.length < c₀.world.offices.threshold)
    (hr : Run (Under Step (Chain.Favours n p.action)) c₀ ks c) :
    Reachable c ∧ ∃ q, c₀.Stands n p ks c q := by
  refine hr.inv_hist (I := fun ks c => Reachable c ∧ ∃ q, c₀.Stands n p ks c q)
    ⟨hc, p, hp, rfl, rfl, rfl, rfl, fun _ => hshort, fun _ _ hx => hx, fun _ _ _ _ hk => (by cases hk)⟩ ?_
  intro ks a l b _ ih hstep
  obtain ⟨ha, q, hq⟩ := ih
  exact ⟨ha.step hstep.1, hq.step ha hstep.1 hstep.2⟩

/-- Once as many members as the threshold asks for have approved a proposal or tried to, each with its
signature and in time, the proposal is executed, and some step did what it says; in any order, and with
anything else in between that does not stand in its way. -/
theorem quorum_executes {voters : List Address} (hc : Reachable c)
    (hp : c.world.governance.proposal n = some p) (hex : p.executed = false)
    (hshort : p.approvals.length < c.world.offices.threshold)
    (hr : Run (Under Step (Chain.Favours n p.action)) c ls c')
    (hnodup : voters.Nodup) (hmembers : ∀ x ∈ voters, x ∈ c.world.offices.members)
    (hmany : c.world.offices.threshold ≤ voters.length)
    (hall : ∀ x ∈ voters, x ∈ p.approvals ∨ ∃ l ∈ ls, l.tries x n p.expiresAt = true) :
    (∃ q, c'.world.governance.proposal n = some q ∧ q.executed = true) ∧
      ∃ a call env trace b, Visits Step c ls c' a ∧ Step a (.committed call env trace) b ∧
        .event (.proposalExecuted n p.action) ∈ trace ∧ a.world.Enacted b.world trace p.action := by
  have hdone : ∃ q, c'.world.governance.proposal n = some q ∧ q.executed = true := by
    obtain ⟨-, q, hq⟩ := Run.stands hc hp hshort hr
    refine ⟨q, hq.stored, ?_⟩
    by_contra hno
    have hopen : q.executed = false := Bool.eq_false_of_not_eq_true hno
    have hsub : voters ⊆ q.approvals := by
      intro x hx
      rcases hall x hx with h | ⟨l, hl, htry⟩
      · exact hq.kept hopen x h
      · exact hq.counted hopen x (hmembers x hx) l hl htry
    have hle : voters.length ≤ q.approvals.length := (hnodup.subperm hsub).length_le
    exact absurd (hmany.trans hle) (not_le.mpr (hq.short hopen))
  refine ⟨hdone, ?_⟩
  have hstart : ¬∃ q, c.world.governance.proposal n = some q ∧ q.executed = true := by
    rintro ⟨q, hq, hyes⟩
    obtain rfl : p = q := Option.some.inj (hp.symm.trans hq)
    rw [hex] at hyes
    cases hyes
  obtain ⟨ks, l, ks', a, b, rfl, hra, hstep, hrb, hna, hb⟩ := hr.exists_step
    (P := fun y => ∃ q, y.world.governance.proposal n = some q ∧ q.executed = true) hstart hdone
  obtain ⟨ha, q, hq⟩ := Run.stands hc hp hshort hra
  obtain ⟨q', hq', hex'⟩ := hb
  have hopen : q.executed = false := Bool.eq_false_of_not_eq_true fun h => hna ⟨q, hq.stored, h⟩
  obtain ⟨call, env, trace, rfl, hev, hexec⟩ := hstep.1.executes ha hstep.2.numbered hq.stored hopen hq' hex'
  rw [hq.action_eq] at hev hexec
  exact ⟨a, call, env, trace, b, ⟨ks, _, rfl, hra.of_under, .cons hstep.1 hrb.of_under⟩, hstep.1, hev,
    hstep.1.enacted ha hexec⟩

/-- The last two of three members approve, with a pause in between. -/
theorem quorum_executes_three : ∃ (c c' : Chain Deployment.host) (ls : List Label) (p : Proposal),
    Reachable c ∧ Run Step c ls c' ∧ c.world.governance.proposal 1 = some p ∧
      p.approvals = [Deployment.admin] ∧ c.world.offices.threshold = 3 ∧
      (∃ q, c'.world.governance.proposal 1 = some q ∧ q.executed = true) ∧
      ∃ a call env trace b, Visits Step c ls c' a ∧ Step a (.committed call env trace) b ∧
        .event (.proposalExecuted 1 p.action) ∈ trace ∧ a.world.Enacted b.world trace p.action := by
  obtain ⟨ks, c, ls, c', hr, hrun, -, ⟨hp, hmembers, hthreshold⟩, hquiet, htries⟩ := exists_play₂ Deployment.chain
    [Deployment.signed Deployment.admin 1
        (.initializeContract Deployment.admin Deployment.tokenContract),
      Deployment.signed Deployment.admin 2 (.initMultisig Deployment.admin
        [Deployment.admin, Deployment.company, Deployment.treasury] 3),
      Deployment.signed Deployment.admin 3
        (.proposeAction Deployment.admin (.transferAdmin Deployment.carrier))]
    [Deployment.signed Deployment.treasury 4 (.approveAction Deployment.treasury 1),
      Deployment.signed Deployment.admin 5 (.addCompany Deployment.admin Deployment.receiver),
      Deployment.signed Deployment.company 6 (.approveAction Deployment.company 1)]
    (fun c r => (c.world.governance.proposal 1 = some ⟨1, Deployment.admin,
          .transferAdmin Deployment.carrier, [Deployment.admin], 3, 604803, false⟩ ∧
        c.world.offices.members = [Deployment.admin, Deployment.company, Deployment.treasury] ∧
        c.world.offices.threshold = 3) ∧
      (∀ l ∈ r.1, l.tables 1 = false ∧ l.relists = false) ∧
      (∀ x ∈ [Deployment.company, Deployment.treasury], r.1.any (·.tries x 1 604803) = true))
    (by decide +kernel)
  have hc : Reachable c := ⟨_, ks, Deployment.deployed, hr⟩
  have hfavoured : Run (Under Step (Chain.Favours 1 (.transferAdmin Deployment.carrier))) c ls c' :=
    hrun.under hquiet fun _ _ h => ⟨h.1, h.2, fun _ _ _ _ _ _ => trivial⟩
  have hshort : [Deployment.admin].length < c.world.offices.threshold := by
    rw [hthreshold]
    decide
  have hall : ∀ x ∈ [Deployment.admin, Deployment.company, Deployment.treasury],
      x ∈ [Deployment.admin] ∨ ∃ l ∈ ls, l.tries x 1 604803 = true := by
    intro x hx
    rcases List.mem_cons.mp hx with rfl | hx
    · exact .inl (List.mem_singleton_self _)
    · exact .inr (List.any_eq_true.mp (htries x hx))
  exact ⟨c, c', ls, _, hc, hrun, hp, rfl, hthreshold,
    quorum_executes hc hp rfl hshort hfavoured (by decide)
      (fun x hx => hmembers ▸ hx) (hthreshold ▸ le_rfl) hall⟩

end Navin
