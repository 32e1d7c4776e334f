/-
# Disputes opened by a breach

With the toggle of the configuration on, a critical breach report opens a dispute itself.
It repeats `raise_dispute` line by line and leaves two lines out: the reason why the escrow
is frozen is not stored, and no event says so. The `Escrow` entry is not written again
either. All else comes out as if the report had been made with the toggle off and the
carrier had raised the dispute.

Key definitions:
- `World.withAutoDispute`: the toggle;
- `Chain.RaisedApart`: the report with the toggle off, and then the dispute.

Key theorems:
- `wp_reportConditionBreach`, `wp_raiseDispute`: the worlds afterwards;
- `Chain.RaisedApart.eq_frozen`: the two differ in the reason, the entry and the event;
- `auto_dispute_lacks_freeze`.
-/
import Navin.Guards
import Navin.Token
import Navin.Lib.Returns

namespace Navin

open Tx

variable {H : Host} {env : Env} {w w' w₁ w₂ : World H} {carrier caller : Address} {id now : ℕ}
  {breach : BreachType} {severity : Severity} {hash : BytesN32} {s : Shipment}

/-! ### The worlds afterwards -/

namespace World

/-- The events are published. -/
def publishing (w : World H) (es : List Event) : World H :=
  { w with trace := w.trace ++ es.map .event }

/-- A breach is reported and counted. -/
def breached (w : World H) (carrier : Address) (id : ℕ) (breach : BreachType) (severity : Severity)
    (hash : BytesN32) : World H :=
  publishing { w with
    dossier := { w.dossier with
      breachEventCount := Function.update w.dossier.breachEventCount id
        (some (saturatingAddU32 (w.getBreachEventCount id) 1)) } }
    [.conditionBreach id carrier breach severity hash, .carrierBreach carrier id breach severity]

/-- The record is disputed, and the dispute counted. -/
def disputed (w : World H) (s : Shipment) (now : ℕ) : World H :=
  { w with
    ledger := (w.ledger.setShipment ((s.withStatus .disputed).touch now)).moveCount s.status .disputed
    governance := { w.governance with totalDisputes := w.governance.totalDisputes + 1 } }

/-- The reason of the freeze is stored, and the `Escrow` entry written. -/
def frozen (w : World H) (id : ℕ) (s : Shipment) : World H :=
  { w with
    ledger := w.ledger.setEscrow s.id s.escrowAmount
    dossier := { w.dossier with
      escrowFreezeReason := Function.update w.dossier.escrowFreezeReason id (some .disputeRaised) } }

/-- The toggle of the configuration. -/
def withAutoDispute (w : World H) (b : Bool) : World H :=
  { w with governance := { w.governance with
      config := some { w.getConfig with autoDisputeBreach := b } } }

end World

/-- Who is told of a dispute, in order. -/
def disputeNotices (s : Shipment) (id : ℕ) (hash : BytesN32) : List Event :=
  [.notification s.sender .disputeRaised id hash, .notification s.receiver .disputeRaised id hash,
    .notification s.carrier .disputeRaised id hash]

theorem wp_moveStatusCount_exact {t u : ShipmentStatus} {Q : Unit → World H → Prop}
    (h : Q () { w with ledger := w.ledger.moveCount t u }) :
    wp (moveStatusCount t u) env w Q := by
  unfold moveStatusCount decrementStatusCount incrementStatusCount modifyLedger
  simp only [wp_bind, wp_gets, wp_when, wp_trapIf, wp_modify]
  constructor
  · intro _ _
    exact h
  · intro hz _
    have hz' : w.ledger.statusCount t - 1 = w.ledger.statusCount t := by omega
    have hsame : w.ledger.moveCount t u = w.ledger.setStatusCount u (w.ledger.statusCount u + 1) := by
      simp only [Ledger.moveCount, countMove, hz', Function.update_eq_self]
      rfl
    rw [hsame] at h
    exact h

theorem wp_incrementTotalDisputes {Q : Unit → World H → Prop}
    (h : Q () { w with governance := { w.governance with
      totalDisputes := w.governance.totalDisputes + 1 } }) :
    wp (incrementTotalDisputes : Contract H Unit) env w Q := by
  unfold incrementTotalDisputes
  simp only [wp_bind, wp_gets, wp_trapIf, wp_modifyGovernance]
  exact fun _ => h

theorem World.publishing_cons (w : World H) (e : Event) (es : List Event) :
    w.publishing (e :: es) = World.publishing { w with trace := w.trace ++ [.event e] } es := by
  simp [World.publishing]

theorem World.publishing_nil (w : World H) : w.publishing [] = w := by
  simp [World.publishing]

/-- What a dispute writes and tells. -/
theorem wp_raiseDispute : wp (raiseDispute caller id hash) env w fun _ w' =>
    ∃ s, w.getShipment id = some s ∧
      w' = (((w.signed caller).disputed s env.timestamp).frozen id s).publishing
        (.disputeRaised id caller hash :: .escrowFrozen id .disputeRaised caller env.timestamp ::
          disputeNotices s id hash) := by
  unfold raiseDispute loadShipment persistShipment emitEscrowFrozen setShipment setEscrow
    setEscrowFreezeReason modifyLedger modifyDossier
  simp only [wp_bind, wp_gets, wp_okOr, wp_rejectIf, wp_liftResult, wp_modify, wp_timestamp, wp_log]
  refine wp_openCall fun _ _ => ?_
  refine wp_guard fun _ => ?_
  intro s hs
  refine wp_guard fun _ _ => ?_
  refine wp_guard fun _ _ _ _ => ?_
  refine wp_moveStatusCount_exact ?_
  refine wp_incrementTotalDisputes ?_
  refine wp_guard fun _ => ⟨s, hs, ?_⟩
  simp only [disputeNotices, World.publishing_cons, World.publishing_nil]
  rfl

/-- A report that opens a dispute: the toggle is on, the breach critical, and the shipment
neither disputed nor cancelled. -/
def World.Opens (w : World H) (severity : Severity) (s : Shipment) : Prop :=
  w.getConfig.autoDisputeBreach = true ∧ severity = .critical ∧ s.status ≠ .cancelled ∧
    s.status ≠ .disputed

instance (w : World H) (severity : Severity) (s : Shipment) : Decidable (w.Opens severity s) :=
  inferInstanceAs (Decidable (_ ∧ _))

/-- What a report writes and tells. -/
theorem wp_reportConditionBreach :
    wp (reportConditionBreach carrier id breach severity hash) env w fun _ w' =>
      ∃ s, w.getShipment id = some s ∧
        (w.Opens severity s → w' =
          (((w.signed carrier).breached carrier id breach severity hash).disputed s
            env.timestamp).publishing (.disputeRaised id carrier hash :: disputeNotices s id hash)) ∧
        (¬w.Opens severity s → w' = (w.signed carrier).breached carrier id breach severity hash) := by
  unfold reportConditionBreach loadShipment incrementBreachEventCount setShipment modifyLedger
    modifyDossier
  simp only [wp_bind, wp_gets, wp_okOr, wp_rejectIf, wp_modify, wp_timestamp, wp_log, wp_when]
  refine wp_guard fun _ => ?_
  refine wp_requireAuth fun _ => ?_
  refine wp_guard fun _ => ?_
  refine wp_guard fun _ => ?_
  intro s hs
  refine wp_guard fun _ => ?_
  refine wp_guard fun _ hcarrier _ => ?_
  obtain rfl := not_not.mp hcarrier
  constructor
  · intro hopens
    refine wp_moveStatusCount_exact ?_
    refine wp_incrementTotalDisputes ?_
    refine wp_guard fun _ => ⟨s, hs, fun _ => ?_, fun hno => absurd hopens hno⟩
    simp only [disputeNotices, World.publishing_cons, World.publishing_nil, World.breached]
    rfl
  · intro hno
    refine ⟨s, hs, fun hopens => absurd hopens hno, fun _ => ?_⟩
    simp only [World.publishing_cons, World.publishing_nil, World.breached]
    rfl

/-! ### The report, and the dispute apart -/

/-- The events a dispute is told by. -/
def Event.ofDispute : Event → Bool
  | .disputeRaised .. | .escrowFrozen .. | .notification _ .disputeRaised _ _ => true
  | _ => false

def disputeEvents (trace : List Effect) : List Event :=
  trace.filterMap fun e => match e with
    | .event e => if e.ofDispute then some e else none
    | _ => none

namespace Chain

/-- The report is made with the toggle off, and the carrier raises the dispute at the same
time. -/
def RaisedApart (c : Chain H) (env : Env) (carrier : Address) (id : ℕ) (breach : BreachType)
    (hash : BytesN32) (trace : List Effect) (d : Chain H) : Prop :=
  ∃ t₁ c₁ t₂, Step ⟨c.world.withAutoDispute false, c.now⟩
      (.committed (.reportConditionBreach carrier id breach .critical hash) env t₁) c₁ ∧
    Step c₁ (.committed (.raiseDispute carrier id hash) env t₂) d ∧ trace = t₁ ++ t₂

/-- The report leads to `c'`, as the report and the dispute apart would, and tells the same
about the dispute. -/
def AsIfRaised (c : Chain H) (env : Env) (carrier : Address) (id : ℕ) (breach : BreachType)
    (hash : BytesN32) (trace : List Effect) (c' : Chain H) : Prop :=
  ∃ trace' d, c.RaisedApart env carrier id breach hash trace' d ∧
    ⟨d.world.withAutoDispute true, d.now⟩ = c' ∧ disputeEvents trace' = disputeEvents trace

end Chain

theorem World.withAutoDispute_self (h : w.getConfig.autoDisputeBreach = true) :
    w.withAutoDispute true = w := by
  unfold World.getConfig at h
  rcases hcfg : w.governance.config with _ | config
  · rw [hcfg] at h
    exact absurd h (by decide)
  · rw [hcfg, Option.getD_some] at h
    have hself : { config with autoDisputeBreach := true } = config := by rw [← h]
    unfold World.withAutoDispute World.getConfig
    simp only [hcfg, Option.getD_some, hself]
    rw [← hcfg]

variable {c c' d : Chain H} {trace trace' : List Effect}

namespace World

/-! The toggle passes through what the two calls write. -/

variable (w : World H) (b : Bool)

theorem withAutoDispute_fresh : w.fresh.withAutoDispute b = (w.withAutoDispute b).fresh := rfl

theorem withAutoDispute_signed (a : Address) :
    (w.signed a).withAutoDispute b = (w.withAutoDispute b).signed a := rfl

theorem withAutoDispute_publishing (es : List Event) :
    (w.publishing es).withAutoDispute b = (w.withAutoDispute b).publishing es := rfl

theorem withAutoDispute_breached (a : Address) (x : BreachType) (y : Severity) (h : BytesN32) :
    (w.breached a id x y h).withAutoDispute b = (w.withAutoDispute b).breached a id x y h := rfl

theorem withAutoDispute_disputed (now : ℕ) :
    (w.disputed s now).withAutoDispute b = (w.withAutoDispute b).disputed s now := rfl

theorem withAutoDispute_frozen :
    (w.frozen id s).withAutoDispute b = (w.withAutoDispute b).frozen id s := rfl

theorem withAutoDispute_withAutoDispute (b' : Bool) :
    (w.withAutoDispute b').withAutoDispute b = w.withAutoDispute b := rfl

end World

/-- A report that opens a dispute. -/
theorem Step.reported
    (hstep : Step c (.committed (.reportConditionBreach carrier id breach severity hash) env trace) c')
    (hs : c.world.getShipment id = some s) (hopens : c.world.Opens severity s) :
    trace = [.auth carrier, .event (.conditionBreach id carrier breach severity hash),
      .event (.carrierBreach carrier id breach severity)] ++
        (Event.disputeRaised id carrier hash :: disputeNotices s id hash).map .event ∧
    c' = ⟨((c.world.breached carrier id breach severity hash).disputed s env.timestamp).fresh,
      env.timestamp⟩ := by
  cases hstep with
  | committed _ hx =>
    obtain ⟨t, ht, hyes, -⟩ := wp_reportConditionBreach _ _ hx
    obtain rfl := Option.some.inj (hs.symm.trans ht)
    rw [hyes hopens]
    exact ⟨rfl, rfl⟩

/-- The report and the dispute apart lead to where the report alone does, but for the reason
of the freeze and the `Escrow` entry. -/
theorem Chain.RaisedApart.eq_frozen (h : c.RaisedApart env carrier id breach hash trace' d)
    (hs : c.world.getShipment id = some s) (hauto : c.world.getConfig.autoDisputeBreach = true) :
    (⟨d.world.withAutoDispute true, d.now⟩ : Chain H) =
      ⟨(((c.world.breached carrier id breach .critical hash).disputed s env.timestamp).frozen
        id s).fresh, env.timestamp⟩ ∧
    disputeEvents trace' = .disputeRaised id carrier hash ::
      .escrowFrozen id .disputeRaised carrier env.timestamp :: disputeNotices s id hash := by
  obtain ⟨t₁, c₁, t₂, hreport, hraise, rfl⟩ := h
  have hself := World.withAutoDispute_self hauto
  cases hreport with
  | committed _ hx =>
    obtain ⟨t, ht, -, hno⟩ := wp_reportConditionBreach _ _ hx
    have hoff : ¬(c.world.withAutoDispute false).fresh.Opens .critical t := by
      rintro ⟨hon, -⟩
      cases hon
    obtain rfl := Option.some.inj (hs.symm.trans ht)
    rw [hno hoff] at hraise ⊢
    cases hraise with
    | committed _ hy =>
      obtain ⟨u, hu, hw⟩ := wp_raiseDispute _ _ hy
      obtain rfl := Option.some.inj (hs.symm.trans hu)
      rw [hw]
      refine ⟨?_, rfl⟩
      dsimp only
      rw [World.withAutoDispute_fresh, World.withAutoDispute_publishing, World.withAutoDispute_frozen,
        World.withAutoDispute_disputed, World.withAutoDispute_signed, World.withAutoDispute_fresh,
        World.withAutoDispute_fresh, World.withAutoDispute_breached, World.withAutoDispute_signed,
        World.withAutoDispute_fresh, World.withAutoDispute_withAutoDispute, hself]
      rfl

/-- **The report does not do what it repeats.** A critical breach that opens a dispute by
itself never leads to where the report and `raise_dispute` lead: no event says that the
escrow is frozen. -/
theorem auto_dispute_lacks_freeze
    (hstep : Step c (.committed (.reportConditionBreach carrier id breach .critical hash) env trace) c')
    (hs : c.world.getShipment id = some s) (hopens : c.world.Opens .critical s) :
    ¬c.AsIfRaised env carrier id breach hash trace c' := by
  rintro ⟨trace', d, hapart, -, hevents⟩
  obtain ⟨-, hfrozen⟩ := hapart.eq_frozen hs hopens.1
  obtain ⟨rfl, -⟩ := hstep.reported hs hopens
  rw [hfrozen] at hevents
  simp [disputeEvents, disputeNotices, Event.ofDispute] at hevents

namespace Deployment

/-- The toggle is on, and the shipment of the carrier holds a deposit. -/
def vigilant : List (Call × Env) := opening ++ [
  signed admin 5 (.updateConfig admin { ContractConfig.default with autoDisputeBreach := true }),
  signed company 6 (.depositEscrow company 1 1000)]

end Deployment

/-- A critical breach is reported on a funded shipment. -/
theorem auto_dispute_lacks_freeze_funded : ∃ (c c' : Chain Deployment.host) (env : Env)
    (trace : List Effect), Reachable c ∧
      Step c (.committed (.reportConditionBreach Deployment.carrier 1 .tamperDetected .critical 7) env
        trace) c' ∧
      c'.world.ledger.statusCount .disputed = 1 ∧
      ¬c.AsIfRaised env Deployment.carrier 1 .tamperDetected 7 trace c' := by
  obtain ⟨ls, c, trace, c', hr, hstep, hs, hcount⟩ := exists_commit Deployment.chain
    Deployment.vigilant (.reportConditionBreach Deployment.carrier 1 .tamperDetected .critical 7)
    (Deployment.signed Deployment.carrier 7 (.extendTtl 1)).2
    (fun r _ c' => (∃ s ∈ r.2.world.getShipment 1, r.2.world.Opens .critical s) ∧
      c'.world.ledger.statusCount .disputed = 1)
    (by decide +kernel)
  obtain ⟨s, hs, hopens⟩ := hs
  exact ⟨c, c', _, trace, ⟨_, ls, Deployment.deployed, hr⟩, hstep, hcount,
    auto_dispute_lacks_freeze hstep hs hopens⟩

/-- There the report leaves no reason for the freeze, where the dispute raised apart stores
one. -/
theorem auto_dispute_unfrozen : ∃ (c c' d : Chain Deployment.host) (env : Env) (s : Shipment)
    (trace trace' : List Effect), Reachable c ∧ c.world.governance.isPaused = false ∧
      c.world.getConfig.autoDisputeBreach = true ∧ c.world.getShipment 1 = some s ∧
      s.finalized = false ∧ s.status ≠ .disputed ∧ s.status ≠ .cancelled ∧
      Step c (.committed (.reportConditionBreach Deployment.carrier 1 .tamperDetected .critical 7) env
        trace) c' ∧
      c.RaisedApart env Deployment.carrier 1 .tamperDetected 7 trace' d ∧
      c'.world.dossier.escrowFreezeReason 1 = none ∧
      d.world.dossier.escrowFreezeReason 1 = some .disputeRaised ∧
      ¬c.AsIfRaised env Deployment.carrier 1 .tamperDetected 7 trace c' := by
  obtain ⟨ls, c, trace, c', hr, hstep, hpaused, hs, hnone, hapart⟩ := exists_commit Deployment.chain
    Deployment.vigilant (.reportConditionBreach Deployment.carrier 1 .tamperDetected .critical 7)
    (Deployment.signed Deployment.carrier 7 (.extendTtl 1)).2
    (fun r _ c' => r.2.world.governance.isPaused = false ∧
      (∃ s ∈ r.2.world.getShipment 1, s.finalized = false ∧ r.2.world.Opens .critical s) ∧
      c'.world.dossier.escrowFreezeReason 1 = none ∧
      ∃ q ∈ commit (⟨r.2.world.withAutoDispute false, r.2.now⟩ : Chain Deployment.host)
        (.reportConditionBreach Deployment.carrier 1 .tamperDetected .critical 7)
        (Deployment.signed Deployment.carrier 7 (.extendTtl 1)).2,
      ∃ q' ∈ commit q.2 (.raiseDispute Deployment.carrier 1 7)
        (Deployment.signed Deployment.carrier 7 (.extendTtl 1)).2,
      q'.2.world.dossier.escrowFreezeReason 1 = some .disputeRaised)
    (by decide +kernel)
  obtain ⟨s, hs, hf, hopens⟩ := hs
  obtain ⟨⟨t₁, c₁⟩, hq, ⟨t₂, d⟩, hq', hsome⟩ := hapart
  refine ⟨c, c', d, _, s, trace, t₁ ++ t₂, ⟨_, ls, Deployment.deployed, hr⟩, hpaused, hopens.1, hs, hf,
    hopens.2.2.2, hopens.2.2.1, hstep, ⟨t₁, c₁, t₂, step_of_commit hq, step_of_commit hq', rfl⟩, hnone,
    hsome, ?_⟩
  rintro ⟨_, e, happ, rfl, -⟩
  obtain ⟨heq, -⟩ := happ.eq_frozen hs hopens.1
  rw [heq] at hnone
  cases hnone

end Navin
