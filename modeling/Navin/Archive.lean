/-
# The archive

`archive_shipment` moves the record of a delivered or cancelled shipment to
temporary storage. It looks at the status alone: `update_status` can take a
shipment to one of the two with its escrow still there, and a shipment that was
closed without its flag can be written after it was archived, which puts it back
beside its archived copy.

Key definitions:
- `Shipment.Drained`: a terminal status comes with an empty escrow;
- `Ledger.Filed`: what is archived is finalized and no longer live;
- `Label.Empties`, `Label.Files`: the steps that keep them.

Key theorems:
- `archived_escrow_zero`;
- `archived_unchanged`.
-/
import Navin.Closing
import Navin.Orderly

namespace Navin

open Tx

variable {H : Host}

/-! ### Escrow in a terminal status -/

/-- Delivered or cancelled only with nothing in escrow. -/
def Shipment.Drained (s : Shipment) : Prop :=
  s.status = .delivered ∨ s.status = .cancelled → s.escrowAmount = 0

namespace Shipment

variable {s : Shipment}

theorem drained_of_escrow (h : s.escrowAmount = 0) : s.Drained := fun _ => h

/-- A shipment in another status may hold what it likes. -/
theorem drained_of_status {t : ShipmentStatus} (hs : s.status = t) (h₁ : t ≠ .delivered)
    (h₂ : t ≠ .cancelled) : s.Drained := by
  subst hs
  exact fun hs => (hs.elim h₁ h₂).elim

theorem Drained.finalizeIfSettled (h : s.Drained) : s.finalizeIfSettled.Drained := h

/-- All of the escrow is paid. -/
theorem payOff_all (h : 0 ≤ s.escrowAmount) (now : ℕ) :
    (s.payOff s.escrowAmount now).escrowAmount = 0 := by
  rw [payOff_escrowAmount, s.payable_all h, sub_self]

/-- Nothing is paid out of nothing. -/
theorem payable_of_zero (h : s.escrowAmount = 0) (x : ℤ) : s.payable x = 0 := by
  have h₁ := s.payable_nonneg x
  have h₂ := s.payable_le x h.ge
  omega

end Shipment

variable {env : Env} {w : World H} {call : Call} {p : Posting} {b : Book H.Token}

/-- The calls that set the status by hand to one that can be archived. -/
def Call.terminates : Call → Bool
  | .updateStatus _ _ .delivered _ | .updateStatus _ _ .cancelled _ => true
  | _ => false

/-- A posting drains the shipment it closes, except that of `update_status`. -/
theorem Rule.drained (hr : Rule env w call p) (hn : call.isRecovery = false)
    (hput : call.terminates = true → p.old.escrowAmount ≤ 0) (h₀ : 0 ≤ p.old.escrowAmount)
    (h : p.old.Drained) : p.new.Drained := by
  cases hr with
  | setShipmentMetadata => exact h
  | addDisputeEvidenceHash => exact h
  | handoffShipment => exact h
  | recordOther => exact h
  | releaseNothing => exact h.finalizeIfSettled
  | reportConditionBreach => exact Shipment.drained_of_status (t := .disputed) rfl (by decide) (by decide)
  | raiseDispute => exact Shipment.drained_of_status (t := .disputed) rfl (by decide) (by decide)
  | depositEscrow _ _ _ hst => exact Shipment.drained_of_status hst (by decide) (by decide)
  | @updateStatus _ s status =>
    intro hst
    have hle : s.escrowAmount ≤ 0 := hput (by rcases hst with rfl | rfl <;> rfl)
    exact le_antisymm hle h₀
  | @confirmDelivery s =>
    exact Shipment.drained_of_escrow
      (Shipment.payOff_all (s := (s.withStatus .delivered).withUpdatedAt env.timestamp) h₀ env.timestamp)
  | @confirmPartialDelivery s _ percent status _ _ _ _ hstatus =>
    by_cases hall : s.share percent = s.escrowAmount
    · rw [hall]
      exact Shipment.drained_of_escrow
        (Shipment.payOff_all (s := (s.withStatus status).withUpdatedAt env.timestamp) h₀ env.timestamp)
    · rw [if_neg hall] at hstatus
      exact Shipment.drained_of_status hstatus (by decide) (by decide)
  | recordMilestone _ hst => exact Shipment.drained_of_status hst (by decide) (by decide)
  | @recordMilestonesBatch s items _ hst =>
    have hb := s.batchOf_payBatch env.timestamp (items.map (·.1))
    exact Shipment.drained_of_status (hb.status_eq.trans hst) (by decide) (by decide)
  | @releaseMilestonePayment _ s name _ x =>
    intro hst
    have hzero : s.escrowAmount = 0 := h hst
    change s.escrowAmount - s.payable x = 0
    rw [Shipment.payable_of_zero hzero, hzero, sub_zero]
  | forceCancelShipment => exact Shipment.drained_of_escrow (escrowLeft_eq h₀)
  | forceRelease => exact Shipment.drained_of_escrow (escrowLeft_eq h₀)
  | forceRefund => exact Shipment.drained_of_escrow (escrowLeft_eq h₀)
  | releaseEscrow => exact Shipment.drained_of_escrow (Shipment.payOff_all h₀ env.timestamp)
  | recoverShipment => cases hn
  | unlockEscrow => cases hn
  | clearFinalization => cases hn
  | rollbackOnExternalFailure => cases hn
  | _ => exact Shipment.drained_of_escrow rfl

/-- The step does not take the shipment, with an escrow left, to a status it can be
archived in by hand. -/
def Label.Empties (w : World H) (id : ℕ) : Label → Prop
  | .committed call _ _ => call.terminates = true → call.target? = some id →
      ∀ s, w.getShipment id = some s → s.escrowAmount ≤ 0
  | _ => True

variable {c c' c₁ c₂ : Chain H} {l : Label} {ls ks : List Label} {id : ℕ}

theorem Step.drained (hstep : Step c l c') (hs : c.world.ledger.Sound)
    (hn : l.calls Call.isRecovery = false) (hl : l.Empties c.world id)
    (h : ∀ s, c.world.getShipment id = some s → s.Drained) :
    ∀ s, c'.world.getShipment id = some s → s.Drained := by
  cases hstep with
  | @committed call env w' _ hx =>
    have hs : c.world.fresh.ledger.Sound := hs
    have he : Effects env c.world.fresh call w'.book := exec_effects hs.keyed hx
    have hget : ∀ i s, c.world.fresh.getShipment i = some s → s.id = id → s.Drained :=
      fun i s hi hid => h s (by rw [← hid, hs.keyed.get hi]; exact hi)
    intro s hs'
    refine he.forall_records (P := fun s => s.id = id → s.Drained)
      (fun _ _ _ _ => Shipment.drained_of_escrow rfl) (fun p hp hold hid => ?_) hget hs'
      ((he.sound hs).keyed.get hs')
    have hid : p.old.id = id := hp.rule.keeps.id_eq.symm.trans hid
    refine hp.rule.drained hn (fun ht => ?_) (hp.bounds hs).1 (hold hid)
    refine hl ht ?_ p.old (hid ▸ hp.stored)
    rcases hp.rule.concerns with hc | hc | hc
    · exact hc.trans (congrArg some hid)
    all_goals
      cases call <;> first | cases ht | cases hc
  | reverted => exact h
  | outside => exact h

theorem Run.drained (hr : Run (Under Step fun c l => l.Empties c.world id) c ls c') (hc : Reachable c)
    (hls : ∀ l ∈ ls, l.calls Call.isRecovery = false)
    (h : ∀ s, c.world.getShipment id = some s → s.Drained) :
    ∀ s, c'.world.getShipment id = some s → s.Drained := by
  have hinv : c'.world.ledger.Sound ∧ ∀ s, c'.world.getShipment id = some s → s.Drained := by
    refine hr.inv_of (I := fun c => c.world.ledger.Sound ∧
      ∀ s, c.world.getShipment id = some s → s.Drained) hls ⟨hc.sound, h⟩ ?_
    rintro a l b hn ⟨hs, h⟩ ⟨hstep, hl⟩
    exact ⟨hstep.sound hs, hstep.drained hs hn hl h⟩
  exact hinv.2

/-! ### Archiving -/

/-- What `archive_shipment` finds and leaves. -/
theorem Step.archives {admin : Address} {id : ℕ} {env : Env} {trace : List Effect}
    (hstep : Step c (.committed (.archiveShipment admin id) env trace) c') :
    ∃ s, c.world.ledger.shipment id = some s ∧ (s.status = .delivered ∨ s.status = .cancelled) ∧
      c'.world.ledger = c.world.ledger.putAway id s := by
  cases hstep with
  | @committed _ _ w' _ hx =>
    obtain ⟨s, hs, hst, hb⟩ := wp_archiveShipment (w := c.world.fresh) () w' hx
    exact ⟨s, hs, hst, congrArg Book.ledger hb⟩

/-- A shipment that is archived has an empty escrow, if it was empty once, or not to be
archived, and no `update_status` has closed it with an escrow since. -/
theorem archived_escrow_zero (hc : Reachable c) (h : ∀ s, c.world.getShipment id = some s → s.Drained)
    (hr : Run (Under Step fun c l => l.Empties c.world id) c ls c₁)
    (hls : ∀ l ∈ ls, l.calls Call.isRecovery = false) {admin : Address} {env : Env} {trace : List Effect}
    (hstep : Step c₁ (.committed (.archiveShipment admin id) env trace) c₂) :
    ∃ s, c₁.world.getShipment id = some s ∧ s.escrowAmount = 0 ∧ c₂.world.getShipment id = some s := by
  obtain ⟨s, hs, hst, hl⟩ := hstep.archives
  have hg : c₁.world.getShipment id = some s := by
    unfold World.getShipment
    rw [hs]
  refine ⟨s, hg, hr.drained hc hls h s hg hst, ?_⟩
  change c₂.world.ledger.getShipment id = some s
  rw [hl, Ledger.getShipment_putAway _ hs]
  exact hg

/-- A shipment that was paid for and delivered is archived empty. -/
theorem archived_escrow_zero_delivered : ∃ (c₁ c₂ : Chain Deployment.host) (l : Label) (s : Shipment),
    Reachable c₁ ∧ Step c₁ l c₂ ∧ c₁.world.ledger.shipment 1 = some s ∧ s.status = .delivered ∧
      c₂.world.ledger.shipment 1 = none ∧ s.escrowAmount = 0 := by
  obtain ⟨ls, c₁, trace, c₂, hr, hstep, hrec, hterm, hst, hnone⟩ := exists_commit Deployment.chain
    (Deployment.opening ++ [
      Deployment.signed Deployment.company 5 (.depositEscrow Deployment.company 1 1000),
      Deployment.signed Deployment.carrier 6 (.updateStatus Deployment.carrier 1 .inTransit 2),
      Deployment.signed Deployment.receiver 7 (.confirmDelivery Deployment.receiver 1 3)])
    (.archiveShipment Deployment.admin 1) ⟨8, 8, fun a => a = Deployment.admin, fun _ => true⟩
    (fun r _ c' => (∀ l ∈ r.1, l.calls Call.isRecovery = false) ∧
      (∀ l ∈ r.1, l.calls Call.terminates = false) ∧
      (r.2.world.ledger.shipment 1).map (·.status) = some .delivered ∧
      c'.world.ledger.shipment 1 = none)
    (by decide +kernel)
  obtain ⟨s, hs, hst⟩ := Option.map_eq_some_iff.mp hst
  have hru : Run (Under Step fun c l => l.Empties c.world 1) Deployment.chain ls c₁ := by
    refine hr.under hterm fun a l hl => ?_
    cases l with
    | committed call env trace => exact fun ht => absurd (ht.symm.trans hl) (by decide)
    | reverted => trivial
    | outside => trivial
  obtain ⟨t, ht, hzero, -⟩ := archived_escrow_zero ⟨_, [], Deployment.deployed, .nil⟩
    (fun _ hs => by cases hs) hru hrec hstep
  obtain rfl : s = t := by
    unfold World.getShipment at ht
    rw [hs] at ht
    exact Option.some.inj ht
  exact ⟨c₁, c₂, _, s, ⟨_, ls, Deployment.deployed, hr⟩, hstep, hs, hst, hnone, hzero⟩

/-- The admin sets a funded shipment to `Delivered` by hand and archives it with
1000 in escrow. -/
theorem archiveShipment_escrow_left : ∃ (ls : List Label) (c₁ c₂ : Chain Deployment.host)
    (env : Env) (trace : List Effect) (s : Shipment), Run Step Deployment.chain ls c₁ ∧
      (∀ l ∈ ls, l.calls Call.isRecovery = false) ∧
      Step c₁ (.committed (.archiveShipment Deployment.admin 1) env trace) c₂ ∧
      c₁.world.getShipment 1 = some s ∧ s.escrowAmount = 1000 ∧ c₂.world.getEscrow 1 = 0 := by
  obtain ⟨ls, c₁, trace, c₂, hr, hstep, hrec, hesc, hentry⟩ := exists_commit Deployment.chain
    (Deployment.opening ++ [
      Deployment.signed Deployment.company 5 (.depositEscrow Deployment.company 1 1000),
      Deployment.signed Deployment.carrier 6 (.updateStatus Deployment.carrier 1 .inTransit 2),
      Deployment.signed Deployment.admin 7 (.updateStatus Deployment.admin 1 .delivered 3)])
    (.archiveShipment Deployment.admin 1) ⟨8, 8, fun a => a = Deployment.admin, fun _ => true⟩
    (fun r _ c' => (∀ l ∈ r.1, l.calls Call.isRecovery = false) ∧
      (r.2.world.getShipment 1).map (·.escrowAmount) = some 1000 ∧ c'.world.getEscrow 1 = 0)
    (by decide +kernel)
  obtain ⟨s, hs, hesc⟩ := Option.map_eq_some_iff.mp hesc
  exact ⟨ls, c₁, c₂, _, trace, s, hr, hrec, hstep, hs, hesc, hentry⟩

/-! ### Archived and live -/

/-- What is archived is finalized and no longer live. -/
def Ledger.Filed {Token : Type} (l : Ledger Token) : Prop :=
  ∀ id s, l.archivedShipment id = some s → s.finalized = true ∧ l.shipment id = none

/-- The call archives only what is finalized, and does not recover what is archived. -/
structure Call.Files (call : Call) (w : World H) : Prop where
  archive : ∀ admin id s, call = .archiveShipment admin id → w.getShipment id = some s →
    s.finalized = true
  recovery : ∀ id, call.recovers id = true → w.ledger.archivedShipment id = none

def Label.Files (w : World H) : Label → Prop
  | .committed call _ _ => call.Files w
  | _ => True

namespace Ledger.Filed

variable {Token : Type} {l l' : Ledger Token}

theorem getShipment (h : l.Filed) {id : ℕ} {s : Shipment} (ha : l.archivedShipment id = some s) :
    l.getShipment id = some s := by
  unfold Ledger.getShipment
  rw [(h id s ha).2, ha]

theorem enrolled {sender : Address} {now : ℕ} (h : l.Filed) (hs : l.Sound) (hadm : l.admin ≠ none)
    (he : l.Enrolled sender now l') : l'.Filed := by
  induction he with
  | nil => exact h
  | @snoc l' input he _ _ ih =>
    intro id s ha
    have ha : l'.archivedShipment id = some s := ha
    refine ⟨(ih id s ha).1, ?_⟩
    -- the new id is above the archived one
    have hid := ((hs.enrolled hadm he).1.ids id s (ih.getShipment ha)).2
    rw [Ledger.enrol_shipment, Function.update_of_ne]
    · exact (ih id s ha).2
    · change id ≠ l'.shipmentCount + 1
      omega

theorem putAway {id : ℕ} {s : Shipment} (h : l.Filed) (hf : s.finalized = true) :
    (l.putAway id s).Filed := by
  intro i t ht
  by_cases hi : i = id
  · subst hi
    have h₁ : (l.putAway i s).archivedShipment i = some s := Function.update_self ..
    have h₂ : (l.putAway i s).shipment i = none := Function.update_self ..
    rw [h₁] at ht
    rw [← Option.some.inj ht]
    exact ⟨hf, h₂⟩
  · have h₁ : (l.putAway id s).archivedShipment i = l.archivedShipment i := Function.update_of_ne hi ..
    have h₂ : (l.putAway id s).shipment i = l.shipment i := Function.update_of_ne hi ..
    rw [h₁] at ht
    rw [h₂]
    exact h i t ht

end Ledger.Filed

/-- A posting is on a live record. -/
theorem PostedBy.not_archived (hp : PostedBy env w call p b) (h : w.ledger.Filed)
    (hc : ∀ id s, w.ledger.getShipment id = some s → s.Closed) (hl : call.Files w) :
    w.ledger.archivedShipment p.old.id = none := by
  by_contra hne
  obtain ⟨s, hs⟩ := Option.ne_none_iff_exists'.mp hne
  obtain rfl : p.old = s := Option.some.inj (hp.stored.symm.trans (h.getShipment hs))
  have hrec := hp.rule.recovers_of_finalized (hc _ _ hp.stored) (h _ _ hs).1
  exact hne (hl.recovery _ hrec)

theorem Effects.filed (he : Effects env w call b) (hs : w.ledger.Sound)
    (hc : ∀ id s, w.ledger.getShipment id = some s → s.Closed) (hl : call.Files w)
    (h : w.ledger.Filed) : b.ledger.Filed := by
  cases he with
  | quiet => exact h
  | initialized => exact h
  | handedOver => exact h
  | enrolled _ _ hadm he => exact h.enrolled hs hadm he
  | @archived admin id s hcall hlive _ =>
    refine h.putAway (hl.archive admin id s hcall ?_)
    unfold World.getShipment
    rw [hlive]
  | @posted p b hg hv hr hp =>
    have hp : PostedBy env w call p b := ⟨hg, hv, hr, hp⟩
    have hnone := hp.not_archived h hc hl
    obtain ⟨t, token, -, -, rfl⟩ := hp.posted
    intro id s ha
    have ha : w.ledger.archivedShipment id = some s := ha
    refine ⟨(h id s ha).1, ?_⟩
    rw [Ledger.post_shipment, Function.update_of_ne]
    · exact (h id s ha).2
    · rintro rfl
      rw [hp.rule.keeps.id_eq, hnone] at ha
      cases ha

/-- What is archived stays archived. -/
theorem Effects.archivedShipment_eq (he : Effects env w call b) (h : w.ledger.Filed) {id : ℕ}
    {s : Shipment} (ha : w.ledger.archivedShipment id = some s) :
    b.ledger.archivedShipment id = some s := by
  cases he with
  | quiet => exact ha
  | initialized => exact ha
  | handedOver => exact ha
  | enrolled _ _ _ he =>
    induction he with
    | nil => exact ha
    | snoc _ _ _ ih => exact ih
  | @archived admin i t hcall hlive _ =>
    have hne : id ≠ i := by
      rintro rfl
      rw [(h id s ha).2] at hlive
      cases hlive
    have heq : (w.ledger.putAway i t).archivedShipment id = w.ledger.archivedShipment id :=
      Function.update_of_ne hne ..
    exact heq.trans ha
  | posted _ _ _ hp =>
    obtain ⟨t, token, -, -, rfl⟩ := hp
    exact ha

/-! ### Runs that file what they archive -/

/-- An ordinary step neither archives nor recovers. -/
theorem Label.Ordinary.files {l : Label} (h : l.Ordinary) (w : World H) : l.Files w := by
  cases l with
  | committed call env trace =>
    refine ⟨fun admin id s hcall _ => ?_, fun id hrec => ?_⟩
    · have hno := h.2
      rw [hcall] at hno
      cases hno
    · have hno := h.1
      rw [Call.recovers, hno] at hrec
      cases hrec
  | reverted => trivial
  | outside => trivial

/-- What such a run keeps. -/
structure Chain.Filing (c : Chain H) : Prop where
  sound : c.world.ledger.Sound
  closed : ∀ id s, c.world.ledger.getShipment id = some s → s.Closed
  filed : c.world.ledger.Filed

theorem Step.filing (hstep : Step c l c') (hl : l.Files c.world) (h : c.Filing) : c'.Filing := by
  refine ⟨hstep.sound h.sound, hstep.closed h.sound h.closed, ?_⟩
  cases hstep with
  | @committed call env w' _ hx =>
    have hl : call.Files c.world.fresh := ⟨hl.archive, hl.recovery⟩
    exact (exec_effects (w := c.world.fresh) h.sound.keyed hx).filed h.sound h.closed hl h.filed
  | reverted => exact h.filed
  | outside => exact h.filed

theorem Deployed.filing (hd : Deployed c) : c.Filing := by
  refine ⟨hd.sound, ?_, ?_⟩ <;> cases hd <;> (intro id s hs; cases hs)

theorem Step.archivedShipment_eq (hstep : Step c l c') (h : c.Filing) {id : ℕ} {s : Shipment}
    (ha : c.world.ledger.archivedShipment id = some s) :
    c'.world.ledger.archivedShipment id = some s := by
  cases hstep with
  | committed _ hx =>
    exact (exec_effects (w := c.world.fresh) h.sound.keyed hx).archivedShipment_eq h.filed ha
  | reverted => exact ha
  | outside => exact ha

/-- What is archived somewhere along such a run is archived at its end. -/
theorem Run.archivedShipment_eq (hr : Run (Under Step fun c l => l.Files c.world) c ls c')
    (h : c.Filing) {id : ℕ} {s : Shipment} (ha : c.world.ledger.archivedShipment id = some s) :
    c'.Filing ∧ c'.world.ledger.archivedShipment id = some s := by
  refine hr.inv (I := fun c => c.Filing ∧ c.world.ledger.archivedShipment id = some s) ⟨h, ha⟩ ?_
  rintro a l b ⟨h, ha⟩ ⟨hstep, hl⟩
  exact ⟨hstep.filing hl h, hstep.archivedShipment_eq h ha⟩

theorem wp_getRestoreDiagnostics {id : ℕ} :
    wp (getRestoreDiagnostics id) env w fun d _ => d.state = w.presenceState id := by
  unfold getRestoreDiagnostics
  simp only [wp_bind, wp_gets, wp_pure]
  exact wp_guard fun _ => rfl

theorem Ledger.Filed.presenceState {id : ℕ} {s : Shipment} (h : w.ledger.Filed)
    (ha : w.ledger.archivedShipment id = some s) : w.presenceState id = .archivedExpected := by
  unfold World.presenceState
  rw [(h id s ha).2, ha]
  rfl

/-- In every run that archives only finalized shipments and recovers no archived
one, a shipment that was archived is found unchanged ever after, and its diagnosis
is that of an archived shipment. -/
theorem archived_unchanged (hd : Deployed c)
    (hr : Run (Under Step fun c l => l.Files c.world) c ls c₁) {admin : Address} {id : ℕ} {env : Env}
    {trace : List Effect}
    (hstep : Under Step (fun c l => l.Files c.world) c₁
      (.committed (.archiveShipment admin id) env trace) c₂)
    (hr' : Run (Under Step fun c l => l.Files c.world) c₂ ks c') :
    c'.world.getShipment id = c₁.world.getShipment id ∧
      ∀ env d w', getRestoreDiagnostics id env c'.world = .ok d w' →
        d.state = .archivedExpected ∧ d.state ≠ .inconsistentDualPresence := by
  have h₁ : c₁.Filing := hr.inv hd.filing fun _ _ _ h hs => hs.1.filing hs.2 h
  obtain ⟨s, hs, -, hl⟩ := hstep.1.archives
  have hg : c₁.world.getShipment id = some s := by
    unfold World.getShipment
    rw [hs]
  have ha : c₂.world.ledger.archivedShipment id = some s := by
    rw [hl]
    exact Function.update_self ..
  obtain ⟨h', ha'⟩ := hr'.archivedShipment_eq (hstep.1.filing hstep.2 h₁) ha
  refine ⟨?_, fun env d w' hx => ?_⟩
  · rw [hg]
    exact h'.filed.getShipment ha'
  · rw [wp_getRestoreDiagnostics d w' hx, h'.filed.presenceState ha']
    decide

/-- A note on an archived shipment leaves the record archived as it was. -/
theorem archived_unchanged_by_note : ∃ (c₁ c₂ c₃ : Chain Deployment.host) (l k : Label) (s : Shipment),
    Reachable c₁ ∧ Step c₁ l c₂ ∧ Step c₂ k c₃ ∧ c₁.world.ledger.shipment 1 = some s ∧
      c₃.world.getNoteCount 1 = 1 ∧ c₃.world.getShipment 1 = some s := by
  obtain ⟨ls, c₁, trace, c₂, trace', c₃, hr, hstep, hnext, hquiet, hfin, hcount⟩ :=
    exists_commit₂ Deployment.chain
    (Deployment.opening ++ [
      Deployment.signed Deployment.company 5 (.depositEscrow Deployment.company 1 1000),
      Deployment.signed Deployment.carrier 6 (.updateStatus Deployment.carrier 1 .inTransit 2),
      Deployment.signed Deployment.receiver 7 (.confirmDelivery Deployment.receiver 1 3)])
    (.archiveShipment Deployment.admin 1) (.appendNoteHash Deployment.company 1 9)
    ⟨8, 8, fun a => a = Deployment.admin, fun _ => true⟩
    ⟨9, 9, fun a => a = Deployment.company, fun _ => true⟩
    (fun r _ c₃ => (∀ l ∈ r.1, l.Ordinary) ∧
      (r.2.world.ledger.shipment 1).map (·.finalized) = some true ∧ c₃.world.getNoteCount 1 = 1)
    (by decide +kernel)
  obtain ⟨s, hs, hf⟩ := Option.map_eq_some_iff.mp hfin
  have hg : c₁.world.getShipment 1 = some s := by
    unfold World.getShipment
    rw [hs]
  have hru : Run (Under Step fun c l => l.Files c.world) Deployment.chain ls c₁ :=
    hr.under hquiet fun a l hl => hl.files a.world
  have hfiles : (Label.committed (.archiveShipment Deployment.admin 1)
      ⟨8, 8, fun a => a = Deployment.admin, fun _ => true⟩ trace).Files c₁.world := by
    refine ⟨fun admin id t he ht => ?_, (fun id hid => by cases hid)⟩
    cases he
    rw [hg] at ht
    rw [← Option.some.inj ht, hf]
  have hnote : (Label.committed (.appendNoteHash Deployment.company 1 9)
      ⟨9, 9, fun a => a = Deployment.company, fun _ => true⟩ trace').Files c₂.world :=
    Label.Ordinary.files (l := .committed _ _ _) ⟨rfl, rfl⟩ c₂.world
  have hkept := archived_unchanged Deployment.deployed hru ⟨hstep, hfiles⟩
    (.snoc .nil ⟨hnext, hnote⟩)
  exact ⟨c₁, c₂, c₃, _, _, s, ⟨_, ls, Deployment.deployed, hr⟩, hstep, hnext, hs, hcount,
    hkept.1.trans hg⟩

/-- A shipment cancelled by its deadline is archived without its flag; the sender
writes its metadata, and it is live again beside the archived copy. -/
theorem archiveShipment_dual_presence : ∃ (ls : List Label) (c₁ c₂ c₃ : Chain Deployment.host)
    (env env' : Env) (trace trace' : List Effect),
      Run Step Deployment.chain ls c₁ ∧ (∀ l ∈ ls, l.calls Call.isRecovery = false) ∧
      Step c₁ (.committed (.archiveShipment Deployment.admin 1) env trace) c₂ ∧
      Step c₂ (.committed (.setShipmentMetadata Deployment.company 1 Deployment.pickup
        Deployment.port) env' trace') c₃ ∧
      c₃.world.getShipment 1 ≠ c₂.world.getShipment 1 ∧
      c₃.world.presenceState 1 = .inconsistentDualPresence := by
  obtain ⟨ls, c₁, trace, c₂, trace', c₃, hr, hstep, hnext, hrec, hne, hboth⟩ :=
    exists_commit₂ Deployment.chain
    (Deployment.opening ++ [Deployment.signed Deployment.carrier 10000000 (.checkDeadline 1)])
    (.archiveShipment Deployment.admin 1)
    (.setShipmentMetadata Deployment.company 1 Deployment.pickup Deployment.port)
    ⟨10000001, 8, fun a => a = Deployment.admin, fun _ => true⟩
    ⟨10000002, 9, fun a => a = Deployment.company, fun _ => true⟩
    (fun r c₂ c₃ => (∀ l ∈ r.1, l.calls Call.isRecovery = false) ∧
      c₃.world.getShipment 1 ≠ c₂.world.getShipment 1 ∧
      c₃.world.presenceState 1 = .inconsistentDualPresence)
    (by decide +kernel)
  exact ⟨ls, c₁, c₂, c₃, _, _, trace, trace', hr, hrec, hstep, hnext, hne, hboth⟩

end Navin
