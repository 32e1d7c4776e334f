/-
# Closed shipments

`finalize_if_settled` sets the flag of a shipment that is delivered or cancelled
with nothing left in escrow. The flag is never set otherwise, whatever is called:
that is why the entry points that look at the status instead of the flag leave a
finalized record alone. The other direction has one exception: `check_deadline`
cancels a shipment and gives its escrow back without setting the flag.

Key definitions:
- `Shipment.Settled`: what `finalize_if_settled` looks for;
- `Shipment.Closed`, `Shipment.Flagged`: the two directions.

Key theorems:
- `Reachable.closed`: the flag is only on settled shipments;
- `finalized_unchanged`: only recovery writes a finalized record;
- `settled_finalized_iff`.
-/
import Navin.Settlements

namespace Navin

variable {H : Host}

/-! ### The flag -/

namespace Shipment

variable (s : Shipment)

/-- Delivered or cancelled, with nothing in escrow. -/
def Settled : Prop := (s.status = .delivered ∨ s.status = .cancelled) ∧ s.escrowAmount = 0

instance : Decidable s.Settled := inferInstanceAs (Decidable (_ ∧ _))

/-- The flag is on settled shipments only. -/
def Closed : Prop := s.finalized = true → s.Settled

/-- Every settled shipment has the flag. -/
def Flagged : Prop := s.Settled → s.finalized = true

instance : Decidable s.Flagged := inferInstanceAs (Decidable (_ → _))

variable {s}

theorem closed_of_not_finalized (h : s.finalized = false) : s.Closed := fun hf => by
  rw [h] at hf
  cases hf

theorem Closed.finalizeIfSettled (h : s.Closed) : s.finalizeIfSettled.Closed := by
  intro hf
  rw [finalizeIfSettled_finalized] at hf
  split at hf
  · rename_i hs
    exact hs
  · exact h hf

theorem flagged_finalizeIfSettled (s : Shipment) : s.finalizeIfSettled.Flagged := by
  intro hs
  rw [finalizeIfSettled_finalized]
  exact if_pos hs

/-- A shipment in another status is not settled. -/
theorem flagged_of_status {t : ShipmentStatus} (hs : s.status = t) (h₁ : t ≠ .delivered)
    (h₂ : t ≠ .cancelled) : s.Flagged := by
  subst hs
  exact fun hs => (hs.1.elim h₁ h₂).elim

end Shipment

/-- From a terminal status recovery leads only to `Cancelled`. -/
theorem settled_of_recovery {s t : ShipmentStatus} (hs : s = .delivered ∨ s = .cancelled)
    (h : isValidRecoveryTransition s t = true) : t = .cancelled := by
  rcases hs with rfl | rfl <;> cases t <;> first | rfl | cases h

/-! ### What a posting does to it -/

variable {env : Env} {w : World H} {call : Call} {p : Posting} {b : Book H.Token}

/-- The recovery operations on one shipment. -/
def Call.recovers (id : ℕ) (call : Call) : Bool := call.isRecovery && call.target? = some id

/-- Only recovery makes a posting on a finalized record. -/
theorem Rule.recovers_of_finalized (hr : Rule env w call p) (hc : p.old.Closed)
    (hf : p.old.finalized = true) : call.recovers p.old.id = true := by
  have hterm := (hc hf).1
  cases hr with
  | checkDeadline _ h₁ _ h₂ => exact (hterm.elim h₁ h₂).elim
  | forceRelease _ h₁ h₂ => exact (hterm.elim h₁ h₂).elim
  | forceRefund _ h₁ h₂ => exact (hterm.elim h₁ h₂).elim
  | recoverShipment => exact decide_eq_true rfl
  | unlockEscrow => exact decide_eq_true rfl
  | clearFinalization => exact decide_eq_true rfl
  | rollbackOnExternalFailure => exact decide_eq_true rfl
  | depositEscrow _ _ hn => rw [hn] at hf; cases hf
  | _ hn => rw [hn] at hf; cases hf

/-- A posting sets the flag on a settled record only. -/
theorem Rule.closed (hr : Rule env w call p) (hv : p.mirror ≠ .kept → p.new.Valid)
    (hc : p.old.Closed) : p.new.Closed := by
  by_cases hm : p.mirror = .kept
  · cases hr with
    | addDisputeEvidenceHash hf => exact Shipment.closed_of_not_finalized hf
    | reportConditionBreach hf => exact Shipment.closed_of_not_finalized hf
    | recordOther => exact hc
    | @recordMilestone s _ _ _ _ hf =>
      exact .finalizeIfSettled (s := s.payMilestone _ _ _) (Shipment.closed_of_not_finalized hf)
    | @recordMilestonesBatch s items hf =>
      have hb := s.batchOf_payBatch env.timestamp (items.map (·.1))
      exact (Shipment.closed_of_not_finalized (hb.finalized_eq.trans hf)).finalizeIfSettled
    | releaseNothing => exact hc.finalizeIfSettled
    | @releaseMilestonePayment _ s _ _ _ hf =>
      exact .finalizeIfSettled (s := s.payMilestone _ _ _) (Shipment.closed_of_not_finalized hf)
    | recoverShipment _ _ hrec =>
      intro hf
      have hs := hc hf
      exact ⟨.inr (settled_of_recovery hs.1 hrec), hs.2⟩
    | unlockEscrow _ hne => exact fun hf => absurd (hc hf).2 hne
    | clearFinalization => exact Shipment.closed_of_not_finalized rfl
    | rollbackOnExternalFailure => exact Shipment.closed_of_not_finalized rfl
    | checkDeadline =>
      change (if _ then Mirror.removed else Mirror.synced) = _ at hm
      split at hm <;> cases hm
    | _ => cases hm
  · exact (hv hm).finalized_settled

/-! ### The flag is only on settled shipments -/

theorem Effects.closed (he : Effects env w call b)
    (h : ∀ id s, w.ledger.getShipment id = some s → s.Closed) {id : ℕ} {s : Shipment}
    (hs : b.ledger.getShipment id = some s) : s.Closed :=
  he.forall_records (fun _ _ _ => Shipment.closed_of_not_finalized rfl)
    (fun _ hp => hp.rule.closed hp.valid) h hs

variable {c c' : Chain H} {l : Label} {ls : List Label}

theorem Step.closed (hstep : Step c l c') (hs : c.world.ledger.Sound)
    (h : ∀ id s, c.world.getShipment id = some s → s.Closed) :
    ∀ id s, c'.world.getShipment id = some s → s.Closed := by
  cases hstep with
  | committed _ hx => exact fun id s => (exec_effects (w := c.world.fresh) hs.keyed hx).closed h
  | reverted => exact h
  | outside => exact h

theorem Run.closed (hr : Run Step c ls c') (hd : Deployed c) :
    ∀ id s, c'.world.getShipment id = some s → s.Closed := by
  have hc : Reachable c' := ⟨c, ls, hd, hr⟩
  exact hc.inv (I := fun c => ∀ id s, c.world.getShipment id = some s → s.Closed)
    (fun _ _ _ _ hs => by cases hs) fun _ _ _ ha h hstep => hstep.closed ha.sound h

theorem Reachable.closed (h : Reachable c) {id : ℕ} {s : Shipment}
    (hs : c.world.getShipment id = some s) : s.Closed := by
  obtain ⟨c₀, ls, hd, hr⟩ := h
  exact hr.closed hd id s hs

/-! ### Finalized shipments are left alone -/

/-- The step is a committed call of this kind. -/
def Label.calls (kind : Call → Bool) : Label → Bool
  | .committed call _ _ => kind call
  | _ => false

/-- In every reachable state a finalized record is left as it is by every step
but a recovery operation on it, and no step transfers tokens on its account. -/
theorem finalized_unchanged (hc : Reachable c) {id : ℕ} {s : Shipment}
    (hs : c.world.getShipment id = some s) (hf : s.finalized = true) (hstep : Step c l c')
    (hl : l.calls (Call.recovers id) = false) :
    c'.world.getShipment id = some s ∧
      (transfersOf l.trace = [] ∨ ∃ call env trace j, l = .committed call env trace ∧ j ≠ id ∧
        c.world.Concerns call j) := by
  cases hstep with
  | reverted => exact ⟨hs, .inl rfl⟩
  | outside => exact ⟨hs, .inl rfl⟩
  | @committed call env w' ha hx =>
    have hsound : c.world.fresh.ledger.Sound := hc.sound
    have he := exec_effects hsound.keyed hx
    -- a posting on this record would be a recovery operation on it
    have hother : ∀ p, PostedBy env c.world.fresh call p w'.book → p.old.id ≠ id := by
      intro p hp hid
      obtain rfl : p.old = s := by
        have hg : c.world.getShipment p.old.id = some p.old := hp.stored
        rw [hid, hs] at hg
        exact (Option.some.inj hg).symm
      have hrec : call.recovers p.old.id = true := hp.rule.recovers_of_finalized (hc.closed hs) hf
      rw [hid] at hrec
      exact Bool.false_ne_true (hl.symm.trans hrec)
    constructor
    · obtain ⟨s', hs', rfl | ⟨p, hp, hold, -⟩⟩ := he.record hsound hs
      · exact hs'
      · refine absurd ?_ (hother p hp)
        rw [hold]
        exact hsound.keyed.get hs
    · rcases he.idle_or_posted hsound with ⟨-, hpays, -⟩ | ⟨p, hp⟩
      · refine .inl ?_
        have hpays : paymentsOf w'.trace = [] := hpays
        change transfersOf w'.trace = []
        rw [transfersOf_eq, hpays]
        rfl
      · exact .inr ⟨call, env, _, p.old.id, rfl, hother p hp, hp.rule.concerns⟩

/-- The sender adds a note to a shipment that was delivered: the note is kept
beside the record, which stays as it was. -/
theorem finalized_unchanged_by_note : ∃ (c c' : Chain Deployment.host) (l : Label) (s : Shipment),
    Reachable c ∧ c.world.getShipment 1 = some s ∧ s.finalized = true ∧ Step c l c' ∧
      c'.world.getNoteCount 1 = 1 ∧ c'.world.getShipment 1 = some s := by
  obtain ⟨ls, c, trace, c', hr, hstep, hf, hnotes⟩ := exists_commit Deployment.chain
    (Deployment.opening ++ [
      Deployment.signed Deployment.company 5 (.depositEscrow Deployment.company 1 1000),
      Deployment.signed Deployment.carrier 6 (.updateStatus Deployment.carrier 1 .inTransit 2),
      Deployment.signed Deployment.receiver 7 (.confirmDelivery Deployment.receiver 1 3)])
    (.appendNoteHash Deployment.company 1 9)
    ⟨8, 8, fun a => a = Deployment.company, fun _ => true⟩
    (fun r _ c' => (r.2.world.getShipment 1).map (·.finalized) = some true ∧
      c'.world.getNoteCount 1 = 1)
    (by decide +kernel)
  obtain ⟨s, hs, hf⟩ := Option.map_eq_some_iff.mp hf
  have hc : Reachable c := ⟨_, ls, Deployment.deployed, hr⟩
  exact ⟨c, c', _, s, hc, hs, hf, hstep, hnotes, (finalized_unchanged hc hs hf hstep rfl).1⟩

/-! ### Settled shipments have the flag -/

def Call.isDeadlineCheck : Call → Bool
  | .checkDeadline .. => true
  | _ => false

/-- Every posting but that of `check_deadline` and of recovery sets the flag of a
shipment it settles. -/
theorem Rule.flagged (hr : Rule env w call p) (hn : call.isRecovery = false)
    (hd : call.isDeadlineCheck = false) (h : p.old.Flagged) : p.new.Flagged := by
  cases hr with
  | setShipmentMetadata => exact h
  | addDisputeEvidenceHash => exact h
  | handoffShipment => exact h
  | recordOther => exact h
  | reportConditionBreach => exact Shipment.flagged_of_status (t := .disputed) rfl (by decide) (by decide)
  | raiseDispute => exact Shipment.flagged_of_status (t := .disputed) rfl (by decide) (by decide)
  | depositEscrow _ _ _ hst => exact Shipment.flagged_of_status hst (by decide) (by decide)
  | checkDeadline => cases hd
  | recoverShipment => cases hn
  | unlockEscrow => cases hn
  | clearFinalization => cases hn
  | rollbackOnExternalFailure => cases hn
  | _ => exact Shipment.flagged_finalizeIfSettled _

/-- `check_deadline` settles a shipment and does not set its flag. -/
theorem Rule.not_flagged {id : ℕ} (hr : Rule env w (.checkDeadline id) p) (hc : p.old.Closed) :
    ¬p.new.Flagged := by
  intro h
  cases hr with
  | @checkDeadline s _ h₁ _ h₂ =>
    have hf : s.finalized = true := h ⟨.inr rfl, rfl⟩
    exact (hc hf).1.elim h₁ h₂
  | forceRelease hx => cases hx
  | forceRefund hx => cases hx

/-- All stored shipments that are settled have the flag. -/
def World.Flagged (w : World H) : Prop := ∀ id s, w.getShipment id = some s → s.Flagged

theorem Step.flagged (hstep : Step c l c') (hs : c.world.ledger.Sound)
    (hn : l.calls Call.isRecovery = false) (hd : l.calls Call.isDeadlineCheck = false)
    (h : c.world.Flagged) : c'.world.Flagged := by
  cases hstep with
  | committed _ hx =>
    intro id s
    exact (exec_effects (w := c.world.fresh) hs.keyed hx).forall_records
      (fun _ _ _ => Shipment.flagged_of_status (t := .created) rfl (by decide) (by decide))
      (fun _ hp => hp.rule.flagged hn hd) h
  | reverted => exact h
  | outside => exact h

/-- A committed `check_deadline` leaves a settled shipment without the flag. -/
theorem Step.not_flagged (hstep : Step c l c') (hs : c.world.ledger.Sound)
    (hc : ∀ id s, c.world.getShipment id = some s → s.Closed)
    (hd : l.calls Call.isDeadlineCheck = true) : ¬c'.world.Flagged := by
  cases hstep with
  | @committed call env w' _ hx =>
    cases call with
    | checkDeadline id =>
      obtain ⟨p, hp⟩ := (exec_effects (w := c.world.fresh) hs.keyed hx).exists_posting rfl
      exact fun h => hp.rule.not_flagged (hc _ _ hp.stored) (h _ _ hp.stored_new)
    | _ => cases hd
  | reverted => cases hd
  | outside => cases hd

theorem Deployed.flagged (hd : Deployed c) : c.world.Flagged := by
  cases hd
  intro id s hs
  cases hs

theorem Run.flagged (hr : Run Step c ls c') (hd : Deployed c)
    (hls : ∀ l ∈ ls, l.calls Call.isRecovery = false ∧ l.calls Call.isDeadlineCheck = false) :
    c'.world.Flagged := by
  have hinv : c'.world.ledger.Sound ∧ c'.world.Flagged :=
    hr.inv_of (I := fun c => c.world.ledger.Sound ∧ c.world.Flagged) hls ⟨hd.sound, hd.flagged⟩
      fun _ _ _ hl h hstep => ⟨hstep.sound h.1, hstep.flagged h.1 hl.1 hl.2 h.2⟩
  exact hinv.2

/-- In a run without recovery every stored shipment that is delivered or cancelled
with an empty escrow is finalized in every state, exactly when no `check_deadline`
goes through in the run. -/
theorem settled_finalized_iff (hd : Deployed c) (hr : Run Step c ls c')
    (hls : ∀ l ∈ ls, l.calls Call.isRecovery = false) :
    (∀ a, Visits Step c ls c' a → ∀ id s, a.world.getShipment id = some s →
      (s.status = .delivered ∨ s.status = .cancelled) ∧ s.escrowAmount = 0 → s.finalized = true) ↔
    ∀ l ∈ ls, l.calls Call.isDeadlineCheck = false := by
  constructor
  · intro hall l hl
    by_contra hne
    obtain ⟨ks, ks', a, b, rfl, ha, hstep, hb⟩ := hr.at_step hl
    refine hstep.not_flagged (ha.sound hd) (ha.closed hd) (by simpa using hne) (hall b ?_)
    exact ⟨ks ++ [l], ks', by simp, .snoc ha hstep, hb⟩
  · rintro hnone a ⟨ks, ks', rfl, ha, -⟩
    refine ha.flagged hd fun l hl => ?_
    have hl : l ∈ ks ++ ks' := List.mem_append_left _ hl
    exact ⟨hls l hl, hnone l hl⟩

/-- A shipment that is funded and delivered, with nobody asking for its deadline. -/
theorem settled_finalized_delivered : ∃ (ls : List Label) (c : Chain Deployment.host) (s : Shipment),
    Run Step Deployment.chain ls c ∧ (∀ l ∈ ls, l.calls Call.isRecovery = false) ∧
      (∀ l ∈ ls, l.calls Call.isDeadlineCheck = false) ∧ c.world.getShipment 1 = some s ∧
      s.status = .delivered ∧ s.escrowAmount = 0 ∧ s.finalized = true := by
  obtain ⟨ls, c, hr, -, hrec, hdead, hst⟩ := exists_play Deployment.chain
    (Deployment.opening ++ [
      Deployment.signed Deployment.company 5 (.depositEscrow Deployment.company 1 1000),
      Deployment.signed Deployment.carrier 6 (.updateStatus Deployment.carrier 1 .inTransit 2),
      Deployment.signed Deployment.receiver 7 (.confirmDelivery Deployment.receiver 1 3)])
    (fun r => (∀ l ∈ r.1, l.calls Call.isRecovery = false) ∧
      (∀ l ∈ r.1, l.calls Call.isDeadlineCheck = false) ∧
      (r.2.world.getShipment 1).map (fun s => (s.status, s.escrowAmount)) = some (.delivered, 0))
    (by decide +kernel)
  obtain ⟨s, hs, hst⟩ := Option.map_eq_some_iff.mp hst
  obtain ⟨hst, hesc⟩ := Prod.mk.inj hst
  have hall := (settled_finalized_iff Deployment.deployed hr hrec).mpr hdead
  exact ⟨ls, c, s, hr, hrec, hdead, hs, hst, hesc,
    hall c ⟨ls, [], by simp, hr, .nil⟩ 1 s hs ⟨.inl hst, hesc⟩⟩

/-- A shipment nobody took is cancelled at its deadline, and its flag is not set. -/
theorem checkDeadline_not_finalized : ∃ (ls : List Label) (c : Chain Deployment.host) (s : Shipment),
    Run Step Deployment.chain ls c ∧ (∀ l ∈ ls, l.calls Call.isRecovery = false) ∧
      c.world.getShipment 1 = some s ∧ s.status = .cancelled ∧ s.escrowAmount = 0 ∧
      s.finalized = false := by
  obtain ⟨ls, c, hr, -, hrec, hst⟩ := exists_play Deployment.chain
    (Deployment.opening ++ [Deployment.signed Deployment.carrier 10000000 (.checkDeadline 1)])
    (fun r => (∀ l ∈ r.1, l.calls Call.isRecovery = false) ∧
      (r.2.world.getShipment 1).map (fun s => (s.status, s.escrowAmount, s.finalized)) =
        some (.cancelled, 0, false))
    (by decide +kernel)
  obtain ⟨s, hs, hst⟩ := Option.map_eq_some_iff.mp hst
  simp only [Prod.mk.injEq] at hst
  exact ⟨ls, c, s, hr, hrec, hs, hst⟩

end Navin
