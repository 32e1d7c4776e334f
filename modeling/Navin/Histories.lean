/-
# The histories of the audit

The log of the audit can be asked for a target, for an actor, and for a span of time. As
long as its count has not saturated, the log has exactly what the calls that keep it wrote:
numbered from zero, in the order of time, and each entry signed for by its actor, or, when
the admin changes, by the admin to come. So the three queries answer with what they were
asked for and nothing else, and a span of time is one stretch of the log.

Key definitions:
- `queryAuditHistoryByActor`, `queryAuditHistory`: the queries beside the one for a target;
- `Attests`: who signed for an entry.

Key theorems:
- `Step.trail`: what a step does to the log;
- `Gathers.kept`: the log of a run;
- `histories_exact`: the three queries.
-/
import Navin.Powers
import Navin.Lib.Counters
import Navin.Lib.Timelines

namespace Navin

open Tx

variable {H : Host} {env : Env} {w w' : World H} {call : Call} {c₀ c c' : Chain H} {l : Label}
  {ls : List Label} {e : AuditLogEntry} {es : List AuditLogEntry} {m : AuditMatter}

/-! ### The queries -/

/-- `audit::query_audit_history_by_actor`. -/
def World.auditHistoryByActor (w : World H) (actor : Address) : List AuditLogEntry :=
  (List.range w.governance.auditEntryCount).filterMap fun i =>
    (w.governance.auditEntry i).filter fun entry => entry.actor = actor

/-- `audit::query_audit_history`. -/
def World.auditHistory (w : World H) (startTime endTime : ℕ) : List AuditLogEntry :=
  (List.range w.governance.auditEntryCount).filterMap fun i =>
    (w.governance.auditEntry i).filter fun entry =>
      startTime ≤ entry.timestamp ∧ entry.timestamp ≤ endTime

/-- `query_audit_history_by_actor`. -/
def queryAuditHistoryByActor (actor : Address) : Contract H (List AuditLogEntry) := do
  requireInitialized
  gets (·.auditHistoryByActor actor)

/-- `query_audit_history`. -/
def queryAuditHistory (startTime endTime : ℕ) : Contract H (List AuditLogEntry) := do
  requireInitialized
  gets (·.auditHistory startTime endTime)

/-- A query for the entries with a property. -/
theorem returns_query {p : AuditLogEntry → Bool} (hinit : w.ledger.admin ≠ none) :
    (do
      requireInitialized
      gets fun w => (List.range w.governance.auditEntryCount).filterMap fun i =>
        (w.governance.auditEntry i).filter p : Contract H (List AuditLogEntry)).Returns env w
      (w.governance.trail.entries.filter p) w := by
  rw [returns_unit_bind fun _ _ => returns_requireInitialized, returns_gets]
  exact ⟨Option.isSome_iff_ne_none.mpr hinit, (w.governance.trail.filter_entries p).symm, rfl⟩

/-! ### The log -/

/-- What a step does to the log: it leaves it, or it writes the entry of its call at its end. -/
theorem Step.trail (hstep : Step c l c') :
    l.logged? c.world = none ∧ c'.world.governance.trail = c.world.governance.trail ∧ c.now ≤ c'.now ∨
      ∃ m, l.logged? c.world = some (c.world.governance.trail.next c'.now m) ∧
        c'.world.governance.trail = c.world.governance.trail.append c'.now m ∧ c.now ≤ c'.now := by
  cases hstep with
  | reverted hadm => exact .inl ⟨rfl, rfl, hadm.time⟩
  | outside hle => exact .inl ⟨rfl, rfl, hle⟩
  | @committed call env w' hadm hx =>
    have h : Amended env c.world.fresh call w'.charter := amended_exec call () w' hx
    have hkept : call.isLogged = false → w'.charter.trail = c.world.charter.trail →
        (Label.committed call env w'.trace).logged? c.world = none ∧
          w'.governance.trail = c.world.governance.trail ∧ c.now ≤ env.timestamp := by
      intro hno ht
      refine ⟨?_, ht, hadm.time⟩
      simp [Label.logged?, hno]
    cases h with
    | @logged m hlog hm ht =>
      have hm : c.world.audited call = some m := hm
      refine .inr ⟨m, ?_, ht, hadm.time⟩
      simp [Label.logged?, hlog, hm]
    | kept hno ho => exact .inl (hkept hno (by rw [ho]; rfl))
    | initialized hcall ht => exact .inl (hkept (by rw [hcall]; rfl) ht)
    | unlogged hno _ ht => exact .inl (hkept hno ht)

/-- The log of a run below the last count. -/
theorem Gathers.kept (hd : Deployed c₀)
    (hr : Gathers (Under Step fun c _ => c.world.governance.auditEntryCount < u32Max)
      (fun c l => (l.logged? c.world).toList) c₀ ls c es) :
    c.world.governance.trail.entries = es ∧ c.world.governance.trail.auditEntryCount = es.length ∧
      es.map (·.entryId) = List.range es.length ∧ Timeline (·.timestamp) c.now es := by
  induction hr with
  | nil =>
    cases hd
    exact ⟨rfl, rfl, rfl, .nil⟩
  | @snoc ls l a b bs _ hstep ih =>
    obtain ⟨hentries, hcount, hids, htimes⟩ := ih
    rcases hstep.1.trail with ⟨hnone, hsame, hle⟩ | ⟨m, hsome, happend, hle⟩
    · rw [hnone, Option.toList_none, List.append_nil, hsame]
      exact ⟨hentries, hcount, hids, htimes.later hle⟩
    · rw [hsome, Option.toList_some, happend]
      have hlast : (a.world.governance.trail.append b.now m).auditEntryCount = bs.length + 1 := by
        rw [← hcount]
        exact min_eq_left hstep.2
      refine ⟨?_, ?_, ?_, htimes.snoc (x := a.world.governance.trail.next b.now m) hle⟩
      · rw [AuditTrail.entries_append hstep.2, hentries]
      · rw [hlast, List.length_append]
        rfl
      · rw [List.map_append, hids, List.length_append, List.length_singleton, List.range_succ]
        exact congrArg (fun n => List.range bs.length ++ [n]) hcount

/-! ### Signatures -/

/-- Who signed for an entry: its actor, or, when the admin changes, the admin to come. -/
inductive Attests (e : AuditLogEntry) (c : Chain H) : Label → Prop
  | actor {call : Call} {env : Env} {trace : List Effect} : e.timestamp = env.timestamp →
      SignedBy trace e.actor → Attests e c (.committed call env trace)
  | successor {call : Call} {env : Env} {trace : List Effect} : e.timestamp = env.timestamp →
      e.eventType = .adminTransferred → c.world.ledger.admin = some e.actor → SignedBy trace e.target →
      Attests e c (.committed call env trace)

/-- The caller of a call that writes an entry is in it. -/
theorem caller_of_audited (hlog : call.isLogged = true) (hm : w.audited call = some m) :
    call.caller? = some m.2.1 ∨
      m.1 = .adminTransferred ∧ w.ledger.admin = some m.2.1 ∧ call.caller? = some m.2.2 := by
  cases call with
  | acceptAdminTransfer t =>
    obtain ⟨a, ha, rfl⟩ := Option.map_eq_some_iff.mp hm
    exact .inr ⟨rfl, ha, rfl⟩
  | addCompany | addCarrier | addGuardian | addOperator | removeGuardian | removeOperator | revokeRole
  | suspendRole | reactivateRole | addCarrierToWhitelist =>
    cases hm
    exact .inl rfl
  | _ => cases hlog

theorem Step.attests (hstep : Step c l c') (he : e ∈ (l.logged? c.world).toList) : Attests e c l := by
  cases hstep with
  | reverted => cases he
  | outside => cases he
  | @committed call env w' _ hx =>
    have hsigned : ∀ a, call.caller? = some a → SignedBy w'.trace a :=
      fun a ha => (signs_exec ha).signersOf_eq hx
    have hwritten : (if call.isLogged then
        (c.world.audited call).map (c.world.governance.trail.next env.timestamp) else none) = some e :=
      Option.mem_toList.mp he
    by_cases hlog : call.isLogged = true
    · rw [if_pos hlog] at hwritten
      obtain ⟨m, hm, rfl⟩ := Option.map_eq_some_iff.mp hwritten
      rcases caller_of_audited hlog hm with hcaller | ⟨htype, hadmin, hcaller⟩
      · exact .actor rfl (hsigned _ hcaller)
      · exact .successor rfl htype hadmin (hsigned _ hcaller)
    · rw [if_neg hlog] at hwritten
      cases hwritten

/-- Over every run in which the count does not saturate, the log has the entries its calls wrote, numbered
from zero and in the order of time, each signed for; and the queries answer with exactly the entries of the
target, of the actor, or of the stretch between two times. -/
theorem histories_exact (hd : Deployed c₀)
    (hr : Gathers (Under Step fun c _ => c.world.governance.auditEntryCount < u32Max)
      (fun c l => (l.logged? c.world).toList) c₀ ls c es) :
    (es.map (·.entryId) = List.range es.length ∧ es.Pairwise fun e e' => e.timestamp ≤ e'.timestamp) ∧
      (∀ e ∈ es, Past Step (fun a l _ => Attests e a l) c₀ ls c) ∧
      (c.world.ledger.admin ≠ none → ∀ env,
        (∀ t, (queryAuditHistoryForTarget t).Returns env c.world (es.filter fun e => e.target = t) c.world) ∧
        (∀ a, (queryAuditHistoryByActor a).Returns env c.world (es.filter fun e => e.actor = a) c.world) ∧
        ∀ start stop, (queryAuditHistory start stop).Returns env c.world
          ((es.dropWhile fun e => e.timestamp < start).takeWhile fun e => e.timestamp ≤ stop) c.world) := by
  obtain ⟨hentries, -, hids, htimes⟩ := hr.kept hd
  refine ⟨⟨hids, htimes.ordered⟩, ?_, fun hinit env => ⟨fun t => ?_, fun a => ?_, fun start stop => ?_⟩⟩
  · intro e he
    obtain ⟨-, hpast⟩ := hr.past (Q := Attests) fun _ _ _ _ _ hstep _ hx => hstep.1.attests hx
    obtain ⟨ks, k, ks', a, b, rfl, hra, hk, hrb, h⟩ := hpast e he
    exact ⟨ks, k, ks', a, b, rfl, hra.of_under, hk.1, hrb.of_under, h⟩
  · rw [← hentries]
    exact returns_query hinit
  · rw [← hentries]
    exact returns_query hinit
  · rw [← htimes.filter_between, ← hentries]
    exact returns_query hinit

/-- Two roles are given, and asked for by the time and by the admin who gave them. -/
theorem histories_exact_opening : ∃ (c : Chain Deployment.host) (ls : List Label) (env : Env),
    Run Step Deployment.chain ls c ∧
      (queryAuditHistory 3 9).Returns env c.world
        [⟨1, .roleAssigned, Deployment.admin, Deployment.carrier, 3⟩] c.world ∧
      (queryAuditHistoryByActor Deployment.company).Returns env c.world [] c.world := by
  have hplay : (play Deployment.chain Deployment.opening).any (fun r => r.2.world.ledger.admin ≠ none ∧
      r.2.world.governance.trail.entries =
        [⟨0, .roleAssigned, Deployment.admin, Deployment.company, 2⟩,
          ⟨1, .roleAssigned, Deployment.admin, Deployment.carrier, 3⟩]) = true := by
    decide +kernel
  obtain ⟨r, hr, h⟩ := (Option.any_eq_true _ _).mp hplay
  obtain ⟨hinit, hentries⟩ := of_decide_eq_true h
  have hrun : Run (Under Step fun c _ => c.world.governance.auditEntryCount < u32Max)
      Deployment.chain r.1 r.2 := run_under_of_play hr (by decide +kernel)
  obtain ⟨es, hg⟩ := hrun.gathers fun c l => (l.logged? c.world).toList
  obtain ⟨-, -, hqueries⟩ := histories_exact Deployment.deployed hg
  obtain ⟨-, hactor, htime⟩ := hqueries hinit ⟨10, 10, fun _ => false, fun _ => false⟩
  have hes : es = _ := (hg.kept Deployment.deployed).1.symm.trans hentries
  subst hes
  exact ⟨r.2, r.1, _, hrun.of_under, htime 3 9, hactor Deployment.company⟩

end Navin
