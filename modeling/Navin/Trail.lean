/-
# The audit trail

Every change of a role, a suspension, a whitelist or the admin should leave one entry
in the audit trail. The entry is written by hand in each entry point, and some of them
write none: the suspension and reactivation of carriers and companies, the removal
from a whitelist, and a change of the admin by proposal.

Key definitions:
- `Charter`: what the trail is about, and the trail;
- `World.audited`: the entry a call should leave; `Call.isLogged`: the calls that do;
- `World.unlogged`: the changes without an entry;
- `Amended`: what a call does to the charter.

Key theorems:
- `amended_exec`: every committed call amends the charter in one of four ways;
- `audit_complete`.
-/
import Navin.Council
import Navin.Roles

namespace Navin

open Tx

set_option synthInstance.maxSize 4000

variable {H : Host}

/-! ### The charter -/

/-- The admin, who is allowed what, and the trail of their changes. -/
structure Charter where
  admin : Option Address
  permits : Permits
  trail : AuditTrail

def World.charter (w : World H) : Charter := ⟨w.ledger.admin, w.registry.permits, w.governance.trail⟩

section

instance : RecordsFree (World.charter (H := H)) := ⟨fun w l h => by
  unfold World.charter
  rw [h]⟩

instance : CountsFree (World.charter (H := H)) := ⟨fun w r h _ => by
  unfold World.charter
  rw [h]⟩

instance : QuotasFree (World.charter (H := H)) := ⟨fun w r h _ => by
  unfold World.charter
  rw [h]⟩

instance : BusinessFree (World.charter (H := H)) := ⟨fun w g h => by
  unfold World.charter
  rw [h]⟩

instance : DossierFree (World.charter (H := H)) := ⟨fun _ _ => rfl⟩

instance : AuthFree (World.charter (H := H)) := ⟨fun _ _ => rfl⟩

instance : PlainFree (World.charter (H := H)) := ⟨fun _ _ _ => rfl⟩

instance : PaymentFree (World.charter (H := H)) := ⟨fun _ _ _ => rfl⟩

end

/-- What an entry tells of: its type, its actor and its target. -/
abbrev AuditMatter : Type := AuditEventType × Address × Address

namespace AuditTrail

variable (t : AuditTrail)

/-- The entry stored next. -/
def next (now : ℕ) (m : AuditMatter) : AuditLogEntry := ⟨t.auditEntryCount, m.1, m.2.1, m.2.2, now⟩

/-- `store_audit_entry`: the count saturates. -/
def append (now : ℕ) (m : AuditMatter) : AuditTrail where
  auditEntryCount := saturatingAddU32 t.auditEntryCount 1
  auditEntry := Function.update t.auditEntry t.auditEntryCount (some (t.next now m))

/-- The entries, oldest first. -/
def entries : List AuditLogEntry := (List.range t.auditEntryCount).filterMap t.auditEntry

variable {t} {now : ℕ} {m : AuditMatter}

/-- Older entries are not overwritten. -/
theorem append_auditEntry {n : ℕ} (h : n < t.auditEntryCount) :
    (t.append now m).auditEntry n = t.auditEntry n :=
  Function.update_of_ne h.ne _ _

/-- The new entry is the last one. -/
theorem entries_append (h : t.auditEntryCount < u32Max) :
    (t.append now m).entries = t.entries ++ [t.next now m] := by
  have hcount : (t.append now m).auditEntryCount = t.auditEntryCount + 1 := by
    unfold append saturatingAddU32
    exact min_eq_left h
  have hself : (t.append now m).auditEntry t.auditEntryCount = some (t.next now m) :=
    Function.update_self ..
  unfold entries
  rw [hcount, List.range_succ, List.filterMap_append]
  congr 1
  · exact List.filterMap_congr fun n hn => append_auditEntry (List.mem_range.mp hn)
  · simp [hself]

end AuditTrail

/-! ### What should be logged, and what is -/

/-- The entry a call should leave when it changes something. -/
def World.audited (w : World H) : Call → Option AuditMatter
  | .addCompany a t | .addCarrier a t | .addGuardian a t | .addOperator a t => some (.roleAssigned, a, t)
  | .removeGuardian a t | .removeOperator a t | .revokeRole a t => some (.roleRevoked, a, t)
  | .suspendRole a t => some (.roleSuspended, a, t)
  | .reactivateRole a t => some (.roleReactivated, a, t)
  | .suspendCarrier a t => some (.carrierSuspended, a, t)
  | .reactivateCarrier a t => some (.carrierReactivated, a, t)
  | .suspendCompany a t => some (.companySuspended, a, t)
  | .reactivateCompany a t => some (.companyReactivated, a, t)
  | .addCarrierToWhitelist a t => some (.carrierWhitelisted, a, t)
  | .removeCarrierFromWhitelist a t => some (.carrierUnwhitelisted, a, t)
  | .acceptAdminTransfer t => w.ledger.admin.map fun a => (.adminTransferred, a, t)
  | call => ((w.executing call).bind (·.successor?)).bind fun t =>
      w.ledger.admin.map fun a => (.adminTransferred, a, t)

/-- The calls that write an entry. -/
def Call.isLogged : Call → Bool
  | .addCompany .. | .addCarrier .. | .addGuardian .. | .addOperator .. | .removeGuardian ..
  | .removeOperator .. | .revokeRole .. | .suspendRole .. | .reactivateRole ..
  | .addCarrierToWhitelist .. | .acceptAdminTransfer .. => true
  | _ => false

/-- The changes that are made without an entry. -/
def World.unlogged (w : World H) : Call → Bool
  | .suspendCarrier _ t => !w.isCarrierSuspended t
  | .reactivateCarrier _ t => w.isCarrierSuspended t
  | .suspendCompany _ t => !w.isCompanySuspended t
  | .reactivateCompany _ t => w.isCompanySuspended t
  | .removeCarrierFromWhitelist a t => w.isCarrierWhitelisted a t
  | call => ((w.executing call).bind (·.successor?)).any fun t =>
      !(w.ledger.admin = some t ∧ w.hasRole t .company = true ∧ w.registry.role t = some .company)

/-- What a committed call does to the charter: it writes its entry, it leaves the
charter, it sets the contract up, or it makes a change without an entry. -/
inductive Amended (env : Env) (w : World H) (call : Call) (o : Charter) : Prop
  | logged {m : AuditMatter} : call.isLogged = true → w.audited call = some m →
      o.trail = w.charter.trail.append env.timestamp m → Amended env w call o
  | kept : call.isLogged = false → o = w.charter → Amended env w call o
  | initialized {admin token : Address} : call = .initializeContract admin token →
      o.trail = w.charter.trail → Amended env w call o
  | unlogged : call.isLogged = false → w.unlogged call = true → o.trail = w.charter.trail →
      Amended env w call o

/-! ### Calls that write an entry -/

/-- The function writes one entry about `m`. -/
class Logs {α : Type} (m : AuditMatter) (p : Contract H α) : Prop where
  out : ∀ env w, wp p env w fun _ w' => w'.charter.trail = w.charter.trail.append env.timestamp m

def World.trail (w : World H) : AuditTrail := w.governance.trail

section

instance : LedgerFree (World.trail (H := H)) := ⟨fun _ _ => rfl⟩

instance : RegistryFree (World.trail (H := H)) := ⟨fun _ _ => rfl⟩

instance : DossierFree (World.trail (H := H)) := ⟨fun _ _ => rfl⟩

instance : BusinessFree (World.trail (H := H)) := ⟨fun _ _ h => h⟩

instance : AuthFree (World.trail (H := H)) := ⟨fun _ _ => rfl⟩

instance : PlainFree (World.trail (H := H)) := ⟨fun _ _ _ => rfl⟩

instance : PaymentFree (World.trail (H := H)) := ⟨fun _ _ _ => rfl⟩

variable {α β : Type} {m : AuditMatter}

instance Logs.logAudit (e : AuditEventType) (a t : Address) :
    Logs (e, a, t) (logAudit e a t : Contract H Unit) := ⟨fun env w => by
  unfold Navin.logAudit
  simp only [wp_bind, wp_timestamp, wp_gets, wp_modifyGovernance, wp_log]
  rfl⟩

/-- What comes before leaves the trail. -/
instance Logs.bind (p : Contract H α) (k : α → Contract H β) [hp : Preserves World.trail p]
    [hk : ∀ a, Logs m (k a)] : Logs m (p >>= k) := ⟨fun env w => by
  rw [wp_bind]
  refine (hp.out env w).mono fun a w₁ h₁ => ((hk a).out env w₁).mono fun _ w₂ h₂ => ?_
  have h₁ : w₁.charter.trail = w.charter.trail := h₁
  rw [h₂, h₁]⟩

end

variable {env : Env} {w : World H} {a t : Address}

instance logs_addPartyRole (r : Role) : Logs (.roleAssigned, a, t) (addPartyRole r a t : Contract H Unit) := by
  unfold addPartyRole
  infer_instance

instance logs_addStaffRole (r : Role) : Logs (.roleAssigned, a, t) (addStaffRole r a t : Contract H Unit) := by
  unfold addStaffRole
  infer_instance

instance logs_revokeRole : Logs (.roleRevoked, a, t) (revokeRole a t : Contract H Unit) := by
  unfold revokeRole
  infer_instance

instance logs_suspendRole : Logs (.roleSuspended, a, t) (suspendRole a t : Contract H Unit) := by
  unfold suspendRole
  infer_instance

instance logs_reactivateRole : Logs (.roleReactivated, a, t) (reactivateRole a t : Contract H Unit) := by
  unfold reactivateRole
  infer_instance

instance logs_addCarrierToWhitelist :
    Logs (.carrierWhitelisted, a, t) (addCarrierToWhitelist a t : Contract H Unit) := by
  unfold addCarrierToWhitelist
  infer_instance

/-- The actor of a hand-over is the admin who leaves. -/
theorem trail_acceptAdminTransfer : wp (acceptAdminTransfer t) env w fun _ w' =>
    ∃ m, w.audited (.acceptAdminTransfer t) = some m ∧
      w'.charter.trail = w.charter.trail.append env.timestamp m := by
  unfold acceptAdminTransfer
  simp only [wp_bind, wp_gets, wp_okOr, wp_rejectIf]
  refine wp_guard fun _ => ?_
  refine wp_requireAuth fun _ _ _ _ => ?_
  refine wp_getAdmin fun old hold => ?_
  rw [wp_modifyLedger_iff, wp_modifyGovernance, wp_modifyRegistry, wp_log]
  have hold : w.ledger.admin = some old := hold
  refine ((Logs.logAudit .adminTransferred old t).out env _).mono fun _ w' h => ?_
  refine ⟨(.adminTransferred, old, t), ?_, h⟩
  simp [World.audited, hold]

/-! ### Calls that write none -/

/-- A flag that is set to the value it has changes nothing. -/
theorem Amended.of_permits {call : Call} {o : Charter} {p : Permits} (hl : call.isLogged = false)
    (ho : o = { w.charter with permits := p }) (h : w.unlogged call = false → p = w.charter.permits) :
    Amended env w call o := by
  cases hu : w.unlogged call with
  | true => exact .unlogged hl hu (by rw [ho])
  | false => exact .kept hl (by rw [ho, h hu])

theorem update_self_of_eq {α β : Type} [DecidableEq α] {f : α → β} {x : α} {y : β} (h : f x = y) :
    Function.update f x y = f := by
  rw [← h]
  exact Function.update_eq_self ..

theorem charter_suspendCarrier : wp (suspendCarrier a t) env w fun _ w' =>
    Amended env w (.suspendCarrier a t) w'.charter := by
  unfold suspendCarrier
  simp only [wp_bind, wp_modifyRegistry, wp_log]
  refine wp_openCall fun _ _ => ?_
  refine wp_guard fun _ => .of_permits rfl rfl fun h => ?_
  have h : w.registry.carrierSuspended t = true := by
    simpa [World.unlogged, World.isCarrierSuspended] using h
  exact congrArg (fun x => { w.charter.permits with carrierSuspended := x }) (update_self_of_eq h)

theorem charter_reactivateCarrier : wp (reactivateCarrier a t) env w fun _ w' =>
    Amended env w (.reactivateCarrier a t) w'.charter := by
  unfold reactivateCarrier
  simp only [wp_bind, wp_modifyRegistry, wp_log]
  refine wp_openCall fun _ _ => ?_
  refine wp_guard fun _ => .of_permits rfl rfl fun h => ?_
  have h : w.registry.carrierSuspended t = false := h
  exact congrArg (fun x => { w.charter.permits with carrierSuspended := x }) (update_self_of_eq h)

theorem charter_suspendCompany : wp (suspendCompany a t) env w fun _ w' =>
    Amended env w (.suspendCompany a t) w'.charter := by
  unfold suspendCompany emitRoleChanged
  simp only [wp_bind, wp_modifyRegistry, wp_log, wp_gets, wp_rejectIf, wp_timestamp]
  refine wp_openCall fun _ _ => ?_
  refine wp_guard fun _ _ => .of_permits rfl rfl fun h => ?_
  have h : w.registry.companySuspended t = true := by
    simpa [World.unlogged, World.isCompanySuspended] using h
  exact congrArg (fun x => { w.charter.permits with companySuspended := x }) (update_self_of_eq h)

theorem charter_reactivateCompany : wp (reactivateCompany a t) env w fun _ w' =>
    Amended env w (.reactivateCompany a t) w'.charter := by
  unfold reactivateCompany emitRoleChanged
  simp only [wp_bind, wp_modifyRegistry, wp_log, wp_timestamp]
  refine wp_openCall fun _ _ => ?_
  refine wp_guard fun _ => .of_permits rfl rfl fun h => ?_
  have h : w.registry.companySuspended t = false := h
  exact congrArg (fun x => { w.charter.permits with companySuspended := x }) (update_self_of_eq h)

theorem charter_removeCarrierFromWhitelist : wp (removeCarrierFromWhitelist a t) env w fun _ w' =>
    Amended env w (.removeCarrierFromWhitelist a t) w'.charter := by
  unfold removeCarrierFromWhitelist
  simp only [wp_bind, wp_modifyRegistry, wp_log]
  refine wp_openCall fun _ _ => ?_
  refine wp_guard fun _ => .of_permits rfl rfl fun h => ?_
  have h : w.registry.carrierWhitelist a t = false := h
  have h₂ : update₂ w.registry.carrierWhitelist a t false = w.registry.carrierWhitelist :=
    update_self_of_eq (update_self_of_eq h).symm
  exact congrArg (fun x => { w.charter.permits with carrierWhitelist := x }) h₂

/-- What the action of a proposal does to the charter. -/
def AdminAction.amend (o : Charter) : AdminAction → Charter
  | .transferAdmin t =>
    { o with
      admin := some t
      permits := { o.permits with
        userRole := update₂ o.permits.userRole t .company true
        role := Function.update o.permits.role t (some .company) } }
  | _ => o

theorem charter_performAction {x : Address} {action : AdminAction} :
    wp (performAction x action) env w fun _ w' => w'.charter = action.amend w.charter := by
  cases action with
  | upgrade =>
    unfold performAction
    exact Preserves.out (f := World.charter) env w
  | transferAdmin b =>
    unfold performAction
    simp only [wp_bind]
    refine wp_getAdmin fun _ _ => ?_
    rw [wp_modifyLedger_iff, wp_modifyRegistry, wp_log]
    rfl
  | forceRelease =>
    unfold performAction
    exact Preserves.out (f := World.charter) env w
  | forceRefund =>
    unfold performAction
    exact Preserves.out (f := World.charter) env w

theorem charter_executeProposalInternal {pid : ℕ} :
    wp (executeProposalInternal pid) env w fun _ w' => ∃ p, w.governance.proposal pid = some p ∧
      w'.charter = p.action.amend w.charter := by
  unfold executeProposalInternal
  simp only [wp_bind, wp_gets, wp_okOr, wp_rejectIf, wp_timestamp, wp_modifyGovernance, wp_log]
  intro p hp _ _ _
  exact charter_performAction.mono fun _ w' h => ⟨p, hp, h⟩

/-- An executed action changes the charter only if it installs another admin. -/
theorem Amended.of_executing {call : Call} {o : Charter} {action : AdminAction}
    (hx : w.executing call = some action) (ho : o = action.amend w.charter) : Amended env w call o := by
  have hl : call.isLogged = false := by cases call <;> first | rfl | cases hx
  cases action with
  | transferAdmin t =>
    by_cases hu : w.ledger.admin = some t ∧ w.hasRole t .company = true ∧
        w.registry.role t = some .company
    · obtain ⟨h₁, h₂, h₃⟩ := hu
      refine .kept hl ?_
      have hrole : update₂ w.registry.userRole t .company true = w.registry.userRole :=
        update_self_of_eq (update_self_of_eq h₂).symm
      have hslot : Function.update w.registry.role t (some .company) = w.registry.role :=
        update_self_of_eq h₃
      rw [ho]
      simp only [AdminAction.amend, World.charter, hrole, hslot, h₁]
    · refine .unlogged hl ?_ (by rw [ho]; rfl)
      have hany : ((w.executing call).bind (·.successor?)).any (fun t =>
          !(w.ledger.admin = some t ∧ w.hasRole t .company = true ∧
            w.registry.role t = some .company)) = true := by
        rw [hx]
        exact Bool.not_eq_true' _ |>.mpr (decide_eq_false hu)
      cases call <;> first | exact hany | cases hx
  | _ => exact .kept hl ho

theorem charter_executeProposal {pid : ℕ} : wp (executeProposal pid) env w fun _ w' =>
    Amended env w (.executeProposal pid) w'.charter := by
  unfold executeProposal
  rw [wp_bind]
  refine wp_guard fun _ => ?_
  refine charter_executeProposalInternal.mono fun _ w' h => ?_
  obtain ⟨p, hp, hw'⟩ := h
  have hx : w.executing (.executeProposal pid) = some p.action := by simp [World.executing, hp]
  exact .of_executing hx hw'

theorem charter_approveAction {pid : ℕ} : wp (approveAction a pid) env w fun _ w' =>
    Amended env w (.approveAction a pid) w'.charter := by
  unfold approveAction
  simp only [wp_bind, wp_gets, wp_okOr, wp_rejectIf, wp_timestamp, wp_modifyGovernance, wp_log, wp_when]
  refine wp_guard fun _ => ?_
  refine wp_requireAuth fun _ _ p hp _ _ _ => ?_
  have hp : w.governance.proposal pid = some p := hp
  constructor
  · intro hthr
    refine charter_executeProposalInternal.mono fun _ w' h => ?_
    obtain ⟨q, hq, hw'⟩ := h
    exact .of_executing (World.executing_of_approved hp hq (by simpa using hthr)) hw'
  · exact fun _ => .kept rfl rfl

theorem charter_initializeContract : wp (initializeContract a t) env w fun _ w' =>
    Amended env w (.initializeContract a t) w'.charter := by
  have h : Preserves World.trail (initializeContract a t : Contract H Unit) := by
    unfold initializeContract
    infer_instance
  exact (h.out env w).mono fun _ w' h => .initialized rfl h

/-! ### Calls and steps -/

instance charter_archiveShipment (id : ℕ) :
    Preserves World.charter (archiveShipment a id : Contract H Unit) := by
  unfold archiveShipment storageArchiveShipment
  infer_instance

/-- What a call that writes an entry does. -/
theorem Logs.amended {call : Call} {m : AuditMatter} {p : Contract H Unit} (hp : Logs m p)
    (hl : call.isLogged = true) (hm : w.audited call = some m) :
    wp p env w fun _ w' => Amended env w call w'.charter :=
  (hp.out env w).mono fun _ _ h => .logged hl hm h

/-- Every committed call amends the charter, or leaves it. -/
theorem amended_exec (call : Call) : wp call.exec env w fun _ w' => Amended env w call w'.charter := by
  cases call with
  | initializeContract => exact charter_initializeContract
  | addCompany => exact (logs_addPartyRole _).amended rfl rfl
  | addCarrier => exact (logs_addPartyRole _).amended rfl rfl
  | addGuardian => exact (logs_addStaffRole _).amended rfl rfl
  | addOperator => exact (logs_addStaffRole _).amended rfl rfl
  | removeGuardian => exact logs_revokeRole.amended rfl rfl
  | removeOperator => exact logs_revokeRole.amended rfl rfl
  | revokeRole => exact logs_revokeRole.amended rfl rfl
  | suspendRole => exact logs_suspendRole.amended rfl rfl
  | reactivateRole => exact logs_reactivateRole.amended rfl rfl
  | addCarrierToWhitelist => exact logs_addCarrierToWhitelist.amended rfl rfl
  | acceptAdminTransfer =>
    exact trail_acceptAdminTransfer.mono fun _ _ ⟨m, hm, h⟩ => .logged rfl hm h
  | suspendCarrier => exact charter_suspendCarrier
  | reactivateCarrier => exact charter_reactivateCarrier
  | suspendCompany => exact charter_suspendCompany
  | reactivateCompany => exact charter_reactivateCompany
  | removeCarrierFromWhitelist => exact charter_removeCarrierFromWhitelist
  | approveAction => exact charter_approveAction
  | executeProposal => exact charter_executeProposal
  | _ =>
    unfold Call.exec
    exact Preserves.wp World.charter fun _ w' h => .kept rfl h

/-! ### Runs -/

/-- The step is not a change without an entry, and the count has not saturated. -/
def Label.Logged (w : World H) : Label → Prop
  | .committed call _ _ => w.unlogged call = false ∧ w.governance.auditEntryCount < u32Max
  | _ => True

instance (w : World H) (l : Label) : Decidable (l.Logged w) :=
  match l with
  | .committed call _ _ =>
    inferInstanceAs (Decidable (w.unlogged call = false ∧ w.governance.auditEntryCount < u32Max))
  | .reverted .. => .isTrue trivial
  | .outside .. => .isTrue trivial

/-- The entry a step writes. -/
def Label.logged? (w : World H) : Label → Option AuditLogEntry
  | .committed call env _ =>
    if call.isLogged then (w.audited call).map (w.governance.trail.next env.timestamp) else none
  | _ => none

/-- What the audit trail is about. -/
def World.powers (w : World H) : Option Address × Permits := (w.ledger.admin, w.registry.permits)

variable {c c' c₀ : Chain H} {l : Label}

/-- One step: the entries grow by the one it writes. -/
theorem Step.entries (hstep : Step c l c') (hl : l.Logged c.world) :
    c'.world.governance.trail.entries =
      c.world.governance.trail.entries ++ (l.logged? c.world).toList := by
  cases hstep with
  | reverted => exact (List.append_nil _).symm
  | outside => exact (List.append_nil _).symm
  | @committed call env w' _ hx =>
    have h : Amended env c.world.fresh call w'.charter := amended_exec call () w' hx
    have hkept : w'.charter.trail = c.world.charter.trail → call.isLogged = false →
        w'.governance.trail.entries = c.world.governance.trail.entries ++
          ((Label.committed call env w'.trace).logged? c.world).toList := by
      intro ht hn
      have ht : w'.governance.trail = c.world.governance.trail := ht
      simp [Label.logged?, hn, ht]
    cases h with
    | @logged m hlog hm ht =>
      have ht : w'.governance.trail = c.world.governance.trail.append env.timestamp m := ht
      have hm : c.world.audited call = some m := hm
      change w'.governance.trail.entries = _
      rw [ht, AuditTrail.entries_append hl.2]
      simp [Label.logged?, hlog, hm]
    | kept hn ho => exact hkept (by rw [ho]; rfl) hn
    | initialized hcall ht => exact hkept ht (by rw [hcall]; rfl)
    | unlogged hn hu => exact absurd (hl.1.symm.trans hu) Bool.false_ne_true

/-- A step overwrites no entry. -/
theorem Step.auditEntry_eq (hstep : Step c l c') {n : ℕ}
    (hn : n < c.world.governance.auditEntryCount) :
    c'.world.governance.auditEntry n = c.world.governance.auditEntry n := by
  cases hstep with
  | reverted => rfl
  | outside => rfl
  | @committed call env w' _ hx =>
    have h : Amended env c.world.fresh call w'.charter := amended_exec call () w' hx
    have hkept : w'.charter.trail = c.world.charter.trail →
        w'.governance.auditEntry n = c.world.governance.auditEntry n :=
      fun ht => congrFun (congrArg AuditTrail.auditEntry ht) n
    cases h with
    | @logged m _ _ ht =>
      have ht : w'.governance.trail = c.world.governance.trail.append env.timestamp m := ht
      have h₁ : w'.governance.auditEntry n =
          (c.world.governance.trail.append env.timestamp m).auditEntry n :=
        congrFun (congrArg AuditTrail.auditEntry ht) n
      exact h₁.trans (AuditTrail.append_auditEntry hn)
    | kept _ ho => exact hkept (by rw [ho]; rfl)
    | initialized _ ht => exact hkept ht
    | unlogged _ _ ht => exact hkept ht

/-- A step that changes what the trail is about, after the set-up, writes the entry that
matches it. -/
theorem Step.entry_of_change (hstep : Step c l c') (hl : l.Logged c.world)
    (hne : c'.world.powers ≠ c.world.powers)
    (hinit : ∀ admin token env trace, l ≠ .committed (.initializeContract admin token) env trace) :
    ∃ call env trace m, l = .committed call env trace ∧ c.world.audited call = some m ∧
      l.logged? c.world = some (c.world.governance.trail.next env.timestamp m) := by
  cases hstep with
  | reverted => exact absurd rfl hne
  | outside => exact absurd rfl hne
  | @committed call env w' _ hx =>
    have h : Amended env c.world.fresh call w'.charter := amended_exec call () w' hx
    cases h with
    | @logged m hlog hm _ =>
      have hm : c.world.audited call = some m := hm
      refine ⟨call, env, w'.trace, m, rfl, hm, ?_⟩
      simp [Label.logged?, hlog, hm]
    | kept _ ho =>
      have hp : w'.powers = c.world.powers := congrArg (fun o : Charter => (o.admin, o.permits)) ho
      exact absurd hp hne
    | initialized hcall _ => exact absurd (by rw [hcall]) (hinit _ _ _ _)
    | unlogged _ hu _ => exact absurd (hl.1.symm.trans hu) Bool.false_ne_true

/-- The trail of a run is what its steps wrote, in order. -/
theorem Gathers.entries_eq {ls : List Label} {es : List AuditLogEntry} (hd : Deployed c₀)
    (hr : Gathers (Under Step fun c l => l.Logged c.world) (fun c l => (l.logged? c.world).toList)
      c₀ ls c es) : c.world.governance.trail.entries = es := by
  induction hr with
  | nil =>
    cases hd
    rfl
  | snoc _ hl ih => rw [hl.1.entries hl.2, ih]

/-- A query picks its entries out of the log. -/
theorem AuditTrail.filter_entries (t : AuditTrail) (p : AuditLogEntry → Bool) :
    ((List.range t.auditEntryCount).filterMap fun i => (t.auditEntry i).filter p) = t.entries.filter p := by
  unfold AuditTrail.entries
  rw [List.filter_filterMap]

/-- In a run without changes that leave no entry, and below the last count, the query
for a target returns the entries of that target which the steps wrote, in order. Every
further such step that changes a role, a suspension, a whitelist or the admin after the
set-up writes exactly one entry, the matching one, and overwrites none. -/
theorem audit_complete {ls : List Label} {es : List AuditLogEntry} (hd : Deployed c₀)
    (hr : Gathers (Under Step fun c l => l.Logged c.world) (fun c l => (l.logged? c.world).toList)
      c₀ ls c es) :
    (∀ t env, c.world.isInitialized = true → (queryAuditHistoryForTarget t).Returns env c.world
      (es.filter fun e => e.target = t) c.world) ∧
    ∀ l c', Step c l c' → l.Logged c.world →
      (∀ n, n < c.world.governance.auditEntryCount →
        c'.world.governance.auditEntry n = c.world.governance.auditEntry n) ∧
      (c'.world.powers ≠ c.world.powers →
        (∀ admin token env trace, l ≠ .committed (.initializeContract admin token) env trace) →
        ∃ call env trace m, l = .committed call env trace ∧ c.world.audited call = some m ∧
          l.logged? c.world = some (c.world.governance.trail.next env.timestamp m) ∧
          c'.world.governance.trail.entries = c.world.governance.trail.entries ++
            [c.world.governance.trail.next env.timestamp m]) := by
  constructor
  · intro t env hi
    unfold queryAuditHistoryForTarget requireInitialized
    simp only [bind_assoc, returns_gets_bind, returns_rejectIf_bind, returns_gets, hi]
    refine ⟨by decide, ?_, trivial⟩
    rw [← hr.entries_eq hd, ← AuditTrail.filter_entries]
    rfl
  · intro l c' hstep hl
    refine ⟨fun n hn => hstep.auditEntry_eq hn, fun hne hinit => ?_⟩
    obtain ⟨call, env, trace, m, rfl, hm, he⟩ := hstep.entry_of_change hl hne hinit
    refine ⟨call, env, trace, m, rfl, hm, he, ?_⟩
    rw [hstep.entries hl, he]
    rfl

/-- The set-up, two roles and a shipment: the trail has the two roles, and a further role
is written down. -/
theorem audit_complete_guardian : ∃ (c c' : Chain Deployment.host) (l : Label)
    (es : List AuditLogEntry), Reachable c ∧ Step c l c' ∧ es.map (·.target) =
      [Deployment.company, Deployment.carrier] ∧
      (∀ t env, (queryAuditHistoryForTarget t).Returns env c.world
        (es.filter fun e => e.target = t) c.world) ∧
      ∃ m, c'.world.governance.trail.entries = c.world.governance.trail.entries ++ [m] ∧
        m.target = Deployment.treasury := by
  obtain ⟨ls, c, trace, c', hr, hstep, hi, hes, hl, hrole, hrole'⟩ :=
    exists_commit_under Deployment.chain Deployment.opening
      (.addGuardian Deployment.admin Deployment.treasury)
      ⟨5, 5, fun a => a = Deployment.admin, fun _ => true⟩
      (fun c l => l.Logged c.world)
      (fun c _ c' => c.world.isInitialized = true ∧
        c.world.governance.trail.entries.map (·.target) = [Deployment.company, Deployment.carrier] ∧
        (c.world.unlogged (.addGuardian Deployment.admin Deployment.treasury) = false ∧
          c.world.governance.auditEntryCount < u32Max) ∧
        c.world.hasRole Deployment.treasury .guardian = false ∧
        c'.world.hasRole Deployment.treasury .guardian = true)
      (by decide +kernel) (by decide +kernel)
  obtain ⟨es, hg⟩ := hr.gathers fun c l => (l.logged? c.world).toList
  obtain ⟨hquery, hnext⟩ := audit_complete Deployment.deployed hg
  have hpow : c'.world.powers ≠ c.world.powers := by
    intro he
    have heq : c'.world.hasRole Deployment.treasury .guardian =
        c.world.hasRole Deployment.treasury .guardian :=
      congrArg (fun p : Option Address × Permits => p.2.userRole Deployment.treasury .guardian) he
    rw [hrole, hrole'] at heq
    cases heq
  obtain ⟨call, env, tr, m, hcall, hm, -, hgrow⟩ :=
    (hnext _ c' hstep hl).2 hpow fun _ _ _ _ h => by cases h
  cases hcall
  cases hm
  refine ⟨c, c', _, es, ⟨_, ls, Deployment.deployed, hr.of_under⟩, hstep, ?_,
    fun t env => hquery t env hi, _, hgrow, rfl⟩
  rw [← hg.entries_eq Deployment.deployed, hes]

/-- The suspension of a carrier leaves no entry. -/
theorem suspendCarrier_unlogged :
    ¬∀ (c c' : Chain Deployment.host) (call : Call) (env : Env) (trace : List Effect), Reachable c →
      c.world.isInitialized = true → c.world.governance.auditEntryCount < u32Max →
      Step c (.committed call env trace) c' → c'.world.powers ≠ c.world.powers →
      ∃ m, c.world.audited call = some m ∧ c'.world.governance.trail.entries =
        c.world.governance.trail.entries ++ [c.world.governance.trail.next env.timestamp m] := by
  intro hall
  obtain ⟨ls, c, trace, c', hr, hstep, hi, hcount, hsame, hsus, hsus'⟩ :=
    exists_commit Deployment.chain Deployment.opening
      (.suspendCarrier Deployment.admin Deployment.carrier)
      ⟨5, 5, fun a => a = Deployment.admin, fun _ => true⟩
      (fun r _ c' => r.2.world.isInitialized = true ∧
        r.2.world.governance.auditEntryCount < u32Max ∧
        c'.world.governance.trail.entries = r.2.world.governance.trail.entries ∧
        r.2.world.isCarrierSuspended Deployment.carrier = false ∧
        c'.world.isCarrierSuspended Deployment.carrier = true)
      (by decide +kernel)
  have hpow : c'.world.powers ≠ c.world.powers := by
    intro he
    have heq : c'.world.isCarrierSuspended Deployment.carrier =
        c.world.isCarrierSuspended Deployment.carrier :=
      congrArg (fun p : Option Address × Permits => p.2.carrierSuspended Deployment.carrier) he
    rw [hsus, hsus'] at heq
    cases heq
  obtain ⟨m, -, hgrow⟩ := hall c c' _ _ trace ⟨_, ls, Deployment.deployed, hr⟩ hi hcount hstep hpow
  rw [hsame] at hgrow
  exact absurd hgrow (by simp)

end Navin
