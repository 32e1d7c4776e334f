/-
# Powers and who gave them

What the contract goes by is set by few: the configuration, the fee, the breaker and the
list of the council by the admin; the pause by the admin or a guardian; who holds a role or
is suspended by the admin or an operator; a whitelist by the company it belongs to. Nothing
else changes any of it, apart from the setting up of the contract and the hand-over of the
admin's office, which makes the new admin a company. So whoever holds a role at the end of
a run and did not at its start was given it in the run by somebody who was entitled to.

Key definitions:
- `World.Empowers`: what is known of the caller of a call that sets something;
- `Grants`: a call by which an address comes by a role.

Key theorems:
- `empowers_exec`;
- `Signed.settings`, `Signed.permits`: what a signed call sets, and whom it empowers;
- `rules_guarded`: neither changes without the signatures it asks for;
- `role_granted`: every role goes back to a grant.
-/
import Navin.Admission
import Navin.Audit
import Navin.Settings
import Navin.Trail
import Navin.Warrants

namespace Navin

open Tx

variable {H : Host} {env : Env} {w w' : World H} {call : Call} {trace : List Effect} {a : Address}

/-! ### Who may set what -/

/-- The admin, or an operator who is not suspended. -/
def World.Manager (w : World H) (a : Address) : Prop :=
  w.ledger.admin = some a ∨ w.hasActiveRole a .operator = true

/-- What is known of the caller of a committed call that sets something. -/
def World.Empowers (w : World H) : Call → Prop
  | .initializeContract .. => w.ledger.admin = none
  | .setCreationQuota a .. | .updateConfig a .. | .setPlatformFee a .. | .setCircuitBreakerConfig a ..
  | .addGuardian a .. | .addOperator a .. | .removeGuardian a .. | .removeOperator a .. | .revokeRole a ..
  | .suspendRole a .. | .reactivateRole a .. | .initMultisig a .. => w.ledger.admin = some a
  | .addCompany a .. | .addCarrier a .. | .suspendCarrier a .. | .reactivateCarrier a ..
  | .suspendCompany a .. | .reactivateCompany a .. => w.Manager a
  | .pause a | .unpause a => w.Arbiter a
  | .addCarrierToWhitelist a .. | .removeCarrierFromWhitelist a .. => w.permits.Passes a .company
  | .acceptAdminTransfer a => w.governance.proposedAdmin = some a
  | _ => True

variable {Q : Unit → World H → Prop}

theorem wp_requireAdminOrOperator (h : w.Manager a → Q () w) :
    wp (requireAdminOrOperator a) env w Q := by
  intro u w' hx
  obtain ⟨-, hor, rfl⟩ := returns_requireAdminOr.mp hx
  exact h hor

theorem wp_requireCompany (h : w.permits.Passes a .company → Q () w) :
    wp (requireRole a .company) env w Q := by
  intro u w' hx
  obtain ⟨⟨-, hpass⟩, rfl⟩ := returns_requireRole.mp hx
  exact h hpass

/-! The entry points, by how they open. -/

section

variable {m : Unit → Contract H Unit} {t : Address}

theorem wp_byAdmin {P : Prop} (h : w.ledger.admin = some a → P) :
    wp (openCall a >>= fun _ => requireAdmin a >>= m) env w fun _ _ => P := by
  rw [wp_bind]
  refine wp_openCall fun _ _ => ?_
  rw [wp_bind]
  exact wp_requireAdmin fun hadm => wp_known (h hadm)

theorem wp_byManager {P : Prop} (h : w.Manager a → P) :
    wp (openCall a >>= fun _ => requireAdminOrOperator a >>= m) env w fun _ _ => P := by
  rw [wp_bind]
  refine wp_openCall fun _ _ => ?_
  rw [wp_bind]
  exact wp_requireAdminOrOperator fun hman => wp_known (h hman)

theorem wp_byCompany {P : Prop} (h : w.permits.Passes a .company → P) :
    wp (openCall a >>= fun _ => requireRole a .company >>= m) env w fun _ _ => P := by
  rw [wp_bind]
  refine wp_openCall fun _ _ => ?_
  rw [wp_bind]
  exact wp_requireCompany fun hpass => wp_known (h hpass)

/-- A call that a pause does not stop. -/
theorem wp_byAdminAnyTime {P : Prop} (h : w.ledger.admin = some a → P) :
    wp (requireInitialized >>= fun _ => requireAuth a >>= fun _ => requireAdmin a >>= m) env w
      fun _ _ => P := by
  rw [wp_bind]
  refine wp_requireInitialized fun _ => ?_
  rw [wp_bind]
  refine wp_requireAuth fun _ => ?_
  rw [wp_bind]
  exact wp_requireAdmin fun hadm => wp_known (h hadm)

theorem wp_byArbiter {P : Prop} (h : w.Arbiter a → P) :
    wp (requireInitialized >>= fun _ => requireAuth a >>= fun _ => requireAdminOrGuardian a >>= m) env w
      fun _ _ => P := by
  rw [wp_bind]
  refine wp_requireInitialized fun _ => ?_
  rw [wp_bind]
  refine wp_requireAuth fun _ => ?_
  rw [wp_bind]
  exact wp_requireAdminOrGuardian fun harb => wp_known (h harb)

end

theorem empowers_initializeContract {t : Address} :
    wp (initializeContract a t) env w fun _ _ => w.ledger.admin = none := by
  unfold initializeContract
  rw [wp_bind, wp_gets, wp_bind, wp_rejectIf]
  intro hn
  refine wp_known ?_
  simpa [World.isInitialized] using hn

theorem empowers_acceptAdminTransfer :
    wp (acceptAdminTransfer a) env w fun _ _ => w.governance.proposedAdmin = some a := by
  unfold acceptAdminTransfer
  rw [wp_bind]
  refine wp_requireInitialized fun _ => ?_
  rw [wp_bind]
  refine wp_requireAuth fun _ => ?_
  rw [wp_bind, wp_gets, wp_bind, wp_okOr]
  intro b hb
  have hb : w.governance.proposedAdmin = some b := hb
  rw [wp_bind, wp_rejectIf]
  intro hab
  rw [not_not.mp hab] at hb
  exact wp_known hb

/-- Whoever sets something was entitled to. -/
theorem empowers_exec (call : Call) : wp call.exec env w fun _ _ => w.Empowers call := by
  cases call with
  | initializeContract => exact empowers_initializeContract
  | acceptAdminTransfer => exact empowers_acceptAdminTransfer
  | setCreationQuota => exact wp_byAdminAnyTime id
  | updateConfig => exact wp_byAdmin id
  | setPlatformFee => exact wp_byAdmin id
  | setCircuitBreakerConfig => exact wp_byAdminAnyTime id
  | addGuardian => exact wp_byAdmin id
  | addOperator => exact wp_byAdmin id
  | removeGuardian => exact wp_byAdmin id
  | removeOperator => exact wp_byAdmin id
  | revokeRole => exact wp_byAdmin id
  | suspendRole => exact wp_byAdmin id
  | reactivateRole => exact wp_byAdmin id
  | initMultisig => exact wp_byAdminAnyTime id
  | addCompany => exact wp_byManager id
  | addCarrier => exact wp_byManager id
  | suspendCarrier => exact wp_byManager id
  | reactivateCarrier => exact wp_byManager id
  | suspendCompany => exact wp_byManager id
  | reactivateCompany => exact wp_byManager id
  | pause => exact wp_byArbiter id
  | unpause => exact wp_byArbiter id
  | addCarrierToWhitelist => exact wp_byCompany id
  | removeCarrierFromWhitelist => exact wp_byCompany id
  | _ => exact wp_known trivial

/-! ### What is done to the permits -/

namespace Permits

variable (p : Permits)

/-- A role is given, and is the one given last. -/
def give (t : Address) (r : Role) : Permits :=
  { p with userRole := update₂ p.userRole t r true, role := Function.update p.role t (some r) }

/-- A place on the whitelist of a company is given or taken. -/
def list (company carrier : Address) (b : Bool) : Permits :=
  { p with carrierWhitelist := update₂ p.carrierWhitelist company carrier b }

/-- No role is given. -/
def Within (q : Permits) : Prop := ∀ t r, p.userRole t r = true → q.userRole t r = true

end Permits

/-- The role a call gives. -/
def Call.gives? : Call → Option (Address × Role)
  | .addCompany _ t => some (t, .company)
  | .addCarrier _ t => some (t, .carrier)
  | .addGuardian _ t => some (t, .guardian)
  | .addOperator _ t => some (t, .operator)
  | _ => none

/-- The calls that give roles, take them or suspend somebody. -/
def Call.manages : Call → Bool
  | .addCompany .. | .addCarrier .. | .addGuardian .. | .addOperator .. | .removeGuardian ..
  | .removeOperator .. | .revokeRole .. | .suspendRole .. | .reactivateRole .. | .suspendCarrier ..
  | .reactivateCarrier .. | .suspendCompany .. | .reactivateCompany .. => true
  | _ => false

/-- The call makes the address a company on its way to the admin's office. -/
def World.Installs (w : World H) (call : Call) (t : Address) : Prop :=
  (∃ token, call = .initializeContract t token) ∨ call = .acceptAdminTransfer t ∨
    w.executing call = some (.transferAdmin t)

/-- What a committed call does to the permits. -/
inductive Regulated (w : World H) (call : Call) (o : Permits) : Prop
  | kept : o = w.permits → Regulated w call o
  | given {t : Address} {r : Role} : call.manages = true → call.gives? = some (t, r) →
      o = w.permits.give t r → Regulated w call o
  | managed : call.manages = true → o.Within w.permits → Regulated w call o
  | listed {a t : Address} {b : Bool} :
      call = .addCarrierToWhitelist a t ∨ call = .removeCarrierFromWhitelist a t →
      o = w.permits.list a t b → Regulated w call o
  | installed {t : Address} : w.Installs call t → o = w.permits.give t .company → Regulated w call o

section

variable {t : Address} {r : Role}

theorem permits_addPartyRole : wp (addPartyRole r a t) env w fun _ w' => w'.permits = w.permits.give t r := by
  unfold addPartyRole
  simp only [wp_bind, wp_gets, wp_rejectIf, wp_modifyRegistry]
  refine wp_openCall fun _ _ => ?_
  refine wp_guard fun _ _ => ?_
  refine Preserves.wp World.permits fun _ w₁ h₁ => ?_
  refine Preserves.wp World.permits fun _ w₂ h₂ => ?_
  rw [h₂, h₁]
  rfl

theorem permits_addStaffRole : wp (addStaffRole r a t) env w fun _ w' => w'.permits = w.permits.give t r := by
  unfold addStaffRole
  simp only [wp_bind, wp_modifyRegistry]
  refine wp_openCall fun _ _ => ?_
  refine wp_guard fun _ => ?_
  refine Preserves.wp World.permits fun _ w₁ h₁ => ?_
  refine Preserves.wp World.permits fun _ w₂ h₂ => ?_
  rw [h₂, h₁]
  rfl

theorem Permits.within_revoke (p : Permits) : (p.revoke t).Within p := by
  intro x y hxy
  unfold revoke at hxy
  by_cases hc : p.current t = .unassigned
  · rwa [if_pos hc] at hxy
  · rw [if_neg hc] at hxy
    have hupd : update₂ p.userRole t (p.current t) false x y = true := hxy
    unfold update₂ at hupd
    by_cases hx : x = t
    · rw [hx, Function.update_self, Function.update_apply] at hupd
      rw [hx]
      by_cases hy : y = p.current t
      · rw [if_pos hy] at hupd
        cases hupd
      · rwa [if_neg hy] at hupd
    · rwa [Function.update_of_ne hx] at hupd

theorem permits_suspendRole : wp (suspendRole a t) env w fun _ w' => w'.permits.Within w.permits := by
  unfold suspendRole
  simp only [wp_bind, wp_gets, wp_rejectIf, wp_modifyRegistry]
  refine wp_openCall fun _ _ => ?_
  refine wp_guard fun _ _ _ => ?_
  refine Preserves.wp World.permits fun _ w₁ h₁ => ?_
  refine Preserves.wp World.permits fun _ w₂ h₂ => ?_
  rw [h₂, h₁]
  exact fun _ _ h => h

theorem permits_reactivateRole : wp (reactivateRole a t) env w fun _ w' => w'.permits.Within w.permits := by
  unfold reactivateRole
  simp only [wp_bind, wp_gets, wp_rejectIf, wp_modifyRegistry]
  refine wp_openCall fun _ _ => ?_
  refine wp_guard fun _ _ => ?_
  refine Preserves.wp World.permits fun _ w₁ h₁ => ?_
  refine Preserves.wp World.permits fun _ w₂ h₂ => ?_
  rw [h₂, h₁]
  exact fun _ _ h => h

theorem permits_suspendCarrier : wp (suspendCarrier a t) env w fun _ w' => w'.permits.Within w.permits := by
  unfold suspendCarrier
  simp only [wp_bind, wp_modifyRegistry, wp_log]
  refine wp_openCall fun _ _ => ?_
  exact wp_guard fun _ _ _ h => h

theorem permits_reactivateCarrier :
    wp (reactivateCarrier a t) env w fun _ w' => w'.permits.Within w.permits := by
  unfold reactivateCarrier
  simp only [wp_bind, wp_modifyRegistry, wp_log]
  refine wp_openCall fun _ _ => ?_
  exact wp_guard fun _ _ _ h => h

theorem permits_suspendCompany : wp (suspendCompany a t) env w fun _ w' => w'.permits.Within w.permits := by
  unfold suspendCompany
  simp only [wp_bind, wp_modifyRegistry, wp_gets, wp_rejectIf]
  refine wp_openCall fun _ _ => ?_
  refine wp_guard fun _ _ => ?_
  refine Preserves.wp World.permits fun _ w₁ h₁ => ?_
  rw [h₁]
  exact fun _ _ h => h

theorem permits_reactivateCompany :
    wp (reactivateCompany a t) env w fun _ w' => w'.permits.Within w.permits := by
  unfold reactivateCompany
  simp only [wp_bind, wp_modifyRegistry]
  refine wp_openCall fun _ _ => ?_
  refine wp_guard fun _ => ?_
  refine Preserves.wp World.permits fun _ w₁ h₁ => ?_
  rw [h₁]
  exact fun _ _ h => h

theorem permits_addCarrierToWhitelist : wp (addCarrierToWhitelist a t) env w fun _ w' =>
    w'.permits = w.permits.list a t true := by
  unfold addCarrierToWhitelist
  simp only [wp_bind, wp_gets, wp_rejectIf, wp_modifyRegistry]
  refine wp_openCall fun _ _ => ?_
  refine wp_guard fun _ _ => ?_
  refine Preserves.wp World.permits fun _ w₁ h₁ => ?_
  refine Preserves.wp World.permits fun _ w₂ h₂ => ?_
  rw [h₂, h₁]
  rfl

theorem permits_removeCarrierFromWhitelist : wp (removeCarrierFromWhitelist a t) env w fun _ w' =>
    w'.permits = w.permits.list a t false := by
  unfold removeCarrierFromWhitelist
  simp only [wp_bind, wp_modifyRegistry, wp_log]
  refine wp_openCall fun _ _ => ?_
  exact wp_guard fun _ => rfl

theorem permits_initializeContract : wp (initializeContract a t) env w fun _ w' =>
    w'.permits = w.permits.give a .company := by
  unfold initializeContract
  simp only [wp_bind, wp_gets, wp_rejectIf]
  intro _ _
  refine Preserves.wp World.permits fun _ w₁ h₁ => ?_
  refine Preserves.wp World.permits fun _ w₂ h₂ => ?_
  refine Preserves.wp World.permits fun _ w₃ h₃ => ?_
  refine Preserves.wp World.permits fun _ w₄ h₄ => ?_
  rw [wp_modifyRegistry]
  refine Preserves.wp World.permits fun _ w₅ h₅ => ?_
  refine Preserves.wp World.permits fun _ w₆ h₆ => ?_
  refine Preserves.wp World.permits fun _ w₇ h₇ => ?_
  rw [h₇, h₆, h₅]
  show w₄.permits.give a .company = _
  rw [h₄, h₃, h₂, h₁]

theorem permits_acceptAdminTransfer : wp (acceptAdminTransfer t) env w fun _ w' =>
    w'.permits = w.permits.give t .company := by
  unfold acceptAdminTransfer
  simp only [wp_bind, wp_gets, wp_okOr, wp_rejectIf]
  refine wp_guard fun _ => ?_
  refine wp_requireAuth fun _ _ _ _ => ?_
  refine wp_getAdmin fun old hold => ?_
  rw [wp_modifyLedger_iff, wp_modifyGovernance, wp_modifyRegistry, wp_log]
  refine Preserves.wp World.permits fun _ w₁ h₁ => ?_
  rw [h₁]
  rfl

/-- An action that is executed installs an admin, or leaves the permits. -/
theorem World.Installs.regulated {action : AdminAction} {o : Charter}
    (hx : w.executing call = some action) (ho : o = action.amend w.charter) :
    Regulated w call o.permits := by
  cases action with
  | transferAdmin b => exact .installed (.inr (.inr hx)) (congrArg Charter.permits ho)
  | _ => exact .kept (congrArg Charter.permits ho)

theorem regulated_approveAction {n : ℕ} : wp (approveAction a n) env w fun _ w' =>
    Regulated w (.approveAction a n) w'.permits := by
  unfold approveAction
  simp only [wp_bind, wp_gets, wp_okOr, wp_rejectIf, wp_timestamp, wp_modifyGovernance, wp_log, wp_when]
  refine wp_guard fun _ => ?_
  refine wp_requireAuth fun _ _ p hp _ _ _ => ?_
  have hp : w.governance.proposal n = some p := hp
  constructor
  · intro hthr
    refine charter_executeProposalInternal.mono fun _ w' h => ?_
    obtain ⟨q, hq, hw'⟩ := h
    exact World.Installs.regulated (World.executing_of_approved hp hq (by simpa using hthr)) hw'
  · exact fun _ => .kept rfl

theorem regulated_executeProposal {n : ℕ} : wp (executeProposal n) env w fun _ w' =>
    Regulated w (.executeProposal n) w'.permits := by
  unfold executeProposal
  rw [wp_bind]
  refine wp_guard fun _ => ?_
  refine charter_executeProposalInternal.mono fun _ w' h => ?_
  obtain ⟨p, hp, hw'⟩ := h
  have hx : w.executing (.executeProposal n) = some p.action := by simp [World.executing, hp]
  exact World.Installs.regulated hx hw'

end

/-- Every committed call regulates the permits, or leaves them. -/
theorem regulated_exec (call : Call) : wp call.exec env w fun _ w' => Regulated w call w'.permits := by
  cases call with
  | initializeContract => exact permits_initializeContract.mono fun _ _ h => .installed (.inl ⟨_, rfl⟩) h
  | acceptAdminTransfer => exact permits_acceptAdminTransfer.mono fun _ _ h => .installed (.inr (.inl rfl)) h
  | addCompany => exact permits_addPartyRole.mono fun _ _ h => .given rfl rfl h
  | addCarrier => exact permits_addPartyRole.mono fun _ _ h => .given rfl rfl h
  | addGuardian => exact permits_addStaffRole.mono fun _ _ h => .given rfl rfl h
  | addOperator => exact permits_addStaffRole.mono fun _ _ h => .given rfl rfl h
  | removeGuardian => exact permits_revokeRole.mono fun _ _ h => .managed rfl (h ▸ w.permits.within_revoke)
  | removeOperator => exact permits_revokeRole.mono fun _ _ h => .managed rfl (h ▸ w.permits.within_revoke)
  | revokeRole => exact permits_revokeRole.mono fun _ _ h => .managed rfl (h ▸ w.permits.within_revoke)
  | suspendRole => exact permits_suspendRole.mono fun _ _ h => .managed rfl h
  | reactivateRole => exact permits_reactivateRole.mono fun _ _ h => .managed rfl h
  | suspendCarrier => exact permits_suspendCarrier.mono fun _ _ h => .managed rfl h
  | reactivateCarrier => exact permits_reactivateCarrier.mono fun _ _ h => .managed rfl h
  | suspendCompany => exact permits_suspendCompany.mono fun _ _ h => .managed rfl h
  | reactivateCompany => exact permits_reactivateCompany.mono fun _ _ h => .managed rfl h
  | addCarrierToWhitelist => exact permits_addCarrierToWhitelist.mono fun _ _ h => .listed (.inl rfl) h
  | removeCarrierFromWhitelist =>
    exact permits_removeCarrierFromWhitelist.mono fun _ _ h => .listed (.inr rfl) h
  | approveAction => exact regulated_approveAction
  | executeProposal => exact regulated_executeProposal
  | _ =>
    unfold Call.exec
    exact Preserves.wp World.permits fun _ w' h => .kept h

/-! ### The rules and who changes them -/

variable {c c' : Chain H} {l : Label} {ls : List Label} {t : Address} {r : Role}

/-- An address that is entitled signed the call, alone. -/
def SignedWith (trace : List Effect) (P : Address → Prop) : Prop := ∃ a, P a ∧ SignedBy trace a

/-- The address comes into the admin's office: it sets the contract up, it was nominated and
accepts, or the council votes for it. -/
inductive TakesOffice (env : Env) (w : World H) (call : Call) (trace : List Effect) (t : Address) : Prop
  | setUp {token : Address} : call = .initializeContract t token → w.ledger.admin = none →
      TakesOffice env w call trace t
  | accepted : call = .acceptAdminTransfer t → w.governance.proposedAdmin = some t → SignedBy trace t →
      TakesOffice env w call trace t
  | elected : w.Passes env call trace (.transferAdmin t) → TakesOffice env w call trace t

/-- The trace is not looked at. -/
theorem TakesOffice.of_fresh (h : TakesOffice env w.fresh call trace t) : TakesOffice env w call trace t := by
  cases h with
  | setUp hcall hn => exact .setUp hcall hn
  | accepted hcall hp hsig => exact .accepted hcall hp hsig
  | elected hp => exact .elected hp

/-- What is known of a committed call: who signed it, and what was passed. -/
structure Signed (env : Env) (w : World H) (call : Call) (trace : List Effect) : Prop where
  caller : ∀ a, call.caller? = some a → SignedBy trace a
  passed : ∀ action, w.executing call = some action → w.Passes env call trace action
  empowers : w.Empowers call

theorem Reachable.signed (hc : Reachable c) (hx : (call.exec : Contract H Unit) env c.world.fresh = .ok () w') :
    Signed env c.world.fresh call w'.trace := by
  have hfiled : c.world.fresh.offices.Filed := hc.filed
  have hcaller : ∀ a, call.caller? = some a → SignedBy w'.trace a :=
    fun a ha => (signs_exec ha).signersOf_eq hx
  have hmotion : Motion env c.world.fresh.offices call w'.trace w'.offices :=
    motion_exec hfiled rfl () w' hx
  exact ⟨hcaller, fun action ha => World.passes_of_executing hmotion ha hcaller, empowers_exec call () w' hx⟩

namespace Signed

variable (g : Signed env w call trace)

include g

/-- Whoever manages was a manager. -/
theorem byManager (hm : call.manages = true) : SignedWith trace w.Manager := by
  have he := g.empowers
  have hcaller := g.caller
  cases call with
  | addCompany a => exact ⟨a, he, hcaller a rfl⟩
  | addCarrier a => exact ⟨a, he, hcaller a rfl⟩
  | addGuardian a => exact ⟨a, .inl he, hcaller a rfl⟩
  | addOperator a => exact ⟨a, .inl he, hcaller a rfl⟩
  | removeGuardian a => exact ⟨a, .inl he, hcaller a rfl⟩
  | removeOperator a => exact ⟨a, .inl he, hcaller a rfl⟩
  | revokeRole a => exact ⟨a, .inl he, hcaller a rfl⟩
  | suspendRole a => exact ⟨a, .inl he, hcaller a rfl⟩
  | reactivateRole a => exact ⟨a, .inl he, hcaller a rfl⟩
  | suspendCarrier a => exact ⟨a, he, hcaller a rfl⟩
  | reactivateCarrier a => exact ⟨a, he, hcaller a rfl⟩
  | suspendCompany a => exact ⟨a, he, hcaller a rfl⟩
  | reactivateCompany a => exact ⟨a, he, hcaller a rfl⟩
  | _ => cases hm

theorem takesOffice (hi : w.Installs call t) : TakesOffice env w call trace t := by
  rcases hi with ⟨token, rfl⟩ | rfl | hx
  · exact .setUp rfl g.empowers
  · exact .accepted rfl g.empowers (g.caller t rfl)
  · exact .elected (g.passed _ hx)

/-- Whoever sets anything but the pause is the admin. -/
theorem byAdmin (hs : call.sets = true) (hinit : w.ledger.admin ≠ none)
    (hp : ∀ a, call ≠ .pause a ∧ call ≠ .unpause a) : w.ByAdmin trace := by
  have he := g.empowers
  have hcaller := g.caller
  cases call with
  | initializeContract => exact absurd he hinit
  | setCreationQuota a => exact ⟨a, he, hcaller a rfl⟩
  | updateConfig a => exact ⟨a, he, hcaller a rfl⟩
  | setPlatformFee a => exact ⟨a, he, hcaller a rfl⟩
  | setCircuitBreakerConfig a => exact ⟨a, he, hcaller a rfl⟩
  | pause a => exact absurd rfl (hp a).1
  | unpause a => exact absurd rfl (hp a).2
  | _ => cases hs

/-- Guardians and operators are appointed by the admin. -/
theorem staffed (hg : call.gives? = some (t, r)) (hr : r = .guardian ∨ r = .operator) : w.ByAdmin trace := by
  have he := g.empowers
  have hcaller := g.caller
  cases call with
  | addGuardian a => exact ⟨a, he, hcaller a rfl⟩
  | addOperator a => exact ⟨a, he, hcaller a rfl⟩
  | addCompany =>
    cases hg
    rcases hr with hr | hr <;> cases hr
  | addCarrier =>
    cases hg
    rcases hr with hr | hr <;> cases hr
  | _ => cases hg

end Signed

/-- The settings with the pause set. -/
def Settings.withPaused (x : Settings) (b : Bool) : Settings := { x with isPaused := b }

theorem settings_pause : wp (pause a) env w fun _ w' => w'.settings = w.settings.withPaused true := by
  unfold pause
  simp only [wp_bind, wp_modifyGovernance, wp_log, wp_timestamp]
  refine wp_requireInitialized fun _ => wp_requireAuth fun _ => ?_
  exact wp_guard fun _ => rfl

theorem settings_unpause : wp (unpause a) env w fun _ w' => w'.settings = w.settings.withPaused false := by
  unfold unpause
  simp only [wp_bind, wp_modifyGovernance, wp_log, wp_timestamp]
  refine wp_requireInitialized fun _ => wp_requireAuth fun _ => ?_
  exact wp_guard fun _ => rfl

/-- A change of the settings is the admin's, or a pause set by an arbiter. -/
theorem Signed.settings (g : Signed env w call trace) (hx : call.exec env w = .ok () w')
    (hinit : w.ledger.admin ≠ none) : w'.settings = w.settings ∨ w.ByAdmin trace ∨
      SignedWith trace w.Arbiter ∧ ∃ b, w'.settings = w.settings.withPaused b := by
  by_cases hs : call.sets = true
  · right
    by_cases hp : ∀ a, call ≠ .pause a ∧ call ≠ .unpause a
    · exact .inl (g.byAdmin hs hinit hp)
    · right
      have he := g.empowers
      have hcaller := g.caller
      cases call with
      | pause a => exact ⟨⟨a, he, hcaller a rfl⟩, true, settings_pause () w' hx⟩
      | unpause a => exact ⟨⟨a, he, hcaller a rfl⟩, false, settings_unpause () w' hx⟩
      | _ => exact absurd (fun _ => ⟨Call.noConfusion, Call.noConfusion⟩) hp
  · exact .inl (settings_exec (Bool.eq_false_of_not_eq_true hs) () w' hx)

/-- A change of the permits is a manager's, a company's on its own whitelist, or that a new
admin becomes a company. -/
theorem Signed.permits (g : Signed env w call trace) (hreg : Regulated w call w'.permits) :
    w'.permits = w.permits ∨ SignedWith trace w.Manager ∨
      (∃ a b x, SignedBy trace a ∧ w.permits.Passes a .company ∧ w'.permits = w.permits.list a b x) ∨
      ∃ b, TakesOffice env w call trace b ∧ w'.permits = w.permits.give b .company := by
  cases hreg with
  | kept h => exact .inl h
  | given hm => exact .inr (.inl (g.byManager hm))
  | managed hm => exact .inr (.inl (g.byManager hm))
  | @listed a b x hcall h =>
    have hsig : SignedBy trace a := by
      rcases hcall with rfl | rfl <;> exact g.caller a rfl
    have hpass : w.permits.Passes a .company := by
      rcases hcall with rfl | rfl <;> exact g.empowers
    exact .inr (.inr (.inl ⟨a, b, x, hsig, hpass, h⟩))
  | installed hi h => exact .inr (.inr (.inr ⟨_, g.takesOffice hi, h⟩))

/-- The council is constituted by one call. -/
theorem Motion.constituted_of_ne {o o' : Offices} (hm : Motion env o call trace o')
    (hne : ¬(o'.members = o.members ∧ o'.threshold = o.threshold)) :
    ∃ a xs n, call = .initMultisig a xs n := by
  cases hm with
  | constituted => exact ⟨_, _, _, rfl⟩
  | _ => exact absurd ⟨rfl, rfl⟩ hne

/-- In every reachable state of a contract that is set up, a call that changes the settings
was signed by the admin, or it set the pause and was signed by the admin or a guardian; one
that changes the permits was signed by the admin or an operator, or by a company for its
own whitelist, or brought its new admin the role of a company; and one that changes the
members of the council or the approvals it needs was signed by the admin. -/
theorem rules_guarded (hc : Reachable c) (hinit : c.world.ledger.admin ≠ none)
    (hstep : Step c (.committed call env trace) c') :
    (c'.world.settings = c.world.settings ∨ c.world.ByAdmin trace ∨
      SignedWith trace c.world.Arbiter ∧ ∃ b, c'.world.settings = c.world.settings.withPaused b) ∧
    (c'.world.permits = c.world.permits ∨ SignedWith trace c.world.Manager ∨
      (∃ a b x, SignedBy trace a ∧ c.world.permits.Passes a .company ∧
        c'.world.permits = c.world.permits.list a b x) ∨
      ∃ b, TakesOffice env c.world call trace b ∧ c'.world.permits = c.world.permits.give b .company) ∧
    (c'.world.offices.members = c.world.offices.members ∧
      c'.world.offices.threshold = c.world.offices.threshold ∨ c.world.ByAdmin trace) := by
  cases hstep with
  | @committed _ _ w' _ hx =>
    have g : Signed env c.world.fresh call w'.trace := hc.signed hx
    have hset := g.settings hx hinit
    refine ⟨hset, ?_, ?_⟩
    · rcases g.permits (regulated_exec call () w' hx) with h | h | h | ⟨b, hb, h⟩
      · exact .inl h
      · exact .inr (.inl h)
      · exact .inr (.inr (.inl h))
      · exact .inr (.inr (.inr ⟨b, hb.of_fresh, h⟩))
    · have hfiled : c.world.fresh.offices.Filed := hc.filed
      have hm : Motion env c.world.fresh.offices call w'.trace w'.offices := motion_exec hfiled rfl () w' hx
      by_cases hsame : w'.offices.members = c.world.offices.members ∧
          w'.offices.threshold = c.world.offices.threshold
      · exact .inl hsame
      · obtain ⟨a, xs, n, rfl⟩ := hm.constituted_of_ne hsame
        have ha : c.world.ledger.admin = some a := wp_byAdminAnyTime (w := c.world.fresh) id () w' hx
        exact .inr ⟨a, ha, g.caller a rfl⟩

/-- An operator suspends a carrier. -/
theorem rules_guarded_operator : ∃ (c c' : Chain Deployment.host) (call : Call) (env : Env)
    (trace : List Effect), Reachable c ∧ c.world.ledger.admin ≠ none ∧
      Step c (.committed call env trace) c' ∧ c'.world.permits ≠ c.world.permits ∧
      SignedBy trace Deployment.treasury ∧
      (c'.world.settings = c.world.settings ∨ c.world.ByAdmin trace ∨
        SignedWith trace c.world.Arbiter ∧ ∃ b, c'.world.settings = c.world.settings.withPaused b) ∧
      (c'.world.permits = c.world.permits ∨ SignedWith trace c.world.Manager ∨
        (∃ a b x, SignedBy trace a ∧ c.world.permits.Passes a .company ∧
          c'.world.permits = c.world.permits.list a b x) ∨
        ∃ b, TakesOffice env c.world call trace b ∧
          c'.world.permits = c.world.permits.give b .company) ∧
      (c'.world.offices.members = c.world.offices.members ∧
        c'.world.offices.threshold = c.world.offices.threshold ∨ c.world.ByAdmin trace) := by
  obtain ⟨ls, c, trace, c', hr, hstep, hadm, hbefore, hafter, hsig⟩ := exists_commit Deployment.chain
    (Deployment.opening ++
      [Deployment.signed Deployment.admin 5 (.addOperator Deployment.admin Deployment.treasury)])
    (.suspendCarrier Deployment.treasury Deployment.carrier)
    ⟨6, 6, fun a => a = Deployment.treasury, fun _ => true⟩
    (fun r trace c' => r.2.world.ledger.admin ≠ none ∧
      r.2.world.permits.carrierSuspended Deployment.carrier = false ∧
      c'.world.permits.carrierSuspended Deployment.carrier = true ∧
      signersOf trace = [Deployment.treasury]) (by decide +kernel)
  have hc : Reachable c := ⟨_, ls, Deployment.deployed, hr⟩
  have hne : c'.world.permits ≠ c.world.permits := by
    intro heq
    rw [heq, hbefore] at hafter
    cases hafter
  exact ⟨c, c', _, _, trace, hc, hadm, hstep, hne, hsig, rules_guarded hc hadm hstep⟩

/-- A call by which an address comes by a role: an appointment by somebody entitled to make
it, or the way into the admin's office. -/
inductive Grants (env : Env) (w : World H) (call : Call) (trace : List Effect) (t : Address) : Role → Prop
  | party {r : Role} : call.gives? = some (t, r) → SignedWith trace w.Manager →
      r = .company ∨ r = .carrier → Grants env w call trace t r
  | staff {r : Role} : call.gives? = some (t, r) → w.ByAdmin trace →
      r = .guardian ∨ r = .operator → Grants env w call trace t r
  | office : TakesOffice env w call trace t → Grants env w call trace t .company

theorem Call.role_of_gives {call : Call} (h : call.gives? = some (t, r)) :
    (r = .company ∨ r = .carrier) ∨ r = .guardian ∨ r = .operator := by
  cases call with
  | addCompany => cases h; exact .inl (.inl rfl)
  | addCarrier => cases h; exact .inl (.inr rfl)
  | addGuardian => cases h; exact .inr (.inl rfl)
  | addOperator => cases h; exact .inr (.inr rfl)
  | _ => cases h

/-- Who is given a role is given it alone. -/
theorem Permits.eq_of_give {p : Permits} {x : Address} {y : Role} (hno : p.userRole t r = false)
    (hyes : (p.give x y).userRole t r = true) : t = x ∧ r = y := by
  have hupd : update₂ p.userRole x y true t r = true := hyes
  unfold update₂ at hupd
  by_cases hx : t = x
  · by_cases hy : r = y
    · exact ⟨hx, hy⟩
    · rw [hx, Function.update_self, Function.update_of_ne hy, ← hx, hno] at hupd
      cases hupd
  · rw [Function.update_of_ne hx, hno] at hupd
    cases hupd

/-- A role that is new was granted in the call. -/
theorem Step.grants (hc : Reachable c) (hstep : Step c l c') (hno : c.world.hasRole t r = false)
    (hyes : c'.world.hasRole t r = true) :
    ∃ call env trace, l = .committed call env trace ∧ Grants env c.world call trace t r := by
  cases hstep with
  | @committed call env w' _ hx =>
    have g : Signed env c.world.fresh call w'.trace := hc.signed hx
    refine ⟨call, env, w'.trace, rfl, ?_⟩
    have hno : c.world.fresh.permits.userRole t r = false := hno
    have hyes : w'.permits.userRole t r = true := hyes
    cases regulated_exec call () w' hx with
    | kept h =>
      rw [h, hno] at hyes
      cases hyes
    | @given x y hm hg h =>
      rw [h] at hyes
      obtain ⟨rfl, rfl⟩ := Permits.eq_of_give hno hyes
      rcases Call.role_of_gives hg with hr | hr
      · exact .party hg (g.byManager hm) hr
      · exact .staff hg (g.staffed hg hr) hr
    | managed hm h =>
      rw [h t r hyes] at hno
      cases hno
    | listed _ h =>
      rw [h] at hyes
      have hyes : c.world.fresh.permits.userRole t r = true := hyes
      rw [hno] at hyes
      cases hyes
    | @installed x hi h =>
      rw [h] at hyes
      obtain ⟨rfl, rfl⟩ := Permits.eq_of_give hno hyes
      exact .office (g.takesOffice hi).of_fresh
  | reverted =>
    rw [hno] at hyes
    cases hyes
  | outside =>
    have hyes : c.world.hasRole t r = true := hyes
    rw [hno] at hyes
    cases hyes

/-- In every run from a reachable state, whoever holds a role at the end and did not at the
start was granted it on the way: a party by the admin or an operator, a guardian or an
operator by the admin, and a company also on its way into the admin's office. -/
theorem role_granted (hc : Reachable c) (hr : Run Step c ls c') (hno : c.world.hasRole t r = false)
    (hyes : c'.world.hasRole t r = true) : Past Step (fun a l _ => ∃ call env trace,
      l = .committed call env trace ∧ Grants env a.world call trace t r) c ls c' := by
  have hno' : ¬c.world.hasRole t r = true := by
    rw [hno]
    exact Bool.false_ne_true
  obtain ⟨ks, l, ks', a, b, hls, hra, hl, hrb, hna, hb⟩ :=
    hr.exists_step (P := fun x => x.world.hasRole t r = true) hno' hyes
  have ha : Reachable a := by
    obtain ⟨c₀, ls₀, hd, hr₀⟩ := hc
    exact ⟨c₀, ls₀ ++ ks, hd, hr₀.append hra⟩
  exact ⟨ks, l, ks', a, b, hls, hra, hl, hrb, Step.grants ha hl (Bool.eq_false_of_not_eq_true hna) hb⟩

/-- The operator is appointed by the admin, and the company by the operator. -/
theorem role_granted_by_operator : ∃ (c c' : Chain Deployment.host) (ls : List Label),
    Reachable c ∧ Run Step c ls c' ∧ c.world.hasRole Deployment.receiver .company = false ∧
      c'.world.hasRole Deployment.receiver .company = true ∧
      Past Step (fun a l _ => ∃ call env trace, l = .committed call env trace ∧
        Grants env a.world call trace Deployment.receiver .company) c ls c' := by
  obtain ⟨ks, c, ls, c', hr, hr', -, hno, hyes⟩ := exists_play₂ Deployment.chain Deployment.opening
    [Deployment.signed Deployment.admin 5 (.addOperator Deployment.admin Deployment.treasury),
      Deployment.signed Deployment.treasury 6 (.addCompany Deployment.treasury Deployment.receiver)]
    (fun c r => c.world.hasRole Deployment.receiver .company = false ∧
      r.2.world.hasRole Deployment.receiver .company = true) (by decide +kernel)
  have hc : Reachable c := ⟨_, ks, Deployment.deployed, hr⟩
  exact ⟨c, c', ls, hc, hr', hno, hyes, role_granted hc hr' hno hyes⟩

end Navin
