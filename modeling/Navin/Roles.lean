/-
# Roles and their removal

An address may hold several roles, each under a key of its own; beside them is one
slot with the role given last. Checks read the keys, a revocation reads the slot: it
removes the role it finds there and leaves the slot empty, so that the other roles of
the address are out of reach until a role is given again.

Key definitions:
- `Permits.revoke`: what one revocation does;
- `Permits.Passes`: the check of a role;
- `World.heldRoles`: the roles of an address.

Key theorems:
- `permits_revokeRole`: a revocation in the code is a revocation of the permits;
- `role_removal_iff`.
-/
import Navin.Calls
import Navin.Guards
import Navin.Lib.Returns
import Navin.Token

namespace Navin

open Tx

variable {H : Host}

/-! ### Permits -/

namespace Permits

variable (p : Permits)

/-- The role in the slot. -/
def current (a : Address) : Role := (p.role a).getD .unassigned

/-- The role in the slot is removed, if there is one. -/
def revoke (a : Address) : Permits :=
  if p.current a = .unassigned then p
  else { p with
    userRole := update₂ p.userRole a (p.current a) false
    role := Function.update p.role a (some .unassigned) }

/-- The check of `require_role`. -/
def Passes (a : Address) (r : Role) : Prop :=
  r ≠ .unassigned ∧ p.userRole a r = true ∧ p.roleSuspended a r = false ∧
    (r = .company → p.companySuspended a = false) ∧ (r = .carrier → p.carrierSuspended a = false)

/-- The roles an address holds. -/
def held (a : Address) : List Role :=
  [.company, .carrier, .guardian, .operator].filter fun r => p.userRole a r

variable {p} {a : Address} {r : Role}

/-- A second revocation finds the slot empty. -/
theorem revoke_revoke : (p.revoke a).revoke a = p.revoke a := by
  unfold revoke
  by_cases hc : p.current a = .unassigned
  · simp [hc]
  · have : current { p with
        userRole := update₂ p.userRole a (p.current a) false
        role := Function.update p.role a (some .unassigned) } a = .unassigned := by
      simp [current]
    rw [if_neg hc, if_pos this]

/-- A role is left by a revocation unless it is the one in the slot. -/
theorem userRole_revoke (hr : r ≠ .unassigned) :
    (p.revoke a).userRole a r = (p.userRole a r && decide (p.role a ≠ some r)) := by
  unfold revoke
  by_cases hc : p.current a = .unassigned
  · have hne : p.role a ≠ some r := by
      intro h
      rw [current, h] at hc
      exact hr hc
    simp [hc, hne]
  · have hcur : p.role a = some (p.current a) := by
      unfold current at hc ⊢
      cases hs : p.role a with
      | none => simp [hs] at hc
      | some q => rfl
    rw [if_neg hc, hcur]
    by_cases he : r = p.current a
    · simp [update₂, he]
    · simp [update₂, he, Ne.symm he]

/-- What passes the check after a revocation passed it before, from a key that is not
the one in the slot. -/
theorem passes_revoke : (p.revoke a).Passes a r ↔ p.Passes a r ∧ p.role a ≠ some r := by
  have hsus : (p.revoke a).roleSuspended = p.roleSuspended ∧
      (p.revoke a).companySuspended = p.companySuspended ∧
      (p.revoke a).carrierSuspended = p.carrierSuspended := by
    unfold revoke
    split <;> exact ⟨rfl, rfl, rfl⟩
  obtain ⟨h₁, h₂, h₃⟩ := hsus
  unfold Passes
  rw [h₁, h₂, h₃]
  by_cases hr : r = .unassigned
  · simp [hr]
  · rw [userRole_revoke hr]
    simp only [Bool.and_eq_true, decide_eq_true_eq]
    tauto

theorem Passes.mem_held (h : p.Passes a r) : r ∈ p.held a := by
  obtain ⟨hr, hu, -⟩ := h
  unfold held
  rw [List.mem_filter]
  refine ⟨?_, hu⟩
  cases r <;> simp at hr ⊢

end Permits

/-! ### The code of a revocation -/

/-- Who is allowed what. -/
def World.permits (w : World H) : Permits := w.registry.permits

section

instance : LedgerFree (World.permits (H := H)) := ⟨fun _ _ => rfl⟩

instance : CountsFree (World.permits (H := H)) := ⟨fun _ _ h _ => h⟩

instance : QuotasFree (World.permits (H := H)) := ⟨fun _ _ h _ => h⟩

instance : DossierFree (World.permits (H := H)) := ⟨fun _ _ => rfl⟩

instance : GovernanceFree (World.permits (H := H)) := ⟨fun _ _ => rfl⟩

instance : AuthFree (World.permits (H := H)) := ⟨fun _ _ => rfl⟩

instance : PlainFree (World.permits (H := H)) := ⟨fun _ _ _ => rfl⟩

instance : PaymentFree (World.permits (H := H)) := ⟨fun _ _ _ => rfl⟩

end

variable {env : Env} {w : World H} {a t : Address} {r : Role}

theorem wp_modifyRegistry {g : Registry → Registry} {Q : Unit → World H → Prop} :
    wp (modifyRegistry g : Contract H Unit) env w Q ↔ Q () { w with registry := g w.registry } := by
  unfold modifyRegistry
  rw [wp_modify]

/-- A revocation removes the role in the slot. -/
theorem permits_revokeRole : wp (revokeRole a t) env w fun _ w' =>
    w'.permits = w.permits.revoke t := by
  unfold revokeRole
  simp only [wp_bind, wp_gets, wp_rejectIf, wp_when, wp_modifyRegistry]
  refine wp_openCall fun _ _ => ?_
  refine wp_guard fun _ _ => ?_
  constructor
  · intro hc
    refine Preserves.wp World.permits fun _ w₁ h₁ => ?_
    refine Preserves.wp World.permits fun _ w₂ h₂ => ?_
    refine Preserves.wp World.permits fun _ w₃ h₃ => ?_
    rw [h₃, h₂, h₁]
    exact (if_neg hc).symm
  · intro hc
    refine Preserves.wp World.permits fun _ w₁ h₁ => ?_
    refine Preserves.wp World.permits fun _ w₂ h₂ => ?_
    refine Preserves.wp World.permits fun _ w₃ h₃ => ?_
    rw [h₃, h₂, h₁]
    exact (if_pos (not_not.mp hc)).symm

/-- Only a contract that is set up revokes. -/
theorem initialized_revokeRole : wp (revokeRole a t) env w fun _ w' => w'.isInitialized = true := by
  unfold revokeRole
  rw [wp_bind]
  refine wp_openCall fun hadm _ => ?_
  refine Preserves.wp World.book fun _ w' h => ?_
  have hl : w'.ledger = w.ledger := congrArg Book.ledger h
  unfold World.isInitialized
  rw [hl]
  exact Option.isSome_iff_ne_none.mpr hadm

/-- When the check of a role is passed. -/
theorem returns_requireRole {u : Unit} {w' : World H} : (requireRole a r).Returns env w u w' ↔
    (w.isInitialized = true ∧ w.permits.Passes a r) ∧ w' = w := by
  unfold requireRole requireInitialized Permits.Passes
  simp only [bind_assoc, returns_gets_bind, returns_rejectIf_bind, returns_rejectIf,
    Bool.not_eq_false, Bool.not_eq_true, not_and, and_assoc]
  rfl

/-! ### Runs of revocations -/

/-- The step is a revocation from this address that goes through. -/
def Label.revokes (t : Address) : Label → Bool
  | .committed (.revokeRole _ b) _ _ => b = t
  | _ => false

variable {c c' : Chain H} {ls : List Label}

theorem Step.permits_revoke {l : Label} (hstep : Step c l c') (hl : l.revokes t = true) :
    c'.world.permits = c.world.permits.revoke t ∧ c'.world.isInitialized = true := by
  cases hstep with
  | @committed call env w' _ hx =>
    cases call with
    | revokeRole b t' =>
      obtain rfl : t' = t := of_decide_eq_true hl
      exact ⟨permits_revokeRole (w := c.world.fresh) () w' hx, initialized_revokeRole () w' hx⟩
    | _ => cases hl
  | reverted => cases hl
  | outside => cases hl

/-- However many revocations there are, only the first one takes something. -/
theorem Run.permits_revoke (hr : Run Step c ls c') (hls : ∀ l ∈ ls, l.revokes t = true) :
    ls = [] ∧ c' = c ∨ c'.world.permits = c.world.permits.revoke t ∧ c'.world.isInitialized = true := by
  induction hr with
  | nil => exact .inl ⟨rfl, rfl⟩
  | @snoc ls l c₁ c₂ hr hl ih =>
    obtain ⟨hp, hi⟩ := hl.permits_revoke (hls l (by simp))
    refine .inr ⟨?_, hi⟩
    rcases ih fun k hk => hls k (by simp [hk]) with ⟨-, rfl⟩ | ⟨hp₁, -⟩
    · exact hp
    · rw [hp, hp₁, Permits.revoke_revoke]

/-- The roles an address holds. -/
def World.heldRoles (w : World H) (a : Address) : List Role := w.permits.held a

/-- If the address holds the role, it is the one in its slot. -/
def World.InSlot (w : World H) (a : Address) (r : Role) : Prop :=
  w.hasRole a r = true → w.registry.role a = some r

theorem hasRole_revoke (hr : r ≠ .unassigned) {w' : World H} (hp : w'.permits = w.permits.revoke t) :
    w'.hasRole t r = false ↔ w.InSlot t r := by
  have hu : w'.hasRole t r = (w.permits.revoke t).userRole t r := by
    rw [← hp]
    rfl
  rw [hu, Permits.userRole_revoke hr]
  change (w.hasRole t r && decide (w.registry.role t ≠ some r)) = false ↔ _
  unfold World.InSlot
  cases w.hasRole t r <;> simp

/-- Removing a guardian or an operator leaves the address without the role exactly if
the role was in its slot, or not held at all; as many revocations as the address has
roles leave it without any exactly if its only role that passes the check was in the
slot. -/
theorem role_removal_iff (c : Chain H) :
    (∀ (admin g : Address) (env : Env) (trace : List Effect) (c' : Chain H),
      Step c (.committed (.removeGuardian admin g) env trace) c' →
      (c'.world.hasRole g .guardian = false ↔ c.world.InSlot g .guardian)) ∧
    (∀ (admin o : Address) (env : Env) (trace : List Effect) (c' : Chain H),
      Step c (.committed (.removeOperator admin o) env trace) c' →
      (c'.world.hasRole o .operator = false ↔ c.world.InSlot o .operator)) ∧
    (∀ (t : Address) (ls : List Label) (c' : Chain H), Run Step c ls c' →
      (∀ l ∈ ls, l.revokes t = true) → ls.length = (c.world.heldRoles t).length →
      ((∀ r env, ¬∃ w', (requireRole t r).Returns env c'.world () w') ↔
        ∀ r, c.world.permits.Passes t r → c.world.registry.role t = some r)) := by
  refine ⟨?_, ?_, ?_⟩
  · intro admin g env trace c' hstep
    cases hstep with
    | @committed _ _ w' _ hx =>
      have hp : w'.permits = c.world.permits.revoke g :=
        permits_revokeRole (w := c.world.fresh) () w' hx
      have hp : w'.fresh.permits = c.world.permits.revoke _ := hp
      exact hasRole_revoke (fun h => by cases h) hp
  · intro admin o env trace c' hstep
    cases hstep with
    | @committed _ _ w' _ hx =>
      have hp : w'.permits = c.world.permits.revoke o :=
        permits_revokeRole (w := c.world.fresh) () w' hx
      have hp : w'.fresh.permits = c.world.permits.revoke _ := hp
      exact hasRole_revoke (fun h => by cases h) hp
  · intro t ls c' hr hls hlen
    -- without any role there are no revocations, and nothing passes the check
    have hsome : ∀ r, c.world.permits.Passes t r → ls ≠ [] := by
      rintro r hp rfl
      have hmem : r ∈ c.world.heldRoles t := hp.mem_held
      rw [List.eq_nil_of_length_eq_zero hlen.symm] at hmem
      cases hmem
    simp only [returns_requireRole]
    rcases hr.permits_revoke hls with ⟨rfl, rfl⟩ | ⟨hperm, hinit⟩
    · constructor
      · exact fun _ r hp => absurd rfl (hsome r hp)
      · rintro - r env ⟨w', ⟨-, hp⟩, -⟩
        exact hsome r hp rfl
    · rw [hperm]
      constructor
      · intro hno r hp
        by_contra hne
        exact hno r ⟨0, 0, fun _ => false, fun _ => false⟩
          ⟨_, ⟨hinit, Permits.passes_revoke.mpr ⟨hp, hne⟩⟩, rfl⟩
      · rintro hslot r env ⟨w', ⟨-, hp⟩, -⟩
        obtain ⟨hp, hne⟩ := Permits.passes_revoke.mp hp
        exact hne (hslot r hp)

/-- A guardian without other roles is removed. -/
theorem role_removal_of_guardian : ∃ (c c' : Chain Deployment.host) (env : Env) (trace : List Effect),
    Reachable c ∧ c.world.hasRole Deployment.treasury .guardian = true ∧
      Step c (.committed (.removeGuardian Deployment.admin Deployment.treasury) env trace) c' ∧
      c'.world.hasRole Deployment.treasury .guardian = false := by
  obtain ⟨ls, c, trace, c', hr, hstep, hrole, hslot⟩ := exists_commit Deployment.chain
    (Deployment.opening ++ [
      Deployment.signed Deployment.admin 5 (.addGuardian Deployment.admin Deployment.treasury)])
    (.removeGuardian Deployment.admin Deployment.treasury)
    ⟨6, 6, fun a => a = Deployment.admin, fun _ => true⟩
    (fun r _ _ => r.2.world.hasRole Deployment.treasury .guardian = true ∧
      r.2.world.registry.role Deployment.treasury = some .guardian)
    (by decide +kernel)
  have hno := ((role_removal_iff c).1 _ _ _ _ _ hstep).mpr fun _ => hslot
  exact ⟨c, c', _, trace, ⟨_, ls, Deployment.deployed, hr⟩, hrole, hstep, hno⟩

/-- A guardian who became a company afterwards: the removal takes the role of the
company and leaves the guardian. -/
theorem removeGuardian_takes_company :
    ¬∀ c : Chain Deployment.host, Reachable c →
      (∀ (admin g : Address) (env : Env) (trace : List Effect) (c' : Chain Deployment.host),
        Step c (.committed (.removeGuardian admin g) env trace) c' →
        c'.world.hasRole g .guardian = false) ∧
      (∀ (admin o : Address) (env : Env) (trace : List Effect) (c' : Chain Deployment.host),
        Step c (.committed (.removeOperator admin o) env trace) c' →
        c'.world.hasRole o .operator = false) ∧
      (∀ (t : Address) (ls : List Label) (c' : Chain Deployment.host), Run Step c ls c' →
        (∀ l ∈ ls, l.revokes t = true) → ls.length = (c.world.heldRoles t).length →
        ∀ r env, ¬∃ w', (requireRole t r).Returns env c'.world () w') := by
  intro hall
  obtain ⟨ls, c, trace, c', hr, hstep, hrole⟩ := exists_commit Deployment.chain
    (Deployment.opening ++ [
      Deployment.signed Deployment.admin 5 (.addGuardian Deployment.admin Deployment.treasury),
      Deployment.signed Deployment.admin 6 (.addCompany Deployment.admin Deployment.treasury)])
    (.removeGuardian Deployment.admin Deployment.treasury)
    ⟨7, 7, fun a => a = Deployment.admin, fun _ => true⟩
    (fun _ _ c' => c'.world.hasRole Deployment.treasury .guardian = true)
    (by decide +kernel)
  have hno := (hall c ⟨_, ls, Deployment.deployed, hr⟩).1 _ _ _ _ _ hstep
  exact Bool.false_ne_true (hno.symm.trans hrole)

end Navin
