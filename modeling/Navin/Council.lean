/-
# The council

Who may act: the admin and a pending hand-over of that office, the list of the
multi-signature admins, its threshold and its proposals. Few calls write any of
it, and what each of them does is listed here with what it has checked.

Key definitions:
- `Offices`, `World.offices`;
- `Label.tables`, `Label.enacts`: the steps by which a proposal comes about and
  takes effect;
- `Motion`: what a call does to the offices.

Key theorems:
- `motion_exec`, `Step.motion`: every committed call is a motion.
-/
import Navin.Disputes

namespace Navin

open Tx

set_option synthInstance.maxSize 4000

variable {H : Host}

/-! ### The offices -/

structure Offices where
  admin : Option Address
  council : Council

def World.offices (w : World H) : Offices := ⟨w.ledger.admin, w.governance.council⟩

section

instance : RecordsFree (World.offices (H := H)) := ⟨fun w l h => by
  unfold World.offices
  rw [h]⟩

instance : AffairsFree (World.offices (H := H)) := ⟨fun w g h => by
  unfold World.offices
  rw [h]⟩

instance : RegistryFree (World.offices (H := H)) := ⟨fun _ _ => rfl⟩

instance : DossierFree (World.offices (H := H)) := ⟨fun _ _ => rfl⟩

instance : AuthFree (World.offices (H := H)) := ⟨fun _ _ => rfl⟩

instance : PlainFree (World.offices (H := H)) := ⟨fun _ _ _ => rfl⟩

instance : PaymentFree (World.offices (H := H)) := ⟨fun _ _ _ => rfl⟩

end

/-- The admin a proposal's action installs. -/
def AdminAction.successor? : AdminAction → Option Address
  | .transferAdmin newAdmin => some newAdmin
  | _ => none

namespace Offices

variable (o : Offices)

/-- The members of the multi-signature list. -/
def members : List Address := o.council.adminList.getD []

/-- The approvals a proposal needs; two when no list was set. -/
def threshold : ℕ := o.council.multisigThreshold.getD 2

/-- The proposal is stored under its own id. -/
def record (p : Proposal) : Offices :=
  { o with council := { o.council with proposal := Function.update o.council.proposal p.id (some p) } }

/-- A new proposal, with its digest; the counter moves to its id. -/
def table (p : Proposal) (d : ProposalActionDigest) : Offices where
  admin := o.admin
  council := { o.council with
    proposal := Function.update o.council.proposal p.id (some p)
    proposalCounter := p.id
    proposalDigest := Function.update o.council.proposalDigest p.id (some d) }

/-- The proposal is executed. -/
def enact (p : Proposal) : Offices :=
  { o.record { p with executed := true } with admin := p.action.successor?.or o.admin }

/-- Every proposal is stored under its own id. -/
def Filed : Prop := ∀ n p, o.council.proposal n = some p → p.id = n

end Offices

/-! ### Proposals in the trace -/

/-- The proposer and the action of a call that proposes one. -/
def Call.proposes? : Call → Option (Address × AdminAction)
  | .proposeAction proposer action | .proposeActionWithSalt proposer action _ => some (proposer, action)
  | _ => none

/-- The event of the digest of a new proposal. -/
def Effect.isDigest (n : ℕ) : Effect → Bool
  | .event (.proposalDigest m _ _) => m = n
  | _ => false

/-- The event that a proposal was executed. -/
def Effect.isExecution (n : ℕ) : Effect → Bool
  | .event (.proposalExecuted m _) => m = n
  | _ => false

/-- The step creates the proposal: a call that proposes announces its digest. -/
def Label.tables (n : ℕ) : Label → Bool
  | .committed call _ trace => call.proposes?.isSome && trace.any (·.isDigest n)
  | _ => false

/-- The action of the proposal takes effect in the step: a call that approves or
executes it announces the execution. -/
def Label.enacts (n : ℕ) : Label → Bool
  | .committed (.approveAction _ i) _ trace | .committed (.executeProposal i) _ trace =>
    decide (i = n) && trace.any (·.isExecution n)
  | _ => false

/-! ### Motions -/

/-- A stored proposal that can still be approved and executed. -/
structure Pending (env : Env) (o : Offices) (n : ℕ) (p : Proposal) : Prop where
  stored : o.council.proposal n = some p
  unexecuted : p.executed = false
  time : env.timestamp ≤ p.expiresAt

/-- The calls that can change the offices. -/
def Call.governs : Call → Bool
  | .initializeContract .. | .transferAdmin .. | .acceptAdminTransfer .. | .initMultisig ..
  | .proposeAction .. | .proposeActionWithSalt .. | .approveAction .. | .executeProposal .. => true
  | _ => false

/-- What a call does to the offices, and what its trace tells of it. -/
inductive Motion (env : Env) (o : Offices) : Call → List Effect → Offices → Prop
  | kept {call : Call} {trace : List Effect} : call.governs = false → Motion env o call trace o
  | initialized {a t : Address} {trace : List Effect} : o.admin = none →
      Motion env o (.initializeContract a t) trace { o with admin := some a }
  | nominated {a b : Address} {trace : List Effect} : o.admin = some a → signersOf trace = [a] →
      Motion env o (.transferAdmin a b) trace
        { o with council := { o.council with proposedAdmin := some b } }
  | succeeded {b : Address} {trace : List Effect} : o.council.proposedAdmin = some b →
      Motion env o (.acceptAdminTransfer b) trace
        ⟨some b, { o.council with proposedAdmin := none }⟩
  | constituted {a : Address} {admins : List Address} {threshold : ℕ} {trace : List Effect} :
      Motion env o (.initMultisig a admins threshold) trace
        { o with council := { o.council with
            adminList := some admins, multisigThreshold := some threshold, proposalCounter := 0 } }
  | tabled {call : Call} {x : Address} {action : AdminAction} {n expiresAt : ℕ} {digest : BytesN32} :
      call.proposes? = some (x, action) → n = o.council.proposalCounter + 1 → x ∈ o.members →
      Motion env o call [.auth x, .event (.proposalDigest n digest env.timestamp)]
        (o.table ⟨n, x, action, [x], env.timestamp, expiresAt, false⟩ ⟨n, digest, env.timestamp⟩)
  | seconded {x : Address} {n : ℕ} {p : Proposal} : Pending env o n p → x ∈ o.members →
      x ∉ p.approvals →
      Motion env o (.approveAction x n)
        [.auth x, .event (.actionApproved n x (p.approvals.length + 1))]
        (o.record { p with approvals := p.approvals ++ [x] })
  | enacted {x : Address} {n : ℕ} {p : Proposal} {trace : List Effect} : Pending env o n p →
      x ∈ o.members → x ∉ p.approvals → o.threshold ≤ p.approvals.length + 1 →
      signersOf trace = [x] → .event (.proposalExecuted n p.action) ∈ trace →
      Motion env o (.approveAction x n) trace (o.enact { p with approvals := p.approvals ++ [x] })
  | executed {n : ℕ} {p : Proposal} {trace : List Effect} : Pending env o n p →
      o.threshold ≤ p.approvals.length → .event (.proposalExecuted n p.action) ∈ trace →
      Motion env o (.executeProposal n) trace (o.enact p)

variable {env : Env} {w : World H}

/-- A step that leaves the offices. -/
theorem wp_aside {α : Type} {m : Contract H α} [Preserves World.offices m]
    {Q : α → World H → Prop} (h : ∀ a w', w'.offices = w.offices → Q a w') : wp m env w Q :=
  Preserves.wp World.offices h

theorem isAdmin_iff {a : Address} : w.isAdmin a = true ↔ a ∈ w.offices.members := by
  unfold World.isAdmin Offices.members World.offices
  exact List.contains_iff_mem

theorem motion_initializeContract {a t : Address} :
    wp (initializeContract a t) env w fun _ w' =>
      Motion env w.offices (.initializeContract a t) w'.trace w'.offices := by
  unfold initializeContract
  simp only [wp_bind, wp_gets, wp_rejectIf]
  intro hi _
  have hnone : w.offices.admin = none := by
    simpa [World.isInitialized, World.offices] using hi
  rw [wp_modifyLedger_iff]
  refine wp_aside fun _ w₂ h₂ => ?_
  refine wp_aside fun _ w₃ h₃ => ?_
  refine wp_aside fun _ w₄ h₄ => ?_
  refine wp_aside fun _ w₅ h₅ => ?_
  refine wp_aside fun _ w₆ h₆ => ?_
  refine wp_aside fun _ w₇ h₇ => ?_
  refine wp_aside fun _ w₈ h₈ => ?_
  rw [h₈, h₇, h₆, h₅, h₄, h₃, h₂]
  exact .initialized hnone

theorem motion_transferAdmin {a b : Address} (ht : w.trace = []) :
    wp (transferAdmin a b) env w fun _ w' =>
      Motion env w.offices (.transferAdmin a b) w'.trace w'.offices := by
  unfold transferAdmin
  simp only [wp_bind]
  refine wp_guard fun _ => ?_
  refine wp_requireAuth fun _ => ?_
  refine wp_requireAdmin fun hadm => ?_
  rw [wp_modifyGovernance, wp_log]
  refine .nominated hadm ?_
  simp [World.signed, ht, signersOf]

theorem motion_acceptAdminTransfer {b : Address} :
    wp (acceptAdminTransfer b) env w fun _ w' =>
      Motion env w.offices (.acceptAdminTransfer b) w'.trace w'.offices := by
  unfold acceptAdminTransfer
  simp only [wp_bind, wp_gets, wp_okOr, wp_rejectIf]
  refine wp_guard fun _ => ?_
  refine wp_requireAuth fun _ x hx hb => ?_
  have hx : w.offices.council.proposedAdmin = some b := by rw [← not_not.mp hb]; exact hx
  refine wp_getAdmin fun old _ => ?_
  rw [wp_modifyLedger_iff, wp_modifyGovernance]
  refine wp_aside fun _ w₁ h₁ => ?_
  refine wp_aside fun _ w₂ h₂ => ?_
  refine wp_aside fun _ w₃ h₃ => ?_
  rw [h₃, h₂, h₁]
  exact .succeeded hx

theorem motion_initMultisig {a : Address} {admins : List Address} {threshold : ℕ} :
    wp (initMultisig a admins threshold) env w fun _ w' =>
      Motion env w.offices (.initMultisig a admins threshold) w'.trace w'.offices := by
  unfold initMultisig
  simp only [wp_bind, wp_gets, wp_rejectIf]
  refine wp_guard fun _ => ?_
  refine wp_requireAuth fun _ => ?_
  refine wp_requireAdmin fun _ _ _ _ _ => ?_
  rw [wp_modifyGovernance]
  exact wp_aside fun _ w₁ h₁ => h₁ ▸ .constituted

/-- A proposal is tabled under the next number. -/
theorem motion_proposeAction {call : Call} {x : Address} {action : AdminAction}
    (hc : call.proposes? = some (x, action)) (ht : w.trace = []) :
    wp (proposeAction x action) env w fun n w' =>
      n = w.governance.proposalCounter + 1 ∧ Motion env w.offices call w'.trace w'.offices := by
  unfold proposeAction
  simp only [wp_bind, wp_gets, wp_rejectIf, wp_okOr, wp_timestamp, wp_unwrap, wp_modifyGovernance,
    wp_log, wp_pure]
  refine wp_guard fun _ => ?_
  refine wp_requireAuth fun _ hl _ n hn _ t _ => ?_
  have hn : n = w.governance.proposalCounter + 1 := (checkedAddU64_eq_some hn).1
  refine ⟨hn, ?_⟩
  have hm : x ∈ w.offices.members := isAdmin_iff.mp ((Bool.not_eq_false _).mp hl)
  simp only [World.signed, ht]
  exact .tabled hc hn hm

theorem motion_proposeActionWithSalt {x : Address} {action : AdminAction} {salt : BytesN32}
    (ht : w.trace = []) :
    wp (proposeActionWithSalt x action salt) env w fun n w' =>
      n = w.governance.proposalCounter + 1 ∧
        Motion env w.offices (.proposeActionWithSalt x action salt) w'.trace w'.offices := by
  unfold proposeActionWithSalt
  simp only [wp_bind, wp_gets, wp_rejectIf, wp_modifyGovernance]
  refine wp_guard fun _ _ _ => ?_
  exact motion_proposeAction (w := { w with governance := _ }) rfl ht

/-! ### Execution -/

theorem offices_performAction {x : Address} {action : AdminAction} :
    wp (performAction x action) env w fun _ w' =>
      w'.offices = { w.offices with admin := action.successor?.or w.offices.admin } := by
  cases action with
  | upgrade =>
    unfold performAction
    exact wp_aside fun _ w' h => h
  | transferAdmin b =>
    unfold performAction
    simp only [wp_bind]
    refine wp_getAdmin fun _ _ => ?_
    rw [wp_modifyLedger_iff]
    refine wp_aside fun _ w₁ h₁ => ?_
    refine wp_aside fun _ w₂ h₂ => ?_
    rw [h₂, h₁]
    rfl
  | forceRelease =>
    unfold performAction
    exact wp_aside fun _ w' h => h
  | forceRefund =>
    unfold performAction
    exact wp_aside fun _ w' h => h

/-- What an execution has checked and leaves. -/
theorem offices_executeProposalInternal {n : ℕ} :
    wp (executeProposalInternal n) env w fun _ w' => ∃ p, Pending env w.offices n p ∧
      w.offices.threshold ≤ p.approvals.length ∧ w'.offices = w.offices.enact p ∧
      .event (.proposalExecuted n p.action) ∈ w'.trace := by
  unfold executeProposalInternal
  simp only [wp_bind, wp_gets, wp_okOr, wp_rejectIf, wp_timestamp, wp_modifyGovernance, wp_log]
  intro p hp htime hex hthr
  refine offices_performAction.mono fun _ w₁ h₁ => ⟨p, ⟨hp, ?_, ?_⟩, ?_, ?_, ?_⟩
  · exact (Bool.not_eq_true _).mp hex
  · exact Nat.not_lt.mp htime
  · exact Nat.not_lt.mp hthr
  · exact h₁
  · exact List.mem_append_right _ (List.mem_singleton_self _)

instance signs_approveAction (x : Address) (n : ℕ) :
    Signs x (approveAction x n : Contract H Unit) := by
  unfold approveAction
  infer_instance

/-- The record read back by the execution an approval triggers. -/
theorem Offices.record_pending {o : Offices} (ho : o.Filed) {n : ℕ} {p p' : Proposal}
    {approvals : List Address} (hp : o.council.proposal n = some p)
    (hp' : (o.record { p with approvals := approvals }).council.proposal n = some p') :
    p' = { p with approvals := approvals } := by
  have hid : p.id = n := ho n p hp
  have hself : (o.record { p with approvals := approvals }).council.proposal n =
      some { p with approvals := approvals } := by
    unfold Offices.record
    rw [← hid]
    exact Function.update_self ..
  exact Option.some.inj (hp'.symm.trans hself)

/-- An execution right after the approval was stored stores the record once. -/
theorem Offices.enact_record (o : Offices) (p : Proposal) : (o.record p).enact p = o.enact p := by
  unfold Offices.enact Offices.record
  simp

theorem motion_approveAction {x : Address} {n : ℕ} (ho : w.offices.Filed) (ht : w.trace = []) :
    wp (approveAction x n) env w fun _ w' =>
      Motion env w.offices (.approveAction x n) w'.trace w'.offices := by
  have hsig : wp (approveAction x n) env w fun _ w' => signersOf w'.trace = [x] := by
    refine ((signs_approveAction x n).out env w).mono fun _ w' h => ?_
    change signersOf w'.trace = signersOf w.trace ++ [x] at h
    rwa [ht] at h
  suffices hmot : wp (approveAction x n) env w fun _ w' => signersOf w'.trace = [x] →
      Motion env w.offices (.approveAction x n) w'.trace w'.offices from
    (hsig.and hmot).mono fun _ _ h => h.2 h.1
  unfold approveAction
  simp only [wp_bind, wp_gets, wp_okOr, wp_rejectIf, wp_timestamp, wp_modifyGovernance, wp_log, wp_when]
  refine wp_guard fun _ => ?_
  refine wp_requireAuth fun _ hl p hp htime hex hnew => ?_
  have hm : x ∈ w.offices.members := isAdmin_iff.mp ((Bool.not_eq_false _).mp hl)
  have hpend : Pending env w.offices n p :=
    ⟨hp, (Bool.not_eq_true _).mp hex, Nat.not_lt.mp htime⟩
  constructor
  · -- the approval makes up the threshold
    intro hthr
    refine offices_executeProposalInternal.mono ?_
    rintro _ w' ⟨p', hp', -, hw', hev⟩ hs
    have hst : (w.offices.record { p with approvals := p.approvals ++ [x] }).council.proposal n =
        some p' := hp'.stored
    obtain rfl := Offices.record_pending ho hp hst
    have hw' : w'.offices = w.offices.enact { p with approvals := p.approvals ++ [x] } :=
      hw'.trans (Offices.enact_record w.offices { p with approvals := p.approvals ++ [x] })
    have hthr : w.offices.threshold ≤ (p.approvals ++ [x]).length := hthr
    rw [List.length_append] at hthr
    rw [hw']
    exact .enacted hpend hm hnew hthr hs hev
  · intro _ _
    simp only [World.signed, ht, List.length_append]
    exact .seconded hpend hm hnew

theorem motion_executeProposal {n : ℕ} :
    wp (executeProposal n) env w fun _ w' =>
      Motion env w.offices (.executeProposal n) w'.trace w'.offices := by
  unfold executeProposal
  rw [wp_bind]
  refine wp_guard fun _ => ?_
  refine offices_executeProposalInternal.mono ?_
  rintro _ w' ⟨p, hp, hthr, hw', hev⟩
  rw [hw']
  exact .executed hp hthr hev

/-! ### Calls and steps -/

instance offices_archiveShipment (a : Address) (id : ℕ) :
    Preserves World.offices (archiveShipment a id : Contract H Unit) := by
  unfold archiveShipment storageArchiveShipment
  infer_instance

/-- Every committed call is a motion. -/
theorem motion_exec {call : Call} (ho : w.offices.Filed) (ht : w.trace = []) :
    wp call.exec env w fun _ w' => Motion env w.offices call w'.trace w'.offices := by
  cases call with
  | initializeContract => exact motion_initializeContract
  | transferAdmin => exact motion_transferAdmin ht
  | acceptAdminTransfer => exact motion_acceptAdminTransfer
  | initMultisig => exact motion_initMultisig
  | proposeAction =>
    unfold Call.exec discard
    simpa using (motion_proposeAction rfl ht).mono fun _ _ h => h.2
  | proposeActionWithSalt =>
    unfold Call.exec discard
    simpa using (motion_proposeActionWithSalt ht).mono fun _ _ h => h.2
  | approveAction => exact motion_approveAction ho ht
  | executeProposal => exact motion_executeProposal
  | _ =>
    unfold Call.exec
    exact wp_aside fun _ w' h => h ▸ .kept rfl

variable {c c' : Chain H} {l : Label}

/-- A step that is not a committed call leaves the offices. -/
theorem Step.motion (hstep : Step c l c') (ho : c.world.offices.Filed) :
    (∃ call env trace, l = .committed call env trace ∧
      Motion env c.world.offices call trace c'.world.offices) ∨
    (∀ call env trace, l ≠ .committed call env trace) ∧ c'.world.offices = c.world.offices := by
  cases hstep with
  | @committed call env w' _ hx =>
    exact .inl ⟨call, env, w'.trace, rfl, motion_exec (w := c.world.fresh) ho rfl () w' hx⟩
  | reverted => exact .inr ⟨fun _ _ _ h => (by cases h), rfl⟩
  | outside => exact .inr ⟨fun _ _ _ h => (by cases h), rfl⟩

end Navin
