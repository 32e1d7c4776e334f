/-
# What each function leaves alone

An observation of the world that does not look at some of its parts is not
changed by functions that only write those parts. Each part has a class of the
observations that ignore it, and every helper of the contract an instance that
says which parts it writes; what an entry point preserves is then found by
instance search on its text.

Key definitions:
- `Payment`, `Effect.payment?`: the effects of a call that tell of money;
- `LedgerFree`, `RegistryFree`, `DossierFree`, `GovernanceFree`, `AuthFree`,
  `PlainFree`, `PaymentFree`: what an observation ignores;
- `RecordsFree`, `AdminFree`: it ignores the ledger but for the admin, but for the
  number of shipments; `EntriesFree`: but for both;
- `MarksFree`: it ignores the dossier but for what is filed;
- `PermitsFree`, `CountsFree`, `QuotasFree`: it ignores the permits and the limits, the
  counts of active shipments and the limits, the creation quotas and the limits;
  `LimitsFree`: the limits alone;
- `AffairsFree`, `BusinessFree`: it ignores the governance but for the council, but
  for the audit trail; `DeskFree`: but for both;
- `ConductFree`: it ignores the governance but for the settings; `MinutesFree`,
  `SessionFree`, `TillFree`: but for the settings and what the three above except.
-/
import Navin.Contract

namespace Navin

open Tx

set_option synthInstance.maxSize 1000

variable {H : Host} {γ α : Type} {f : World H → γ}

/-! ### Payments -/

/-- An effect that tells of money: a transfer, or one of the payment events with
its schema fields left out. -/
inductive Payment where
  | moved (token source target : Address) (amount : ℤ)
  | released (id : ℕ) (recipient : Address) (amount : ℤ)
  | refunded (id : ℕ) (recipient : Address) (amount : ℤ)
  | milestone (id : ℕ) (name : Symbol) (amount : ℤ) (recipient : Address)
  | fee (id : ℕ) (treasury : Address) (amount : ℤ)
  deriving DecidableEq

/-- The payment an effect tells of, if any. -/
@[reducible] def Effect.payment? : Effect → Option Payment
  | .transfer token source target amount => some (.moved token source target amount)
  | .event (.escrowReleased id recipient _ amount _) => some (.released id recipient amount)
  | .event (.escrowRefunded id recipient _ amount _) => some (.refunded id recipient amount)
  | .event (.milestonePaymentReleased id name amount recipient _) =>
    some (.milestone id name amount recipient)
  | .event (.platformFeeCollected id treasury amount _) => some (.fee id treasury amount)
  | _ => none

/-- The payments of a trace, in order. -/
def paymentsOf (trace : List Effect) : List Payment := trace.filterMap Effect.payment?

/-- An option that computes to `none`, found by instance search. -/
class IsNone {α : Type} (o : Option α) : Prop where
  out : o = none

instance IsNone.none {α : Type} : IsNone (none : Option α) := ⟨rfl⟩

/-- Two values that compute to the same, found by instance search. -/
class Same {α : Type} (a b : α) : Prop where
  out : a = b

instance Same.refl {α : Type} (a : α) : Same a a := ⟨rfl⟩

/-! ### Parts of the registry, the governance and the dossier -/

/-- Who is allowed what: roles, suspensions, whitelists. -/
structure Permits where
  userRole : Address → Role → Bool
  role : Address → Option Role
  roleSuspended : Address → Role → Bool
  carrierSuspended : Address → Bool
  companySuspended : Address → Bool
  carrierWhitelist : Address → Address → Bool

@[reducible] def Registry.permits (r : Registry) : Permits where
  userRole := r.userRole
  role := r.role
  roleSuspended := r.roleSuspended
  carrierSuspended := r.carrierSuspended
  companySuspended := r.companySuspended
  carrierWhitelist := r.carrierWhitelist

/-- What of the governance decides who may act: the pending hand-over, the
multi-signature list and its proposals. -/
structure Council where
  proposedAdmin : Option Address
  adminList : Option (List Address)
  multisigThreshold : Option ℕ
  proposalCounter : ℕ
  proposal : ℕ → Option Proposal
  proposalDigest : ℕ → Option ProposalActionDigest

@[reducible] def Governance.council (g : Governance) : Council where
  proposedAdmin := g.proposedAdmin
  adminList := g.adminList
  multisigThreshold := g.multisigThreshold
  proposalCounter := g.proposalCounter
  proposal := g.proposal
  proposalDigest := g.proposalDigest

/-- The audit trail. -/
structure AuditTrail where
  auditEntryCount : ℕ
  auditEntry : ℕ → Option AuditLogEntry

@[reducible] def Governance.trail (g : Governance) : AuditTrail where
  auditEntryCount := g.auditEntryCount
  auditEntry := g.auditEntry

/-- What the admin sets. -/
structure Settings where
  config : Option ContractConfig
  configChecksum : Option BytesN32
  feeConfig : Option FeeConfig
  isPaused : Bool
  breakerConfig : Option CircuitBreakerConfig

@[reducible] def Governance.settings (g : Governance) : Settings where
  config := g.config
  configChecksum := g.configChecksum
  feeConfig := g.feeConfig
  isPaused := g.isPaused
  breakerConfig := g.breakerConfig

/-- The marks of a shipment: what a call leaves beside the record without a place
of its own in a list. -/
structure Marks where
  confirmationHash : Option BytesN32
  lastStatusUpdate : Option ℕ
  escrowFreezeReason : Option EscrowFreezeReason
  eventCount : Option ℕ
  milestoneEventCount : Option ℕ
  breachEventCount : Option ℕ

def Dossier.marks (d : Dossier) (id : ℕ) : Marks where
  confirmationHash := d.confirmationHash id
  lastStatusUpdate := d.lastStatusUpdate id
  escrowFreezeReason := d.escrowFreezeReason id
  eventCount := d.eventCount id
  milestoneEventCount := d.milestoneEventCount id
  breachEventCount := d.breachEventCount id

/-- The rest of the dossier: what is filed under an index, a status or a list. -/
structure Papers where
  statusHash : ℕ → ShipmentStatus → Option BytesN32
  noteCount : ℕ → Option ℕ
  note : ℕ → ℕ → Option BytesN32
  evidenceCount : ℕ → Option ℕ
  evidence : ℕ → ℕ → Option BytesN32
  recoveryRecordCount : ℕ → Option ℕ
  recoveryRecord : ℕ → ℕ → Option RecoveryRecord
  shipmentDependents : ℕ → List ℕ

@[reducible] def Dossier.papers (d : Dossier) : Papers where
  statusHash := d.statusHash
  noteCount := d.noteCount
  note := d.note
  evidenceCount := d.evidenceCount
  evidence := d.evidence
  recoveryRecordCount := d.recoveryRecordCount
  recoveryRecord := d.recoveryRecord
  shipmentDependents := d.shipmentDependents

/-- Nothing but the marks of one shipment is changed. -/
structure Dossier.Marked (id : ℕ) (d d' : Dossier) : Prop where
  papers_eq : d'.papers = d.papers
  marks_eq : ∀ j, j ≠ id → d'.marks j = d.marks j

/-! ### Observations that ignore a part -/

class LedgerFree (f : World H → γ) : Prop where
  out : ∀ w l, f { w with ledger := l } = f w

class RegistryFree (f : World H → γ) : Prop where
  out : ∀ w r, f { w with registry := r } = f w

class DossierFree (f : World H → γ) : Prop where
  out : ∀ w d, f { w with dossier := d } = f w

class GovernanceFree (f : World H → γ) : Prop where
  out : ∀ w g, f { w with governance := g } = f w

/-- Ignores the ledger apart from the admin. -/
class RecordsFree (f : World H → γ) : Prop where
  out : ∀ w l, l.admin = w.ledger.admin → f { w with ledger := l } = f w

/-- Ignores the ledger apart from the number of shipments. -/
class AdminFree (f : World H → γ) : Prop where
  out : ∀ w l, l.shipmentCount = w.ledger.shipmentCount → f { w with ledger := l } = f w

/-- Ignores the ledger apart from the admin and the number of shipments. -/
class EntriesFree (f : World H → γ) : Prop where
  out : ∀ w l, l.admin = w.ledger.admin → l.shipmentCount = w.ledger.shipmentCount →
    f { w with ledger := l } = f w

/-- Ignores the governance apart from the council. -/
class AffairsFree (f : World H → γ) : Prop where
  out : ∀ w g, g.council = w.governance.council → f { w with governance := g } = f w

/-- Ignores the governance apart from the audit trail. -/
class BusinessFree (f : World H → γ) : Prop where
  out : ∀ w g, g.trail = w.governance.trail → f { w with governance := g } = f w

/-- Ignores the governance apart from the council and the audit trail. -/
class DeskFree (f : World H → γ) : Prop where
  out : ∀ w g, g.council = w.governance.council → g.trail = w.governance.trail →
    f { w with governance := g } = f w

/-- Ignores the governance apart from the settings. -/
class ConductFree (f : World H → γ) : Prop where
  out : ∀ w g, g.settings = w.governance.settings → f { w with governance := g } = f w

/-- Ignores the governance apart from the settings and the council. -/
class MinutesFree (f : World H → γ) : Prop where
  out : ∀ w g, g.settings = w.governance.settings → g.council = w.governance.council →
    f { w with governance := g } = f w

/-- Ignores the governance apart from the settings and the audit trail. -/
class SessionFree (f : World H → γ) : Prop where
  out : ∀ w g, g.settings = w.governance.settings → g.trail = w.governance.trail →
    f { w with governance := g } = f w

/-- Ignores the governance apart from the settings, the council and the audit trail. -/
class TillFree (f : World H → γ) : Prop where
  out : ∀ w g, g.settings = w.governance.settings → g.council = w.governance.council →
    g.trail = w.governance.trail → f { w with governance := g } = f w

/-- Ignores the counts of active shipments and the limits. -/
class CountsFree (f : World H → γ) : Prop where
  out : ∀ w r, r.permits = w.registry.permits →
    r.companyCreationQuota = w.registry.companyCreationQuota → f { w with registry := r } = f w

/-- Ignores the permits and the limits. -/
class PermitsFree (f : World H → γ) : Prop where
  out : ∀ w r, r.activeShipmentCount = w.registry.activeShipmentCount →
    r.companyCreationQuota = w.registry.companyCreationQuota → f { w with registry := r } = f w

/-- Ignores the creation quotas and the limits. -/
class QuotasFree (f : World H → γ) : Prop where
  out : ∀ w r, r.permits = w.registry.permits →
    r.activeShipmentCount = w.registry.activeShipmentCount → f { w with registry := r } = f w

/-- Ignores the limits of the registry. -/
class LimitsFree (f : World H → γ) : Prop where
  out : ∀ w r, r.permits = w.registry.permits →
    r.activeShipmentCount = w.registry.activeShipmentCount →
    r.companyCreationQuota = w.registry.companyCreationQuota → f { w with registry := r } = f w

/-- Ignores the marks of a shipment. -/
class MarksFree (f : World H → γ) (id : ℕ) : Prop where
  out : ∀ w d, w.dossier.Marked id d → f { w with dossier := d } = f w

instance [h : LedgerFree f] : RecordsFree f := ⟨fun w l _ => h.out w l⟩

instance [h : LedgerFree f] : AdminFree f := ⟨fun w l _ => h.out w l⟩

instance [h : RecordsFree f] : EntriesFree f := ⟨fun w l hl _ => h.out w l hl⟩

instance [h : AdminFree f] : EntriesFree f := ⟨fun w l _ hl => h.out w l hl⟩

instance [h : GovernanceFree f] : AffairsFree f := ⟨fun w g _ => h.out w g⟩

instance [h : GovernanceFree f] : BusinessFree f := ⟨fun w g _ => h.out w g⟩

instance [h : BusinessFree f] : DeskFree f := ⟨fun w g _ hg => h.out w g hg⟩

instance [h : AffairsFree f] : DeskFree f := ⟨fun w g hg _ => h.out w g hg⟩

instance [h : GovernanceFree f] : ConductFree f := ⟨fun w g _ => h.out w g⟩

instance [h : AffairsFree f] : MinutesFree f := ⟨fun w g _ hg => h.out w g hg⟩

instance [h : ConductFree f] : MinutesFree f := ⟨fun w g hg _ => h.out w g hg⟩

instance [h : BusinessFree f] : SessionFree f := ⟨fun w g _ hg => h.out w g hg⟩

instance [h : ConductFree f] : SessionFree f := ⟨fun w g hg _ => h.out w g hg⟩

instance [h : DeskFree f] : TillFree f := ⟨fun w g _ hc ht => h.out w g hc ht⟩

instance [h : MinutesFree f] : TillFree f := ⟨fun w g hs hc _ => h.out w g hs hc⟩

instance [h : SessionFree f] : TillFree f := ⟨fun w g hs _ ht => h.out w g hs ht⟩

instance [h : RegistryFree f] : CountsFree f := ⟨fun w r _ _ => h.out w r⟩

instance [h : RegistryFree f] : PermitsFree f := ⟨fun w r _ _ => h.out w r⟩

instance [h : RegistryFree f] : QuotasFree f := ⟨fun w r _ _ => h.out w r⟩

instance [h : PermitsFree f] : LimitsFree f := ⟨fun w r _ ha hq => h.out w r ha hq⟩

instance [h : CountsFree f] : LimitsFree f := ⟨fun w r hp _ hq => h.out w r hp hq⟩

instance [h : QuotasFree f] : LimitsFree f := ⟨fun w r hp ha _ => h.out w r hp ha⟩

instance (id : ℕ) [h : DossierFree f] : MarksFree f id := ⟨fun w d _ => h.out w d⟩

/-- Ignores the signatures in the trace. -/
class AuthFree (f : World H → γ) : Prop where
  out : ∀ w a, f { w with trace := w.trace ++ [.auth a] } = f w

/-- Ignores the events that tell of no money. -/
class PlainFree (f : World H → γ) : Prop where
  out : ∀ w e, Effect.payment? (.event e) = none → f { w with trace := w.trace ++ [.event e] } = f w

/-- Ignores the effects that tell of money. -/
class PaymentFree (f : World H → γ) : Prop where
  out : ∀ w e, (Effect.payment? e).isSome → f { w with trace := w.trace ++ [e] } = f w

/-! ### Primitive writes -/

instance frame_modifyDossier [h : DossierFree f] (g : Dossier → Dossier) :
    Preserves f (modifyDossier g : Contract H Unit) := Preserves.modify fun w => h.out w _

instance frame_logAuth [h : AuthFree f] (a : Address) :
    Preserves f (log (.auth a) : Contract H Unit) := Preserves.modify fun w => h.out w _

instance frame_publish [h : PlainFree f] (e : Event) [he : IsNone (Effect.payment? (.event e))] :
    Preserves f (log (.event e) : Contract H Unit) := Preserves.modify fun w => h.out w _ he.out

instance frame_logTransfer [h : PaymentFree f] (token source target : Address) (amount : ℤ) :
    Preserves f (log (.transfer token source target amount) : Contract H Unit) :=
  Preserves.modify fun w => h.out w _ rfl

instance (priority := low) frame_logEvent [h : PlainFree f] [h' : PaymentFree f] (e : Event) :
    Preserves f (log (.event e) : Contract H Unit) := Preserves.modify fun w => by
  cases he : Effect.payment? (.event e) with
  | none => exact h.out w _ he
  | some p => exact h'.out w _ (by simp [he])

/-! ### Writes that spare a part -/

/-- A write to the ledger that leaves the admin. -/
class KeepsAdmin {Token : Type} (g : Ledger Token → Ledger Token) : Prop where
  out : ∀ l, (g l).admin = l.admin

/-- A write to the ledger that leaves the number of shipments. -/
class KeepsCount {Token : Type} (g : Ledger Token → Ledger Token) : Prop where
  out : ∀ l, (g l).shipmentCount = l.shipmentCount

/-- A write to the ledger that leaves both. -/
class KeepsHead {Token : Type} (g : Ledger Token → Ledger Token) : Prop where
  admin : ∀ l, (g l).admin = l.admin
  shipmentCount : ∀ l, (g l).shipmentCount = l.shipmentCount

section

variable {Token : Type}

instance (g : Ledger Token → Ledger Token) [h : ∀ l, Same (g l).admin l.admin] : KeepsAdmin g :=
  ⟨fun l => (h l).out⟩

instance (g : Ledger Token → Ledger Token) [h : ∀ l, Same (g l).shipmentCount l.shipmentCount] :
    KeepsCount g := ⟨fun l => (h l).out⟩

instance (g : Ledger Token → Ledger Token) [h : ∀ l, Same (g l).admin l.admin]
    [h' : ∀ l, Same (g l).shipmentCount l.shipmentCount] : KeepsHead g :=
  ⟨fun l => (h l).out, fun l => (h' l).out⟩

instance (s : Shipment) : KeepsHead fun l : Ledger Token => l.setShipment s :=
  ⟨fun _ => rfl, fun _ => rfl⟩

instance (id : ℕ) (x : ℤ) : KeepsHead fun l : Ledger Token => l.setEscrow id x :=
  ⟨fun _ => rfl, fun _ => rfl⟩

instance (id : ℕ) : KeepsHead fun l : Ledger Token => l.removeEscrow id :=
  ⟨fun _ => rfl, fun _ => rfl⟩

instance (s : ShipmentStatus) (n : ℕ) : KeepsHead fun l : Ledger Token => l.setStatusCount s n :=
  ⟨fun _ => rfl, fun _ => rfl⟩

instance (r : SettlementRecord) : KeepsHead fun l : Ledger Token => l.setSettlement r :=
  ⟨fun _ => rfl, fun _ => rfl⟩

instance (id : ℕ) (n : Option ℕ) : KeepsHead fun l : Ledger Token => l.setActiveSettlement id n :=
  ⟨fun _ => rfl, fun _ => rfl⟩

instance (id : ℕ) (s : Shipment) : KeepsHead fun l : Ledger Token => l.archive id s :=
  ⟨fun _ => rfl, fun _ => rfl⟩

end

instance frame_modifyRecords [h : RecordsFree f] (g : Ledger H.Token → Ledger H.Token)
    [hg : KeepsAdmin g] : Preserves f (modifyLedger g) := Preserves.modify fun w => h.out w _ (hg.out _)

instance frame_modifyAdmin [h : AdminFree f] (g : Ledger H.Token → Ledger H.Token)
    [hg : KeepsCount g] : Preserves f (modifyLedger g) := Preserves.modify fun w => h.out w _ (hg.out _)

instance frame_modifyEntries [h : EntriesFree f] (g : Ledger H.Token → Ledger H.Token)
    [hg : KeepsHead g] : Preserves f (modifyLedger g) :=
  Preserves.modify fun w => h.out w _ (hg.admin _) (hg.shipmentCount _)

instance frame_modifyDesk [h : DeskFree f] (g : Governance → Governance)
    [hc : ∀ x, Same (g x).council x.council] [ht : ∀ x, Same (g x).trail x.trail] :
    Preserves f (modifyGovernance g : Contract H Unit) :=
  Preserves.modify fun w => h.out w _ (hc _).out (ht _).out

instance frame_modifyMinutes [h : MinutesFree f] (g : Governance → Governance)
    [hs : ∀ x, Same (g x).settings x.settings] [hc : ∀ x, Same (g x).council x.council] :
    Preserves f (modifyGovernance g : Contract H Unit) :=
  Preserves.modify fun w => h.out w _ (hs _).out (hc _).out

instance frame_modifySession [h : SessionFree f] (g : Governance → Governance)
    [hs : ∀ x, Same (g x).settings x.settings] [ht : ∀ x, Same (g x).trail x.trail] :
    Preserves f (modifyGovernance g : Contract H Unit) :=
  Preserves.modify fun w => h.out w _ (hs _).out (ht _).out

instance frame_modifyTill [h : TillFree f] (g : Governance → Governance)
    [hs : ∀ x, Same (g x).settings x.settings] [hc : ∀ x, Same (g x).council x.council]
    [ht : ∀ x, Same (g x).trail x.trail] : Preserves f (modifyGovernance g : Contract H Unit) :=
  Preserves.modify fun w => h.out w _ (hs _).out (hc _).out (ht _).out

instance frame_modifyCounts [h : CountsFree f] (g : Registry → Registry)
    [hp : ∀ x, Same (g x).permits x.permits]
    [hq : ∀ x, Same (g x).companyCreationQuota x.companyCreationQuota] :
    Preserves f (modifyRegistry g : Contract H Unit) :=
  Preserves.modify fun w => h.out w _ (hp _).out (hq _).out

instance frame_modifyPermits [h : PermitsFree f] (g : Registry → Registry)
    [ha : ∀ x, Same (g x).activeShipmentCount x.activeShipmentCount]
    [hq : ∀ x, Same (g x).companyCreationQuota x.companyCreationQuota] :
    Preserves f (modifyRegistry g : Contract H Unit) :=
  Preserves.modify fun w => h.out w _ (ha _).out (hq _).out

instance frame_modifyLimits [h : LimitsFree f] (g : Registry → Registry)
    [hp : ∀ x, Same (g x).permits x.permits]
    [ha : ∀ x, Same (g x).activeShipmentCount x.activeShipmentCount]
    [hq : ∀ x, Same (g x).companyCreationQuota x.companyCreationQuota] :
    Preserves f (modifyRegistry g : Contract H Unit) :=
  Preserves.modify fun w => h.out w _ (hp _).out (ha _).out (hq _).out

instance frame_modifyQuotas [h : QuotasFree f] (g : Registry → Registry)
    [hp : ∀ x, Same (g x).permits x.permits]
    [ha : ∀ x, Same (g x).activeShipmentCount x.activeShipmentCount] :
    Preserves f (modifyRegistry g : Contract H Unit) :=
  Preserves.modify fun w => h.out w _ (hp _).out (ha _).out

section Marks

variable (id : ℕ) [h : MarksFree f id]

theorem frame_mark {g : Dossier → Dossier} (hg : ∀ d : Dossier, d.Marked id (g d)) :
    Preserves f (modifyDossier g : Contract H Unit) := Preserves.modify fun w => h.out w _ (hg _)

instance frame_setEscrowFreezeReason (r : EscrowFreezeReason) :
    Preserves f (setEscrowFreezeReason id r : Contract H Unit) :=
  frame_mark id fun d => ⟨rfl, fun j hj => by simp [Dossier.marks, hj]⟩

instance frame_setConfirmationHash (x : BytesN32) :
    Preserves f (setConfirmationHash id x : Contract H Unit) :=
  frame_mark id fun d => ⟨rfl, fun j hj => by simp [Dossier.marks, hj]⟩

instance frame_setLastStatusUpdate (t : ℕ) :
    Preserves f (setLastStatusUpdate id t : Contract H Unit) :=
  frame_mark id fun d => ⟨rfl, fun j hj => by simp [Dossier.marks, hj]⟩

instance frame_incrementEventCount : Preserves f (incrementEventCount id : Contract H Unit) := by
  have := fun n => frame_mark (H := H) (f := f) id (g := fun d =>
    { d with eventCount := Function.update d.eventCount id (some n) })
    fun d => ⟨rfl, fun j hj => by simp [Dossier.marks, hj]⟩
  unfold incrementEventCount
  infer_instance

instance frame_incrementMilestoneEventCount :
    Preserves f (incrementMilestoneEventCount id : Contract H Unit) := by
  have := fun n => frame_mark (H := H) (f := f) id (g := fun d =>
    { d with milestoneEventCount := Function.update d.milestoneEventCount id (some n) })
    fun d => ⟨rfl, fun j hj => by simp [Dossier.marks, hj]⟩
  unfold incrementMilestoneEventCount
  infer_instance

instance frame_incrementBreachEventCount :
    Preserves f (incrementBreachEventCount id : Contract H Unit) := by
  have := fun n => frame_mark (H := H) (f := f) id (g := fun d =>
    { d with breachEventCount := Function.update d.breachEventCount id (some n) })
    fun d => ⟨rfl, fun j hj => by simp [Dossier.marks, hj]⟩
  unfold incrementBreachEventCount
  infer_instance

end Marks

/-! ### Storage -/

instance frame_requireAuth [AuthFree f] (a : Address) : Preserves f (requireAuth a : Contract H Unit) := by
  unfold requireAuth
  infer_instance

instance frame_timestamp : Preserves f (timestamp : Contract H ℕ) := by
  unfold timestamp
  infer_instance

instance frame_getAdmin : Preserves f (getAdmin : Contract H Address) := by
  unfold getAdmin
  infer_instance

instance frame_incrementActiveShipmentCount [CountsFree f] (a : Address) :
    Preserves f (incrementActiveShipmentCount a : Contract H Unit) := by
  unfold incrementActiveShipmentCount
  infer_instance

instance frame_decrementActiveShipmentCount [CountsFree f] (a : Address) :
    Preserves f (decrementActiveShipmentCount a : Contract H Unit) := by
  unfold decrementActiveShipmentCount
  infer_instance

instance frame_incrementStatusCount [EntriesFree f] (s : ShipmentStatus) :
    Preserves f (incrementStatusCount s : Contract H Unit) := by
  unfold incrementStatusCount
  infer_instance

instance frame_decrementStatusCount [EntriesFree f] (s : ShipmentStatus) :
    Preserves f (decrementStatusCount s : Contract H Unit) := by
  unfold decrementStatusCount
  infer_instance

instance frame_incrementSettlementCounter [EntriesFree f] :
    Preserves f (incrementSettlementCounter : Contract H ℕ) := by
  unfold incrementSettlementCounter
  infer_instance

instance frame_incrementNoteCount [DossierFree f] (id : ℕ) :
    Preserves f (incrementNoteCount id : Contract H ℕ) := by
  unfold incrementNoteCount
  infer_instance

instance frame_incrementEvidenceCount [DossierFree f] (id : ℕ) :
    Preserves f (incrementEvidenceCount id : Contract H ℕ) := by
  unfold incrementEvidenceCount
  infer_instance

instance frame_appendRecoveryRecord [DossierFree f] (id : ℕ) (r : RecoveryRecord) :
    Preserves f (appendRecoveryRecord id r : Contract H Unit) := by
  unfold appendRecoveryRecord
  infer_instance

instance frame_storageExtendShipmentTtl (id threshold extendTo : ℕ) :
    Preserves f (storageExtendShipmentTtl id threshold extendTo : Contract H Unit) := by
  unfold storageExtendShipmentTtl
  infer_instance

instance frame_storageArchiveShipment [EntriesFree f] [DossierFree f] (id : ℕ) (s : Shipment) :
    Preserves f (storageArchiveShipment id s : Contract H Unit) := by
  unfold storageArchiveShipment
  infer_instance

instance frame_addTotalEscrowVolume [TillFree f] (amount : ℤ) :
    Preserves f (addTotalEscrowVolume amount : Contract H Unit) := by
  unfold addTotalEscrowVolume
  infer_instance

instance frame_incrementTotalDisputes [TillFree f] :
    Preserves f (incrementTotalDisputes : Contract H Unit) := by
  unfold incrementTotalDisputes
  infer_instance

instance frame_hasIdempotencyWindow (h : BytesN32) :
    Preserves f (hasIdempotencyWindow h : Contract H Bool) := by
  unfold hasIdempotencyWindow
  infer_instance

instance frame_setIdempotencyWindow [TillFree f] (h : BytesN32) (n : ℕ) :
    Preserves f (setIdempotencyWindow h n : Contract H Unit) := by
  unfold setIdempotencyWindow
  infer_instance

instance frame_setConfig [DeskFree f] (c : ContractConfig) :
    Preserves f (setConfig c : Contract H Unit) := by
  unfold setConfig
  infer_instance

instance frame_logAudit [MinutesFree f] [PlainFree f] (t : AuditEventType) (a b : Address) :
    Preserves f (logAudit t a b : Contract H Unit) := by
  unfold logAudit
  infer_instance

/-! ### Events -/

instance frame_emitKeyed (domain : ℕ) (topic : String) (id : ℕ) [MarksFree f id]
    (event : EventKey → Event) [∀ k, Preserves f (log (.event (event k)) : Contract H Unit)] :
    Preserves f (emitKeyed domain topic id event : Contract H Unit) := by
  unfold emitKeyed
  infer_instance

instance frame_emitKeyedWithToken (domain : ℕ) (topic : String) (id : ℕ) [MarksFree f id]
    (event : Address → EventKey → Event)
    [∀ t k, Preserves f (log (.event (event t k)) : Contract H Unit)] :
    Preserves f (emitKeyedWithToken domain topic id event : Contract H Unit) := by
  unfold emitKeyedWithToken
  infer_instance

section Emitters

variable (id : ℕ) [MarksFree f id] [PlainFree f]

instance frame_emitShipmentCreated (s r : Address) (h : BytesN32) :
    Preserves f (emitShipmentCreated id s r h : Contract H Unit) := by
  unfold emitShipmentCreated
  infer_instance

instance frame_emitStatusUpdated (s t : ShipmentStatus) (h : BytesN32) :
    Preserves f (emitStatusUpdated id s t h : Contract H Unit) := by
  unfold emitStatusUpdated
  infer_instance

instance frame_emitMilestoneRecorded (c : Symbol) (h : BytesN32) (r : Address) :
    Preserves f (emitMilestoneRecorded id c h r : Contract H Unit) := by
  unfold emitMilestoneRecorded
  infer_instance

instance frame_emitEscrowDeposited (s : Address) (x : ℤ) :
    Preserves f (emitEscrowDeposited id s x : Contract H Unit) := by
  unfold emitEscrowDeposited
  infer_instance

instance frame_emitShipmentCancelled (c : Address) (h : BytesN32) :
    Preserves f (emitShipmentCancelled id c h : Contract H Unit) := by
  unfold emitShipmentCancelled
  infer_instance

instance frame_emitShipmentExpired :
    Preserves f (emitShipmentExpired id : Contract H Unit) := by
  unfold emitShipmentExpired
  infer_instance

instance frame_emitDeliverySuccess (c : Address) (t : ℕ) :
    Preserves f (emitDeliverySuccess c id t : Contract H Unit) := by
  unfold emitDeliverySuccess
  infer_instance

instance frame_emitDisputeResolved (r : DisputeResolution) (h : BytesN32) (a : Address) :
    Preserves f (emitDisputeResolved id r h a : Contract H Unit) := by
  unfold emitDisputeResolved
  infer_instance

instance frame_emitDeliveryConfirmed (r : Address) (h : BytesN32) :
    Preserves f (emitDeliveryConfirmed id r h : Contract H Unit) := by
  unfold emitDeliveryConfirmed
  infer_instance

instance frame_emitGeofenceEvent (z : GeofenceEvent) (h : BytesN32) :
    Preserves f (emitGeofenceEvent id z h : Contract H Unit) := by
  unfold emitGeofenceEvent
  infer_instance

instance frame_emitEtaUpdated (t : ℕ) (h : BytesN32) :
    Preserves f (emitEtaUpdated id t h : Contract H Unit) := by
  unfold emitEtaUpdated
  infer_instance

instance frame_emitForceCancelled (a : Address) (h : BytesN32) (x : ℤ) :
    Preserves f (emitForceCancelled id a h x : Contract H Unit) := by
  unfold emitForceCancelled
  infer_instance

instance frame_emitNoteAppended (i : ℕ) (h : BytesN32) (a : Address) :
    Preserves f (emitNoteAppended id i h a : Contract H Unit) := by
  unfold emitNoteAppended
  infer_instance

instance frame_emitEvidenceAdded (i : ℕ) (h : BytesN32) (a : Address) :
    Preserves f (emitEvidenceAdded id i h a : Contract H Unit) := by
  unfold emitEvidenceAdded
  infer_instance

end Emitters

instance frame_emitRoleChanged [PlainFree f] (x : RoleChangeAction) (a b : Address) (r : Role) :
    Preserves f (emitRoleChanged x a b r : Contract H Unit) := by
  unfold emitRoleChanged
  infer_instance

instance frame_emitEscrowFrozen [PlainFree f] (id : ℕ) (r : EscrowFreezeReason) (a : Address) :
    Preserves f (emitEscrowFrozen id r a : Contract H Unit) := by
  unfold emitEscrowFrozen
  infer_instance

section PaymentEmitters

variable (id : ℕ) [MarksFree f id] [PlainFree f] [PaymentFree f]

instance frame_emitEscrowReleased (a : Address) (x : ℤ) :
    Preserves f (emitEscrowReleased id a x : Contract H Unit) := by
  unfold emitEscrowReleased
  infer_instance

instance frame_emitEscrowRefunded (a : Address) (x : ℤ) :
    Preserves f (emitEscrowRefunded id a x : Contract H Unit) := by
  unfold emitEscrowRefunded
  infer_instance

instance frame_emitMilestonePaymentReleased (m : Symbol) (x : ℤ) (a : Address) :
    Preserves f (emitMilestonePaymentReleased id m x a : Contract H Unit) := by
  unfold emitMilestonePaymentReleased
  infer_instance

instance frame_emitPlatformFeeCollected (a : Address) (x : ℤ) :
    Preserves f (emitPlatformFeeCollected id a x : Contract H Unit) := by
  unfold emitPlatformFeeCollected
  infer_instance

end PaymentEmitters

/-! ### Checks and guards -/

instance frame_validateHash (h : BytesN32) :
    Preserves f (validateHash h : Contract H Unit) := by
  unfold validateHash
  infer_instance

instance frame_validateSymbol (s : Symbol) :
    Preserves f (validateSymbol s : Contract H Unit) := by
  unfold validateSymbol
  infer_instance

instance frame_validateSymbolChars (s : Symbol) :
    Preserves f (validateSymbolChars s : Contract H Unit) := by
  unfold validateSymbolChars
  infer_instance

instance frame_validateCheckpointSymbol (s : Symbol) :
    Preserves f (validateCheckpointSymbol s : Contract H Unit) := by
  unfold validateCheckpointSymbol
  infer_instance

instance frame_validateSymbolNotWhitespaceOnly (s : Symbol) :
    Preserves f (validateSymbolNotWhitespaceOnly s : Contract H Unit) := by
  unfold validateSymbolNotWhitespaceOnly
  infer_instance

instance frame_validateMetadataSymbols (k v : Symbol) :
    Preserves f (validateMetadataSymbols k v : Contract H Unit) := by
  unfold validateMetadataSymbols
  infer_instance

instance frame_validateMilestoneEntry (m : Symbol × ℕ) :
    Preserves f (validateMilestoneEntry m : Contract H Unit) := by
  unfold validateMilestoneEntry
  infer_instance

instance frame_validateMilestoneSymbols (ms : List (Symbol × ℕ)) :
    Preserves f (validateMilestoneSymbols ms : Contract H Unit) := by
  unfold validateMilestoneSymbols
  infer_instance

instance frame_validateMilestones (ms : List (Symbol × ℕ)) :
    Preserves f (validateMilestones ms : Contract H Unit) := by
  unfold validateMilestones
  infer_instance

instance frame_validatePositiveAmount (x : ℤ) :
    Preserves f (validatePositiveAmount x : Contract H Unit) := by
  unfold validatePositiveAmount
  infer_instance

instance frame_checkedSubEscrow (a b : ℤ) :
    Preserves f (checkedSubEscrow a b : Contract H ℤ) := by
  unfold checkedSubEscrow
  infer_instance

instance frame_checkedMulDiv (a b c : ℤ) :
    Preserves f (checkedMulDiv a b c : Contract H ℤ) := by
  unfold checkedMulDiv
  infer_instance

instance frame_validateShipmentTransition (s t : ShipmentStatus) :
    Preserves f (validateShipmentTransition s t : Contract H Unit) := by
  unfold validateShipmentTransition
  infer_instance

instance frame_requireInitialized :
    Preserves f (requireInitialized : Contract H Unit) := by
  unfold requireInitialized
  infer_instance

instance frame_requireNotPaused :
    Preserves f (requireNotPaused : Contract H Unit) := by
  unfold requireNotPaused
  infer_instance

instance frame_requireAdmin (a : Address) :
    Preserves f (requireAdmin a : Contract H Unit) := by
  unfold requireAdmin
  infer_instance

instance frame_requireAdminOr (r : Role) (a : Address) :
    Preserves f (requireAdminOr r a : Contract H Unit) := by
  unfold requireAdminOr
  infer_instance

instance frame_requireAdminOrGuardian (a : Address) :
    Preserves f (requireAdminOrGuardian a : Contract H Unit) := by
  unfold requireAdminOrGuardian
  infer_instance

instance frame_requireAdminOrOperator (a : Address) :
    Preserves f (requireAdminOrOperator a : Contract H Unit) := by
  unfold requireAdminOrOperator
  infer_instance

instance frame_requireRole (a : Address) (r : Role) :
    Preserves f (requireRole a r : Contract H Unit) := by
  unfold requireRole
  infer_instance

instance frame_requireActiveCompany (a : Address) :
    Preserves f (requireActiveCompany a : Contract H Unit) := by
  unfold requireActiveCompany
  infer_instance

instance frame_requireActiveCarrier (a : Address) :
    Preserves f (requireActiveCarrier a : Contract H Unit) := by
  unfold requireActiveCarrier
  infer_instance

instance frame_requireNotFinalized (s : Shipment) :
    Preserves f (requireNotFinalized s : Contract H Unit) := by
  unfold requireNotFinalized
  infer_instance

instance frame_loadShipment (id : ℕ) :
    Preserves f (loadShipment id : Contract H Shipment) := by
  unfold loadShipment
  infer_instance

instance frame_extendShipmentTtl (id : ℕ) :
    Preserves f (extendShipmentTtl id : Contract H Unit) := by
  unfold extendShipmentTtl
  infer_instance

instance frame_validateTokenDecimals (t : Address) :
    Preserves f (validateTokenDecimals t : Contract H Unit) := by
  unfold validateTokenDecimals
  infer_instance

instance frame_requireParty (a : Address) (s : Shipment) (b : Address) :
    Preserves f (requireParty a s b : Contract H Unit) := by
  unfold requireParty
  infer_instance

instance frame_requirePrerequisitesDelivered (id : ℕ) :
    Preserves f (requirePrerequisitesDelivered id : Contract H Unit) := by
  unfold requirePrerequisitesDelivered
  infer_instance

instance frame_requireUpdateInterval (id : ℕ) :
    Preserves f (requireUpdateInterval id : Contract H Unit) := by
  unfold requireUpdateInterval
  infer_instance

instance frame_verifyEscrowConsistency (s : Shipment) :
    Preserves f (verifyEscrowConsistency s : Contract H Unit) := by
  unfold verifyEscrowConsistency
  infer_instance

instance frame_milestoneRelease (s : Shipment) (ns : List Symbol) (n : ℕ) :
    Preserves f (milestoneRelease s ns n : Contract H ℤ) := by
  unfold milestoneRelease
  infer_instance

instance frame_checkIdempotency [TillFree f] (p : List UInt8) :
    Preserves f (checkIdempotency p : Contract H Unit) := by
  unfold checkIdempotency
  infer_instance

instance frame_openCall [AuthFree f] (a : Address) :
    Preserves f (openCall a : Contract H Unit) := by
  unfold openCall
  infer_instance

instance frame_openCarrierCall [AuthFree f] (a : Address) :
    Preserves f (openCarrierCall a : Contract H Unit) := by
  unfold openCarrierCall
  infer_instance

instance frame_withReentrancyLock [h : TillFree f] (m : Contract H α) [Preserves f m] :
    Preserves f (withReentrancyLock m) := by
  have := Preserves.ensure (m := m)
    (g := fun w => { w with governance := { w.governance with reentrancyLock := false } })
    (fun w => h.out w _ rfl rfl rfl)
  unfold withReentrancyLock
  infer_instance

/-! ### The token, settlements and records -/

instance frame_checkTransferAllowed [TillFree f] (c : CircuitBreakerConfig) :
    Preserves f (checkTransferAllowed c : Contract H Unit) := by
  unfold checkTransferAllowed
  infer_instance

instance frame_recordTransferSuccess [TillFree f] :
    Preserves f (recordTransferSuccess : Contract H Unit) := by
  unfold recordTransferSuccess
  infer_instance

instance frame_invokeTokenOperation [EntriesFree f] [PaymentFree f] (t a b : Address) (x : ℤ) :
    Preserves f (invokeTokenOperation t a b x : Contract H Unit) := by
  unfold invokeTokenOperation
  infer_instance

instance frame_invokeTokenTransfer [EntriesFree f] [TillFree f] [PaymentFree f] (t a b : Address) (x : ℤ) :
    Preserves f (invokeTokenTransfer t a b x : Contract H Unit) := by
  unfold invokeTokenTransfer
  infer_instance

instance frame_createSettlement [EntriesFree f] (id : ℕ) (o : SettlementOperation) (x : ℤ) (a b : Address) :
    Preserves f (createSettlement id o x a b : Contract H ℕ) := by
  unfold createSettlement
  infer_instance

instance frame_completeSettlement [EntriesFree f] (n id : ℕ) :
    Preserves f (completeSettlement n id : Contract H Unit) := by
  unfold completeSettlement
  infer_instance

instance frame_persistShipment [EntriesFree f] (s : Shipment) :
    Preserves f (persistShipment s : Contract H Unit) := by
  unfold persistShipment
  infer_instance

instance frame_moveStatusCount [EntriesFree f] (s t : ShipmentStatus) :
    Preserves f (moveStatusCount s t : Contract H Unit) := by
  unfold moveStatusCount
  infer_instance

section

-- The edits of a record keep its id, and with it the marks they are about.
variable (s : Shipment) [h : MarksFree f s.id]

instance (t : ShipmentStatus) : MarksFree f (s.withStatus t).id := h

instance (x : ℤ) : MarksFree f (s.withEscrow x).id := h

instance (n : ℕ) : MarksFree f (s.withUpdatedAt n).id := h

instance (n : ℕ) : MarksFree f (s.touch n).id := h

instance (n : Symbol) : MarksFree f (s.markPaid n).id := h

end

instance frame_internalReleaseEscrow (s : Shipment) (x : ℤ) [EntriesFree f] [MarksFree f s.id]
    [TillFree f] [PlainFree f] [PaymentFree f] :
    Preserves f (internalReleaseEscrow s x : Contract H Shipment) := by
  unfold internalReleaseEscrow
  dsimp only
  infer_instance

end Navin
