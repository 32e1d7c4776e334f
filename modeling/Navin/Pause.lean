/-
# The pause

A paused contract refuses the calls that open with the check. The others go on: a
missed deadline is settled, carriers hand over and report breaches, the admin
archives and repairs records, and an approved proposal settles a shipment.

Key definitions:
- `Heeds`: a function that cannot commit while the contract is paused;
- `Standstill`: records, escrow, counters and tokens are as they were;
- `World.Defies`: the calls that change something in spite of the pause.

Key theorems:
- `paused_standstill_iff`.
-/
import Navin.Archive
import Navin.Settlements
import Navin.Token

namespace Navin

open Tx

set_option synthInstance.maxSize 4000

variable {H : Host}

/-! ### Functions that heed the pause -/

/-- The function does not commit while the contract is paused. -/
structure Heeds {α : Type} (m : Contract H α) : Prop where
  out : ∀ env w, w.governance.isPaused = true → wp m env w fun _ _ => False

namespace Heeds

variable {α β : Type}

theorem openCall (a : Address) : Heeds (openCall a : Contract H Unit) := ⟨fun env w hp => by
  unfold Navin.openCall requireNotPaused
  simp only [wp_bind, wp_gets, wp_rejectIf]
  refine wp_guard fun _ hn => ?_
  exact absurd hp hn⟩

/-- The check comes first. -/
theorem bind {m : Contract H α} {k : α → Contract H β} (hm : Heeds m) : Heeds (m >>= k) :=
  ⟨fun env w hp => by
    rw [wp_bind]
    exact (hm.out env w hp).mono fun _ _ h => h.elim⟩

end Heeds

/-- The calls that open with the check. -/
def Call.heedsPause : Call → Bool
  | .initializeContract .. | .setCreationQuota .. | .transferAdmin .. | .acceptAdminTransfer ..
  | .pause .. | .unpause .. | .resetCircuitBreaker .. | .setCircuitBreakerConfig .. | .upgrade ..
  | .extendTtl .. | .archiveShipment .. | .updateEta .. | .handoffShipment ..
  | .reportConditionBreach .. | .checkDeadline .. | .initMultisig .. | .proposeAction ..
  | .proposeActionWithSalt .. | .approveAction .. | .executeProposal .. | .recoverShipment ..
  | .unlockEscrow .. | .clearFinalization .. | .rollbackOnExternalFailure .. => false
  | _ => true

theorem Call.heeds {call : Call} (h : call.heedsPause = true) : Heeds (call.exec : Contract H Unit) := by
  cases call with
  | createShipment => exact .bind (.bind (.openCall _))
  | createShipmentsBatch => exact .bind (.bind (.openCall _))
  | recordMilestone => exact .bind (.bind (.openCall _))
  | recordMilestonesBatch => exact .bind (.bind (.openCall _))
  | _ => first | cases h; done | exact .bind (.openCall _)

/-- A call that commits while the contract is paused does not heed the pause. -/
theorem heedsPause_eq_false {call : Call} {env : Env} {w w' : World H}
    (hp : w.governance.isPaused = true) (hx : call.exec env w = .ok () w') : call.heedsPause = false := by
  by_contra hn
  exact (Call.heeds (by simpa using hn)).out env w hp () w' hx

/-! ### What a pause should hold back -/

/-- No record, `Escrow` entry or status counter changed, and no token moved. -/
structure Standstill (w w' : World H) (trace : List Effect) : Prop where
  shipment_eq : w'.ledger.shipment = w.ledger.shipment
  archivedShipment_eq : w'.ledger.archivedShipment = w.ledger.archivedShipment
  escrow_eq : w'.ledger.escrow = w.ledger.escrow
  statusCount_eq : w'.ledger.statusCount = w.ledger.statusCount
  transfers_eq : transfersOf trace = []

/-- The stored record is one that a write with a new update time and nonce leaves
as it is: it was updated at the same time, and the nonce is at its maximum. -/
def World.Touched (w : World H) (id now : ℕ) (P : Shipment → Prop) : Prop :=
  ∃ s, w.ledger.shipment id = some s ∧ P s ∧ s.updatedAt = now ∧ s.integrationNonce = u32Max

/-- The actions that settle a shipment. -/
def AdminAction.settles : AdminAction → Bool
  | .forceRelease _ | .forceRefund _ => true
  | _ => false

/-- The calls that go through in spite of a pause and change something. -/
def World.Defies (w : World H) (env : Env) : Call → Prop
  | .checkDeadline .. | .archiveShipment .. | .recoverShipment .. | .unlockEscrow ..
  | .clearFinalization .. => True
  | .handoffShipment _ newCarrier id _ => ¬w.Touched id env.timestamp fun s =>
      s.carrier = newCarrier ∧ w.ledger.escrow id = some s.escrowAmount
  | .rollbackOnExternalFailure _ id previousStatus _ => ¬w.Touched id env.timestamp fun s =>
      s.status = previousStatus ∧ s.finalized = false
  | .reportConditionBreach _ id _ severity _ => w.getConfig.autoDisputeBreach = true ∧
      severity = .critical ∧ ∃ s, w.getShipment id = some s ∧ s.status ≠ .cancelled ∧
        s.status ≠ .disputed
  | .executeProposal pid => (w.executing (.executeProposal pid)).any (·.settles) = true
  | .approveAction a pid => (w.executing (.approveAction a pid)).any (·.settles) = true
  | _ => False

/-! ### Calls that change no table -/

/-- What a standstill keeps, as one observation. -/
def World.tables (w : World H) : (ℕ → Option Shipment) × (ℕ → Option Shipment) × (ℕ → Option ℤ) ×
    (ShipmentStatus → ℕ) × List (Address × Address × ℤ) :=
  (w.ledger.shipment, w.ledger.archivedShipment, w.ledger.escrow, w.ledger.statusCount,
    transfersOf w.trace)

theorem standstill_iff {w w' : World H} :
    Standstill w w'.fresh w'.trace ↔ w'.tables = w.fresh.tables := by
  constructor
  · rintro ⟨h₁, h₂, h₃, h₄, h₅⟩
    exact Prod.ext h₁ (Prod.ext h₂ (Prod.ext h₃ (Prod.ext h₄ h₅)))
  · intro h
    simp only [World.tables, Prod.mk.injEq] at h
    exact ⟨h.1, h.2.1, h.2.2.1, h.2.2.2.1, h.2.2.2.2⟩

theorem transfersOf_append (l k : List Effect) : transfersOf (l ++ k) = transfersOf l ++ transfersOf k :=
  List.filterMap_append ..

instance : RegistryFree (World.tables (H := H)) := ⟨fun _ _ => rfl⟩

instance : DossierFree (World.tables (H := H)) := ⟨fun _ _ => rfl⟩

instance : GovernanceFree (World.tables (H := H)) := ⟨fun _ _ => rfl⟩

instance : AuthFree (World.tables (H := H)) := ⟨fun w a => by
  simp only [World.tables, transfersOf_append]
  simp [transfersOf]⟩

instance : PlainFree (World.tables (H := H)) := ⟨fun w e he => by
  simp only [World.tables, transfersOf_append]
  simp [transfersOf]⟩

instance (a : Address) : Preserves (World.tables (H := H)) (setAdmin a) := Preserves.modify fun _ => rfl

instance (a : Address) : Preserves (World.tables (H := H)) (setTokenContract a) :=
  Preserves.modify fun _ => rfl

instance (n : ℕ) : Preserves (World.tables (H := H)) (setShipmentCounter n) :=
  Preserves.modify fun _ => rfl

instance tables_initializeContract (a t : Address) :
    Preserves (World.tables (H := H)) (initializeContract a t) := by
  unfold initializeContract
  infer_instance

instance tables_acceptAdminTransfer (a : Address) :
    Preserves (World.tables (H := H)) (acceptAdminTransfer a) := by
  unfold acceptAdminTransfer
  infer_instance

theorem tables_performAction {a : Address} {action : AdminAction} (h : action.settles = false) :
    Preserves (World.tables (H := H)) (performAction a action) := by
  cases action with
  | upgrade => unfold performAction; infer_instance
  | transferAdmin => unfold performAction; infer_instance
  | forceRelease => cases h
  | forceRefund => cases h

/-! ### Calls that rewrite a record -/

/-- Some record is stored as another one. -/
def Rewritten (w w' : World H) : Prop :=
  ∃ id s s', w.getShipment id = some s ∧ w'.ledger.shipment id = some s' ∧ s' ≠ s

theorem Rewritten.tables_ne {w w' : World H} (h : Rewritten w w') : w'.tables ≠ w.tables := by
  obtain ⟨id, s, s', hs, hs', hne⟩ := h
  intro heq
  have hl : w'.ledger.shipment = w.ledger.shipment := congrArg Prod.fst heq
  rw [hl] at hs'
  unfold World.getShipment at hs
  rw [hs'] at hs
  exact hne (Option.some.inj hs)

theorem rewritten_of_store {w w₁ w' : World H} {s s' : Shipment} (hs : w.getShipment s.id = some s)
    (hid : s'.id = s.id) (hw' : w'.book = w₁.book.store s') (hne : s' ≠ s) : Rewritten w w' := by
  refine ⟨s.id, s, s', hs, ?_, hne⟩
  rw [← book_ledger, hw', ← hid]
  exact Function.update_self ..

variable {env : Env} {w : World H}

/-- A forced settlement stores the shipment with the status it is for. -/
theorem rewritten_forceSettle {id : ℕ} {status : ShipmentStatus} {recipient : Shipment → Address}
    {emitPaid : ℕ → Address → ℤ → Contract H Unit} (hk : w.ledger.Keyed)
    (hst : status = .delivered ∨ status = .cancelled) :
    wp (forceSettle id status recipient emitPaid) env w fun _ w' => Rewritten w w' := by
  unfold forceSettle
  simp only [wp_bind, wp_timestamp, wp_rejectIf]
  refine wp_load hk ?_
  rintro s rfl hs hopen
  refine .of_forall fun left w₁ => .of_forall fun _ w₂ => .of_forall fun _ w₃ => ?_
  refine wp_persistShipment fun _ w' hw' => ?_
  refine rewritten_of_store hs (by rfl) hw' fun heq => hopen ?_
  have hstatus : status = s.status := congrArg Shipment.status heq
  rwa [hstatus] at hst

theorem rewritten_performAction {a : Address} {action : AdminAction} (hk : w.ledger.Keyed)
    (h : action.settles = true) :
    wp (performAction a action) env w fun _ w' => Rewritten w w' := by
  cases action with
  | upgrade => cases h
  | transferAdmin => cases h
  | forceRelease => exact rewritten_forceSettle hk (.inl rfl)
  | forceRefund => exact rewritten_forceSettle hk (.inr rfl)

instance : RegistryFree (World.ledger (H := H)) := ⟨fun _ _ => rfl⟩

/-- What executing a proposal does to the tables. -/
theorem tables_executeProposalInternal {pid : ℕ} (hk : w.ledger.Keyed) :
    wp (executeProposalInternal pid) env w fun _ w' => ∃ p, w.governance.proposal pid = some p ∧
      (if p.action.settles then Rewritten w w' else w'.tables = w.tables) := by
  unfold executeProposalInternal
  simp only [wp_bind, wp_gets, wp_okOr, wp_rejectIf, wp_timestamp, wp_modifyGovernance, wp_log]
  intro p hp _ _ _
  cases hset : p.action.settles with
  | true =>
    refine wp.mono (rewritten_performAction hk hset) fun _ w' hw' => ⟨p, hp, ?_⟩
    rw [hset]
    exact hw'
  | false =>
    have := tables_performAction (H := H) (a := p.proposer) hset
    refine Preserves.wp World.tables fun _ w' hw' => ⟨p, hp, ?_⟩
    rw [hset]
    exact (PlainFree.out (f := World.tables) w' _ rfl).trans hw'

theorem tables_approveAction {a : Address} {pid : ℕ} (hk : w.ledger.Keyed) :
    wp (approveAction a pid) env w fun _ w' =>
      if (w.executing (.approveAction a pid)).any (·.settles) then Rewritten w w'
      else w'.tables = w.tables := by
  unfold approveAction
  simp only [wp_bind, wp_gets, wp_okOr, wp_rejectIf, wp_timestamp, wp_modifyGovernance, wp_log, wp_when]
  refine wp_guard fun _ => ?_
  refine wp_requireAuth fun _ _ p hp _ _ _ => ?_
  have hp : w.governance.proposal pid = some p := hp
  have happroved : ∀ g e, Effect.payment? (.event e) = none → World.tables
      { w.signed a with governance := g, trace := (w.signed a).trace ++ [.event e] } = w.tables := by
    intro g e he
    have ht : (w.signed a).tables = w.tables := AuthFree.out w a
    rw [← ht]
    exact PlainFree.out (f := World.tables) { w.signed a with governance := g } e he
  constructor
  · intro hthr
    refine wp.mono (tables_executeProposalInternal hk) fun _ w' h => ?_
    obtain ⟨q, hq, hw'⟩ := h
    rw [World.executing_of_approved hp hq (by simpa using hthr), Option.any_some]
    rw [happroved _ _ rfl] at hw'
    exact hw'
  · intro hthr
    have hx : w.executing (.approveAction a pid) = none := by
      have hthr : ¬w.governance.multisigThreshold.getD 2 ≤ p.approvals.length + 1 := by simpa using hthr
      simp [World.executing, hp, hthr]
    rw [hx]
    exact happroved _ _ rfl

theorem tables_executeProposal {pid : ℕ} (hk : w.ledger.Keyed) :
    wp (executeProposal pid) env w fun _ w' =>
      if (w.executing (.executeProposal pid)).any (·.settles) then Rewritten w w'
      else w'.tables = w.tables := by
  unfold executeProposal
  rw [wp_bind]
  refine wp_guard fun _ => ?_
  refine (tables_executeProposalInternal hk).mono fun _ w' ⟨p, hp, hw'⟩ => ?_
  simpa [World.executing, hp] using hw'

/-- A breach report changes the record exactly when it raises a dispute. -/
theorem tables_reportConditionBreach {a : Address} {id : ℕ} {breach : BreachType} {severity : Severity}
    {hash : BytesN32} (hk : w.ledger.Keyed) :
    wp (reportConditionBreach a id breach severity hash) env w fun _ w' =>
      (w.Defies env (.reportConditionBreach a id breach severity hash) → Rewritten w w') ∧
      (¬w.Defies env (.reportConditionBreach a id breach severity hash) → w'.tables = w.tables) := by
  unfold reportConditionBreach
  simp only [wp_bind, wp_gets, wp_rejectIf, wp_timestamp, wp_when]
  refine wp_guard fun _ => ?_
  refine wp_requireAuth fun _ => ?_
  refine wp_guard fun _ => ?_
  refine wp_guard fun _ => ?_
  refine wp_load (w := w.signed a) hk ?_
  rintro s rfl hs
  have hs : w.getShipment s.id = some s := hs
  have ht : (w.signed a).tables = w.tables := AuthFree.out w a
  refine wp_guard fun _ => ?_
  refine wp_guard fun _ _ _ => ?_
  refine Preserves.wp World.tables fun _ w₁ h₁ => ?_
  refine Preserves.wp World.tables fun _ w₂ h₂ => ?_
  refine Preserves.wp World.tables fun _ w₃ h₃ => ?_
  refine ⟨fun hauto => ?_, fun hauto => ⟨fun hd => absurd hd ?_, fun _ => ?_⟩⟩
  · refine wp_modifyLedger fun w₄ h₄ => ?_
    refine wp_moveStatusCount fun w₅ h₅ => ?_
    have hs' : w₅.book.ledger.shipment s.id = some ((s.withStatus .disputed).touch env.timestamp) := by
      rw [h₅, h₄]
      exact Function.update_self ..
    have hd : w.Defies env (.reportConditionBreach a s.id breach severity hash) :=
      ⟨hauto.1, hauto.2.1, s, hs, hauto.2.2⟩
    -- the rest of the call tells of the dispute
    simp only [← wp_bind]
    refine wp_quiet fun _ w' h' => ?_
    rw [← h'] at hs'
    refine ⟨fun _ => ⟨s.id, s, _, hs, hs', fun heq => ?_⟩, fun hn => absurd hd hn⟩
    exact hauto.2.2.2 (congrArg Shipment.status heq).symm
  · rintro ⟨h₁, h₂, t, ht, h₃, h₄⟩
    obtain rfl : t = s := Option.some.inj (ht.symm.trans hs)
    exact hauto ⟨h₁, h₂, h₃, h₄⟩
  · rw [h₃, h₂, h₁, ht]

/-! ### Postings -/

variable {w' : World H} {call : Call} {p : Posting}

theorem PostedBy.rewritten (hp : PostedBy env w call p w'.book) (hne : p.new ≠ p.old) :
    Rewritten w w' := by
  obtain ⟨t, token, -, -, hb⟩ := hp.posted
  refine ⟨p.old.id, p.old, p.new, hp.stored, ?_, hne⟩
  rw [← book_ledger, hb, ← hp.rule.keeps.id_eq]
  exact Function.update_self ..

/-- A posting that moves neither money nor counters leaves the tables alone when it
writes what is there. -/
theorem PostedBy.tables_eq_iff (hp : PostedBy env w call p w'.book) (hc : p.counted = false)
    (hm : p.moves = []) : w'.tables = w.tables ↔
      p.new = p.old ∧ w.ledger.shipment p.old.id = some p.old ∧
        w.ledger.mirrored p.mirror p.old = w.ledger.escrow := by
  by_cases hne : p.new = p.old
  · obtain ⟨t, token, -, -, hb⟩ := hp.posted
    have hl : w'.ledger = _ := congrArg Book.ledger hb
    have htr : transfersOf w'.trace = transfersOf w.trace := by
      have hpays : paymentsOf w'.trace = _ := congrArg Book.pays hb
      rw [Navin.transfersOf_eq, Navin.transfersOf_eq, hpays]
      simp [Posting.pays, hm, World.book]
    unfold World.tables
    rw [htr, hl]
    simp only [Ledger.post, Ledger.recounted, hc, book_ledger, Prod.mk.injEq, hne,
      Function.update_eq_self_iff, eq_comm (a := some p.old)]
    simp
  · exact iff_of_false (hp.rewritten hne).tables_ne fun h => hne h.1

theorem saturatingAddU32_eq_self {n : ℕ} : saturatingAddU32 n 1 = n ↔ n = u32Max := by
  unfold saturatingAddU32
  omega

namespace Shipment

variable {s : Shipment} {now : ℕ}

theorem touch_eq_self : s.touch now = s ↔ s.updatedAt = now ∧ s.integrationNonce = u32Max := by
  rw [← saturatingAddU32_eq_self]
  constructor
  · intro h
    exact ⟨(congrArg Shipment.updatedAt h).symm, congrArg Shipment.integrationNonce h⟩
  · rintro ⟨h₁, h₂⟩
    unfold touch
    rw [h₂, ← h₁]

/-- A hand-over that changes nothing. -/
theorem withCarrier_touch_eq_self {carrier : Address} : (s.withCarrier carrier).touch now = s ↔
    s.carrier = carrier ∧ s.updatedAt = now ∧ s.integrationNonce = u32Max := by
  rw [← touch_eq_self]
  constructor
  · intro h
    have hc : carrier = s.carrier := congrArg Shipment.carrier h
    rw [hc] at h
    exact ⟨hc.symm, h⟩
  · rintro ⟨rfl, h⟩
    exact h

/-- A rollback that changes nothing. -/
theorem rollback_eq_self {status : ShipmentStatus} :
    ((s.withFinalized false).withStatus status).touch now = s ↔
      (s.status = status ∧ s.finalized = false) ∧ s.updatedAt = now ∧ s.integrationNonce = u32Max := by
  rw [← touch_eq_self]
  have hsame : s.finalized = false → (s.withFinalized false).withStatus s.status = s := by
    intro hf
    unfold withStatus withFinalized
    rw [← hf]
  constructor
  · intro h
    have hst : status = s.status := congrArg Shipment.status h
    have hf : false = s.finalized := congrArg Shipment.finalized h
    rw [hst, hsame hf.symm] at h
    exact ⟨⟨hst.symm, hf.symm⟩, h⟩
  · rintro ⟨⟨rfl, hf⟩, h⟩
    rw [hsame hf]
    exact h

end Shipment

/-- The record a hand-over or a rollback has found, stored live. -/
theorem touched_iff {s : Shipment} {now : ℕ} {P : Shipment → Prop} (hs : w.getShipment s.id = some s) :
    w.Touched s.id now P ↔
      P s ∧ (s.updatedAt = now ∧ s.integrationNonce = u32Max) ∧ w.ledger.shipment s.id = some s := by
  constructor
  · rintro ⟨t, hl, hP, ht⟩
    unfold World.getShipment at hs
    rw [hl] at hs
    obtain rfl : t = s := Option.some.inj hs
    exact ⟨hP, ht, hl⟩
  · rintro ⟨hP, ht, hl⟩
    exact ⟨s, hl, hP, ht⟩

/-- A posting of a call that does not heed the pause writes something new exactly
when the call defies the pause. -/
theorem PostedBy.tables_iff (hp : PostedBy env w call p w'.book) (hh : call.heedsPause = false)
    (hc : call.posts = true) : w'.tables = w.tables ↔ ¬w.Defies env call := by
  have changed : p.new ≠ p.old → w.Defies env call → (w'.tables = w.tables ↔ ¬w.Defies env call) :=
    fun hne hd => iff_of_false (hp.rewritten hne).tables_ne (not_not_intro hd)
  cases hr : hp.rule with
  | @handoffShipment newCarrier s =>
    have hmir : w.ledger.mirrored .synced s = w.ledger.escrow ↔
        w.ledger.escrow s.id = some s.escrowAmount := by
      unfold Ledger.mirrored
      rw [Function.update_eq_self_iff, eq_comm]
    rw [hp.tables_eq_iff rfl rfl, World.Defies, not_not, touched_iff hp.stored,
      Shipment.withCarrier_touch_eq_self, hmir]
    constructor
    · rintro ⟨⟨h₁, h₂⟩, h₃, h₄⟩
      exact ⟨⟨h₁, h₄⟩, h₂, h₃⟩
    · rintro ⟨⟨h₁, h₄⟩, h₂, h₃⟩
      exact ⟨⟨h₁, h₂⟩, h₃, h₄⟩
  | @rollbackOnExternalFailure _ s status =>
    rw [hp.tables_eq_iff rfl rfl, World.Defies, not_not, touched_iff hp.stored,
      Shipment.rollback_eq_self]
    constructor
    · rintro ⟨⟨h₁, h₂⟩, h₃, -⟩
      exact ⟨h₁, h₂, h₃⟩
    · rintro ⟨h₁, h₂, h₃⟩
      exact ⟨⟨h₁, h₂⟩, h₃, rfl⟩
  | checkDeadline _ _ _ hne => exact changed (fun heq => hne (congrArg Shipment.status heq).symm) trivial
  | recoverShipment _ hne => exact changed (fun heq => hne (congrArg Shipment.status heq).symm) trivial
  | unlockEscrow _ hne => exact changed (fun heq => hne (congrArg Shipment.escrowAmount heq).symm) trivial
  | clearFinalization _ hf =>
    refine changed (fun heq => ?_) trivial
    have heq : false = Shipment.finalized _ := congrArg Shipment.finalized heq
    rw [hf] at heq
    cases heq
  | forceRelease hf => rw [posts_of_executing hf] at hc; cases hc
  | forceRefund hf => rw [posts_of_executing hf] at hc; cases hc
  | reportConditionBreach => cases hc
  | _ => cases hh

/-- A call that commits and does not heed the pause leaves the tables alone exactly
when it does not defy the pause. -/
theorem tables_exec_iff (hs : w.ledger.Sound) (hh : call.heedsPause = false)
    (hx : call.exec env w = .ok () w') : w'.tables = w.tables ↔ ¬w.Defies env call := by
  have same : ∀ {m : Contract H Unit}, Preserves World.tables m → m env w = .ok () w' →
      ¬w.Defies env call → (w'.tables = w.tables ↔ ¬w.Defies env call) :=
    fun hm hx hd => iff_of_true (hm.out env w () w' hx) hd
  have split : ∀ {b : Bool}, (if b then Rewritten w w' else w'.tables = w.tables) →
      (w'.tables = w.tables ↔ ¬b = true) := by
    intro b h
    cases b with
    | true => exact iff_of_false h.tables_ne (not_not_intro rfl)
    | false => exact iff_of_true h Bool.false_ne_true
  by_cases hc : call.posts = true
  · obtain ⟨p, hp⟩ := (exec_effects hs.keyed hx).exists_posting hc
    exact hp.tables_iff hh hc
  cases call with
  | archiveShipment a id =>
    obtain ⟨s, hl, -, hb⟩ := wp_archiveShipment () w' hx
    refine iff_of_false (fun heq => ?_) (not_not_intro trivial)
    have hl' : w'.ledger.shipment id = none := by
      rw [← book_ledger, hb]
      exact Function.update_self ..
    have heq : w'.ledger.shipment = w.ledger.shipment := congrArg Prod.fst heq
    rw [heq, hl] at hl'
    cases hl'
  | reportConditionBreach =>
    have h := tables_reportConditionBreach hs.keyed () w' hx
    exact ⟨fun heq hd => (h.1 hd).tables_ne heq, h.2⟩
  | approveAction => exact split (tables_approveAction hs.keyed () w' hx)
  | executeProposal => exact split (tables_executeProposal hs.keyed () w' hx)
  | _ =>
    first
    | cases hh
      done
    | exact absurd rfl hc
    | unfold Call.exec at hx
      exact same inferInstance hx id

/-- In every reachable state with the contract paused, a committed call leaves the
records, the escrow, the counters and the tokens alone exactly when it is not one of
those that defy the pause. -/
theorem paused_standstill_iff {c c' : Chain H} (hc : Reachable c)
    (hp : c.world.governance.isPaused = true) {trace : List Effect}
    (hstep : Step c (.committed call env trace) c') :
    Standstill c.world c'.world trace ↔ ¬c.world.Defies env call := by
  cases hstep with
  | @committed _ _ w' _ hx =>
    rw [standstill_iff]
    have hs : c.world.fresh.ledger.Sound := hc.sound
    have hp : c.world.fresh.governance.isPaused = true := hp
    exact tables_exec_iff hs (heedsPause_eq_false hp hx) hx

/-- While the contract is paused the carrier tells a new time of arrival. -/
theorem paused_standstill_updateEta : ∃ (c c' : Chain Deployment.host) (call : Call) (env : Env)
    (trace : List Effect), Reachable c ∧ c.world.governance.isPaused = true ∧
      Step c (.committed call env trace) c' ∧ ¬c.world.Defies env call ∧
      Standstill c.world c'.world trace := by
  obtain ⟨ls, c, trace, c', hr, hstep, hp⟩ := exists_commit Deployment.chain
    (Deployment.opening ++ [
      Deployment.signed Deployment.company 5 (.depositEscrow Deployment.company 1 1000),
      Deployment.signed Deployment.admin 6 (.pause Deployment.admin)])
    (.updateEta Deployment.carrier 1 9000 2)
    ⟨7, 7, fun a => a = Deployment.carrier, fun _ => true⟩
    (fun r _ _ => r.2.world.governance.isPaused = true)
    (by decide +kernel)
  have hc : Reachable c := ⟨_, ls, Deployment.deployed, hr⟩
  exact ⟨c, c', _, _, trace, hc, hp, hstep, id, (paused_standstill_iff hc hp hstep).mpr id⟩

/-- The deadline of a funded shipment passes while the contract is paused: anybody
cancels it, and the escrow leaves the contract. -/
theorem checkDeadline_while_paused :
    ¬∀ (c c' : Chain Deployment.host) (call : Call) (env : Env) (trace : List Effect), Reachable c →
      c.world.governance.isPaused = true → (∀ a, call ≠ .pause a) → (∀ a, call ≠ .unpause a) →
      Step c (.committed call env trace) c' → Standstill c.world c'.world trace := by
  intro hall
  obtain ⟨ls, c, trace, c', hr, hstep, hp, htr⟩ := exists_commit Deployment.chain
    (Deployment.opening ++ [
      Deployment.signed Deployment.company 5 (.depositEscrow Deployment.company 1 1000),
      Deployment.signed Deployment.admin 6 (.pause Deployment.admin)])
    (.checkDeadline 1) ⟨20000, 20000, fun _ => false, fun _ => true⟩
    (fun r trace _ => r.2.world.governance.isPaused = true ∧
      transfersOf trace = [(Deployment.self, Deployment.company, 1000)])
    (by decide +kernel)
  have hstill := hall c c' _ _ trace ⟨_, ls, Deployment.deployed, hr⟩ hp (fun _ h => by cases h)
    (fun _ h => by cases h) hstep
  rw [hstill.transfers_eq] at htr
  cases htr

end Navin
