/-
# Shipments are kept apart

A call is about one shipment or about none, and it leaves the record, the `Escrow`
entry and the file of every other shipment as they were. Most calls name the
shipment they write to; a payment to the carrier writes to the shipment it has
loaded, a creation to the next number, an executed proposal to the one it names.

Key definitions:
- `File`: all that is kept beside one shipment;
- `Call.subject?`, `World.About`: the shipment a call is about.

Key theorems:
- `wp_file`: a call leaves the files of other shipments alone;
- `unrelated_unchanged`.
-/
import Navin.Sound
import Navin.Token

namespace Navin

open Tx

set_option synthInstance.maxSize 4000

variable {H : Host}

/-! ### The file of a shipment -/

/-- The entries beside one shipment. -/
structure File where
  marks : Marks
  statusHash : ShipmentStatus → Option BytesN32
  noteCount : Option ℕ
  note : ℕ → Option BytesN32
  evidenceCount : Option ℕ
  evidence : ℕ → Option BytesN32
  recoveryRecordCount : Option ℕ
  recoveryRecord : ℕ → Option RecoveryRecord
  shipmentDependents : List ℕ

def Papers.file (p : Papers) (m : Marks) (j : ℕ) : File where
  marks := m
  statusHash := p.statusHash j
  noteCount := p.noteCount j
  note := p.note j
  evidenceCount := p.evidenceCount j
  evidence := p.evidence j
  recoveryRecordCount := p.recoveryRecordCount j
  recoveryRecord := p.recoveryRecord j
  shipmentDependents := p.shipmentDependents j

/-- What is kept beside the shipment `j`. -/
def World.file (j : ℕ) (w : World H) : File := w.dossier.papers.file (w.dossier.marks j) j

theorem purgeCount_of_ne {j id : ℕ} (h : j ≠ id) (f : ℕ → Option ℕ) (n : ℕ) :
    purgeCount f id n j = f j := by
  unfold purgeCount
  split
  · exact Function.update_of_ne h _ _
  · rfl

theorem purgeBelow_of_ne {γ : Type} {j id : ℕ} (h : j ≠ id) (f : ℕ → ℕ → Option γ) (n : ℕ) :
    purgeBelow f id n j = f j := by
  funext i
  exact if_neg fun hi => h hi.1

theorem purgeStatusHashes_of_ne {j id : ℕ} (h : j ≠ id) (f : ℕ → ShipmentStatus → Option BytesN32) :
    purgeStatusHashes f id j = f j := by
  funext s
  exact if_neg fun hi => h hi.1

section

variable (j id : ℕ)

instance : LedgerFree (World.file (H := H) j) := ⟨fun _ _ => rfl⟩

instance : RegistryFree (World.file (H := H) j) := ⟨fun _ _ => rfl⟩

instance : GovernanceFree (World.file (H := H) j) := ⟨fun _ _ => rfl⟩

instance : AuthFree (World.file (H := H) j) := ⟨fun _ _ => rfl⟩

instance : PlainFree (World.file (H := H) j) := ⟨fun _ _ _ => rfl⟩

instance : PaymentFree (World.file (H := H) j) := ⟨fun _ _ _ => rfl⟩

variable [hj : Fact (j ≠ id)]

instance : MarksFree (World.file (H := H) j) id := ⟨fun w d h => by
  unfold World.file
  rw [h.papers_eq, h.marks_eq j hj.out]⟩

/-- What is filed under another shipment. -/
theorem file_filed {g : Dossier → Dossier}
    (h : ∀ d : Dossier, (g d).papers.file ((g d).marks j) j = d.papers.file (d.marks j) j) :
    Preserves (World.file (H := H) j) (modifyDossier g) := Preserves.modify fun w => h w.dossier

instance file_setStatusHash (s : ShipmentStatus) (x : BytesN32) :
    Preserves (World.file (H := H) j) (setStatusHash id s x) :=
  file_filed j fun d => by simp [Papers.file, Dossier.marks, update₂, hj.out]

instance file_incrementNoteCount : Preserves (World.file (H := H) j) (incrementNoteCount id) := by
  have (n : ℕ) := file_filed (H := H) j (g := fun d =>
    { d with noteCount := Function.update d.noteCount id (some n) })
    fun d => by simp [Papers.file, Dossier.marks, hj.out]
  unfold incrementNoteCount
  infer_instance

instance file_setNoteHash (i : ℕ) (x : BytesN32) :
    Preserves (World.file (H := H) j) (setNoteHash id i x) :=
  file_filed j fun d => by simp [Papers.file, Dossier.marks, update₂, hj.out]

instance file_incrementEvidenceCount :
    Preserves (World.file (H := H) j) (incrementEvidenceCount id) := by
  have (n : ℕ) := file_filed (H := H) j (g := fun d =>
    { d with evidenceCount := Function.update d.evidenceCount id (some n) })
    fun d => by simp [Papers.file, Dossier.marks, hj.out]
  unfold incrementEvidenceCount
  infer_instance

instance file_setEvidenceHash (i : ℕ) (x : BytesN32) :
    Preserves (World.file (H := H) j) (setEvidenceHash id i x) :=
  file_filed j fun d => by simp [Papers.file, Dossier.marks, update₂, hj.out]

instance file_appendRecoveryRecord (r : RecoveryRecord) :
    Preserves (World.file (H := H) j) (appendRecoveryRecord id r) := by
  have (n : ℕ) := file_filed (H := H) j (g := fun d =>
    { d with
      recoveryRecord := update₂ d.recoveryRecord id n (some r)
      recoveryRecordCount := Function.update d.recoveryRecordCount id (some (n + 1)) })
    fun d => by simp [Papers.file, Dossier.marks, update₂, hj.out]
  unfold appendRecoveryRecord
  infer_instance

instance file_setShipmentDependency (p : ℕ) :
    Preserves (World.file (H := H) j) (setShipmentDependency id p) :=
  file_filed j fun d => by simp [Papers.file, Dossier.marks, hj.out]

instance file_storageArchiveShipment (s : Shipment) :
    Preserves (World.file (H := H) j) (storageArchiveShipment id s) := by
  have := file_filed (H := H) j (g := fun d => { d with
    confirmationHash := Function.update d.confirmationHash id none
    lastStatusUpdate := Function.update d.lastStatusUpdate id none
    eventCount := Function.update d.eventCount id none
    milestoneEventCount := Function.update d.milestoneEventCount id none
    breachEventCount := Function.update d.breachEventCount id none
    escrowFreezeReason := Function.update d.escrowFreezeReason id none })
    fun d => by simp [Papers.file, Dossier.marks, hj.out]
  have (notes evidence records : ℕ) := file_filed (H := H) j (g := fun d => { d with
    note := purgeBelow d.note id notes
    noteCount := purgeCount d.noteCount id notes
    evidence := purgeBelow d.evidence id evidence
    evidenceCount := purgeCount d.evidenceCount id evidence
    recoveryRecord := purgeBelow d.recoveryRecord id records
    recoveryRecordCount := purgeCount d.recoveryRecordCount id records
    statusHash := purgeStatusHashes d.statusHash id })
    fun d => by
      simp only [Papers.file, Dossier.marks, purgeBelow_of_ne hj.out, purgeStatusHashes_of_ne hj.out,
        purgeCount_of_ne hj.out]
  unfold storageArchiveShipment
  infer_instance

end

/-! ### Calls that write to the shipment they have loaded -/

variable {env : Env} {w : World H} {j : ℕ}

theorem wp_internalReleaseEscrow_id {s : Shipment} {x : ℤ} :
    wp (internalReleaseEscrow s x) env w fun s' _ => s'.id = s.id := by
  refine wp_internalReleaseEscrow ?_ ?_
  · exact fun _ => rfl
  · exact fun _ _ _ _ _ _ _ _ => rfl

/-- Once the shipment is loaded under its own id, its marks are not those of `j`. -/
theorem file_loaded {id : ℕ} {k : Shipment → Contract H Unit} (hk : w.ledger.Keyed) (hj : j ≠ id)
    (h : ∀ s, MarksFree (World.file (H := H) j) s.id → Preserves (World.file j) (k s)) :
    wp (loadShipment id >>= k) env w fun _ w' => w'.file j = w.file j := by
  rw [wp_bind]
  refine wp_load hk fun s hs _ => ?_
  have hs : j ≠ s.id := hs ▸ hj
  have := Fact.mk hs
  exact (h s inferInstance).out env w

theorem file_confirmDelivery {receiver : Address} {id : ℕ} {hash : BytesN32} (hk : w.ledger.Keyed)
    (hj : j ≠ id) :
    wp (confirmDelivery receiver id hash) env w fun _ w' => w'.file j = w.file j := by
  have := Fact.mk hj
  unfold confirmDelivery
  rw [wp_bind]
  refine wp_openCall fun _ _ => ?_
  rw [wp_bind]
  refine wp_guard fun _ => ?_
  refine file_loaded (w := w.signed receiver) hk hj fun s hs => ?_
  infer_instance

theorem file_confirmPartialDelivery {receiver : Address} {id percent : ℕ} {hash : BytesN32}
    (hk : w.ledger.Keyed) (hj : j ≠ id) :
    wp (confirmPartialDelivery receiver id hash percent) env w fun _ w' => w'.file j = w.file j := by
  have := Fact.mk hj
  unfold confirmPartialDelivery
  rw [wp_bind]
  refine wp_openCall fun _ _ => ?_
  rw [wp_bind]
  refine wp_guard fun _ => ?_
  rw [wp_bind]
  refine wp_guard fun _ => ?_
  refine file_loaded (w := w.signed receiver) hk hj fun s hs => ?_
  dsimp only
  infer_instance

theorem file_recordMilestone {carrier : Address} {id : ℕ} {checkpoint : Symbol} {hash : BytesN32}
    (hk : w.ledger.Keyed) (hj : j ≠ id) :
    wp (recordMilestone carrier id checkpoint hash) env w fun _ w' => w'.file j = w.file j := by
  have := Fact.mk hj
  unfold recordMilestone openCarrierCall
  simp only [wp_bind]
  refine wp_openCall fun _ _ => ?_
  refine wp_guard fun _ => ?_
  refine wp_guard fun _ => ?_
  simp only [← wp_bind]
  refine file_loaded (w := w.signed carrier) hk hj fun s hs => ?_
  infer_instance

theorem file_releaseMilestonePayment {caller : Address} {id : ℕ} {name : Symbol}
    (hk : w.ledger.Keyed) (hj : j ≠ id) :
    wp (releaseMilestonePayment caller id name) env w fun _ w' => w'.file j = w.file j := by
  have := Fact.mk hj
  unfold releaseMilestonePayment
  rw [wp_bind]
  refine wp_openCall fun _ _ => ?_
  refine file_loaded (w := w.signed caller) hk hj fun s hs => ?_
  dsimp only
  infer_instance

theorem file_releaseEscrow {caller : Address} {id : ℕ} (hk : w.ledger.Keyed) (hj : j ≠ id) :
    wp (releaseEscrow caller id) env w fun _ w' => w'.file j = w.file j := by
  have := Fact.mk hj
  unfold releaseEscrow withReentrancyLock
  rw [wp_bind]
  refine wp_openCall fun _ _ => ?_
  rw [wp_bind, wp_gets, wp_bind, wp_rejectIf]
  intro _
  rw [wp_bind, wp_modifyGovernance, wp_ensure, wp_bind]
  refine wp_guard fun admin => ?_
  refine file_loaded (w := { w.signed caller with governance := _ }) hk hj fun s hs => ?_
  infer_instance

theorem wp_recordBatchItem_id {carrier : Address} {id : ℕ} {s : Shipment} {item : Symbol × BytesN32} :
    wp (recordBatchItem carrier id s item) env w fun s' _ => s'.id = s.id := by
  unfold recordBatchItem
  rw [wp_bind]
  refine .of_forall fun _ w₁ => ?_
  split
  · rw [wp_pure]
  · rw [wp_ite]
    refine ⟨fun _ => by rw [wp_pure], fun _ => ?_⟩
    rw [wp_bind]
    refine .of_forall fun x w₂ => ?_
    rw [wp_bind]
    exact .of_forall fun _ w₃ => wp_internalReleaseEscrow_id

/-- A batch goes on with the record it was given, under the same id. -/
theorem file_recordMilestonesBatch {carrier : Address} {id : ℕ} {items : List (Symbol × BytesN32)}
    (hk : w.ledger.Keyed) (hj : j ≠ id) :
    wp (recordMilestonesBatch carrier id items) env w fun _ w' => w'.file j = w.file j := by
  have := Fact.mk hj
  unfold recordMilestonesBatch openCarrierCall
  simp only [wp_bind, wp_gets, wp_rejectIf]
  refine wp_openCall fun _ _ => ?_
  refine wp_guard fun _ => ?_
  refine wp_guard fun _ _ => ?_
  refine wp_guard fun _ => ?_
  refine wp_load hk ?_
  rintro s rfl hs
  refine wp_guard fun _ _ _ => ?_
  refine wp_guard fun _ _ => ?_
  refine (wp_foldlM _ (fun _ t w' => t.id = s.id ∧ w'.file j = w.file j) items s _ ⟨rfl, rfl⟩ ?_).mono ?_
  · rintro item _ t w₁ ⟨ht, h₁⟩
    have : MarksFree (World.file (H := H) j) t.id := by
      rw [ht]
      infer_instance
    refine (wp_recordBatchItem_id.and (Preserves.out (f := World.file j) env w₁)).mono fun t' w₂ h₂ => ?_
    exact ⟨h₂.1.trans ht, h₂.2.trans h₁⟩
  · rintro t w₁ ⟨_, h₁⟩
    exact Preserves.wp (World.file j) fun _ w₂ h₂ => h₂.trans h₁

/-! ### Calls that write to the next number -/

/-- A step that changes neither the book nor the file. -/
theorem wp_beside {α : Type} {m : Contract H α} [hb : Preserves World.book m]
    [hf : Preserves (World.file j) m] {Q : α → World H → Prop}
    (h : ∀ a w', w'.book = w.book → w'.file j = w.file j → Q a w') : wp m env w Q :=
  ((hb.out env w).and (hf.out env w)).mono fun a w' hw => h a w' hw.1 hw.2

/-- The new shipment has a number above all shipments. -/
theorem file_storeNewShipment {sender : Address} {input : ShipmentInput} {now : ℕ}
    {config : ContractConfig} (hj : j ≤ w.ledger.shipmentCount) :
    wp (storeNewShipment sender input now config) env w fun _ w' =>
      j ≤ w'.ledger.shipmentCount ∧ w'.file j = w.file j := by
  refine wp.and ?_ ?_
  · refine wp_storeNewShipment fun n w' _ h' => ?_
    have hc : w'.ledger.shipmentCount = w.ledger.shipmentCount + 1 :=
      congrArg (·.ledger.shipmentCount) h'
    omega
  · unfold storeNewShipment
    rw [wp_bind, wp_gets, wp_bind, wp_okOr]
    intro n hn
    have hn : j ≠ n := by
      have := (checkedAddU64_eq_some hn).1
      omega
    have := Fact.mk hn
    exact Preserves.wp (World.file j) fun _ _ h => h

theorem file_createShipment {sender : Address} {input : ShipmentInput}
    (hj : j ≤ w.ledger.shipmentCount) :
    wp (createShipment sender input) env w fun _ w' => w'.file j = w.file j := by
  unfold createShipment
  simp only [wp_bind, wp_gets, wp_rejectIf]
  refine wp_openCall fun _ _ => ?_
  refine wp_guard fun _ => ?_
  refine wp_guard fun _ => ?_
  refine wp_guard fun _ _ => ?_
  refine wp_beside (j := j) fun _ w₁ hb₁ h₁ => ?_
  refine wp_guard fun _ _ _ => ?_
  refine wp_beside (j := j) fun _ w₂ hb₂ h₂ => ?_
  have hle : j ≤ w₂.ledger.shipmentCount := by
    change j ≤ w₂.book.ledger.shipmentCount
    rw [hb₂, hb₁]
    exact hj
  refine (file_storeNewShipment hle).mono fun _ w₃ h₃ => ?_
  rw [h₃.2, h₂, h₁]
  rfl

theorem file_createShipmentsBatch {sender : Address} {shipments : List ShipmentInput}
    (hj : j ≤ w.ledger.shipmentCount) :
    wp (createShipmentsBatch sender shipments) env w fun _ w' => w'.file j = w.file j := by
  unfold createShipmentsBatch
  simp only [wp_bind, wp_gets, wp_rejectIf]
  refine wp_openCall fun _ _ => ?_
  refine wp_guard fun _ _ => ?_
  refine wp_guard fun _ _ => ?_
  refine wp_beside (j := j) fun _ w₁ hb₁ h₁ => ?_
  have hle : j ≤ w₁.ledger.shipmentCount := by
    change j ≤ w₁.book.ledger.shipmentCount
    rw [hb₁]
    exact hj
  refine (wp_foldlM _ (fun _ _ w' => j ≤ w'.ledger.shipmentCount ∧ w'.file j = w.file j)
    shipments [] w₁ ⟨hle, h₁⟩ ?_).mono fun _ _ h => h.2
  rintro input _ ids w₂ ⟨hle, h₂⟩
  unfold createBatchItem
  simp only [wp_bind, wp_rejectIf, wp_pure]
  intro _
  refine wp_guard fun _ => ?_
  refine wp_guard fun _ _ => ?_
  refine (file_storeNewShipment hle).mono fun _ w₃ h₃ => ?_
  exact ⟨h₃.1, h₃.2.trans h₂⟩

/-! ### Calls that execute a proposal -/

/-- An action that is not about the shipment. -/
theorem file_performAction {proposer : Address} {action : AdminAction}
    (h₁ : action ≠ .forceRelease j) (h₂ : action ≠ .forceRefund j) :
    Preserves (World.file (H := H) j) (performAction proposer action) := by
  cases action with
  | upgrade => unfold performAction; infer_instance
  | transferAdmin => unfold performAction; infer_instance
  | forceRelease id =>
    have := Fact.mk (show j ≠ id from fun h => h₁ (by rw [h]))
    unfold performAction
    infer_instance
  | forceRefund id =>
    have := Fact.mk (show j ≠ id from fun h => h₂ (by rw [h]))
    unfold performAction
    infer_instance

theorem file_executeProposalInternal {pid : ℕ}
    (h : ∀ p, w.governance.proposal pid = some p → p.action ≠ .forceRelease j ∧
      p.action ≠ .forceRefund j) :
    wp (executeProposalInternal pid) env w fun _ w' => w'.file j = w.file j := by
  unfold executeProposalInternal
  simp only [wp_bind, wp_gets, wp_okOr, wp_rejectIf, wp_timestamp]
  intro p hp _ _ _
  have : Preserves (World.file (H := H) j) (performAction p.proposer p.action) :=
    file_performAction (h p hp).1 (h p hp).2
  refine Preserves.wp (World.file j) fun _ w₁ h₁ => ?_
  refine Preserves.wp (World.file j) fun _ w₂ h₂ => ?_
  exact Preserves.wp (World.file j) fun _ w₃ h₃ => h₃.trans (h₂.trans h₁)

/-! ### The shipment a call is about -/

/-- The shipment a call names. -/
def Call.subject? : Call → Option ℕ
  | .appendNoteHash _ id _ | .addShipmentDependency _ id _ | .extendTtl id
  | .archiveShipment _ id | .reportGeofenceEvent _ id _ _ | .updateEta _ id _ _ => some id
  | call => call.target?

/-- The call names the shipment, or executes a proposal about it. -/
def World.About (w : World H) (call : Call) (id : ℕ) : Prop :=
  call.subject? = some id ∨ w.executing call = some (.forceRelease id) ∨
    w.executing call = some (.forceRefund id)

theorem World.Concerns.about {call : Call} {id : ℕ} (h : w.Concerns call id) : w.About call id := by
  refine h.imp_left fun ht => ?_
  cases call <;> first | exact ht | cases ht

theorem file_approveAction {approver : Address} {pid : ℕ}
    (h : ¬w.About (.approveAction approver pid) j) :
    wp (approveAction approver pid) env w fun _ w' => w'.file j = w.file j := by
  unfold approveAction
  simp only [wp_bind, wp_gets, wp_okOr, wp_rejectIf, wp_timestamp, wp_modifyGovernance, wp_log, wp_when]
  refine wp_guard fun _ => ?_
  refine wp_requireAuth fun _ _ p hp _ _ _ => ⟨fun hthr => ?_, fun _ => rfl⟩
  have hp : w.governance.proposal pid = some p := hp
  refine file_executeProposalInternal fun q hq => ?_
  have hx : w.executing (.approveAction approver pid) = some q.action :=
    World.executing_of_approved hp hq (by simpa using hthr)
  exact ⟨fun he => h (.inr (.inl (by rw [hx, he]))), fun he => h (.inr (.inr (by rw [hx, he])))⟩

theorem file_executeProposal {pid : ℕ} (h : ¬w.About (.executeProposal pid) j) :
    wp (executeProposal pid) env w fun _ w' => w'.file j = w.file j := by
  unfold executeProposal
  rw [wp_bind]
  refine wp_guard fun _ => ?_
  refine file_executeProposalInternal fun p hp => ?_
  have hx : w.executing (.executeProposal pid) = some p.action := by simp [World.executing, hp]
  exact ⟨fun he => h (.inr (.inl (by rw [hx, he]))), fun he => h (.inr (.inr (by rw [hx, he])))⟩

/-- A call leaves the file of every shipment it is not about. -/
theorem wp_file {call : Call} (hk : w.ledger.Keyed) (hj : j ≤ w.ledger.shipmentCount)
    (h : ¬w.About call j) : wp call.exec env w fun _ w' => w'.file j = w.file j := by
  have other : ∀ id, call.subject? = some id → j ≠ id := fun id hid he => h (.inl (by rw [he, hid]))
  have fact : ∀ id, call.subject? = some id → Fact (j ≠ id) := fun id hid => ⟨other id hid⟩
  cases call with
  | createShipment =>
    unfold Call.exec discard
    simpa using file_createShipment hj
  | createShipmentsBatch =>
    unfold Call.exec discard
    simpa using file_createShipmentsBatch hj
  | confirmDelivery _ id _ => exact file_confirmDelivery hk (other id rfl)
  | confirmPartialDelivery _ id _ _ => exact file_confirmPartialDelivery hk (other id rfl)
  | recordMilestone _ id _ _ => exact file_recordMilestone hk (other id rfl)
  | recordMilestonesBatch _ id _ => exact file_recordMilestonesBatch hk (other id rfl)
  | releaseMilestonePayment _ id _ => exact file_releaseMilestonePayment hk (other id rfl)
  | releaseEscrow _ id => exact file_releaseEscrow hk (other id rfl)
  | approveAction => exact file_approveAction h
  | executeProposal => exact file_executeProposal h
  | _ =>
    unfold Call.exec
    first
    | exact Preserves.out (f := World.file j) env w
    | have := fact _ rfl
      exact Preserves.out (f := World.file j) env w

/-! ### The `Escrow` entry -/

theorem Ledger.escrow_enrolled {Token : Type} {l l' : Ledger Token} {sender : Address} {now : ℕ}
    (he : l.Enrolled sender now l') (hj : j ≤ l.shipmentCount) :
    l'.escrow j = l.escrow j ∧ j ≤ l'.shipmentCount := by
  induction he with
  | nil => exact ⟨rfl, hj⟩
  | @snoc l' input _ _ _ ih =>
    obtain ⟨ih, hle⟩ := ih
    have hne : j ≠ l'.shipmentCount + 1 := by omega
    refine ⟨?_, hle.trans (Nat.le_succ _)⟩
    rw [Ledger.enrol_escrow]
    exact (Function.update_of_ne hne _ _).trans ih

theorem Effects.escrow_eq {call : Call} {b : Book H.Token} (he : Effects env w call b)
    (hj : j ≤ w.ledger.shipmentCount) (h : ¬w.About call j) :
    b.ledger.escrow j = w.ledger.escrow j := by
  cases he with
  | quiet => rfl
  | initialized => rfl
  | handedOver => rfl
  | enrolled _ _ _ he => exact (Ledger.escrow_enrolled he hj).1
  | @archived admin id s hcall =>
    have hne : j ≠ id := by
      rintro rfl
      exact h (.inl (by rw [hcall]; rfl))
    exact Function.update_of_ne hne _ _
  | @posted p b hg hv hr hp =>
    obtain ⟨t, token, -, -, rfl⟩ := hp
    have hne : j ≠ p.new.id := by
      rintro rfl
      rw [hr.keeps.id_eq] at h
      exact h hr.concerns.about
    rw [Ledger.post_escrow]
    exact Ledger.mirrored_of_ne _ _ hne

/-! ### Whole calls -/

/-- The step is a committed call about the shipment. -/
def Label.About (w : World H) (id : ℕ) : Label → Prop
  | .committed call _ _ => w.About call id
  | _ => False

/-- In every reachable state a step leaves the record, the `Escrow` entry and the
file of every existing shipment it is not about. -/
theorem unrelated_unchanged {c c' : Chain H} {l : Label} (hc : Reachable c) (hstep : Step c l c')
    {s : Shipment} (hs : c.world.getShipment j = some s) (hl : ¬l.About c.world j) :
    c'.world.getShipment j = some s ∧ c'.world.ledger.escrow j = c.world.ledger.escrow j ∧
      c'.world.file j = c.world.file j := by
  cases hstep with
  | reverted => exact ⟨hs, rfl, rfl⟩
  | outside => exact ⟨hs, rfl, rfl⟩
  | @committed call env w' _ hx =>
    have hsound : c.world.fresh.ledger.Sound := hc.sound
    have hj : j ≤ c.world.fresh.ledger.shipmentCount := (hsound.ids j s hs).2
    have he := exec_effects hsound.keyed hx
    refine ⟨?_, he.escrow_eq hj hl, wp_file hsound.keyed hj hl () w' hx⟩
    obtain ⟨s', hs', rfl | ⟨p, hp, hold, -⟩⟩ := he.record hsound hs
    · exact hs'
    · refine absurd hp.rule.concerns.about ?_
      rw [hold, hsound.keyed.get hs]
      exact hl

/-- A deposit for one of two shipments of the same parties. -/
theorem unrelated_unchanged_by_deposit : ∃ (c c' : Chain Deployment.host) (l : Label) (s : Shipment),
    Reachable c ∧ Step c l c' ∧ c.world.getShipment 2 = some s ∧
      c'.world.getEscrow 1 = 1000 ∧ c'.world.getShipment 2 = some s ∧
      c'.world.file 2 = c.world.file 2 := by
  obtain ⟨ls, c, trace, c', hr, hstep, hsome, hesc⟩ := exists_commit Deployment.chain
    (Deployment.opening ++ [Deployment.signed Deployment.company 5
      (.createShipment Deployment.company { Deployment.shipment with dataHash := 2 })])
    (.depositEscrow Deployment.company 1 1000)
    ⟨6, 6, fun a => a = Deployment.company, fun _ => true⟩
    (fun r _ c' => (r.2.world.getShipment 2).isSome = true ∧ c'.world.getEscrow 1 = 1000)
    (by decide +kernel)
  obtain ⟨s, hs⟩ := Option.isSome_iff_exists.mp hsome
  have hc : Reachable c := ⟨_, ls, Deployment.deployed, hr⟩
  have hother : ¬Label.About c.world 2 (.committed (.depositEscrow Deployment.company 1 1000)
      ⟨6, 6, fun a => a = Deployment.company, fun _ => true⟩ trace) := by
    rintro (h | h | h) <;> cases h
  obtain ⟨hrec, -, hfile⟩ := unrelated_unchanged hc hstep hs hother
  exact ⟨c, c', _, s, hc, hstep, hs, hesc, hrec, hfile⟩

end Navin
