/-
# What a run files

Notes, evidence and recovery records are filed under running numbers, and the hash of a
status update under the status. Here the papers of a shipment are tied to a folder: plain
lists of what was filed since the shipment was last archived. Each call does to the papers
what it does to the folder, so at the end of a run the views show exactly what the calls of
the run filed, in their order.

Key definitions:
- `Papers.after`: what a call files;
- `Folder`, `Folder.after`, `folderOf`: the folder of a shipment, what a call adds to it, and
  what a run leaves in it;
- `getDisputeEvidenceCount`, `getDisputeEvidenceHash`, `getRecoveryHistory`,
  `getStatusHash`, `verifyDataHash`, `assertDataHash`: the views.

Key theorems:
- `papers_exec`: what each call files, exactly;
- `Papers.Shelved.after`: the papers follow the folder;
- `filings_exact`: what the views show at the end of a run;
- `verification_exact`: a hash is verified exactly when the last update carried it.
-/
import Navin.Notes
import Navin.Audit
import Navin.Lib.Logs

namespace Navin

open Tx

set_option synthInstance.maxSize 4000

variable {H : Host} {env : Env} {w w' : World H} {call : Call} {id now : ℕ}

/-! ### What a call files -/

/-- What a call files at the time `now`. -/
def Papers.after (p : Papers) (now : ℕ) : Call → Papers
  | .appendNoteHash _ id hash => p.addNote id hash
  | .addDisputeEvidenceHash _ id hash => p.addEvidence id hash
  | .addShipmentDependency _ id prereq => p.addDependency id prereq
  | .updateStatus _ id status hash => p.addStatusHash id status hash
  | .recoverShipment admin id _ hash => p.addRecovery id ⟨.recoverShipment, admin, hash, now⟩
  | .unlockEscrow admin id hash => p.addRecovery id ⟨.unlockEscrow, admin, hash, now⟩
  | .clearFinalization admin id hash => p.addRecovery id ⟨.clearFinalization, admin, hash, now⟩
  | .rollbackOnExternalFailure admin id _ hash =>
    p.addRecovery id ⟨.rollbackOnExternalFailure, admin, hash, now⟩
  | .archiveShipment _ id => p.purge id
  | _ => p

/-- A recovery files its record. -/
theorem papers_recoveryEdit_exact {t : RecoveryActionType} {a : Address} {hash : BytesN32}
    {edit : Shipment → ℕ → Contract H Shipment} {event : Shipment → ℕ → Event}
    [∀ s n, Preserves World.papers (edit s n)] :
    wp (recoveryEdit t a id hash edit event) env w fun _ w' =>
      w'.papers = w.papers.addRecovery id ⟨t, a, hash, env.timestamp⟩ := by
  unfold recoveryEdit appendRecoveryRecord
  simp only [wp_bind, wp_gets, wp_rejectIf, wp_modifyDossier, wp_timestamp]
  refine wp_guard fun _ => ?_
  refine wp_requireAuth fun _ => ?_
  refine wp_guard fun _ => ?_
  refine wp_guard fun _ => ?_
  refine wp_guard fun s => ?_
  refine wp_unfiled fun _ w₁ h₁ => ?_
  refine wp_unfiled fun _ w₂ h₂ => ?_
  refine wp_unfiled fun _ w₃ h₃ => ?_
  refine wp_unfiled fun _ w₄ h₄ _ => ?_
  have hw : w₄.papers = w.papers := by
    rw [h₄, h₃, h₂, h₁]
    rfl
  rw [← hw]
  rfl

/-- What each call files. -/
theorem papers_exec (call : Call) :
    wp call.exec env w fun _ w' => w'.papers = w.papers.after env.timestamp call := by
  cases call with
  | appendNoteHash => exact papers_appendNoteHash
  | addDisputeEvidenceHash => exact papers_addDisputeEvidenceHash
  | addShipmentDependency => exact papers_addShipmentDependency
  | updateStatus => exact papers_updateStatus
  | archiveShipment => exact papers_archiveShipment.mono fun _ _ h => h.1
  | recoverShipment => exact papers_recoveryEdit_exact
  | unlockEscrow => exact papers_recoveryEdit_exact
  | clearFinalization => exact papers_recoveryEdit_exact
  | rollbackOnExternalFailure => exact papers_recoveryEdit_exact
  | _ =>
    unfold Call.exec
    exact wp_unfiled fun _ _ h => h

/-! ### The folder of a shipment -/

/-- What is filed for the shipment `i` goes into the folder of `id` if that is the one. -/
def fileUnder {α : Type} (id i : ℕ) (log : List α) (x : α) : List α := if i = id then log ++ [x] else log

/-- What is on file for one shipment. -/
structure Folder where
  notes : List BytesN32
  evidence : List BytesN32
  recoveries : List RecoveryRecord
  updates : List (ShipmentStatus × BytesN32)
  deriving DecidableEq

namespace Folder

def empty : Folder := ⟨[], [], [], []⟩

variable (f : Folder)

/-- Archiving empties the folder, but for the updates the clean-up leaves out. -/
def emptied : Folder := ⟨[], [], [], f.updates.filter (·.1 = .partiallyRefunded)⟩

/-- The hash of the last update to a status. -/
def hashFor (status : ShipmentStatus) : Option BytesN32 :=
  (f.updates.filter (·.1 = status)).getLast?.map (·.2)

/-- What a call at the time `now` makes of the folder of the shipment `id`. -/
def after (id now : ℕ) : Call → Folder
  | .appendNoteHash _ i hash => { f with notes := fileUnder id i f.notes hash }
  | .addDisputeEvidenceHash _ i hash => { f with evidence := fileUnder id i f.evidence hash }
  | .updateStatus _ i status hash => { f with updates := fileUnder id i f.updates (status, hash) }
  | .recoverShipment admin i _ hash =>
    { f with recoveries := fileUnder id i f.recoveries ⟨.recoverShipment, admin, hash, now⟩ }
  | .unlockEscrow admin i hash =>
    { f with recoveries := fileUnder id i f.recoveries ⟨.unlockEscrow, admin, hash, now⟩ }
  | .clearFinalization admin i hash =>
    { f with recoveries := fileUnder id i f.recoveries ⟨.clearFinalization, admin, hash, now⟩ }
  | .rollbackOnExternalFailure admin i _ hash =>
    { f with recoveries := fileUnder id i f.recoveries ⟨.rollbackOnExternalFailure, admin, hash, now⟩ }
  | .archiveShipment _ i => if i = id then f.emptied else f
  | _ => f

end Folder

/-- The folder of the shipment `id` after a step. -/
def Label.file (id : ℕ) (f : Folder) : Label → Folder
  | .committed call env _ => f.after id env.timestamp call
  | _ => f

/-- The folder of the shipment `id` at the end of a run. -/
def folderOf (id : ℕ) (ls : List Label) : Folder := ls.foldl (fun f l => l.file id f) .empty

/-- The papers of the shipment `id` are those of the folder. -/
structure Papers.Shelved (p : Papers) (id : ℕ) (f : Folder) : Prop where
  notes : Shows (p.noteCount id) (p.note id) f.notes
  evidence : Shows (p.evidenceCount id) (p.evidence id) f.evidence
  recoveries : Shows (p.recoveryRecordCount id) (p.recoveryRecord id) f.recoveries
  updates : ∀ status, p.statusHash id status = f.hashFor status

theorem update₂_self {α β γ : Type} [DecidableEq α] [DecidableEq β] (f : α → β → γ) (a : α) (b : β) (c : γ) :
    update₂ f a b c a = Function.update (f a) b c := Function.update_self ..

theorem update₂_of_ne {α β γ : Type} [DecidableEq α] [DecidableEq β] (f : α → β → γ) {a a' : α}
    (h : a' ≠ a) (b : β) (c : γ) : update₂ f a b c a' = f a' := Function.update_of_ne h ..

namespace Shows

variable {α : Type} {count : ℕ → Option ℕ} {entry : ℕ → ℕ → Option α} {log : List α} {i : ℕ}

/-- An entry for the shipment `i`, in the log of `id`. -/
theorem filed (h : Shows (count id) (entry id) log) (x : α) :
    Shows (Function.update count i (some ((count i).getD 0 + 1)) id)
      (update₂ entry i ((count i).getD 0) (some x) id) (fileUnder id i log x) := by
  unfold fileUnder
  by_cases hi : i = id
  · subst hi
    rw [if_pos rfl, Function.update_self, update₂_self]
    exact h.append x
  · rw [if_neg hi, Function.update_of_ne (Ne.symm hi), update₂_of_ne _ (Ne.symm hi)]
    exact h

/-- The clean-up of the shipment. -/
theorem purged (h : Shows (count id) (entry id) log) :
    Shows (purgeCount count id ((count id).getD 0) id) (purgeBelow entry id ((count id).getD 0) id) [] := by
  refine h.clear ?_ (fun k hk => if_pos ⟨rfl, hk⟩) fun k hk => if_neg fun hc => absurd hc.2 (by omega)
  unfold purgeCount
  split
  · rw [Function.update_self]
    rfl
  · omega

/-- The clean-up of another one. -/
theorem purged_of_ne (h : Shows (count id) (entry id) log) (hi : id ≠ i) :
    Shows (purgeCount count i ((count i).getD 0) id) (purgeBelow entry i ((count i).getD 0) id) log := by
  have hcount : purgeCount count i ((count i).getD 0) id = count id := by
    unfold purgeCount
    split
    · exact Function.update_of_ne hi ..
    · rfl
  have hentry : purgeBelow entry i ((count i).getD 0) id = entry id :=
    funext fun k => if_neg fun hk => hi hk.1
  rw [hcount, hentry]
  exact h

end Shows

namespace Papers.Shelved

variable {p : Papers} {f : Folder} {i : ℕ} {hash : BytesN32}

/-- The hash of an update to the status. -/
theorem hashFor_updated (h : p.Shelved id f) {status : ShipmentStatus} (s : ShipmentStatus) :
    update₂ p.statusHash i status (some hash) id s =
      Folder.hashFor { f with updates := fileUnder id i f.updates (status, hash) } s := by
  unfold fileUnder
  by_cases hi : i = id
  · subst hi
    rw [if_pos rfl, update₂_self]
    unfold Folder.hashFor
    by_cases hs : s = status
    · subst hs
      rw [Function.update_self]
      simp
    · rw [Function.update_of_ne hs, h.updates s]
      simp [Folder.hashFor, Ne.symm hs]
  · rw [if_neg hi, update₂_of_ne _ (Ne.symm hi)]
    exact h.updates s

/-- The clean-up leaves the hash of one status. -/
theorem hashFor_emptied (h : p.Shelved id f) (s : ShipmentStatus) :
    purgeStatusHashes p.statusHash id id s = f.emptied.hashFor s := by
  unfold purgeStatusHashes
  by_cases hs : s = .partiallyRefunded
  · subst hs
    rw [if_neg fun hk => absurd hk.2 (by decide), h.updates]
    simp [Folder.hashFor, Folder.emptied]
  · have hmem : s ∈ [ShipmentStatus.created, .inTransit, .atCheckpoint, .partiallyDelivered, .delivered,
        .disputed, .cancelled] := by
      cases s <;> first | decide | exact absurd rfl hs
    rw [if_pos ⟨rfl, hmem⟩]
    have hnil : (f.emptied.updates.filter fun u => decide (u.1 = s)) = [] := by
      refine List.filter_eq_nil_iff.mpr fun u hu hs' => hs ?_
      have hu := (List.mem_filter.mp hu).2
      rw [← of_decide_eq_true hs', of_decide_eq_true hu]
    rw [Folder.hashFor, hnil]
    rfl

theorem purged (h : p.Shelved id f) : (p.purge i).Shelved id (if i = id then f.emptied else f) := by
  by_cases hi : i = id
  · subst hi
    rw [if_pos rfl]
    exact ⟨h.notes.purged, h.evidence.purged, h.recoveries.purged, h.hashFor_emptied⟩
  · rw [if_neg hi]
    have hid : id ≠ i := Ne.symm hi
    refine ⟨h.notes.purged_of_ne hid, h.evidence.purged_of_ne hid, h.recoveries.purged_of_ne hid,
      fun s => ?_⟩
    rw [← h.updates s]
    exact if_neg fun hk => hid hk.1

/-- The papers follow the folder. -/
theorem after (h : p.Shelved id f) (now : ℕ) (call : Call) :
    (p.after now call).Shelved id (f.after id now call) := by
  cases call with
  | appendNoteHash _ i hash => exact ⟨h.notes.filed hash, h.evidence, h.recoveries, h.updates⟩
  | addDisputeEvidenceHash _ i hash => exact ⟨h.notes, h.evidence.filed hash, h.recoveries, h.updates⟩
  | updateStatus _ i status hash =>
    exact ⟨h.notes, h.evidence, h.recoveries, h.hashFor_updated⟩
  | addShipmentDependency => exact ⟨h.notes, h.evidence, h.recoveries, h.updates⟩
  | recoverShipment => exact ⟨h.notes, h.evidence, h.recoveries.filed _, h.updates⟩
  | unlockEscrow => exact ⟨h.notes, h.evidence, h.recoveries.filed _, h.updates⟩
  | clearFinalization => exact ⟨h.notes, h.evidence, h.recoveries.filed _, h.updates⟩
  | rollbackOnExternalFailure => exact ⟨h.notes, h.evidence, h.recoveries.filed _, h.updates⟩
  | archiveShipment => exact h.purged
  | _ => exact h

end Papers.Shelved

/-! ### Runs -/

theorem folderOf_snoc (id : ℕ) (ls : List Label) (l : Label) :
    folderOf id (ls ++ [l]) = l.file id (folderOf id ls) := by
  unfold folderOf
  rw [List.foldl_append]
  rfl

theorem Step.shelved {c c' : Chain H} {l : Label} {f : Folder} (hstep : Step c l c')
    (h : c.world.papers.Shelved id f) : c'.world.papers.Shelved id (l.file id f) := by
  cases hstep with
  | @committed call env w' _ hx =>
    have hpapers : w'.papers = c.world.papers.after env.timestamp call :=
      papers_exec (w := c.world.fresh) call () w' hx
    show w'.papers.Shelved id (f.after id env.timestamp call)
    rw [hpapers]
    exact h.after _ _
  | reverted => exact h
  | outside => exact h

theorem Run.shelved {c₀ c : Chain H} {ls : List Label} (hd : Deployed c₀) (hr : Run Step c₀ ls c) (id : ℕ) :
    c.world.papers.Shelved id (folderOf id ls) := by
  refine hr.inv_hist (I := fun ks x => x.world.papers.Shelved id (folderOf id ks)) ?_ ?_
  · cases hd
    exact ⟨.empty, .empty, .empty, fun _ => rfl⟩
  · intro ks x l y _ ih hstep
    rw [folderOf_snoc]
    exact hstep.shelved ih

/-! ### The views -/

/-- `get_dispute_evidence_count`. -/
def getDisputeEvidenceCount (id : ℕ) : Contract H ℕ := do
  requireInitialized
  rejectIf ((← gets (·.getShipment id)) = none) .shipmentNotFound
  gets (·.getEvidenceCount id)

/-- `get_dispute_evidence_hash`. -/
def getDisputeEvidenceHash (id index : ℕ) : Contract H (Option BytesN32) := do
  requireInitialized
  rejectIf ((← gets (·.getShipment id)) = none) .shipmentNotFound
  let count ← gets (·.getEvidenceCount id)
  rejectIf (count ≤ index) .evidenceNotFound
  gets (·.dossier.evidence id index)

/-- `storage::get_recovery_history`. -/
def World.getRecoveryHistory (w : World H) (id : ℕ) : List RecoveryRecord :=
  (List.range (w.getRecoveryRecordCount id)).filterMap (w.dossier.recoveryRecord id)

/-- `get_recovery_history`. -/
def getRecoveryHistory (id : ℕ) : Contract H (List RecoveryRecord) := do
  requireInitialized
  rejectIf ((← gets (·.getShipment id)) = none) .shipmentNotFound
  gets (·.getRecoveryHistory id)

/-- `get_status_hash`. -/
def getStatusHash (id : ℕ) (status : ShipmentStatus) : Contract H BytesN32 := do
  requireInitialized
  rejectIf ((← gets (·.getShipment id)) = none) .shipmentNotFound
  okOr (← gets (·.dossier.statusHash id status)) .statusHashNotFound

/-- `verify_data_hash`. -/
def verifyDataHash (id : ℕ) (status : ShipmentStatus) (expectedHash : BytesN32) : Contract H Bool := do
  requireInitialized
  validateHash expectedHash
  rejectIf ((← gets (·.getShipment id)) = none) .shipmentNotFound
  let storedHash ← okOr (← gets (·.dossier.statusHash id status)) .statusHashNotFound
  return storedHash = expectedHash

/-- `assert_data_hash`. -/
def assertDataHash (id : ℕ) (status : ShipmentStatus) (expectedHash : BytesN32) : Contract H Unit := do
  requireInitialized
  validateHash expectedHash
  rejectIf ((← gets (·.getShipment id)) = none) .shipmentNotFound
  let stored ← okOr (← gets (·.dossier.statusHash id status)) .statusHashNotFound
  rejectIf (stored ≠ expectedHash) .dataHashMismatch

/-- A stored shipment is one of a contract that is set up. -/
theorem Ledger.Sound.isInitialized {s : Shipment} (h : w.ledger.Sound) (hs : w.getShipment id = some s) :
    w.isInitialized = true := by
  unfold World.isInitialized
  rw [Option.isSome_iff_ne_none]
  intro hnone
  have hno : w.getShipment id = none := h.unset hnone id
  rw [hs] at hno
  cases hno

section Views

variable (hinit : w.isInitialized = true) (hstored : w.getShipment id ≠ none)

include hinit hstored

/-- The opening of the views of a shipment. -/
theorem returns_viewed {α : Type} {k : Contract H α} {x : α} :
    (do
      requireInitialized
      rejectIf ((← gets (·.getShipment id)) = none) .shipmentNotFound
      k : Contract H α).Returns env w x w' ↔ k.Returns env w x w' := by
  unfold requireInitialized
  simp only [bind_assoc, returns_gets_bind, returns_rejectIf_bind]
  simp [hinit, hstored]

theorem returns_getDisputeEvidenceCount {n : ℕ} :
    (getDisputeEvidenceCount id).Returns env w n w' ↔ n = w.getEvidenceCount id ∧ w' = w := by
  unfold getDisputeEvidenceCount
  rw [returns_viewed hinit hstored, returns_gets]

theorem returns_getDisputeEvidenceHash {k : ℕ} {x : Option BytesN32} :
    (getDisputeEvidenceHash id k).Returns env w x w' ↔
      k < w.getEvidenceCount id ∧ x = w.dossier.evidence id k ∧ w' = w := by
  unfold getDisputeEvidenceHash
  rw [returns_viewed hinit hstored, returns_gets_bind, returns_rejectIf_bind, returns_gets, not_le]

theorem returns_getRecoveryHistory {rs : List RecoveryRecord} :
    (getRecoveryHistory id).Returns env w rs w' ↔ rs = w.getRecoveryHistory id ∧ w' = w := by
  unfold getRecoveryHistory
  rw [returns_viewed hinit hstored, returns_gets]

theorem returns_getStatusHash {status : ShipmentStatus} {hash : BytesN32} :
    (getStatusHash id status).Returns env w hash w' ↔ w.dossier.statusHash id status = some hash ∧ w' = w := by
  unfold getStatusHash
  rw [returns_viewed hinit hstored, returns_gets_bind, returns_okOr]

theorem returns_verifyDataHash {status : ShipmentStatus} {hash : BytesN32} (hhash : hash ≠ 0) {b : Bool} :
    (verifyDataHash id status hash).Returns env w b w' ↔
      (∃ h, w.dossier.statusHash id status = some h ∧ b = decide (h = hash)) ∧ w' = w := by
  unfold verifyDataHash requireInitialized validateHash
  simp only [bind_assoc, returns_gets_bind, returns_rejectIf_bind, returns_okOr_bind, returns_pure]
  constructor
  · rintro ⟨-, -, -, h, hs, hb, hw⟩
    exact ⟨⟨h, hs, hb⟩, hw⟩
  · rintro ⟨⟨h, hs, hb⟩, hw⟩
    exact ⟨ne_false_of_eq_true hinit, hhash, hstored, h, hs, hb, hw⟩

theorem returns_assertDataHash {status : ShipmentStatus} {hash : BytesN32} (hhash : hash ≠ 0) {u : Unit} :
    (assertDataHash id status hash).Returns env w u w' ↔
      w.dossier.statusHash id status = some hash ∧ w' = w := by
  unfold assertDataHash requireInitialized validateHash
  simp only [bind_assoc, returns_gets_bind, returns_rejectIf_bind, returns_okOr_bind, returns_rejectIf]
  constructor
  · rintro ⟨-, -, -, h, hs, hne, hw⟩
    rw [hs, not_not.mp hne]
    exact ⟨rfl, hw⟩
  · rintro ⟨hs, hw⟩
    exact ⟨ne_false_of_eq_true hinit, hhash, hstored, hash, hs, fun hne => hne rfl, hw⟩

end Views

/-- What the views of a shipment show at the end of a run: its notes, its evidence and its
recoveries, each as the calls of the run filed them since it was last archived, in their
order. -/
theorem filings_exact {c₀ c : Chain H} {ls : List Label} {s : Shipment} (hd : Deployed c₀)
    (hr : Run Step c₀ ls c) (hs : c.world.getShipment id = some s) (env : Env) :
    (getNoteCount id).Returns env c.world (folderOf id ls).notes.length c.world ∧
      (∀ k hash, (getNoteHash id k).Returns env c.world hash c.world ↔
        (folderOf id ls).notes[k]? = some hash) ∧
      (getDisputeEvidenceCount id).Returns env c.world (folderOf id ls).evidence.length c.world ∧
      (∀ k x, (getDisputeEvidenceHash id k).Returns env c.world x c.world ↔
        k < (folderOf id ls).evidence.length ∧ x = (folderOf id ls).evidence[k]?) ∧
      (getRecoveryHistory id).Returns env c.world (folderOf id ls).recoveries c.world := by
  have hshelved : c.world.papers.Shelved id (folderOf id ls) := hr.shelved hd id
  have hinit : c.world.isInitialized = true := (hr.sound hd).isInitialized hs
  have hstored : c.world.getShipment id ≠ none := by
    rw [hs]
    exact Option.some_ne_none s
  refine ⟨returns_getNoteCount.mpr ⟨hinit, hstored, ?_, rfl⟩, fun k hash => ?_, ?_, fun k x => ?_, ?_⟩
  · exact hshelved.notes.count_eq.symm
  · rw [returns_getNoteHash, ← hshelved.notes.entry_eq k]
    exact ⟨fun h => h.2.2.1, fun h => ⟨hinit, hstored, h, rfl⟩⟩
  · exact (returns_getDisputeEvidenceCount hinit hstored).mpr ⟨hshelved.evidence.count_eq.symm, rfl⟩
  · rw [returns_getDisputeEvidenceHash hinit hstored, ← hshelved.evidence.count_eq,
      ← hshelved.evidence.entry_eq k]
    exact ⟨fun h => ⟨h.1, h.2.1⟩, fun h => ⟨h.1, h.2, rfl⟩⟩
  · exact (returns_getRecoveryHistory hinit hstored).mpr ⟨hshelved.recoveries.readAll.symm, rfl⟩

/-- A note, two recoveries and some evidence. -/
theorem filings_exact_disputed : ∃ (c : Chain Deployment.host) (ls : List Label) (env : Env),
    Run Step Deployment.chain ls c ∧ (folderOf 1 ls).notes = [9] ∧ (folderOf 1 ls).evidence = [5] ∧
      (folderOf 1 ls).recoveries =
        [⟨.recoverShipment, Deployment.admin, 3, 6⟩, ⟨.recoverShipment, Deployment.admin, 4, 7⟩] ∧
      (getRecoveryHistory 1).Returns env c.world (folderOf 1 ls).recoveries c.world ∧
      (getNoteHash 1 0).Returns env c.world 9 c.world ∧
      (getDisputeEvidenceHash 1 0).Returns env c.world (some 5) c.world := by
  obtain ⟨ls, c, hr, -, hstored, hnotes, hevidence, hrecoveries⟩ := exists_play Deployment.chain
    (Deployment.opening ++ [
      Deployment.signed Deployment.company 5 (.appendNoteHash Deployment.company 1 9),
      Deployment.signed Deployment.admin 6 (.recoverShipment Deployment.admin 1 .inTransit 3),
      Deployment.signed Deployment.admin 7 (.recoverShipment Deployment.admin 1 .atCheckpoint 4),
      Deployment.signed Deployment.receiver 8 (.raiseDispute Deployment.receiver 1 2),
      Deployment.signed Deployment.receiver 9 (.addDisputeEvidenceHash Deployment.receiver 1 5)])
    (fun r => (r.2.world.getShipment 1).isSome ∧ (folderOf 1 r.1).notes = [9] ∧
      (folderOf 1 r.1).evidence = [5] ∧ (folderOf 1 r.1).recoveries =
        [⟨.recoverShipment, Deployment.admin, 3, 6⟩, ⟨.recoverShipment, Deployment.admin, 4, 7⟩])
    (by decide +kernel)
  obtain ⟨s, hs⟩ := Option.isSome_iff_exists.mp hstored
  obtain ⟨-, hnote, -, hevid, hhistory⟩ := filings_exact Deployment.deployed hr hs
    ⟨10, 10, fun _ => false, fun _ => false⟩
  refine ⟨c, ls, _, hr, hnotes, hevidence, hrecoveries, hhistory, (hnote 0 9).mpr ?_, (hevid 0 _).mpr ?_⟩
  · rw [hnotes]
    rfl
  · rw [hevidence]
    exact ⟨by decide, rfl⟩

/-- The hash of a status at the end of a run is the one the last update to that status
carried since the shipment was last archived, which keeps that of a partial refund alone;
and a hash other than zero is verified, or asserted, exactly by it. -/
theorem verification_exact {c₀ c : Chain H} {ls : List Label} {s : Shipment} (hd : Deployed c₀)
    (hr : Run Step c₀ ls c) (hs : c.world.getShipment id = some s) (env : Env) (status : ShipmentStatus)
    (hash : BytesN32) :
    ((getStatusHash id status).Returns env c.world hash c.world ↔
        (folderOf id ls).hashFor status = some hash) ∧
      (hash ≠ 0 → ∀ b, (verifyDataHash id status hash).Returns env c.world b c.world ↔
        ∃ h, (folderOf id ls).hashFor status = some h ∧ b = decide (h = hash)) ∧
      (hash ≠ 0 → ((assertDataHash id status hash).Returns env c.world () c.world ↔
        (folderOf id ls).hashFor status = some hash)) := by
  have hstatus : c.world.dossier.statusHash id status = (folderOf id ls).hashFor status :=
    (hr.shelved hd id).updates status
  have hinit : c.world.isInitialized = true := (hr.sound hd).isInitialized hs
  have hstored : c.world.getShipment id ≠ none := by
    rw [hs]
    exact Option.some_ne_none s
  rw [← hstatus]
  refine ⟨?_, fun hhash b => ?_, fun hhash => ?_⟩
  · rw [returns_getStatusHash hinit hstored]
    exact and_iff_left rfl
  · rw [returns_verifyDataHash hinit hstored hhash]
    exact and_iff_left rfl
  · rw [returns_assertDataHash hinit hstored hhash]
    exact and_iff_left rfl

/-- The carrier reports the transit twice, and only the second hash is asserted. -/
theorem verification_exact_updated : ∃ (c : Chain Deployment.host) (ls : List Label) (env : Env),
    Run Step Deployment.chain ls c ∧
      (assertDataHash 1 .inTransit 4).Returns env c.world () c.world ∧
      (verifyDataHash 1 .inTransit 2).Returns env c.world false c.world := by
  obtain ⟨ls, c, hr, -, hstored, hhash⟩ := exists_play Deployment.chain
    (Deployment.opening ++ [
      Deployment.signed Deployment.carrier 5 (.updateStatus Deployment.carrier 1 .inTransit 2),
      Deployment.signed Deployment.carrier 1000 (.updateStatus Deployment.carrier 1 .atCheckpoint 3),
      Deployment.signed Deployment.carrier 2000 (.updateStatus Deployment.carrier 1 .inTransit 4)])
    (fun r => (r.2.world.getShipment 1).isSome ∧ (folderOf 1 r.1).hashFor .inTransit = some 4)
    (by decide +kernel)
  obtain ⟨s, hs⟩ := Option.isSome_iff_exists.mp hstored
  obtain ⟨-, -, hassert⟩ := verification_exact Deployment.deployed hr hs
    ⟨2001, 2001, fun _ => false, fun _ => false⟩ .inTransit 4
  obtain ⟨-, hverify, -⟩ := verification_exact Deployment.deployed hr hs
    ⟨2001, 2001, fun _ => false, fun _ => false⟩ .inTransit 2
  exact ⟨c, ls, _, hr, (hassert (by decide)).mpr hhash, (hverify (by decide) false).mpr ⟨4, hhash, by decide⟩⟩

end Navin
