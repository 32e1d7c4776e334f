/-
# What archiving leaves behind

Notes, evidence and recovery records are filed under running numbers, and their
count says how many there are; so the clean-up, which removes the numbers below the
count, removes them all. The status hashes are removed status by status, and the
list leaves one status out.

Key definitions:
- `Counted`: the entries are numbered below their count;
- `Filing`: what a call does to the papers;
- `World.Cleared`: nothing is stored under the shipment's id.

Key theorems:
- `wp_papers`: what each call files;
- `archive_clears_iff`.
-/
import Navin.Archive

namespace Navin

open Tx

set_option synthInstance.maxSize 4000

variable {H : Host}

/-! ### Entries under running numbers -/

/-- The entries of every shipment are numbered below its count, and a stored count
is not zero. -/
structure Counted {γ : Type} (count : ℕ → Option ℕ) (entry : ℕ → ℕ → Option γ) : Prop where
  below : ∀ id i, entry id i ≠ none → i < (count id).getD 0
  pos : ∀ id, count id ≠ some 0

namespace Counted

variable {γ : Type} {count : ℕ → Option ℕ} {entry : ℕ → ℕ → Option γ}

theorem empty : Counted (fun _ => none) (fun _ _ => none : ℕ → ℕ → Option γ) :=
  ⟨fun _ _ h => absurd rfl h, fun _ => (Option.some_ne_none 0).symm⟩

/-- One more entry under the next number. -/
theorem append (h : Counted count entry) {id n : ℕ} (hn : n = (count id).getD 0) (x : γ) :
    Counted (Function.update count id (some (n + 1))) (update₂ entry id n (some x)) := by
  refine ⟨fun j i hi => ?_, fun j => ?_⟩
  · by_cases hj : j = id
    · subst hj
      rw [update₂, Function.update_self, Function.update_apply] at hi
      rw [Function.update_self, Option.getD_some]
      split at hi
      · omega
      · have := h.below j i hi
        omega
    · rw [update₂, Function.update_of_ne hj] at hi
      rw [Function.update_of_ne hj]
      exact h.below j i hi
  · rw [Function.update_apply]
    split
    · simp
    · exact h.pos j

/-- All entries of one shipment removed. -/
theorem purge (h : Counted count entry) (id : ℕ) :
    Counted (purgeCount count id ((count id).getD 0)) (purgeBelow entry id ((count id).getD 0)) := by
  refine ⟨fun j i hi => ?_, fun j => ?_⟩
  · have hne : ¬(j = id ∧ i < (count id).getD 0) := fun hc => hi (if_pos hc)
    have hi : entry j i ≠ none := by
      unfold purgeBelow at hi
      rwa [if_neg hne] at hi
    have hlt := h.below j i hi
    unfold purgeCount
    split
    · have hj : j ≠ id := by
        rintro rfl
        exact hne ⟨rfl, hlt⟩
      rwa [Function.update_of_ne hj]
    · exact hlt
  · unfold purgeCount
    split
    · rw [Function.update_apply]
      split
      · exact (Option.some_ne_none 0).symm
      · exact h.pos j
    · exact h.pos j

/-- No entry of the shipment is left. -/
theorem purgeBelow_eq_none (h : Counted count entry) (id i : ℕ) :
    purgeBelow entry id ((count id).getD 0) id i = none := by
  unfold purgeBelow
  split
  · rfl
  · rename_i hn
    by_contra hi
    exact hn ⟨rfl, h.below id i hi⟩

/-- Nor is its count. -/
theorem purgeCount_eq_none (h : Counted count entry) (id : ℕ) :
    purgeCount count id ((count id).getD 0) id = none := by
  unfold purgeCount
  cases hc : count id with
  | none => simp [hc]
  | some n =>
    have hn : n ≠ 0 := fun h0 => h.pos id (by rw [hc, h0])
    simp [Nat.pos_of_ne_zero hn]

end Counted

/-! ### What a call files -/

namespace Papers

variable (p : Papers)

def addNote (id : ℕ) (hash : BytesN32) : Papers :=
  let n := (p.noteCount id).getD 0
  { p with
    noteCount := Function.update p.noteCount id (some (n + 1))
    note := update₂ p.note id n (some hash) }

def addEvidence (id : ℕ) (hash : BytesN32) : Papers :=
  let n := (p.evidenceCount id).getD 0
  { p with
    evidenceCount := Function.update p.evidenceCount id (some (n + 1))
    evidence := update₂ p.evidence id n (some hash) }

def addRecovery (id : ℕ) (r : RecoveryRecord) : Papers :=
  let n := (p.recoveryRecordCount id).getD 0
  { p with
    recoveryRecordCount := Function.update p.recoveryRecordCount id (some (n + 1))
    recoveryRecord := update₂ p.recoveryRecord id n (some r) }

def addStatusHash (id : ℕ) (status : ShipmentStatus) (hash : BytesN32) : Papers :=
  { p with statusHash := update₂ p.statusHash id status (some hash) }

def addDependency (id prereq : ℕ) : Papers :=
  { p with shipmentDependents :=
      Function.update p.shipmentDependents id (p.shipmentDependents id ++ [prereq]) }

/-- The clean-up of `archive_shipment`. -/
def purge (id : ℕ) : Papers :=
  { p with
    note := purgeBelow p.note id ((p.noteCount id).getD 0)
    noteCount := purgeCount p.noteCount id ((p.noteCount id).getD 0)
    evidence := purgeBelow p.evidence id ((p.evidenceCount id).getD 0)
    evidenceCount := purgeCount p.evidenceCount id ((p.evidenceCount id).getD 0)
    recoveryRecord := purgeBelow p.recoveryRecord id ((p.recoveryRecordCount id).getD 0)
    recoveryRecordCount := purgeCount p.recoveryRecordCount id ((p.recoveryRecordCount id).getD 0)
    statusHash := purgeStatusHashes p.statusHash id }

/-- The status the clean-up leaves out. -/
theorem purge_partiallyRefunded (id i : ℕ) :
    (p.purge id).statusHash i .partiallyRefunded = p.statusHash i .partiallyRefunded :=
  if_neg fun h => absurd h.2 (by decide)

end Papers

/-- The papers after a call. -/
inductive Filing (p : Papers) : Call → Papers → Prop
  | kept {call : Call} : (∀ a id s h, call ≠ .updateStatus a id s h) → Filing p call p
  | note {a : Address} {id : ℕ} {h : BytesN32} : Filing p (.appendNoteHash a id h) (p.addNote id h)
  | evidence {a : Address} {id : ℕ} {h : BytesN32} :
      Filing p (.addDisputeEvidenceHash a id h) (p.addEvidence id h)
  | recovery {call : Call} {id : ℕ} {r : RecoveryRecord} : call.isRecovery = true →
      Filing p call (p.addRecovery id r)
  | statusHash {a : Address} {id : ℕ} {s : ShipmentStatus} {h : BytesN32} :
      Filing p (.updateStatus a id s h) (p.addStatusHash id s h)
  | dependency {a : Address} {id prereq : ℕ} :
      Filing p (.addShipmentDependency a id prereq) (p.addDependency id prereq)
  | purged {a : Address} {id : ℕ} : Filing p (.archiveShipment a id) (p.purge id)

/-- What is filed, of all shipments. -/
def World.papers (w : World H) : Papers := w.dossier.papers

section

instance : LedgerFree (World.papers (H := H)) := ⟨fun _ _ => rfl⟩

instance : RegistryFree (World.papers (H := H)) := ⟨fun _ _ => rfl⟩

instance : GovernanceFree (World.papers (H := H)) := ⟨fun _ _ => rfl⟩

instance : AuthFree (World.papers (H := H)) := ⟨fun _ _ => rfl⟩

instance : PlainFree (World.papers (H := H)) := ⟨fun _ _ _ => rfl⟩

instance : PaymentFree (World.papers (H := H)) := ⟨fun _ _ _ => rfl⟩

instance (id : ℕ) : MarksFree (World.papers (H := H)) id := ⟨fun _ _ h => h.papers_eq⟩

end

variable {env : Env} {w : World H}

theorem wp_modifyDossier {g : Dossier → Dossier} {Q : Unit → World H → Prop} :
    wp (modifyDossier g : Contract H Unit) env w Q ↔ Q () { w with dossier := g w.dossier } := by
  unfold modifyDossier
  rw [wp_modify]

/-- A step that files nothing. -/
theorem wp_unfiled {α : Type} {m : Contract H α} [Preserves World.papers m]
    {Q : α → World H → Prop} (h : ∀ a w', w'.papers = w.papers → Q a w') : wp m env w Q :=
  Preserves.wp World.papers h

theorem papers_appendNoteHash {a : Address} {id : ℕ} {h : BytesN32} :
    wp (appendNoteHash a id h) env w fun _ w' => w'.papers = w.papers.addNote id h := by
  unfold appendNoteHash incrementNoteCount
  simp only [wp_bind, wp_gets, wp_rejectIf, wp_unwrap, wp_pure, wp_modifyDossier]
  refine wp_openCall fun _ _ => ?_
  refine wp_guard fun _ => ?_
  refine wp_guard fun _ => ?_
  refine wp_guard fun _ => ?_
  refine wp_guard fun _ _ n hn => ?_
  refine wp_unfiled fun _ w₁ h₁ => ?_
  rw [h₁, checkedAddU32_eq_some hn]
  rfl

theorem papers_addDisputeEvidenceHash {a : Address} {id : ℕ} {h : BytesN32} :
    wp (addDisputeEvidenceHash a id h) env w fun _ w' => w'.papers = w.papers.addEvidence id h := by
  unfold addDisputeEvidenceHash incrementEvidenceCount
  simp only [wp_bind, wp_gets, wp_rejectIf, wp_unwrap, wp_pure, wp_modifyDossier]
  refine wp_openCall fun _ _ => ?_
  refine wp_guard fun _ => ?_
  refine wp_guard fun _ => ?_
  refine wp_guard fun _ => ?_
  refine wp_guard fun _ _ => ?_
  refine wp_guard fun _ _ n hn => ?_
  refine wp_unfiled fun _ w₁ h₁ => ?_
  refine wp_unfiled fun _ w₂ h₂ => ?_
  rw [h₂, h₁, checkedAddU32_eq_some hn]
  rfl

theorem papers_recoveryEdit {t : RecoveryActionType} {a : Address} {id : ℕ} {h : BytesN32}
    {edit : Shipment → ℕ → Contract H Shipment} {event : Shipment → ℕ → Event}
    [∀ s n, Preserves World.papers (edit s n)] :
    wp (recoveryEdit t a id h edit event) env w fun _ w' =>
      ∃ r, w'.papers = w.papers.addRecovery id r := by
  unfold recoveryEdit appendRecoveryRecord
  simp only [wp_bind, wp_gets, wp_rejectIf, wp_modifyDossier, wp_timestamp]
  refine wp_guard fun _ => ?_
  refine wp_requireAuth fun _ => ?_
  refine wp_guard fun _ => ?_
  refine wp_guard fun _ => ?_
  refine wp_guard fun s => ?_
  refine wp_unfiled fun _ w₁ h₁ => ?_
  refine wp_unfiled fun _ w₂ h₂ => ?_
  refine wp_unfiled fun _ w₃ h₃ => ?_
  refine wp_unfiled fun _ w₄ h₄ _ => ⟨⟨t, a, h, env.timestamp⟩, ?_⟩
  have hw : w₄.papers = w.papers := by
    rw [h₄, h₃, h₂, h₁]
    rfl
  rw [← hw]
  rfl

theorem papers_updateStatus {a : Address} {id : ℕ} {s : ShipmentStatus} {h : BytesN32} :
    wp (updateStatus a id s h) env w fun _ w' => w'.papers = w.papers.addStatusHash id s h := by
  unfold updateStatus
  simp only [wp_bind, wp_rejectIf, wp_timestamp]
  refine wp_openCall fun _ _ => ?_
  refine wp_guard fun _ => ?_
  refine wp_guard fun _ => ?_
  refine wp_guard fun t _ => ?_
  refine wp_guard fun _ => ?_
  refine wp_guard fun _ => ?_
  refine wp_unfiled fun _ w₁ h₁ => ?_
  refine wp_guard fun _ => ?_
  refine wp_guard fun _ => ?_
  refine wp_guard fun _ => ?_
  refine wp_unfiled fun _ w₂ h₂ => ?_
  refine wp_unfiled fun _ w₃ h₃ => ?_
  refine wp_unfiled fun _ w₄ h₄ => ?_
  refine wp_unfiled fun _ w₅ h₅ => ?_
  refine wp_unfiled fun _ w₆ h₆ => ?_
  rw [wp_modifyDossier]
  refine wp_unfiled fun _ w₇ h₇ => ?_
  refine wp_unfiled fun _ w₈ h₈ => ?_
  refine wp_unfiled fun _ w₉ h₉ => ?_
  have hw : w₆.papers = w.papers := by
    rw [h₆, h₅, h₄, h₃, h₂, h₁]
    rfl
  rw [h₉, h₈, h₇, ← hw]
  rfl

theorem papers_addShipmentDependency {a : Address} {id prereq : ℕ} :
    wp (addShipmentDependency a id prereq) env w fun _ w' =>
      w'.papers = w.papers.addDependency id prereq := by
  unfold addShipmentDependency
  simp only [wp_bind, wp_gets, wp_rejectIf, wp_unwrap, wp_modifyDossier]
  exact wp_openCall fun _ _ _ _ _ _ _ _ => rfl

/-- A shipment without marks. -/
def Marks.none : Marks := ⟨.none, .none, .none, .none, .none, .none⟩

theorem papers_archiveShipment {a : Address} {id : ℕ} :
    wp (archiveShipment a id) env w fun _ w' =>
      w'.papers = w.papers.purge id ∧ w'.dossier.marks id = .none := by
  unfold archiveShipment storageArchiveShipment removeEscrow clearActiveSettlement modifyLedger
  simp only [wp_bind, wp_gets, wp_okOr, wp_rejectIf, wp_modifyDossier, wp_modify, wp_timestamp, wp_log]
  refine wp_guard fun _ => ?_
  refine wp_requireAuth fun _ => ?_
  refine wp_guard fun _ s _ _ => ⟨rfl, ?_⟩
  simp [Dossier.marks, Marks.none]

/-- What a call files. -/
theorem wp_papers (call : Call) :
    wp call.exec env w fun _ w' => Filing w.papers call w'.papers := by
  cases call with
  | appendNoteHash a id h => exact papers_appendNoteHash.mono fun _ w' hw => hw ▸ .note
  | addDisputeEvidenceHash a id h =>
    exact papers_addDisputeEvidenceHash.mono fun _ w' hw => hw ▸ .evidence
  | addShipmentDependency a id prereq =>
    exact papers_addShipmentDependency.mono fun _ w' hw => hw ▸ .dependency
  | updateStatus a id s h => exact papers_updateStatus.mono fun _ w' hw => hw ▸ .statusHash
  | archiveShipment a id => exact papers_archiveShipment.mono fun _ w' hw => hw.1 ▸ .purged
  | recoverShipment a id s h =>
    exact papers_recoveryEdit.mono fun _ w' ⟨r, hw⟩ => hw ▸ .recovery rfl
  | unlockEscrow a id h => exact papers_recoveryEdit.mono fun _ w' ⟨r, hw⟩ => hw ▸ .recovery rfl
  | clearFinalization a id h =>
    exact papers_recoveryEdit.mono fun _ w' ⟨r, hw⟩ => hw ▸ .recovery rfl
  | rollbackOnExternalFailure a id s h =>
    exact papers_recoveryEdit.mono fun _ w' ⟨r, hw⟩ => hw ▸ .recovery rfl
  | _ =>
    unfold Call.exec
    refine wp_unfiled fun _ w' hw => ?_
    rw [hw]
    exact .kept fun _ _ _ _ => Call.noConfusion

/-! ### Runs -/

/-- Notes, evidence and recovery records are numbered. -/
structure Papers.Numbered (p : Papers) : Prop where
  notes : Counted p.noteCount p.note
  evidence : Counted p.evidenceCount p.evidence
  recovery : Counted p.recoveryRecordCount p.recoveryRecord

/-- The calls that take a shipment to `PartiallyRefunded` by hand. -/
def Call.refundsPartly (id : ℕ) : Call → Bool
  | .updateStatus _ i .partiallyRefunded _ => i = id
  | _ => false

namespace Filing

variable {p p' : Papers} {call : Call}

theorem numbered (hf : Filing p call p') (h : p.Numbered) : p'.Numbered := by
  cases hf with
  | kept => exact h
  | note => exact ⟨h.notes.append rfl _, h.evidence, h.recovery⟩
  | evidence => exact ⟨h.notes, h.evidence.append rfl _, h.recovery⟩
  | recovery => exact ⟨h.notes, h.evidence, h.recovery.append rfl _⟩
  | statusHash => exact ⟨h.notes, h.evidence, h.recovery⟩
  | dependency => exact ⟨h.notes, h.evidence, h.recovery⟩
  | purged => exact ⟨h.notes.purge _, h.evidence.purge _, h.recovery.purge _⟩

/-- Only `update_status` files a hash under `PartiallyRefunded`, and nothing
removes it. -/
theorem statusHash_iff (hf : Filing p call p') (id : ℕ) :
    p'.statusHash id .partiallyRefunded ≠ none ↔
      p.statusHash id .partiallyRefunded ≠ none ∨ call.refundsPartly id = true := by
  cases hf with
  | kept hn =>
    have hno : call.refundsPartly id = false := by
      unfold Call.refundsPartly
      split
      · exact absurd rfl (hn _ _ _ _)
      · rfl
    simp [hno]
  | note => simp [Papers.addNote, Call.refundsPartly]
  | evidence => simp [Papers.addEvidence, Call.refundsPartly]
  | recovery hrec =>
    have hno : call.refundsPartly id = false := by
      unfold Call.refundsPartly
      split
      · cases hrec
      · rfl
    simp [Papers.addRecovery, hno]
  | @statusHash a i s h =>
    simp only [Papers.addStatusHash, update₂, Function.update_apply]
    by_cases hi : id = i
    · subst hi
      by_cases hs : s = .partiallyRefunded
      · subst hs
        simp [Call.refundsPartly]
      · have hno : (Call.updateStatus a id s h).refundsPartly id = false := by
          cases s <;> first | rfl | exact absurd rfl hs
        simp [hno, Ne.symm hs]
    · have hno : (Call.updateStatus a i s h).refundsPartly id = false := by
        cases s <;> first | rfl | exact decide_eq_false (Ne.symm hi)
      simp [hno, hi]
  | dependency => simp [Papers.addDependency, Call.refundsPartly]
  | purged => simp [Papers.purge_partiallyRefunded, Call.refundsPartly]

end Filing

variable {c c' c₀ c₁ c₂ : Chain H} {l : Label} {ls : List Label}

theorem Step.filed (hstep : Step c l c') :
    (∃ call env trace, l = .committed call env trace ∧
      Filing c.world.papers call c'.world.papers) ∨
    (∀ kind, l.calls kind = false) ∧ c'.world.papers = c.world.papers := by
  cases hstep with
  | @committed call env w' _ hx => exact .inl ⟨call, env, w'.trace, rfl,
    wp_papers (w := c.world.fresh) call () w' hx⟩
  | reverted => exact .inr ⟨fun _ => rfl, rfl⟩
  | outside => exact .inr ⟨fun _ => rfl, rfl⟩

theorem Reachable.numbered (h : Reachable c) : c.world.papers.Numbered := by
  refine h.inv (I := fun c => c.world.papers.Numbered) (fun _ _ => ⟨.empty, .empty, .empty⟩)
    fun a l b _ h hstep => ?_
  rcases hstep.filed with ⟨call, env, trace, -, hf⟩ | ⟨-, heq⟩
  · exact hf.numbered h
  · exact heq ▸ h

/-- A hash is stored under `PartiallyRefunded` once `update_status` was called with it. -/
theorem Run.statusHash_iff (hd : Deployed c₀) (hr : Run Step c₀ ls c) (id : ℕ) :
    c.world.papers.statusHash id .partiallyRefunded ≠ none ↔
      ∃ l ∈ ls, l.calls (Call.refundsPartly id) = true := by
  refine hr.inv_hist (I := fun ls c => c.world.papers.statusHash id .partiallyRefunded ≠ none ↔
    ∃ l ∈ ls, l.calls (Call.refundsPartly id) = true) ?_ fun ks a l b _ ih hstep => ?_
  · cases hd
    exact iff_of_false (fun h => h rfl) (by simp)
  · have hlast : (∃ k ∈ ks ++ [l], k.calls (Call.refundsPartly id) = true) ↔
        (∃ k ∈ ks, k.calls (Call.refundsPartly id) = true) ∨
          l.calls (Call.refundsPartly id) = true := by
      simp [or_and_right, exists_or]
    rw [hlast, ← ih]
    rcases hstep.filed with ⟨call, env, trace, rfl, hf⟩ | ⟨hno, heq⟩
    · exact hf.statusHash_iff id
    · rw [heq, hno]
      simp

/-! ### After the clean-up -/

/-- Nothing is stored under the id of the shipment. -/
structure World.Cleared (w : World H) (id : ℕ) : Prop where
  shipment : w.ledger.shipment id = none
  escrow : w.ledger.escrow id = none
  activeSettlement : w.ledger.activeSettlement id = none
  marks : w.dossier.marks id = .none
  noteCount : w.dossier.noteCount id = none
  note : ∀ i, w.dossier.note id i = none
  evidenceCount : w.dossier.evidenceCount id = none
  evidence : ∀ i, w.dossier.evidence id i = none
  recoveryRecordCount : w.dossier.recoveryRecordCount id = none
  recoveryRecord : ∀ i, w.dossier.recoveryRecord id i = none
  statusHash : ∀ s, w.dossier.statusHash id s = none

theorem purgeStatusHashes_eq_none {f : ℕ → ShipmentStatus → Option BytesN32} {id : ℕ}
    {s : ShipmentStatus} (hs : s ≠ .partiallyRefunded) : purgeStatusHashes f id id s = none := by
  refine if_pos ⟨rfl, ?_⟩
  cases s <;> first | decide | exact absurd rfl hs

/-- Nothing is filed under the id. -/
structure Papers.Clear (p : Papers) (id : ℕ) : Prop where
  noteCount : p.noteCount id = none
  note : ∀ i, p.note id i = none
  evidenceCount : p.evidenceCount id = none
  evidence : ∀ i, p.evidence id i = none
  recoveryRecordCount : p.recoveryRecordCount id = none
  recoveryRecord : ∀ i, p.recoveryRecord id i = none
  statusHash : ∀ s, p.statusHash id s = none

theorem Papers.Numbered.clear_purge {p : Papers} (h : p.Numbered) {id : ℕ}
    (hnone : p.statusHash id .partiallyRefunded = none) : (p.purge id).Clear id where
  noteCount := h.notes.purgeCount_eq_none id
  note := h.notes.purgeBelow_eq_none id
  evidenceCount := h.evidence.purgeCount_eq_none id
  evidence := h.evidence.purgeBelow_eq_none id
  recoveryRecordCount := h.recovery.purgeCount_eq_none id
  recoveryRecord := h.recovery.purgeBelow_eq_none id
  statusHash s := by
    by_cases hs : s = .partiallyRefunded
    · rw [hs, Papers.purge_partiallyRefunded]
      exact hnone
    · exact purgeStatusHashes_eq_none hs

theorem Step.archive_clears (hn : c₁.world.papers.Numbered) {admin : Address} {id : ℕ} {env : Env}
    {trace : List Effect}
    (hstep : Step c₁ (.committed (.archiveShipment admin id) env trace) c₂)
    (hnone : c₁.world.papers.statusHash id .partiallyRefunded = none) : c₂.world.Cleared id := by
  obtain ⟨s, -, -, hl⟩ := hstep.archives
  cases hstep with
  | @committed _ _ w' _ hx =>
    have hl : w'.ledger = c₁.world.ledger.putAway id s := hl
    obtain ⟨hp, hm⟩ := papers_archiveShipment (w := c₁.world.fresh) () w' hx
    have hclear : w'.papers.Clear id := by
      rw [hp]
      exact hn.clear_purge hnone
    refine ⟨?_, ?_, ?_, hm, hclear.noteCount, hclear.note, hclear.evidenceCount, hclear.evidence,
      hclear.recoveryRecordCount, hclear.recoveryRecord, hclear.statusHash⟩
    all_goals
      simp only [World.fresh, hl]
      exact Function.update_self ..

/-- After `archive_shipment` nothing is stored under the id exactly when
`update_status` never took the shipment to `PartiallyRefunded`. -/
theorem archive_clears_iff (hd : Deployed c₀) (hr : Run Step c₀ ls c₁) {admin : Address} {id : ℕ}
    {env : Env} {trace : List Effect}
    (hstep : Step c₁ (.committed (.archiveShipment admin id) env trace) c₂) :
    c₂.world.Cleared id ↔ ∀ l ∈ ls, l.calls (Call.refundsPartly id) = false := by
  have hn : c₁.world.papers.Numbered := Reachable.numbered ⟨c₀, ls, hd, hr⟩
  constructor
  · intro hcl
    have hnone := (Run.statusHash_iff hd (.snoc hr hstep) id).not.mp (fun h => h (hcl.statusHash _))
    exact fun l hl => Bool.eq_false_iff.mpr fun h => hnone ⟨l, by simp [hl], h⟩
  · intro hls
    refine hstep.archive_clears hn ?_
    by_contra hne
    obtain ⟨l, hl, h⟩ := (Run.statusHash_iff hd hr id).mp hne
    rw [hls l hl] at h
    cases h

/-- A shipment that was paid for, delivered and archived has nothing left. -/
theorem archive_clears_delivered : ∃ (c₁ c₂ : Chain Deployment.host) (l : Label),
    Reachable c₁ ∧ Step c₁ l c₂ ∧ c₁.world.dossier.noteCount 1 = some 1 ∧ c₂.world.Cleared 1 := by
  obtain ⟨ls, c₁, trace, c₂, hr, hstep, hnote, hls⟩ := exists_commit Deployment.chain
    (Deployment.opening ++ [
      Deployment.signed Deployment.company 5 (.depositEscrow Deployment.company 1 1000),
      Deployment.signed Deployment.company 6 (.appendNoteHash Deployment.company 1 4),
      Deployment.signed Deployment.carrier 7 (.updateStatus Deployment.carrier 1 .inTransit 2),
      Deployment.signed Deployment.receiver 8 (.confirmDelivery Deployment.receiver 1 3)])
    (.archiveShipment Deployment.admin 1) ⟨9, 9, fun a => a = Deployment.admin, fun _ => true⟩
    (fun r _ _ => r.2.world.dossier.noteCount 1 = some 1 ∧
      ∀ l ∈ r.1, l.calls (Call.refundsPartly 1) = false)
    (by decide +kernel)
  exact ⟨c₁, c₂, _, ⟨_, ls, Deployment.deployed, hr⟩, hstep, hnote,
    (archive_clears_iff Deployment.deployed hr hstep).mpr hls⟩

/-- A shipment in dispute is set to `PartiallyRefunded` by the admin, cancelled and
archived; the hash of that update stays behind. -/
theorem archiveShipment_leaves_hash : ∃ (c₁ c₂ : Chain Deployment.host) (env : Env)
    (trace : List Effect), Reachable c₁ ∧
      Step c₁ (.committed (.archiveShipment Deployment.admin 1) env trace) c₂ ∧
      c₂.world.dossier.statusHash 1 .partiallyRefunded = some 3 ∧ ¬c₂.world.Cleared 1 := by
  obtain ⟨ls, c₁, trace, c₂, hr, hstep, hhash⟩ := exists_commit Deployment.chain
    (Deployment.opening ++ [
      Deployment.signed Deployment.company 5 (.depositEscrow Deployment.company 1 1000),
      Deployment.signed Deployment.company 6 (.raiseDispute Deployment.company 1 2),
      Deployment.signed Deployment.admin 7 (.updateStatus Deployment.admin 1 .partiallyRefunded 3),
      Deployment.signed Deployment.company 8 (.cancelShipment Deployment.company 1 4)])
    (.archiveShipment Deployment.admin 1) ⟨9, 9, fun a => a = Deployment.admin, fun _ => true⟩
    (fun _ _ c' => c'.world.dossier.statusHash 1 .partiallyRefunded = some 3)
    (by decide +kernel)
  refine ⟨c₁, c₂, _, trace, ⟨_, ls, Deployment.deployed, hr⟩, hstep, hhash, fun hcl => ?_⟩
  rw [hcl.statusHash] at hhash
  cases hhash

end Navin
