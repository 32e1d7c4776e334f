/-
# The notes of a shipment

A note is stored under the count of the notes before it, so it overwrites none, and no call
but one removes any. The one is the archiving of a shipment: it removes its notes with
their count. The record stays readable in the archive, and notes can be added to it, which
are numbered from zero again.

Key definitions:
- `Papers.NotesIn`: the notes of one state of the papers are there in another;
- `Label.SparesNotes`: the step archives no shipment that has notes.

Key theorems:
- `Filing.notesIn`: what a call does to the notes;
- `notes_append_only`: over every run of steps that spare the notes.
-/
import Navin.Entry.Queries
import Navin.Lib.Returns
import Navin.Orphans
import Navin.Token

namespace Navin

open Tx

variable {H : Host} {env env' : Env} {w w' : World H} {id k : ℕ}

/-! ### What the views return -/

theorem returns_getNoteCount {n : ℕ} : (getNoteCount id).Returns env w n w' ↔
    w.isInitialized = true ∧ w.getShipment id ≠ none ∧ n = w.getNoteCount id ∧ w' = w := by
  unfold getNoteCount requireInitialized
  simp only [bind_assoc, returns_gets_bind, returns_rejectIf_bind, returns_gets,
    Bool.not_eq_false, ne_eq]

theorem returns_getNoteHash {hash : BytesN32} : (getNoteHash id k).Returns env w hash w' ↔
    w.isInitialized = true ∧ w.getShipment id ≠ none ∧ w.dossier.note id k = some hash ∧
      w' = w := by
  unfold getNoteHash requireInitialized
  simp only [bind_assoc, returns_gets_bind, returns_rejectIf_bind, returns_okOr,
    Bool.not_eq_false, ne_eq]

/-! ### What a call does to the notes -/

namespace Papers

/-- The notes of `p` are those of `q` under the same numbers, which may have more. -/
structure NotesIn (p q : Papers) : Prop where
  kept : ∀ id k hash, p.note id k = some hash → q.note id k = some hash
  count_le : ∀ id, (p.noteCount id).getD 0 ≤ (q.noteCount id).getD 0

variable {p q r : Papers}

theorem NotesIn.of_eq (hn : q.note = p.note) (hc : q.noteCount = p.noteCount) : p.NotesIn q := by
  refine ⟨fun id k hash h => ?_, fun id => ?_⟩
  · rw [hn]
    exact h
  · rw [hc]

theorem NotesIn.trans (h : p.NotesIn q) (h' : q.NotesIn r) : p.NotesIn r :=
  ⟨fun id k hash hk => h'.kept id k hash (h.kept id k hash hk),
    fun id => (h.count_le id).trans (h'.count_le id)⟩

/-- The number of a new note is above those in use. -/
theorem notesIn_addNote (hp : p.Numbered) (id : ℕ) (hash : BytesN32) :
    p.NotesIn (p.addNote id hash) := by
  refine ⟨fun i k h hk => ?_, fun i => ?_⟩
  · have hlt := hp.notes.below i k (by rw [hk]; simp)
    show update₂ p.note id ((p.noteCount id).getD 0) (some hash) i k = some h
    by_cases hi : i = id
    · subst hi
      rw [update₂, Function.update_self, Function.update_of_ne (by omega)]
      exact hk
    · rw [update₂, Function.update_of_ne hi]
      exact hk
  · show _ ≤ (Function.update p.noteCount id (some ((p.noteCount id).getD 0 + 1)) i).getD 0
    by_cases hi : i = id
    · subst hi
      simp
    · rw [Function.update_of_ne hi]

/-- The clean-up of a shipment without notes finds none. -/
theorem notesIn_purge (h : (p.noteCount id).getD 0 = 0) : p.NotesIn (p.purge id) := by
  have hn : (p.purge id).note = p.note := by
    show purgeBelow p.note id ((p.noteCount id).getD 0) = p.note
    rw [h]
    funext i k
    exact if_neg (by simp)
  have hc : (p.purge id).noteCount = p.noteCount := by
    show purgeCount p.noteCount id ((p.noteCount id).getD 0) = p.noteCount
    rw [h]
    exact if_neg (by simp)
  exact .of_eq hn hc

end Papers

theorem Filing.notesIn {p q : Papers} {call : Call} (hf : Filing p call q) (hp : p.Numbered)
    (harchive : ∀ a id, call = .archiveShipment a id → (p.noteCount id).getD 0 = 0) :
    p.NotesIn q := by
  cases hf with
  | note => exact Papers.notesIn_addNote hp _ _
  | purged => exact Papers.notesIn_purge (harchive _ _ rfl)
  | _ => exact .of_eq rfl rfl

/-! ### Runs -/

/-- The shipment a call archives. -/
def Call.archives? : Call → Option ℕ
  | .archiveShipment _ id => some id
  | _ => none

/-- The step archives no shipment that has notes. -/
def Label.SparesNotes (c : Chain H) : Label → Prop
  | .committed call _ _ => ∀ id ∈ call.archives?, c.world.getNoteCount id = 0
  | _ => True

instance (c : Chain H) (l : Label) : Decidable (l.SparesNotes c) :=
  match l with
  | .committed .. => inferInstanceAs (Decidable (∀ id ∈ _, _))
  | .reverted .. => .isTrue trivial
  | .outside => .isTrue trivial

variable {c c' : Chain H} {l : Label} {ls : List Label}

theorem Step.notesIn (hstep : Step c l c') (hp : c.world.papers.Numbered) (hl : l.SparesNotes c) :
    c.world.papers.NotesIn c'.world.papers := by
  rcases hstep.filed with ⟨call, env, trace, rfl, hf⟩ | ⟨-, heq⟩
  · refine hf.notesIn hp ?_
    rintro a id rfl
    exact hl id rfl
  · exact .of_eq (by rw [heq]) (by rw [heq])

/-- In every run whose steps archive no shipment with notes, a note hash that was returned
under an index is the only one ever returned there, and the count does not go down. -/
theorem notes_append_only (hc : Reachable c)
    (hr : Run (Under Step fun c l => l.SparesNotes c) c ls c') :
    (∀ id k hash hash' env env' w w', (getNoteHash id k).Returns env c.world hash w →
      (getNoteHash id k).Returns env' c'.world hash' w' → hash' = hash) ∧
    ∀ id n n' env env' w w', (getNoteCount id).Returns env c.world n w →
      (getNoteCount id).Returns env' c'.world n' w' → n ≤ n' := by
  have hin : c'.world.papers.Numbered ∧ c.world.papers.NotesIn c'.world.papers := by
    refine hr.inv (I := fun b => b.world.papers.Numbered ∧ c.world.papers.NotesIn b.world.papers)
      ⟨hc.numbered, .of_eq rfl rfl⟩ fun a l b h hl => ?_
    refine ⟨?_, h.2.trans (hl.1.notesIn h.1 hl.2)⟩
    rcases hl.1.filed with ⟨call, env, trace, -, hf⟩ | ⟨-, heq⟩
    · exact hf.numbered h.1
    · rw [heq]
      exact h.1
  refine ⟨fun id k hash hash' env env' w w' h h' => ?_, fun id n n' env env' w w' h h' => ?_⟩
  · obtain ⟨-, -, hash_eq, -⟩ := returns_getNoteHash.mp h
    obtain ⟨-, -, hash_eq', -⟩ := returns_getNoteHash.mp h'
    have hkept := hin.2.kept id k hash hash_eq
    exact Option.some.inj (hash_eq'.symm.trans hkept)
  · obtain ⟨-, -, rfl, -⟩ := returns_getNoteCount.mp h
    obtain ⟨-, -, rfl, -⟩ := returns_getNoteCount.mp h'
    exact hin.2.count_le id

/-- A note, its shipment delivered, and one more note. -/
theorem notes_append_only_delivered : ∃ (c c' : Chain Deployment.host) (ls : List Label),
    Reachable c ∧ Run (Under Step fun c l => l.SparesNotes c) c ls c' ∧
      c.world.getNoteCount 1 = 1 ∧ c'.world.getNoteCount 1 = 2 ∧
      ∀ hash hash' env env' w w', (getNoteHash 1 0).Returns env c.world hash w →
        (getNoteHash 1 0).Returns env' c'.world hash' w' → hash' = hash := by
  obtain ⟨ks, c, ls, c', hr, -, hplay, hcount, hcount', hmeets⟩ := exists_play₂ Deployment.chain
    (Deployment.opening ++ [
      Deployment.signed Deployment.company 5 (.appendNoteHash Deployment.company 1 9)])
    [Deployment.signed Deployment.carrier 6 (.updateStatus Deployment.carrier 1 .inTransit 2),
      Deployment.signed Deployment.receiver 7 (.confirmDelivery Deployment.receiver 1 3),
      Deployment.signed Deployment.receiver 8 (.appendNoteHash Deployment.receiver 1 4)]
    (fun a r => a.world.getNoteCount 1 = 1 ∧ r.2.world.getNoteCount 1 = 2 ∧
      playMeets (fun c l => l.SparesNotes c) a [
        Deployment.signed Deployment.carrier 6 (.updateStatus Deployment.carrier 1 .inTransit 2),
        Deployment.signed Deployment.receiver 7 (.confirmDelivery Deployment.receiver 1 3),
        Deployment.signed Deployment.receiver 8 (.appendNoteHash Deployment.receiver 1 4)] = true)
    (by decide +kernel)
  have hc : Reachable c := ⟨_, ks, Deployment.deployed, hr⟩
  have hls := run_under_of_play hplay hmeets
  obtain ⟨hhash, -⟩ := notes_append_only hc hls
  exact ⟨c, c', ls, hc, hls, hcount, hcount', hhash 1 0⟩

/-- After the archiving a note takes the place of an earlier one. -/
theorem notes_not_append_only :
    ¬∀ (c c' : Chain Deployment.host) (ls : List Label), Reachable c → Run Step c ls c' →
      (∀ id k hash hash' env env' w w', (getNoteHash id k).Returns env c.world hash w →
        (getNoteHash id k).Returns env' c'.world hash' w' → hash' = hash) ∧
      ∀ id n n' env env' w w', (getNoteCount id).Returns env c.world n w →
        (getNoteCount id).Returns env' c'.world n' w' → n ≤ n' := by
  intro hall
  obtain ⟨ks, c, ls, c', hr, hls, -, ⟨hi, hs, hnote⟩, hi', hs', hnote'⟩ :=
    exists_play₂ Deployment.chain
    (Deployment.opening ++ [
      Deployment.signed Deployment.company 5 (.appendNoteHash Deployment.company 1 9)])
    [Deployment.signed Deployment.carrier 6 (.updateStatus Deployment.carrier 1 .inTransit 2),
      Deployment.signed Deployment.receiver 7 (.confirmDelivery Deployment.receiver 1 3),
      Deployment.signed Deployment.admin 8 (.archiveShipment Deployment.admin 1),
      Deployment.signed Deployment.receiver 9 (.appendNoteHash Deployment.receiver 1 4)]
    (fun a r => (a.world.isInitialized = true ∧ a.world.getShipment 1 ≠ none ∧
        a.world.dossier.note 1 0 = some 9) ∧ r.2.world.isInitialized = true ∧
      r.2.world.getShipment 1 ≠ none ∧ r.2.world.dossier.note 1 0 = some 4)
    (by decide +kernel)
  obtain ⟨hhash, -⟩ := hall c c' ls ⟨_, ks, Deployment.deployed, hr⟩ hls
  have env : Env := ⟨0, 0, fun _ => true, fun _ => true⟩
  have heq := hhash 1 0 9 4 env env c.world c'.world
    (returns_getNoteHash.mpr ⟨hi, hs, hnote, rfl⟩) (returns_getNoteHash.mpr ⟨hi', hs', hnote', rfl⟩)
  exact absurd heq (by decide)

end Navin
