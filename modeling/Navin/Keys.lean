/-
# Event counters and idempotency keys

An indexed event takes the next number of its shipment's event counter, and its key is
hashed from the domain, the shipment, the topic and that number. The counter is shared by
all topics, so no two events of a shipment are hashed from the same data; but archiving
removes the counter, and what is announced of the shipment afterwards is numbered from
one again.

Key definitions:
- `stampsOf`, `serialsOf`, `advances`: what a trace says about keys and counters;
- `keyLaw`: as a law of the contract;
- `Label.Unarchived`: no indexed event about an archived shipment.

Key theorems:
- `obeys_keyLaw`: every call but the archive;
- `preimages_distinct`: whole runs.
-/
import Navin.Lib.Serials
import Navin.Laws
import Navin.Isolation
import Navin.Settlements

namespace Navin

open Tx

set_option synthInstance.maxSize 4000

variable {H : Host} {env : Env} {w w' : World H} {call : Call} {id : ℕ} {es fs : List Effect}

/-! ### What a trace says -/

/-- The keys of the indexed events. -/
def stampsOf (es : List Effect) : List Stamp := es.filterMap (·.stamp?)

theorem stampsOf_append : stampsOf (es ++ fs) = stampsOf es ++ stampsOf fs := List.filterMap_append

/-- The keys of the events of one shipment. -/
def stampsFor (id : ℕ) (es : List Effect) : List Stamp := (stampsOf es).filter (·.id = id)

theorem stampsFor_append : stampsFor id (es ++ fs) = stampsFor id es ++ stampsFor id fs := by
  unfold stampsFor
  rw [stampsOf_append, List.filter_append]

/-- The numbers in the keys of one shipment. -/
def serialsOf (id : ℕ) (es : List Effect) : List ℕ := (stampsFor id es).map (·.key.eventCounter)

theorem serialsOf_append : serialsOf id (es ++ fs) = serialsOf id es ++ serialsOf id fs := by
  unfold serialsOf
  rw [stampsFor_append, List.map_append]

/-- The shipment whose counter an effect advances. -/
def Effect.counts? : Effect → Option ℕ
  | .event e => e.counts?
  | _ => none

/-- How many events advance the counter of a shipment. -/
def advances (id : ℕ) (es : List Effect) : ℕ := es.countP (·.counts? = some id)

theorem advances_append : advances id (es ++ fs) = advances id es + advances id fs :=
  List.countP_append

/-- What `generate_idempotency_key` hashes for the event. -/
def Stamp.preimage (s : Stamp) : ℕ × ℕ × String × ℕ := (s.domain, s.id, s.topic, s.key.eventCounter)

/-- The key is the hash of its preimage. -/
def Stamp.Genuine (H : Host) (s : Stamp) : Prop :=
  s.key.idempotencyKey =
    H.sha256 (idempotencyPayload s.domain s.id s.topic.toUTF8.toList s.key.eventCounter)

/-! ### The law -/

/-- The counter of a shipment goes from `k` to `k'` by the events `es`. It stays at the
last number once it is there. -/
structure Numbered (id : ℕ) (es : List Effect) (k k' : ℕ) : Prop where
  le : min k u32Max ≤ k'
  bound : k' ≤ k + advances id es
  serial : k' < u32Max → Serial k (serialsOf id es) k'

theorem Numbered.append {k k' k'' : ℕ} (h : Numbered id es k k') (h' : Numbered id fs k' k'') :
    Numbered id (es ++ fs) k k'' where
  le := by
    have h₁ := h.le
    have h₂ := h'.le
    omega
  bound := by
    rw [advances_append]
    have h₁ := h.bound
    have h₂ := h'.bound
    omega
  serial hlt := by
    rw [serialsOf_append]
    have h₂ := h'.le
    exact (h.serial (by omega)).append (h'.serial hlt)

/-- Effects without a key leave the counter. -/
theorem Numbered.of_keyless {k : ℕ} (h : stampsOf es = []) : Numbered id es k k where
  le := Nat.min_le_left _ _
  bound := Nat.le_add_right _ _
  serial _ := by
    unfold serialsOf stampsFor
    rw [h]
    exact .nil le_rfl

/-- The keys that are emitted are of the kind `P`, and the counters account for them. -/
def keyLaw (H : Host) (P : Stamp → Prop) : Law (World H) NavinError where
  keeps w w' := ∃ es, w'.trace = w.trace ++ es ∧ (∀ s ∈ stampsOf es, P s) ∧
    ∀ id, Numbered id es (w.getEventCount id) (w'.getEventCount id)
  fails _ _ _ := True
  refl w := ⟨[], (List.append_nil _).symm, fun _ hs => (by cases hs), fun _ => .of_keyless rfl⟩
  trans := by
    rintro s t u ⟨es, ht, hg, hn⟩ ⟨fs, hu, hg', hn'⟩
    refine ⟨es ++ fs, by rw [hu, ht, List.append_assoc], fun x hx => ?_, fun id => (hn id).append (hn' id)⟩
    rw [stampsOf_append] at hx
    exact (List.mem_append.mp hx).elim (hg x) (hg' x)
  after _ _ := trivial

namespace keyLaw

variable {P : Stamp → Prop}

/-- A step that emits no key and leaves the counters. -/
theorem keeps_of_keyless (es : List Effect) (ht : w'.trace = w.trace ++ es) (hs : stampsOf es = [])
    (hc : w'.dossier.eventCount = w.dossier.eventCount) : (keyLaw H P).keeps w w' := by
  refine ⟨es, ht, fun s hmem => ?_, fun id => ?_⟩
  · rw [hs] at hmem
    cases hmem
  · have hcount : w'.getEventCount id = w.getEventCount id := by
      unfold World.getEventCount
      rw [hc]
    rw [hcount]
    exact .of_keyless hs

theorem keeps_of_same (ht : w'.trace = w.trace)
    (hc : w'.dossier.eventCount = w.dossier.eventCount) : (keyLaw H P).keeps w w' :=
  keeps_of_keyless [] (ht.trans (List.append_nil _).symm) rfl hc

/-- The next number of a shipment. -/
theorem numbered_next {e : Event} {k k' : ℕ} (he : e.counts? = some id)
    (hserial : serialsOf id [.event e] = [] ∨ serialsOf id [.event e] = [saturatingAddU32 k 1])
    (hk : k' = saturatingAddU32 k 1) : Numbered id [.event e] k k' := by
  have hadv : advances id [.event e] = 1 := by
    unfold advances
    rw [List.countP_singleton, if_pos]
    exact decide_eq_true he
  unfold saturatingAddU32 at hserial hk
  refine ⟨by omega, by omega, fun hlt => ?_⟩
  have hk' : min (k + 1) u32Max = k + 1 := by omega
  rw [hk'] at hserial hk
  rcases hserial with hserial | hserial
  · rw [hserial, hk]
    exact .nil (Nat.le_succ k)
  · rw [hserial, hk]
    exact .next k

/-- An event of another shipment. -/
theorem numbered_other {e : Event} {j k : ℕ} (hs : serialsOf j [.event e] = []) :
    Numbered j [.event e] k k := by
  refine ⟨Nat.min_le_left _ _, Nat.le_add_right _ _, fun _ => ?_⟩
  rw [hs]
  exact .nil le_rfl

theorem counts?_of_stamp {e : Event} {s : Stamp} (h : e.stamp? = some s) : e.counts? = some s.id := by
  unfold Event.counts?
  split
  · cases h
  · cases h
  · cases h
  · rw [h]
    rfl

theorem serialsOf_singleton {e : Event} {s : Stamp} (h : e.stamp? = some s) (j : ℕ) :
    serialsOf j [.event e] = if s.id = j then [s.key.eventCounter] else [] := by
  unfold serialsOf stampsFor stampsOf
  have hs : Effect.stamp? (.event e) = some s := h
  rw [List.filterMap_cons, hs, List.filterMap_nil]
  by_cases hj : s.id = j <;> simp [hj]

theorem serialsOf_keyless {e : Event} (h : e.stamp? = none) (j : ℕ) : serialsOf j [.event e] = [] := by
  unfold serialsOf stampsFor stampsOf
  have hs : Effect.stamp? (.event e) = none := h
  rw [List.filterMap_cons, hs]
  rfl

/-- The world after an event that advances the counter. -/
def counted (w : World H) (id : ℕ) (e : Event) : World H :=
  { w with
    trace := w.trace ++ [.event e]
    dossier := { w.dossier with
      eventCount := Function.update w.dossier.eventCount id (some (w.nextEventCounter id)) } }

theorem getEventCount_counted (e : Event) (j : ℕ) : (counted w id e).getEventCount j =
    if j = id then w.nextEventCounter id else w.getEventCount j := by
  unfold counted World.getEventCount
  dsimp only
  rw [Function.update_apply]
  split <;> rfl

/-- An event with a key, or one without. -/
theorem keeps_counted {e : Event} (he : e.counts? = some id)
    (hstamp : ∀ s, e.stamp? = some s → P s ∧ s.key.eventCounter = w.nextEventCounter id) :
    (keyLaw H P).keeps w (counted w id e) := by
  refine ⟨[.event e], rfl, fun s hs => ?_, fun j => ?_⟩
  · obtain ⟨x, hx, hxs⟩ := List.mem_filterMap.mp hs
    rw [List.mem_singleton.mp hx] at hxs
    exact (hstamp s hxs).1
  · rw [getEventCount_counted]
    by_cases hj : j = id
    · rw [if_pos hj, hj]
      refine numbered_next he ?_ rfl
      cases hs : e.stamp? with
      | none => exact .inl (serialsOf_keyless hs id)
      | some s =>
        have hid : s.id = id := Option.some.inj ((counts?_of_stamp hs).symm.trans he)
        rw [serialsOf_singleton hs, if_pos hid, (hstamp s hs).2]
        exact .inr rfl
    · rw [if_neg hj]
      refine numbered_other ?_
      cases hs : e.stamp? with
      | none => exact serialsOf_keyless hs j
      | some s =>
        have hid : s.id = id := Option.some.inj ((counts?_of_stamp hs).symm.trans he)
        rw [serialsOf_singleton hs, if_neg (by rw [hid]; exact Ne.symm hj)]

section

instance : (keyLaw H P).Lenient := ⟨fun _ _ _ => trivial⟩

instance (g : Ledger H.Token → Ledger H.Token) : Obeys (keyLaw H P) (modifyLedger g) :=
  .modify fun _ => keeps_of_same rfl rfl

instance (g : Governance → Governance) : Obeys (keyLaw H P) (modifyGovernance g) :=
  .modify fun _ => keeps_of_same rfl rfl

instance (e : Effect) [h : Same e.stamp? none] : Obeys (keyLaw H P) (log e) :=
  .modify fun _ => keeps_of_keyless [e] rfl (by simp [stampsOf, h.out]) rfl

instance (t a b : Address) (x : ℤ) : Obeys (keyLaw H P) (invokeTokenTransfer t a b x) := by
  unfold invokeTokenTransfer checkTransferAllowed invokeTokenOperation recordTransferSuccess timestamp
  infer_instance

end

instance (payload : List UInt8) : Obeys (keyLaw H P) (checkIdempotency payload) := by
  unfold checkIdempotency hasIdempotencyWindow setIdempotencyWindow
  infer_instance

instance : (keyLaw H P).Fits where
  ordinary _ _ _ := trivial
  ledger _ _ := keeps_of_same rfl rfl
  registry _ _ := keeps_of_same rfl rfl
  dossier _ _ h := keeps_of_same rfl h
  governance _ _ _ _ _ := keeps_of_same rfl rfl
  keyless w e h := keeps_of_keyless [e] rfl (by simp [stampsOf, h]) rfl
  counted e id hs hc := by
    refine .of_ok fun {r w u w'} hx => ?_
    cases hx
    exact keeps_counted hc fun s h => by rw [hs] at h; cases h
  transfer _ _ _ _ := inferInstance
  settled _ _ _ _ _ _ := inferInstance

instance : (keyLaw H (Stamp.Genuine H)).Announces where
  keyed domain topic id event h := by
    refine .of_ok fun {r w u w'} hx => ?_
    cases hx
    refine keeps_counted (counts?_of_stamp (h _)) fun s hs => ?_
    rw [h] at hs
    cases hs
    exact ⟨rfl, rfl⟩

end keyLaw

/-- Every call but the archive. -/
theorem obeys_keyLaw (h : ∀ admin id, call ≠ .archiveShipment admin id) :
    Obeys (keyLaw H (Stamp.Genuine H)) (call.exec : Contract H Unit) := by
  refine obeys_exec (fun _ => inferInstance) (fun _ _ => inferInstance) (fun _ m hm => ?_)
    (fun admin id hc => absurd hc (h admin id))
    fun _ _ => inferInstance
  exact obeys_withReentrancyLock (fun _ _ => keyLaw.keeps_of_same rfl rfl) (fun h => h) hm

/-- The calls that announce nothing emit no key. -/
theorem obeys_keyLaw_silent (hc : call.announces = false) (h : ∀ admin id, call ≠ .archiveShipment admin id) :
    Obeys (keyLaw H fun _ => False) (call.exec : Contract H Unit) := by
  refine obeys_exec (fun hc' => ?_) (fun _ _ => inferInstance) (fun _ m hm => ?_)
    (fun admin id hc => absurd hc (h admin id))
    fun _ _ => inferInstance
  · rw [hc] at hc'
    cases hc'
  · exact obeys_withReentrancyLock (fun _ _ => keyLaw.keeps_of_same rfl rfl) (fun h => h) hm

/-! ### The archive -/

/-- The keys that were emitted, and the counters. -/
def World.ledgerOfKeys (w : World H) : List Stamp × (ℕ → Option ℕ) :=
  (stampsOf w.trace, w.dossier.eventCount)

section

instance : LedgerFree (World.ledgerOfKeys (H := H)) := ⟨fun _ _ => rfl⟩

instance : AuthFree (World.ledgerOfKeys (H := H)) := ⟨fun w a => by
  unfold World.ledgerOfKeys
  rw [stampsOf_append]
  exact Prod.ext (List.append_nil _) rfl⟩

instance (e : Effect) [h : Same e.stamp? none] :
    Preserves (World.ledgerOfKeys (H := H)) (log e : Contract H Unit) := Preserves.modify fun w => by
  unfold World.ledgerOfKeys
  rw [stampsOf_append]
  refine Prod.ext ?_ rfl
  simp [stampsOf, h.out]

instance (g : Dossier → Dossier) [h : ∀ x, Same (g x).eventCount x.eventCount] :
    Preserves (World.ledgerOfKeys (H := H)) (modifyDossier g : Contract H Unit) :=
  Preserves.modify fun w => Prod.ext rfl (h w.dossier).out

/-- Archiving removes the counter of the shipment. -/
instance (s : Shipment) : Writes (World.ledgerOfKeys (H := H))
    (fun x => (x.1, Function.update x.2 id none)) (storageArchiveShipment id s : Contract H Unit) := by
  have : Writes (World.ledgerOfKeys (H := H)) (fun x => (x.1, Function.update x.2 id none))
      (modifyDossier fun d => { d with
        confirmationHash := Function.update d.confirmationHash id none
        lastStatusUpdate := Function.update d.lastStatusUpdate id none
        eventCount := Function.update d.eventCount id none
        milestoneEventCount := Function.update d.milestoneEventCount id none
        breachEventCount := Function.update d.breachEventCount id none
        escrowFreezeReason := Function.update d.escrowFreezeReason id none } : Contract H Unit) :=
    .modify fun w => rfl
  unfold storageArchiveShipment
  infer_instance

instance (admin : Address) : Writes (World.ledgerOfKeys (H := H))
    (fun x => (x.1, Function.update x.2 id none)) (archiveShipment admin id : Contract H Unit) := by
  unfold archiveShipment
  infer_instance

end

/-- What a call does to the keys and the counters. -/
theorem keys_exec (hx : call.exec env w.fresh = .ok () w') : (∀ s ∈ stampsOf w'.trace, s.Genuine H) ∧
    ((∃ admin id, call = .archiveShipment admin id ∧ stampsOf w'.trace = [] ∧
      w'.dossier.eventCount = Function.update w.dossier.eventCount id none) ∨
    ((∀ admin id, call ≠ .archiveShipment admin id) ∧
      ∀ id, Numbered id w'.trace (w.getEventCount id) (w'.getEventCount id))) := by
  by_cases ha : ∃ admin id, call = .archiveShipment admin id
  · obtain ⟨admin, id, rfl⟩ := ha
    have hw : w'.ledgerOfKeys = (stampsOf w.fresh.trace, Function.update w.fresh.dossier.eventCount id none) :=
      Writes.out (f := World.ledgerOfKeys) (g := fun x => (x.1, Function.update x.2 id none))
        (m := archiveShipment admin id) env w.fresh () w' hx
    have hs : stampsOf w'.trace = [] := congrArg Prod.fst hw
    refine ⟨fun s hmem => ?_, .inl ⟨admin, id, rfl, hs, congrArg Prod.snd hw⟩⟩
    rw [hs] at hmem
    cases hmem
  · have hne : ∀ admin id, call ≠ .archiveShipment admin id := fun admin id hc => ha ⟨admin, id, hc⟩
    obtain ⟨es, ht, hg, hn⟩ := (obeys_keyLaw hne).ok hx
    have ht : w'.trace = es := ht
    rw [ht]
    exact ⟨hg, .inr ⟨hne, hn⟩⟩

/-- A call that announces nothing emits no key. -/
theorem stampsOf_silent (hc : call.announces = false) (hx : call.exec env w.fresh = .ok () w') :
    stampsOf w'.trace = [] := by
  rcases keys_exec hx with ⟨-, ⟨admin, id, -, hs, -⟩ | ⟨hne, -⟩⟩
  · exact hs
  · obtain ⟨es, ht, hg, -⟩ := (obeys_keyLaw_silent hc hne).ok hx
    have ht : w'.trace = es := ht
    rw [ht]
    exact List.eq_nil_iff_forall_not_mem.mpr hg

/-- Only the archive touches the archived records. -/
theorem archivedShipment_exec (hk : w.ledger.Keyed) (hx : call.exec env w = .ok () w')
    (hne : ∀ admin id, call ≠ .archiveShipment admin id) :
    w'.ledger.archivedShipment = w.ledger.archivedShipment := by
  have he := exec_effects hk hx
  change w'.book.ledger.archivedShipment = w.ledger.archivedShipment
  generalize w'.book = b at he
  cases he with
  | quiet => rfl
  | initialized => rfl
  | handedOver => rfl
  | enrolled _ _ _ he =>
    induction he with
    | nil => rfl
    | snoc _ _ _ ih =>
      rw [Ledger.enrol_archivedShipment]
      exact ih
  | @archived admin id s hcall => exact absurd hcall (hne admin id)
  | posted _ _ _ hp =>
    obtain ⟨t, token, -, -, rfl⟩ := hp
    rfl

/-! ### Runs -/

variable {c c' c₀ : Chain H} {l : Label} {ls : List Label} {T : List Effect}

/-- The shipment an action pays out. -/
def AdminAction.pays? : AdminAction → Option ℕ
  | .forceRelease id | .forceRefund id => some id
  | _ => none

/-- The shipment the indexed events of a call are about, when it is not a new one. -/
def World.announced? (w : World H) (call : Call) : Option ℕ :=
  if call.announces then call.subject?.or ((w.executing call).bind (·.pays?)) else none

/-- No indexed event is about an archived shipment. -/
def Label.Unarchived (c : Chain H) : Label → Prop
  | .committed call _ _ => ∀ id ∈ c.world.announced? call, c.world.ledger.archivedShipment id = none
  | _ => True

instance (c : Chain H) (l : Label) : Decidable (l.Unarchived c) :=
  match l with
  | .committed .. => inferInstanceAs (Decidable (∀ id ∈ _, _))
  | .reverted .. => .isTrue trivial
  | .outside => .isTrue trivial

theorem subject?_of_executing {a : AdminAction} (h : w.executing call = some a) :
    call.subject? = none := by
  cases call <;> first | rfl | cases h

theorem World.About.announced (h : w.About call id) (hc : call.announces = true) :
    w.announced? call = some id := by
  unfold World.announced?
  rw [if_pos hc]
  rcases h with h | h | h
  · rw [h]
    rfl
  · rw [h, subject?_of_executing h]
    rfl
  · rw [h, subject?_of_executing h]
    rfl

/-- The effects `T` of a run so far, against the counter of a shipment. -/
structure World.Serialized (w : World H) (id : ℕ) (T : List Effect) : Prop where
  bound : w.getEventCount id ≤ advances id T
  serial : advances id T < u32Max → w.ledger.archivedShipment id = none →
    Serial 0 (serialsOf id T) (w.getEventCount id)
  nodup : advances id T < u32Max → ((stampsFor id T).map Stamp.preimage).Nodup

/-- Distinct numbers, distinct preimages. -/
theorem nodup_of_serial {k k' : ℕ} (h : Serial k (serialsOf id T) k') :
    ((stampsFor id T).map Stamp.preimage).Nodup := by
  have hmap : serialsOf id T = ((stampsFor id T).map Stamp.preimage).map (·.2.2.2) := by
    unfold serialsOf
    rw [List.map_map]
    rfl
  exact .of_map _ (hmap ▸ h.nodup)

theorem stampsFor_of_nil (h : stampsOf es = []) : stampsFor id es = [] := by
  unfold stampsFor
  rw [h]
  rfl

theorem stampsFor_of_serials (h : serialsOf id es = []) : stampsFor id es = [] :=
  List.map_eq_nil_iff.mp h

/-- A call emits no key about an archived shipment. -/
theorem stampsFor_archived (hs : w.ledger.Sound) (hx : call.exec env w.fresh = .ok () w')
    (ha : w.ledger.archivedShipment id ≠ none) (hl : w.announced? call ≠ some id)
    (hlt : w.getEventCount id < u32Max) : stampsFor id w'.trace = [] := by
  cases hc : call.announces with
  | false => exact stampsFor_of_nil (stampsOf_silent hc hx)
  | true =>
    have hs : w.fresh.ledger.Sound := hs
    have hj : id ≤ w.fresh.ledger.shipmentCount := by
      obtain ⟨s, ha⟩ := Option.ne_none_iff_exists'.mp ha
      cases hg : w.ledger.shipment id with
      | none =>
        refine (hs.ids id s ?_).2
        change w.getShipment id = some s
        unfold World.getShipment
        rw [hg, ha]
      | some t =>
        refine (hs.ids id t ?_).2
        change w.getShipment id = some t
        unfold World.getShipment
        rw [hg]
    have habout : ¬w.fresh.About call id := fun h => hl (World.About.announced (w := w) h hc)
    have hfile : w'.file id = w.fresh.file id := wp_file hs.keyed hj habout () w' hx
    have hcount : w'.getEventCount id = w.getEventCount id := by
      have h : w'.dossier.eventCount id = w.dossier.eventCount id :=
        congrArg (fun f : File => f.marks.eventCount) hfile
      unfold World.getEventCount
      rw [h]
    rcases keys_exec hx with ⟨-, ⟨admin, i, rfl, hnil, -⟩ | ⟨-, hn⟩⟩
    · exact stampsFor_of_nil hnil
    · have hn := (hn id).serial (by rw [hcount]; exact hlt)
      rw [hcount] at hn
      exact stampsFor_of_serials hn.eq_nil

theorem serialsOf_of_stampsFor (h : stampsFor id es = []) : serialsOf id (T ++ es) = serialsOf id T := by
  unfold serialsOf
  rw [stampsFor_append, h, List.append_nil]

/-- The archive sets the counter of its shipment back. -/
theorem World.Serialized.archive (h : w.Serialized id T) {admin : Address} {i : ℕ}
    (hx : (Call.archiveShipment admin i).exec env w.fresh = .ok () w') (hs : stampsOf w'.trace = [])
    (hc : w'.dossier.eventCount = Function.update w.dossier.eventCount i none) :
    w'.Serialized id (T ++ w'.trace) := by
  obtain ⟨s, -, -, hb⟩ := wp_archiveShipment (w := w.fresh) () w' hx
  have harch : w'.ledger.archivedShipment = Function.update w.ledger.archivedShipment i (some s) :=
    congrArg (·.ledger.archivedShipment) hb
  have hnil : stampsFor id w'.trace = [] := stampsFor_of_nil hs
  have hcount : w'.getEventCount id = if id = i then 0 else w.getEventCount id := by
    unfold World.getEventCount
    rw [hc, Function.update_apply]
    split <;> rfl
  have hadv : advances id T ≤ advances id (T ++ w'.trace) := by
    rw [advances_append]
    exact Nat.le_add_right _ _
  refine ⟨?_, fun hlt ha => ?_, fun hlt => ?_⟩
  · rw [hcount]
    split
    · exact Nat.zero_le _
    · exact h.bound.trans hadv
  · rw [harch, Function.update_apply] at ha
    split at ha
    · cases ha
    · next hne =>
      rw [hcount, if_neg hne, serialsOf_of_stampsFor hnil]
      exact h.serial (hadv.trans_lt hlt) ha
  · rw [stampsFor_append, hnil, List.append_nil]
    exact h.nodup (hadv.trans_lt hlt)

/-- Every other call goes on from where the counter is. -/
theorem World.Serialized.numbered (h : w.Serialized id T) (hs : w.ledger.Sound)
    (hx : call.exec env w.fresh = .ok () w') (hl : ∀ id ∈ w.announced? call, w.ledger.archivedShipment id = none)
    (hne : ∀ admin id, call ≠ .archiveShipment admin id)
    (hn : Numbered id w'.trace (w.getEventCount id) (w'.getEventCount id)) :
    w'.Serialized id (T ++ w'.trace) := by
  have harch : w'.ledger.archivedShipment = w.ledger.archivedShipment :=
    archivedShipment_exec (w := w.fresh) hs.keyed hx hne
  have hbound := hn.bound
  have hold := h.bound
  have hserial : advances id (T ++ w'.trace) < u32Max → w'.ledger.archivedShipment id = none →
      Serial 0 (serialsOf id (T ++ w'.trace)) (w'.getEventCount id) := by
    intro hlt ha
    rw [advances_append] at hlt
    rw [harch] at ha
    rw [serialsOf_append]
    exact (h.serial (by omega) ha).append (hn.serial (by omega))
  refine ⟨by rw [advances_append]; omega, hserial, fun hlt => ?_⟩
  by_cases ha : w.ledger.archivedShipment id = none
  · exact nodup_of_serial (hserial hlt (by rw [harch]; exact ha))
  · rw [advances_append] at hlt
    have hnil : stampsFor id w'.trace = [] :=
      stampsFor_archived hs hx ha (fun hid => ha (hl id hid)) (by omega)
    rw [stampsFor_append, hnil, List.append_nil]
    exact h.nodup (by omega)

/-- A step that announces nothing of an archived shipment. -/
theorem Step.serialized (hstep : Step c l c') (hs : c.world.ledger.Sound) (hl : l.Unarchived c)
    (h : c.world.Serialized id T) : c'.world.Serialized id (T ++ l.trace) := by
  cases hstep with
  | @committed call env w' hadm hx =>
    have h' : w'.Serialized id (T ++ w'.trace) := by
      rcases (keys_exec hx).2 with ⟨admin, i, rfl, hnil, hc⟩ | ⟨hne, hn⟩
      · exact h.archive hx hnil hc
      · exact h.numbered hs hx hl hne (hn id)
    exact ⟨h'.bound, h'.serial, h'.nodup⟩
  | reverted =>
    change World.Serialized _ id (T ++ [])
    rw [List.append_nil]
    exact h
  | outside =>
    change World.Serialized _ id (T ++ [])
    rw [List.append_nil]
    exact ⟨h.bound, h.serial, h.nodup⟩

/-- In a run that announces nothing of an archived shipment, the keys of a shipment with
fewer events than its counter can count are hashed from distinct data. -/
theorem preimages_distinct (hd : Deployed c₀) (hr : Run (Under Step fun c l => l.Unarchived c) c₀ ls c)
    (hlt : advances id (ls.flatMap Label.trace) < u32Max) :
    ((stampsFor id (ls.flatMap Label.trace)).map Stamp.preimage).Nodup := by
  have hinv : c.world.ledger.Sound ∧ c.world.Serialized id (ls.flatMap Label.trace) := by
    refine hr.inv_hist (I := fun ks x => x.world.ledger.Sound ∧
      x.world.Serialized id (ks.flatMap Label.trace)) ⟨hd.sound, ?_⟩ ?_
    · cases hd
      exact ⟨Nat.zero_le _, fun _ _ => .nil (Nat.zero_le _), fun _ => .nil⟩
    · rintro ks x l y - ⟨hs, h⟩ ⟨hstep, hl⟩
      rw [List.flatMap_append, List.flatMap_singleton]
      exact ⟨hstep.sound hs, hstep.serialized hs hl h⟩
  exact hinv.2.nodup hlt

/-- A shipment with new arrival times, before it is archived and with a note after. -/
theorem preimages_distinct_archived : ∃ (c : Chain Deployment.host) (ls : List Label),
    Run Step Deployment.chain ls c ∧ (c.world.ledger.archivedShipment 1).isSome = true ∧
      (stampsFor 1 (ls.flatMap Label.trace)).length = 4 ∧
      ((stampsFor 1 (ls.flatMap Label.trace)).map Stamp.preimage).Nodup := by
  obtain ⟨ls, c, -, hp, harch, hlen, hlt⟩ := exists_play Deployment.chain
    (Deployment.opening ++ [
      Deployment.signed Deployment.carrier 5 (.updateEta Deployment.carrier 1 9000 2),
      Deployment.signed Deployment.carrier 100 (.updateStatus Deployment.carrier 1 .inTransit 3),
      Deployment.signed Deployment.carrier 1000 (.updateStatus Deployment.carrier 1 .delivered 4),
      Deployment.signed Deployment.admin 1001 (.archiveShipment Deployment.admin 1),
      Deployment.signed Deployment.company 1002 (.appendNoteHash Deployment.company 1 5)])
    (fun r => (r.2.world.ledger.archivedShipment 1).isSome = true ∧
      (stampsFor 1 (r.1.flatMap Label.trace)).length = 4 ∧
      advances 1 (r.1.flatMap Label.trace) < u32Max) (by decide +kernel)
  have hr : Run (Under Step fun c l => l.Unarchived c) Deployment.chain ls c :=
    run_under_of_play hp (by decide +kernel)
  exact ⟨c, ls, hr.of_under, harch, hlen, preimages_distinct Deployment.deployed hr hlt⟩

/-- The carrier announces an arrival before the archive and two after it. -/
theorem preimages_repeat :
    ¬∀ (c : Chain Deployment.host) (ls : List Label) (id : ℕ), Run Step Deployment.chain ls c →
      advances id (ls.flatMap Label.trace) < u32Max →
      ((stampsFor id (ls.flatMap Label.trace)).map Stamp.preimage).Nodup := by
  intro hall
  obtain ⟨ls, c, hr, -, hlt, hdup⟩ := exists_play Deployment.chain
    (Deployment.opening ++ [
      Deployment.signed Deployment.carrier 5 (.updateEta Deployment.carrier 1 9000 2),
      Deployment.signed Deployment.company 6 (.depositEscrow Deployment.company 1 1000),
      Deployment.signed Deployment.carrier 100 (.updateStatus Deployment.carrier 1 .inTransit 3),
      Deployment.signed Deployment.carrier 1000 (.updateStatus Deployment.carrier 1 .delivered 4),
      Deployment.signed Deployment.admin 1001 (.archiveShipment Deployment.admin 1),
      Deployment.signed Deployment.carrier 1002 (.updateEta Deployment.carrier 1 9000 5),
      Deployment.signed Deployment.carrier 1003 (.updateEta Deployment.carrier 1 9500 6)])
    (fun r => advances 1 (r.1.flatMap Label.trace) < u32Max ∧
      ¬((stampsFor 1 (r.1.flatMap Label.trace)).map Stamp.preimage).Nodup) (by decide +kernel)
  exact hdup (hall c ls 1 hr hlt)

end Navin
