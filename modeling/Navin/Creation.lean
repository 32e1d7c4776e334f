/-
# When shipments are created

The two creations to the last entry: when they go through, and the world they leave.
What they check of an item does not depend on the world, and what they store is the
same in both; they differ in the idempotency window, which a batch neither asks for
nor opens, and in how often they look at the limit and the quota.

Key definitions:
- `Symbol.Short`, `Scheduled`, `ShipmentInput.Acceptable`: an item that passes;
- `World.Serves`: the sender may create;
- `World.HasQuota`, `World.reserved`: the quota and what is taken of it;
- `World.Room`: ids and counters for new shipments;
- `World.enrol`, `World.enrolAll`: one new shipment, the shipments of a batch.

Key theorems:
- `returns_createShipment`, `returns_createShipmentsBatch`;
- `forall_records_exec`: what every record has after every call.
-/
import Navin.Admission
import Navin.Roles
import Navin.Schedules

namespace Navin

open Tx

set_option synthInstance.maxSize 4000

variable {H : Host} {env : Env} {w w' : World H}

/-! ### Symbols and schedules -/

/-- A name of one to twelve characters. -/
def Symbol.Short (s : Symbol) : Prop := 1 ≤ s.bytes.length ∧ s.bytes.length ≤ 12

instance (s : Symbol) : Decidable s.Short := inferInstanceAs (Decidable (_ ∧ _))

/-- The window of the encoded length is a window of the name's own. -/
theorem Symbol.short_iff (s : Symbol) :
    s.Short ↔ 12 ≤ s.toXdr.length ∧ s.toXdr.length ≤ 20 := by
  rw [Symbol.length_toXdr, Symbol.Short]
  omega

theorem returns_validateSymbolChars {s : Symbol} (hs : s.Short) {u : Unit} :
    (validateSymbolChars s).Returns env w u w' ↔ w' = w := by
  unfold validateSymbolChars
  have hlegal := s.legal
  unfold Symbol.Short at hs
  simp only [returns_rejectIf_bind, returns_trapIf_bind, returns_rejectIf, hlegal]
  constructor
  · exact fun h => h.2.2.2
  · exact fun h => ⟨by omega, by omega, by simp, h⟩

/-- A checkpoint is accepted by the length of its name. -/
theorem returns_validateCheckpointSymbol {s : Symbol} {u : Unit} :
    (validateCheckpointSymbol s).Returns env w u w' ↔ s.Short ∧ w' = w := by
  unfold validateCheckpointSymbol
  simp only [returns_rejectIf_bind]
  constructor
  · rintro ⟨-, hlen, hchars⟩
    have hs : s.Short := s.short_iff.mpr (not_not.mp hlen)
    exact ⟨hs, (returns_validateSymbolChars hs).mp hchars⟩
  · rintro ⟨hs, rfl⟩
    have hlen := s.short_iff.mp hs
    exact ⟨by omega, not_not.mpr hlen, (returns_validateSymbolChars hs).mpr rfl⟩

/-- An entry of a schedule that `validate_milestone_symbols` passes. -/
def ScheduledEntry (m : Symbol × ℕ) : Prop := m.1.Short ∧ 0 < m.2 ∧ m.2 ≤ 100

/-- A schedule that `validate_milestones` passes: none, or distinct short names with
shares that sum to 100. -/
def Scheduled (milestones : List (Symbol × ℕ)) : Prop :=
  milestones = [] ∨ (∀ m ∈ milestones, ScheduledEntry m) ∧
    (milestones.map fun m => m.1.toXdr).Nodup ∧ (milestones.map (·.2)).sum = 100

theorem scheduled_contents {milestones : List (Symbol × ℕ)} :
    Raw.Scheduled (contents milestones) ↔ Scheduled milestones := by
  have hentry (m : Symbol × ℕ) : (NameOf m.1.bytes ∧ 1 ≤ m.2 ∧ m.2 ≤ 100) ↔ ScheduledEntry m := by
    unfold NameOf ScheduledEntry Symbol.Short
    simp only [m.1.legal, and_true]
    rfl
  unfold Raw.Scheduled Scheduled contents
  rw [List.map_eq_nil_iff, List.forall_mem_map, List.map_map, List.map_map]
  refine or_congr_right ?_
  simp only [hentry]
  refine and_congr_right fun hm => and_congr_left fun _ => ?_
  have hnames : ∀ name ∈ milestones.map fun m => m.1.bytes, NameOf name := by
    rw [List.forall_mem_map]
    exact fun m hmem => ((hentry m).mpr (hm m hmem)).1
  have hnd := Raw.nodup_xdrSymbol_iff hnames
  rw [List.map_map] at hnd
  exact hnd.symm

theorem returns_validateMilestones {milestones : List (Symbol × ℕ)} {u : Unit} :
    (validateMilestones milestones).Returns env w u w' ↔ Scheduled milestones ∧ w' = w := by
  rw [validateMilestones_contents, Raw.returns_validateMilestones, scheduled_contents]

/-! ### One new shipment -/

namespace World

variable (w)

/-- The events of a new shipment: one with its key, and one to each of the two others. -/
def creationEvents (sender : Address) (input : ShipmentInput) : List Event :=
  let id := w.ledger.shipmentCount + 1
  let counter := w.nextEventCounter id
  [.shipmentCreated id sender input.receiver
      (w.ledger.tokenContract.getD H.currentContractAddress) input.dataHash
      ⟨eventSchemaVersion, counter, H.sha256 (idempotencyPayload HashDomain.shipment id
        Topic.shipmentCreated.toUTF8.toList counter)⟩,
    .notification input.receiver .shipmentCreated id input.dataHash,
    .notification input.carrier .shipmentCreated id input.dataHash]

/-- The world after one more shipment was stored. -/
def enrol (sender : Address) (now : ℕ) (input : ShipmentInput) : World H :=
  let id := w.ledger.shipmentCount + 1
  { w with
    ledger := w.ledger.enrol (Shipment.new id sender input now)
    registry := { w.registry with
      activeShipmentCount := Function.update w.registry.activeShipmentCount sender
        (saturatingAddU32 (w.registry.activeShipmentCount sender) 1) }
    dossier := { w.dossier with
      eventCount := Function.update w.dossier.eventCount id (some (w.nextEventCounter id)) }
    trace := w.trace ++ (w.creationEvents sender input).map .event }

/-- There is room for `n` more shipments: in the two counters, and under a
configuration whose lifetimes the host accepts. -/
structure Room (n : ℕ) : Prop where
  counter : w.ledger.shipmentCount + n ≤ u64Max
  created : w.ledger.statusCount .created + n ≤ u64Max
  lifetime : w.getConfig.shipmentTtlThreshold ≤ w.getConfig.shipmentTtlExtension
  token : w.ledger.tokenContract.isSome = true

variable {w}

theorem creationEvents_of_token {token : Address} (ht : w.ledger.tokenContract = some token)
    (sender : Address) (input : ShipmentInput) : w.creationEvents sender input =
      [.shipmentCreated (w.ledger.shipmentCount + 1) sender input.receiver token input.dataHash
        ⟨eventSchemaVersion, w.nextEventCounter (w.ledger.shipmentCount + 1),
          H.sha256 (idempotencyPayload HashDomain.shipment (w.ledger.shipmentCount + 1)
            Topic.shipmentCreated.toUTF8.toList (w.nextEventCounter (w.ledger.shipmentCount + 1)))⟩,
      .notification input.receiver .shipmentCreated (w.ledger.shipmentCount + 1) input.dataHash,
      .notification input.carrier .shipmentCreated (w.ledger.shipmentCount + 1) input.dataHash] := by
  unfold creationEvents
  rw [ht]
  rfl

theorem Room.congr {n : ℕ} (hl : w'.ledger = w.ledger) (hg : w'.governance.config = w.governance.config) :
    w'.Room n ↔ w.Room n := by
  have hc : w'.getConfig = w.getConfig := by
    unfold getConfig
    rw [hg]
  constructor
  · rintro ⟨h₁, h₂, h₃, h₄⟩
    rw [hl] at h₁ h₂ h₄
    rw [hc] at h₃
    exact ⟨h₁, h₂, h₃, h₄⟩
  · rintro ⟨h₁, h₂, h₃, h₄⟩
    rw [← hl] at h₁ h₂ h₄
    rw [← hc] at h₃
    exact ⟨h₁, h₂, h₃, h₄⟩

end World

variable {sender : Address} {input : ShipmentInput} {now : ℕ}

/-- A new record passes the check of `persist_shipment`. -/
theorem Shipment.valid_new (id : ℕ) (sender : Address) (input : ShipmentInput) (now : ℕ) :
    (Shipment.new id sender input now).Valid := by
  refine ⟨le_rfl, le_rfl, fun h => ?_, fun _ => rfl⟩
  cases h

/-- A record that is checked and stored. -/
theorem returns_persistShipment {s : Shipment} {u : Unit} :
    (persistShipment s).Returns env w u w' ↔ s.Valid ∧
      w' = { w with ledger := (w.ledger.setShipment s).setEscrow s.id s.escrowAmount } := by
  unfold persistShipment setShipment setEscrow modifyLedger
  rw [returns_bind]
  simp only [returns_liftResult, validateShipmentInvariants_eq_ok, returns_modify_bind,
    returns_modify]
  constructor
  · rintro ⟨_, _, ⟨hv, rfl⟩, h⟩
    exact ⟨hv, h⟩
  · rintro ⟨hv, h⟩
    exact ⟨(), w, ⟨hv, rfl⟩, h⟩

theorem returns_incrementStatusCount {status : ShipmentStatus} {u : Unit} :
    (incrementStatusCount status).Returns env w u w' ↔
      w.ledger.statusCount status + 1 ≤ u64Max ∧
      w' = { w with ledger := w.ledger.setStatusCount status (w.ledger.statusCount status + 1) } := by
  unfold incrementStatusCount modifyLedger
  simp only [returns_gets_bind, returns_trapIf_bind, returns_modify, not_lt]

theorem returns_incrementActiveShipmentCount {a : Address} {u : Unit} :
    (incrementActiveShipmentCount a).Returns env w u w' ↔
      w' = { w with registry := { w.registry with
        activeShipmentCount := Function.update w.registry.activeShipmentCount a
          (saturatingAddU32 (w.registry.activeShipmentCount a) 1) } } := by
  unfold incrementActiveShipmentCount setActiveShipmentCount modifyRegistry
  simp only [returns_gets_bind, returns_modify]

/-- The lifetime of a record that is there. -/
theorem returns_storageExtendShipmentTtl {id threshold extendTo : ℕ} {u : Unit}
    (hid : (w.ledger.shipment id).isSome = true) :
    (storageExtendShipmentTtl id threshold extendTo).Returns env w u w' ↔
      threshold ≤ extendTo ∧ w' = w := by
  unfold storageExtendShipmentTtl
  simp only [returns_gets_bind, returns_trapIf, hid, true_or, and_true, not_lt]

theorem returns_emitKeyed {domain id : ℕ} {topic : String} {event : EventKey → Event} {u : Unit} :
    (emitKeyed domain topic id event).Returns env w u w' ↔
      w' = { w with
        dossier := { w.dossier with
          eventCount := Function.update w.dossier.eventCount id (some (w.nextEventCounter id)) }
        trace := w.trace ++ [.event (event ⟨eventSchemaVersion, w.nextEventCounter id,
          H.sha256 (idempotencyPayload domain id topic.toUTF8.toList (w.nextEventCounter id))⟩)] } := by
  unfold emitKeyed incrementEventCount publish modifyDossier log
  simp only [returns_gets_bind, returns_modify_bind, returns_modify]
  rfl

/-- The common end of both creations. -/
theorem returns_storeNewShipment {id : ℕ} :
    (storeNewShipment sender input now w.getConfig).Returns env w id w' ↔
      w.Room 1 ∧ id = w.ledger.shipmentCount + 1 ∧ w' = w.enrol sender now input := by
  have hnew : ∀ l : Ledger H.Token, ((l.setShipment (Shipment.new
      (w.ledger.shipmentCount + 1) sender input now)).shipment (w.ledger.shipmentCount + 1)).isSome := by
    intro l
    simp [Ledger.setShipment, Shipment.new]
  unfold storeNewShipment emitShipmentCreated emitKeyedWithToken setShipmentCounter publish modifyLedger log
  simp only [bind_assoc, returns_gets_bind, returns_okOr_bind]
  constructor
  · rintro ⟨id', hid, h⟩
    obtain ⟨rfl, hmax⟩ := checkedAddU64_eq_some hid
    obtain ⟨_, w₁, h₁, h⟩ := returns_bind.mp h
    obtain ⟨_, w₂, h₂, h⟩ := returns_bind.mp h
    obtain ⟨_, w₃, h₃, h⟩ := returns_bind.mp h
    obtain ⟨_, w₄, h₄, h⟩ := returns_bind.mp h
    obtain ⟨_, w₅, h₅, h⟩ := returns_bind.mp h
    rw [returns_gets_bind, returns_unwrap_bind] at h
    obtain ⟨token, ht, h⟩ := h
    obtain ⟨_, w₆, h₆, h⟩ := returns_bind.mp h
    rw [returns_modify_bind, returns_modify_bind, returns_pure] at h
    obtain ⟨-, rfl⟩ := returns_persistShipment.mp h₁
    obtain rfl := returns_modify.mp h₂
    obtain ⟨hcount, rfl⟩ := returns_incrementStatusCount.mp h₃
    obtain rfl := returns_incrementActiveShipmentCount.mp h₄
    obtain ⟨hle, rfl⟩ := (returns_storageExtendShipmentTtl (hnew _)).mp h₅
    obtain rfl := returns_emitKeyed.mp h₆
    have ht : w.ledger.tokenContract = some token := ht
    refine ⟨⟨hmax, hcount, hle, by rw [ht]; rfl⟩, h.1, ?_⟩
    rw [h.2]
    unfold World.enrol
    simp only [World.creationEvents_of_token ht, List.map_cons, List.map_nil, List.append_assoc,
      List.cons_append, List.nil_append]
    rfl
  · rintro ⟨hroom, rfl, rfl⟩
    obtain ⟨token, ht⟩ := Option.isSome_iff_exists.mp hroom.token
    refine ⟨_, if_pos hroom.counter, ?_⟩
    refine Returns.bind (a := ()) (returns_persistShipment.mpr ⟨Shipment.valid_new .., rfl⟩) ?_
    refine Returns.bind (a := ()) (returns_modify.mpr rfl) ?_
    refine Returns.bind (a := ()) (returns_incrementStatusCount.mpr ⟨hroom.created, rfl⟩) ?_
    refine Returns.bind (a := ()) (returns_incrementActiveShipmentCount.mpr rfl) ?_
    refine Returns.bind (a := ()) ((returns_storageExtendShipmentTtl (hnew _)).mpr ⟨hroom.lifetime, rfl⟩) ?_
    rw [returns_gets_bind, returns_unwrap_bind]
    refine ⟨token, ht, Returns.bind (a := ()) (returns_emitKeyed.mpr rfl) ?_⟩
    rw [returns_modify_bind, returns_modify_bind, returns_pure]
    refine ⟨rfl, ?_⟩
    unfold World.enrol
    simp only [World.creationEvents_of_token ht, List.map_cons, List.map_nil, List.append_assoc,
      List.cons_append, List.nil_append]
    rfl

/-! ### The quota -/

namespace World

variable (w) (company : Address) (now : ℕ)

/-- The tracker a creation finds: a window that is over starts again. -/
def quotaTracker : CreationQuotaTracker :=
  let tracker := (w.registry.companyCreationQuota company).getD ⟨0, now⟩
  if tracker.windowStart + w.getConfig.creationQuotaWindowSeconds ≤ now then ⟨0, now⟩ else tracker

/-- There is quota for `n` more creations. -/
def HasQuota (n : ℕ) : Prop :=
  w.getConfig.creationQuotaMax = 0 ∨ n = 0 ∨
    ((w.registry.companyCreationQuota company).getD ⟨0, now⟩).windowStart +
      w.getConfig.creationQuotaWindowSeconds ≤ u64Max ∧
    (w.quotaTracker company now).count + n ≤ u32Max ∧
    (w.quotaTracker company now).count + n ≤ w.getConfig.creationQuotaMax

/-- The world after `n` creations were counted. -/
def reserved (n : ℕ) : World H :=
  if w.getConfig.creationQuotaMax = 0 ∨ n = 0 then w
  else { w with registry := { w.registry with
    companyCreationQuota := Function.update w.registry.companyCreationQuota company
      (some ⟨(w.quotaTracker company now).count + n, (w.quotaTracker company now).windowStart⟩) } }

/-- Nothing but the quota trackers tells that creations were counted. -/
theorem apply_reserved {γ : Type*} (f : World H → γ)
    (hf : ∀ t, f { w with registry := { w.registry with companyCreationQuota := t } } = f w) (n : ℕ) :
    f (w.reserved company now n) = f w := by
  unfold reserved
  split
  · rfl
  · exact hf _

@[simp] theorem reserved_ledger (n : ℕ) : (w.reserved company now n).ledger = w.ledger :=
  apply_reserved w company now (·.ledger) (fun _ => rfl) n

@[simp] theorem reserved_governance (n : ℕ) :
    (w.reserved company now n).governance = w.governance :=
  apply_reserved w company now (·.governance) (fun _ => rfl) n

end World

theorem returns_checkAndUpdateCreationQuotaBy {company : Address} {n : ℕ} {u : Unit} :
    (checkAndUpdateCreationQuotaBy company n).Returns env w u w' ↔
      w.HasQuota company env.timestamp n ∧ w' = w.reserved company env.timestamp n := by
  unfold checkAndUpdateCreationQuotaBy World.HasQuota World.reserved World.quotaTracker timestamp
    storageSetCreationQuota modifyRegistry
  simp only [bind_assoc, returns_gets_bind, returns_when, returns_ask_bind, returns_pure_bind]
  by_cases hoff : w.getConfig.creationQuotaMax = 0 ∨ n = 0
  · simp only [hoff, not_true_eq_false, false_imp_iff, true_and, not_false_eq_true, true_imp_iff,
      if_true]
    constructor
    · exact fun h => ⟨by tauto, h⟩
    · exact fun h => h.2
  · have hon : ¬(w.getConfig.creationQuotaMax = 0) ∧ ¬(n = 0) := not_or.mp hoff
    simp only [checkedAddU64, checkedAddU32, hon.1, hon.2, not_true_eq_false, not_false_eq_true,
      true_imp_iff, false_imp_iff, and_true, false_or, if_false, returns_unwrap_bind,
      returns_okOr_bind, returns_rejectIf_bind, returns_modify, Option.ite_none_right_eq_some,
      Option.some.injEq, not_lt]
    constructor
    · rintro ⟨_, ⟨hend, rfl⟩, _, ⟨hcount, rfl⟩, hmax, h⟩
      exact ⟨⟨hend, hcount, hmax⟩, h⟩
    · rintro ⟨⟨hend, hcount, hmax⟩, h⟩
      exact ⟨_, ⟨hend, rfl⟩, _, ⟨hcount, rfl⟩, hmax, h⟩

/-! ### The sender, the item, the window -/

/-- The call of a company opens: the contract takes calls, the sender signed, and the
sender passes as a company. -/
structure World.Serves (w : World H) (env : Env) (sender : Address) : Prop where
  initialized : w.isInitialized = true
  running : w.governance.isPaused = false
  signed : env.auth sender = true
  company : w.permits.Passes sender .company

theorem returns_serve {β : Type} {n : Contract H β} {b : β} :
    (openCall sender >>= fun _ => requireRole sender .company >>= fun _ => n).Returns env w b w' ↔
      w.Serves env sender ∧ n.Returns env (w.signed sender) b w' := by
  simp only [returns_bind, returns_openCall, returns_requireRole]
  constructor
  · rintro ⟨_, _, ⟨⟨hi, hp, ha⟩, rfl⟩, _, _, ⟨⟨-, hc⟩, rfl⟩, h⟩
    exact ⟨⟨hi, hp, ha, hc⟩, h⟩
  · rintro ⟨hs, h⟩
    exact ⟨(), _, ⟨⟨hs.initialized, hs.running, hs.signed⟩, rfl⟩, (), _,
      ⟨⟨hs.initialized, hs.company⟩, rfl⟩, h⟩

/-- An item that passes what both creations check of it. -/
structure ShipmentInput.Acceptable (input : ShipmentInput) (now : ℕ) : Prop where
  apart : input.receiver ≠ input.carrier
  scheduled : Scheduled input.paymentMilestones
  hashed : input.dataHash ≠ 0
  later : now < input.deadline

/-- The payload of the idempotency window of a creation. -/
def creationPayload (sender : Address) (input : ShipmentInput) : List UInt8 :=
  sender.toXdr ++ beBytes 32 input.dataHash.toNat

namespace World

/-- The window of an action is open in this ledger. -/
def windowOpen (w : World H) (env : Env) (actionHash : BytesN32) : Bool :=
  (w.governance.idempotencyWindow actionHash).any (env.sequence ≤ ·)

/-- The window of an action is opened for the configured time. -/
def openWindow (w : World H) (env : Env) (actionHash : BytesN32) : World H :=
  { w with governance := { w.governance with
    idempotencyWindow := Function.update w.governance.idempotencyWindow actionHash
      (some (env.sequence + max ((w.getConfig.idempotencyWindowSeconds + 4) / 5) 1 % 2 ^ 32)) } }

end World

theorem returns_checkIdempotency {payload : List UInt8} {u : Unit} :
    (checkIdempotency payload).Returns env w u w' ↔
      w.windowOpen env (H.sha256 payload) = false ∧ w' = w.openWindow env (H.sha256 payload) := by
  unfold checkIdempotency hasIdempotencyWindow setIdempotencyWindow modifyGovernance
  simp only [bind_assoc, returns_ask_bind, returns_gets_bind, returns_pure_bind,
    returns_rejectIf_bind, returns_modify, Bool.not_eq_true]
  rfl

/-! ### The two creations -/

/-- When a single creation goes through. -/
theorem returns_createShipment {id : ℕ} : (createShipment sender input).Returns env w id w' ↔
    w.Serves env sender ∧ input.Acceptable env.timestamp ∧
      (sender ≠ input.receiver ∧ sender ≠ input.carrier) ∧
      w.windowOpen env (H.sha256 (creationPayload sender input)) = false ∧
      w.registry.activeShipmentCount sender < w.getEffectiveShipmentLimit sender ∧
      w.HasQuota sender env.timestamp 1 ∧ w.Room 1 ∧ id = w.ledger.shipmentCount + 1 ∧
      w' = (((w.signed sender).openWindow env (H.sha256 (creationPayload sender input))).reserved
        sender env.timestamp 1).enrol sender env.timestamp input := by
  unfold createShipment validateHash timestamp
  rw [returns_serve, returns_unit_bind fun _ _ => returns_validateMilestones]
  simp only [bind_assoc, returns_rejectIf_bind]
  rw [returns_unit_bind fun _ _ => returns_checkIdempotency]
  simp only [returns_ask_bind, returns_pure_bind, returns_rejectIf_bind, returns_gets_bind]
  rw [returns_unit_bind fun _ _ => returns_checkAndUpdateCreationQuotaBy, returns_gets_bind,
    returns_storeNewShipment, World.reserved_ledger]
  have hroom : (((w.signed sender).openWindow env (H.sha256 (creationPayload sender input))).reserved
      sender env.timestamp 1).Room 1 ↔ w.Room 1 :=
    World.Room.congr (World.reserved_ledger ..) (by rw [World.reserved_governance]; rfl)
  constructor
  · rintro ⟨hs, hm, hh, hp, hw, hd, hl, hq, hr, hid, h⟩
    rw [not_or, not_or] at hp
    exact ⟨hs, ⟨hp.2.2, hm, hh, not_le.mp hd⟩, ⟨hp.1, hp.2.1⟩, hw, not_le.mp hl, hq,
      hroom.mp hr, hid, h⟩
  · rintro ⟨hs, ha, ⟨hp₁, hp₂⟩, hw, hl, hq, hr, hid, h⟩
    exact ⟨hs, ha.scheduled, ha.hashed, not_or.mpr ⟨hp₁, not_or.mpr ⟨hp₂, ha.apart⟩⟩, hw,
      not_le.mpr ha.later, not_le.mpr hl, hq, hroom.mpr hr, hid, h⟩

/-- One item of a batch. -/
theorem returns_createBatchItem {ids ids' : List ℕ} :
    (createBatchItem sender w.getConfig now ids input).Returns env w ids' w' ↔
      input.Acceptable now ∧ w.Room 1 ∧ ids' = ids ++ [w.ledger.shipmentCount + 1] ∧
      w' = w.enrol sender now input := by
  unfold createBatchItem validateHash
  rw [returns_rejectIf_bind, returns_unit_bind fun _ _ => returns_validateMilestones,
    returns_rejectIf_bind, returns_rejectIf_bind, returns_bind]
  simp only [returns_storeNewShipment, returns_pure]
  constructor
  · rintro ⟨ha, hm, hh, hd, _, _, ⟨hr, rfl, rfl⟩, rfl, rfl⟩
    exact ⟨⟨ha, hm, hh, not_le.mp hd⟩, hr, rfl, rfl⟩
  · rintro ⟨ha, hr, rfl, rfl⟩
    exact ⟨ha.apart, ha.scheduled, ha.hashed, not_le.mpr ha.later, _, _, ⟨hr, rfl, rfl⟩, rfl, rfl⟩

namespace World

/-- The shipments of a list are stored one after the other. -/
def enrolAll (w : World H) (sender : Address) (now : ℕ) (inputs : List ShipmentInput) : World H :=
  inputs.foldl (·.enrol sender now ·) w

theorem statusCount_enrol (sender : Address) (now : ℕ) (input : ShipmentInput) :
    (w.enrol sender now input).ledger.statusCount .created = w.ledger.statusCount .created + 1 := by
  simp [enrol, Ledger.enrol]

/-- Room for several shipments is room for the first and then for the others. -/
theorem room_succ (sender : Address) (now : ℕ) (input : ShipmentInput) {n : ℕ} :
    w.Room (n + 1) ↔ w.Room 1 ∧ (w.enrol sender now input).Room n := by
  have hcount : (w.enrol sender now input).ledger.shipmentCount = w.ledger.shipmentCount + 1 := rfl
  have hstatus := w.statusCount_enrol sender now input
  constructor
  · rintro ⟨h₁, h₂, h₃, h₄⟩
    exact ⟨⟨by omega, by omega, h₃, h₄⟩, ⟨by omega, by omega, h₃, h₄⟩⟩
  · rintro ⟨⟨-, -, h₃, h₄⟩, ⟨h₁, h₂, -, -⟩⟩
    exact ⟨by omega, by omega, h₃, h₄⟩

end World

/-- The loop of a batch. -/
theorem returns_batchLoop {inputs : List ShipmentInput} {ids ids' : List ℕ} :
    (inputs.foldlM (createBatchItem sender w.getConfig now) ids).Returns env w ids' w' ↔
      (∀ input ∈ inputs, input.Acceptable now) ∧ (inputs ≠ [] → w.Room inputs.length) ∧
      ids' = ids ++ List.range' (w.ledger.shipmentCount + 1) inputs.length ∧
      w' = w.enrolAll sender now inputs := by
  induction inputs generalizing w ids with
  | nil => simp [World.enrolAll]
  | cons input inputs ih =>
    -- the configuration is read once, before the loop
    have hconfig : (w.enrol sender now input).getConfig = w.getConfig := rfl
    have hids : ids ++ List.range' (w.ledger.shipmentCount + 1) (inputs.length + 1) =
        ids ++ [w.ledger.shipmentCount + 1] ++
          List.range' ((w.enrol sender now input).ledger.shipmentCount + 1) inputs.length := by
      rw [List.range'_succ, List.append_assoc]
      rfl
    rw [List.foldlM_cons, returns_bind, List.length_cons, hids, World.room_succ sender now input,
      List.forall_mem_cons]
    simp only [returns_createBatchItem]
    constructor
    · rintro ⟨_, _, ⟨ha, hr, rfl, rfl⟩, hrest⟩
      rw [← hconfig, ih] at hrest
      obtain ⟨hall, hroom, rfl, rfl⟩ := hrest
      refine ⟨⟨ha, hall⟩, fun _ => ⟨hr, ?_⟩, rfl, rfl⟩
      cases inputs with
      | nil => exact ((World.room_succ sender now input).mp hr).2
      | cons => exact hroom (by simp)
    · rintro ⟨⟨ha, hall⟩, hroom, rfl, rfl⟩
      obtain ⟨hr, hroom⟩ := hroom (by simp)
      refine ⟨_, _, ⟨ha, hr, rfl, rfl⟩, ?_⟩
      rw [← hconfig, ih]
      exact ⟨hall, fun _ => hroom, rfl, rfl⟩

/-- When a batch goes through. -/
theorem returns_createShipmentsBatch {inputs : List ShipmentInput} {ids : List ℕ} :
    (createShipmentsBatch sender inputs).Returns env w ids w' ↔
      w.Serves env sender ∧ inputs.length ≤ w.getConfig.batchOperationLimit ∧
      saturatingAddU32 (w.registry.activeShipmentCount sender) inputs.length ≤
        w.getEffectiveShipmentLimit sender ∧
      w.HasQuota sender env.timestamp inputs.length ∧
      (∀ input ∈ inputs, input.Acceptable env.timestamp) ∧ (inputs ≠ [] → w.Room inputs.length) ∧
      ids = List.range' (w.ledger.shipmentCount + 1) inputs.length ∧
      w' = ((w.signed sender).reserved sender env.timestamp inputs.length).enrolAll sender
        env.timestamp inputs := by
  unfold createShipmentsBatch timestamp
  rw [returns_serve, returns_gets_bind, returns_rejectIf_bind]
  simp only [bind_assoc]
  rw [returns_ask_bind, returns_pure_bind, returns_gets_bind, returns_gets_bind, returns_rejectIf_bind,
    returns_unit_bind fun _ _ => returns_checkAndUpdateCreationQuotaBy]
  have hconfig : (w.signed sender).getConfig =
      ((w.signed sender).reserved sender env.timestamp inputs.length).getConfig := by
    unfold World.getConfig
    rw [World.reserved_governance]
  have hroom : ((w.signed sender).reserved sender env.timestamp inputs.length).Room inputs.length ↔
      w.Room inputs.length :=
    World.Room.congr (World.reserved_ledger ..) (congrArg _ (World.reserved_governance ..))
  rw [hconfig, returns_batchLoop, hroom, World.reserved_ledger, ← hconfig, List.nil_append, not_lt,
    not_lt]
  rfl

/-! ### Only creations enrol -/

/-- The number of shipments ever created. -/
def World.enrolment (w : World H) : ℕ := w.ledger.shipmentCount

section

instance : AdminFree (World.enrolment (H := H)) := ⟨fun _ _ h => h⟩

instance : RegistryFree (World.enrolment (H := H)) := ⟨fun _ _ => rfl⟩

instance : DossierFree (World.enrolment (H := H)) := ⟨fun _ _ => rfl⟩

instance : GovernanceFree (World.enrolment (H := H)) := ⟨fun _ _ => rfl⟩

instance : AuthFree (World.enrolment (H := H)) := ⟨fun _ _ => rfl⟩

instance : PlainFree (World.enrolment (H := H)) := ⟨fun _ _ _ => rfl⟩

instance : PaymentFree (World.enrolment (H := H)) := ⟨fun _ _ _ => rfl⟩

end

theorem enrolment_initializeContract {admin tokenContract : Address} (hadm : w.ledger.admin ≠ none) :
    wp (initializeContract admin tokenContract) env w fun _ w' => w'.enrolment = w.enrolment := by
  unfold initializeContract
  rw [wp_bind, wp_gets, wp_bind, wp_rejectIf]
  intro hn
  exact absurd (Option.isSome_iff_ne_none.mpr hadm) hn

/-- A call that does not create leaves the number of shipments, once the contract is
set up. -/
theorem enrolment_exec {call : Call} (hc : call.creates = false) (hadm : w.ledger.admin ≠ none) :
    wp call.exec env w fun _ w' => w'.enrolment = w.enrolment := by
  have keep : ∀ {m : Contract H Unit} [Preserves World.enrolment m],
      wp m env w fun _ w' => w'.enrolment = w.enrolment :=
    Preserves.wp World.enrolment fun _ _ h => h
  cases call with
  | createShipment => cases hc
  | createShipmentsBatch => cases hc
  | initializeContract => exact enrolment_initializeContract hadm
  | _ =>
    unfold Call.exec
    exact keep

namespace Ledger.Enrolled

variable {Token : Type} {l l' : Ledger Token}

theorem count_le (h : l.Enrolled sender now l') : l.shipmentCount ≤ l'.shipmentCount := by
  induction h with
  | nil => exact le_rfl
  | snoc _ _ _ ih => exact ih.trans (Nat.le_succ _)

/-- Nothing is enrolled while the number of shipments stays. -/
theorem eq_of_count (h : l.Enrolled sender now l') (hc : l'.shipmentCount = l.shipmentCount) :
    l' = l := by
  cases h with
  | nil => rfl
  | @snoc l₁ _ h₁ _ _ =>
    have hle := h₁.count_le
    have hc : l₁.shipmentCount + 1 = l.shipmentCount := hc
    omega

end Ledger.Enrolled

/-- A call that does not create makes a posting, or leaves every record as it was. -/
theorem posted_or_same {call : Call} (hk : w.ledger.Keyed) (hc : call.creates = false)
    (hx : call.exec env w = .ok () w') :
    (∃ p, PostedBy env w call p w'.book) ∨ ∀ id, w'.getShipment id = w.getShipment id := by
  have he := exec_effects hk hx
  have hget : ∀ id, w'.getShipment id = w'.book.ledger.getShipment id := fun _ => rfl
  simp only [hget]
  generalize hb : w'.book = b at he
  cases he with
  | quiet => exact .inr fun _ => rfl
  | initialized => exact .inr fun _ => rfl
  | handedOver => exact .inr fun _ => rfl
  | @enrolled _ l _ _ hadm he =>
    have hl : w'.ledger = l := congrArg Book.ledger hb
    have hcount : w'.ledger.shipmentCount = w.ledger.shipmentCount :=
      enrolment_exec hc hadm () w' hx
    rw [hl] at hcount
    rw [he.eq_of_count hcount]
    exact .inr fun _ => rfl
  | archived _ hl _ => exact .inr fun id => Ledger.getShipment_putAway _ hl id
  | posted hg hv hr hp => exact .inl ⟨_, hg, hv, hr, hp⟩

/-- What every posting keeps, every record has after a call that does not create. -/
theorem forall_records_of_not_creates {call : Call} {P : Shipment → Prop} (hk : w.ledger.Keyed)
    (hc : call.creates = false) (hx : call.exec env w = .ok () w')
    (hpost : ∀ p, PostedBy env w call p w'.book → P p.old → P p.new)
    (h : ∀ id s, w.getShipment id = some s → P s) :
    ∀ id s, w'.getShipment id = some s → P s := by
  intro id s hs
  obtain ⟨p, hp⟩ | hsame := posted_or_same hk hc hx
  · have hget : w'.getShipment id = _ := hp.getShipment id
    rw [hget] at hs
    split at hs
    · rw [← Option.some.inj hs]
      exact hpost p hp (h _ _ hp.stored)
    · exact h id s hs
  · rw [hsame] at hs
    exact h id s hs

/-! ### New records -/

theorem World.getShipment_enrol {now : ℕ} (id : ℕ) : (w.enrol sender now input).getShipment id =
    if id = w.ledger.shipmentCount + 1 then
      some (Shipment.new (w.ledger.shipmentCount + 1) sender input now)
    else w.getShipment id := w.ledger.getShipment_enrol _ id

theorem shipmentCount_enrolAll (sender : Address) (now : ℕ) (inputs : List ShipmentInput) :
    (w.enrolAll sender now inputs).ledger.shipmentCount = w.ledger.shipmentCount + inputs.length := by
  induction inputs generalizing w with
  | nil => rfl
  | cons input inputs ih =>
    have hcons : w.enrolAll sender now (input :: inputs) =
        (w.enrol sender now input).enrolAll sender now inputs := rfl
    have hone : (w.enrol sender now input).ledger.shipmentCount = w.ledger.shipmentCount + 1 := rfl
    rw [hcons, ih, hone, List.length_cons]
    omega

/-- A call that does not create leaves the number of shipments. -/
theorem shipmentCount_kept {call : Call} (hs : w.ledger.Sound)
    (hzero : w.ledger.admin = none → w.ledger.shipmentCount = 0) (hc : call.creates = false)
    (hx : call.exec env w = .ok () w') : w'.ledger.shipmentCount = w.ledger.shipmentCount := by
  by_cases hadm : w.ledger.admin = none
  · exact (exec_effects hs.keyed hx).shipmentCount_eq (hzero hadm) hadm
  · exact enrolment_exec hc hadm () w' hx

/-- What is enrolled later has a later id. -/
theorem World.getShipment_enrolAll {now id : ℕ} {inputs : List ShipmentInput}
    (hid : id ≤ w.ledger.shipmentCount) :
    (w.enrolAll sender now inputs).getShipment id = w.getShipment id := by
  induction inputs generalizing w with
  | nil => rfl
  | cons input inputs ih =>
    have hcount : (w.enrol sender now input).ledger.shipmentCount = w.ledger.shipmentCount + 1 := rfl
    have hcons : w.enrolAll sender now (input :: inputs) =
        (w.enrol sender now input).enrolAll sender now inputs := rfl
    rw [hcons, ih (by omega), World.getShipment_enrol, if_neg (by omega)]

theorem forall_records_enrol {P : Shipment → Prop} {now : ℕ}
    (hnew : P (Shipment.new (w.ledger.shipmentCount + 1) sender input now))
    (h : ∀ id s, w.getShipment id = some s → P s) :
    ∀ id s, (w.enrol sender now input).getShipment id = some s → P s := by
  intro id s hs
  rw [World.getShipment_enrol] at hs
  split at hs
  · rw [← Option.some.inj hs]
    exact hnew
  · exact h id s hs

theorem forall_records_enrolAll {P : Shipment → Prop} {now : ℕ} {inputs : List ShipmentInput}
    (hnew : ∀ id, ∀ input ∈ inputs, P (Shipment.new id sender input now))
    (h : ∀ id s, w.getShipment id = some s → P s) :
    ∀ id s, (w.enrolAll sender now inputs).getShipment id = some s → P s := by
  induction inputs generalizing w with
  | nil => exact h
  | cons input inputs ih =>
    have hcons : w.enrolAll sender now (input :: inputs) =
        (w.enrol sender now input).enrolAll sender now inputs := rfl
    rw [hcons]
    refine ih (fun id i hi => hnew id i (List.mem_cons_of_mem _ hi)) ?_
    exact forall_records_enrol (hnew _ input List.mem_cons_self) h

/-- What the record of every acceptable item has and every posting keeps, every record has
after every call. -/
theorem forall_records_exec {call : Call} {P : Shipment → Prop} (hk : w.ledger.Keyed)
    (hx : call.exec env w = .ok () w')
    (hnew : ∀ id sender input, input.Acceptable env.timestamp →
      P (Shipment.new id sender input env.timestamp))
    (hpost : ∀ p, PostedBy env w call p w'.book → P p.old → P p.new)
    (h : ∀ id s, w.getShipment id = some s → P s) :
    ∀ id s, w'.getShipment id = some s → P s := by
  have hreserved : ∀ (v : World H) (sender : Address) (n : ℕ), v.ledger = w.ledger →
      ∀ id s, (v.reserved sender env.timestamp n).getShipment id = some s → P s := by
    intro v sender n hv id s hs
    refine h id s ?_
    unfold World.getShipment at hs ⊢
    rwa [World.reserved_ledger, hv] at hs
  cases call with
  | createShipment sender input =>
    obtain ⟨id, hx⟩ := returns_discard.mp hx
    obtain ⟨-, hacc, -, -, -, -, -, -, rfl⟩ := returns_createShipment.mp hx
    exact forall_records_enrol (hnew _ _ _ hacc) (hreserved _ _ _ rfl)
  | createShipmentsBatch sender inputs =>
    obtain ⟨ids, hx⟩ := returns_discard.mp hx
    obtain ⟨-, -, -, -, hacc, -, -, rfl⟩ := returns_createShipmentsBatch.mp hx
    exact forall_records_enrolAll (fun _ input hi => hnew _ _ _ (hacc input hi)) (hreserved _ _ _ rfl)
  | _ => exact forall_records_of_not_creates hk rfl hx hpost h

end Navin
