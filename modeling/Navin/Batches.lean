/-
# A batch of creations is its creations one by one

`create_shipments_batch` looks at the limit and at the quota once, for all items;
`create_shipment` looks at them for each. Where no counter runs over and the quota
window does not change under way the two come to the same: a batch goes through
exactly when the single creations do, one after the other in the same ledger, and
stores and publishes what they do. Only the idempotency windows differ.

Key definitions:
- `createEach`: the single creations, each a call of its own;
- `World.sansWindows`: the world without the idempotency windows and the trace.

Key theorems:
- `exists_createEach`, `createEach_result`: when the single creations go through, and what they leave;
- `batch_creation_refines`.
-/
import Navin.Creation
import Navin.Token

namespace Navin

open Tx

variable {H : Host} {env : Env} {w : World H} {sender : Address} {now : ℕ} {input : ShipmentInput}
  {inputs : List ShipmentInput}

/-! ### The single creations -/

/-- `create_shipment` is called on the items one after the other: the ids, the traces
of the calls and the world after them, or `none` when one of the calls fails. -/
def createEach (sender : Address) (env : Env) (w : World H) :
    List ShipmentInput → Option (List ℕ × List Effect × World H)
  | [] => some ([], [], w)
  | input :: inputs =>
    match createShipment sender input env w.fresh with
    | .ok id w₁ => (createEach sender env w₁.fresh inputs).map fun r =>
        (id :: r.1, w₁.trace ++ r.2.1, r.2.2)
    | _ => none

theorem createEach_cons {r : List ℕ × List Effect × World H} :
    createEach sender env w (input :: inputs) = some r ↔
      ∃ id w₁ q, (createShipment sender input).Returns env w.fresh id w₁ ∧
        createEach sender env w₁.fresh inputs = some q ∧
        r = (id :: q.1, w₁.trace ++ q.2.1, q.2.2) := by
  rw [createEach]
  unfold Returns
  cases createShipment sender input env w.fresh with
  | ok id w₁ =>
    simp only [Option.map_eq_some_iff, Outcome.ok.injEq, and_assoc]
    constructor
    · rintro ⟨q, hq, rfl⟩
      exact ⟨id, w₁, q, rfl, rfl, hq, rfl⟩
    · rintro ⟨_, _, q, rfl, rfl, hq, rfl⟩
      exact ⟨q, hq, rfl⟩
  | err e w₁ => simp
  | trap => simp

/-! ### Events -/

/-- The events of a trace. -/
def eventsOf (trace : List Effect) : List Event :=
  trace.filterMap fun
    | .event e => some e
    | _ => none

@[simp] theorem eventsOf_append (t t' : List Effect) :
    eventsOf (t ++ t') = eventsOf t ++ eventsOf t' := List.filterMap_append

@[simp] theorem eventsOf_map_event (es : List Event) : eventsOf (es.map .event) = es := by
  unfold eventsOf
  rw [List.filterMap_map]
  exact List.filterMap_some

namespace World

/-- The events of the shipments of a list, stored one after the other. -/
def createdEvents (sender : Address) (now : ℕ) (w : World H) : List ShipmentInput → List Event
  | [] => []
  | input :: inputs =>
    w.creationEvents sender input ++ createdEvents sender now (w.enrol sender now input) inputs

theorem trace_enrolAll (w : World H) (sender : Address) (now : ℕ) (inputs : List ShipmentInput) :
    (w.enrolAll sender now inputs).trace =
      w.trace ++ (createdEvents sender now w inputs).map .event := by
  induction inputs generalizing w with
  | nil => simp [enrolAll, createdEvents]
  | cons input inputs ih =>
    have hcons : w.enrolAll sender now (input :: inputs) =
        (w.enrol sender now input).enrolAll sender now inputs := rfl
    rw [hcons, ih, createdEvents, List.map_append, ← List.append_assoc]
    rfl

theorem nextEventCounter_congr {v w : World H} (hd : v.dossier = w.dossier) (id : ℕ) :
    v.nextEventCounter id = w.nextEventCounter id := by
  unfold nextEventCounter getEventCount
  rw [hd]

/-- The events name what is in the ledger and in the dossiers. -/
theorem creationEvents_congr {v w : World H} (hl : v.ledger = w.ledger) (hd : v.dossier = w.dossier) :
    v.creationEvents sender input = w.creationEvents sender input := by
  unfold creationEvents
  dsimp only
  rw [hl, nextEventCounter_congr hd]

theorem ledger_enrol_congr {v w : World H} (hl : v.ledger = w.ledger) :
    (v.enrol sender now input).ledger = (w.enrol sender now input).ledger := by
  unfold enrol
  rw [hl]

theorem dossier_enrol_congr {v w : World H} (hl : v.ledger = w.ledger) (hd : v.dossier = w.dossier) :
    (v.enrol sender now input).dossier = (w.enrol sender now input).dossier := by
  unfold enrol
  dsimp only
  rw [hl, nextEventCounter_congr hd, hd]

theorem createdEvents_congr {v w : World H} (hl : v.ledger = w.ledger) (hd : v.dossier = w.dossier) :
    createdEvents sender now v inputs = createdEvents sender now w inputs := by
  induction inputs generalizing v w with
  | nil => rfl
  | cons input inputs ih =>
    rw [createdEvents, createdEvents, creationEvents_congr hl hd]
    congr 1
    exact ih (ledger_enrol_congr hl) (dossier_enrol_congr hl hd)

end World

/-! ### Keys -/

/-- The payload tells the hashes of one sender apart. -/
theorem creationPayload_inj {a b : ShipmentInput} (h : creationPayload sender a = creationPayload sender b) :
    a.dataHash = b.dataHash := by
  have hbytes := beBytes_mod (List.append_cancel_left h)
  refine BitVec.eq_of_toNat_eq ?_
  rwa [Nat.mod_eq_of_lt (a.dataHash.isLt.trans_le (by decide)),
    Nat.mod_eq_of_lt (b.dataHash.isLt.trans_le (by decide))] at hbytes

/-! ### Worlds that differ in the windows -/

namespace World

/-- The world without the idempotency windows and the trace. -/
def sansWindows (w : World H) : World H :=
  { w with
    governance := { w.governance with idempotencyWindow := fun _ => none }
    trace := [] }

theorem sansWindows_enrolAll {v w : World H} (h : v.sansWindows = w.sansWindows) :
    (v.enrolAll sender now inputs).sansWindows = (w.enrolAll sender now inputs).sansWindows := by
  induction inputs generalizing v w with
  | nil => exact h
  | cons input inputs ih =>
    refine ih (v := v.enrol sender now input) (w := w.enrol sender now input) ?_
    have henrol : ∀ u : World H, (u.enrol sender now input).sansWindows =
        (u.sansWindows.enrol sender now input).sansWindows := fun _ => rfl
    rw [henrol, h, ← henrol]

section Quota

variable {company : Address} {n : ℕ}

/-- The window a creation is counted in is not over. -/
theorem lt_windowEnd (hpos : 0 < w.getConfig.creationQuotaWindowSeconds) :
    now < (w.quotaTracker company now).windowStart + w.getConfig.creationQuotaWindowSeconds := by
  unfold quotaTracker
  dsimp only
  split
  · exact Nat.lt_add_of_pos_right hpos
  · rename_i hlt
    exact not_le.mp hlt

/-- The tracker after a creation was counted. -/
theorem stored_reserved (hmax : w.getConfig.creationQuotaMax ≠ 0) :
    (w.reserved company now (n + 1)).registry.companyCreationQuota company =
      some ⟨(w.quotaTracker company now).count + (n + 1), (w.quotaTracker company now).windowStart⟩ := by
  rw [reserved, if_neg (by omega)]
  exact Function.update_self ..

theorem getConfig_reserved : (w.reserved company now n).getConfig = w.getConfig := by
  unfold getConfig
  rw [reserved_governance]

theorem reserved_dossier : (w.reserved company now n).dossier = w.dossier :=
  w.apply_reserved company now (·.dossier) (fun _ => rfl) n

theorem quotaTracker_reserved (hmax : w.getConfig.creationQuotaMax ≠ 0)
    (hpos : 0 < w.getConfig.creationQuotaWindowSeconds) :
    (w.reserved company now (n + 1)).quotaTracker company now =
      ⟨(w.quotaTracker company now).count + (n + 1), (w.quotaTracker company now).windowStart⟩ := by
  have hend : now < (w.quotaTracker company now).windowStart +
      w.getConfig.creationQuotaWindowSeconds := lt_windowEnd hpos
  rw [quotaTracker, stored_reserved hmax, getConfig_reserved]
  exact if_neg (not_le.mpr hend)

/-- What is counted for a first creation and for `n` others is counted at once, when
the window does not run out in between. -/
theorem reserved_reserved
    (hquota : w.getConfig.creationQuotaMax = 0 ∨ 0 < w.getConfig.creationQuotaWindowSeconds) :
    (w.reserved company now 1).reserved company now n = w.reserved company now (n + 1) := by
  by_cases hmax : w.getConfig.creationQuotaMax = 0
  · simp [reserved, hmax]
  · have hpos := hquota.resolve_left hmax
    cases n with
    | zero => rw [reserved, if_pos (by simp)]
    | succ n =>
      rw [reserved, getConfig_reserved, if_neg (by omega), quotaTracker_reserved hmax hpos]
      unfold reserved
      simp only [hmax, Nat.add_one_ne_zero, or_self, if_false, one_ne_zero, Function.update_idem]
      have hsum : (w.quotaTracker company now).count + (0 + 1) + (n + 1) =
          (w.quotaTracker company now).count + (n + 1 + 1) := by
        omega
      rw [hsum]

theorem hasQuota_succ
    (hquota : w.getConfig.creationQuotaMax = 0 ∨ 0 < w.getConfig.creationQuotaWindowSeconds ∧
      (w.quotaTracker company now).windowStart + w.getConfig.creationQuotaWindowSeconds ≤ u64Max) :
    w.HasQuota company now (n + 1) ↔
      w.HasQuota company now 1 ∧ (w.reserved company now 1).HasQuota company now n := by
  unfold HasQuota
  rw [getConfig_reserved]
  by_cases hmax : w.getConfig.creationQuotaMax = 0
  · simp [hmax]
  · obtain ⟨hpos, hend⟩ := hquota.resolve_left hmax
    rw [quotaTracker_reserved hmax hpos, stored_reserved hmax]
    simp only [hmax, Nat.add_one_ne_zero, one_ne_zero, false_or, Option.getD_some]
    omega

end Quota

/-- The quota of a company is not affected by who has signed. -/
theorem signed_reserved {company : Address} {n : ℕ} {a : Address} :
    (w.fresh.signed a).reserved company now n = (w.reserved company now n).fresh.signed a := by
  by_cases hoff : w.getConfig.creationQuotaMax = 0 ∨ n = 0
  · rw [reserved, if_pos (by exact hoff), reserved, if_pos hoff]
  · rw [reserved, if_neg (by exact hoff), reserved, if_neg hoff]
    rfl

theorem openWindow_reserved {company : Address} {n : ℕ} {key : BytesN32} :
    (w.openWindow env key).reserved company now n =
      (w.reserved company now n).openWindow env key := by
  by_cases hoff : w.getConfig.creationQuotaMax = 0 ∨ n = 0
  · rw [reserved, if_pos (by exact hoff), reserved, if_pos hoff]
  · rw [reserved, if_neg (by exact hoff), reserved, if_neg hoff]
    rfl

/-- The world after a single creation. -/
def createdOne (w : World H) (env : Env) (sender : Address) (input : ShipmentInput) : World H :=
  (((w.reserved sender env.timestamp 1).fresh.signed sender).openWindow env
    (H.sha256 (creationPayload sender input))).enrol sender env.timestamp input

/-- The items are hindered neither by their parties nor by each other, and no counter
of the registry runs over on the way. -/
structure Unhindered (w : World H) (env : Env) (sender : Address) (inputs : List ShipmentInput) :
    Prop where
  parties : ∀ input ∈ inputs, sender ≠ input.receiver ∧ sender ≠ input.carrier
  keys : (inputs.map fun input => H.sha256 (creationPayload sender input)).Nodup
  windows : ∀ input ∈ inputs, w.windowOpen env (H.sha256 (creationPayload sender input)) = false
  quota : w.getConfig.creationQuotaMax = 0 ∨ 0 < w.getConfig.creationQuotaWindowSeconds ∧
    (w.quotaTracker sender env.timestamp).windowStart + w.getConfig.creationQuotaWindowSeconds ≤ u64Max
  active : w.registry.activeShipmentCount sender + inputs.length ≤ u32Max

/-- There is a place for every item: each is acceptable, and the limit, the quota and
the counters of the ledger hold them all. -/
structure Fits (w : World H) (env : Env) (sender : Address) (inputs : List ShipmentInput) :
    Prop where
  acceptable : ∀ input ∈ inputs, input.Acceptable env.timestamp
  limit : inputs ≠ [] →
    w.registry.activeShipmentCount sender + inputs.length ≤ w.getEffectiveShipmentLimit sender
  quota : w.HasQuota sender env.timestamp inputs.length
  room : inputs ≠ [] → w.Room inputs.length

/-- What neither a creation, nor its window, nor its count changes. -/
theorem apply_createdOne {γ : Type*} (f : World H → γ)
    (hcreated : ∀ (u : World H) (key : BytesN32),
      f (((u.fresh.signed sender).openWindow env key).enrol sender env.timestamp input) = f u)
    (hcounted : ∀ t, f { w with registry := { w.registry with companyCreationQuota := t } } = f w) :
    f (w.createdOne env sender input) = f w :=
  (hcreated _ _).trans (w.apply_reserved sender env.timestamp f hcounted 1)

theorem Serves.createdOne (hs : w.Serves env sender) (input : ShipmentInput) :
    (w.createdOne env sender input).fresh.Serves env sender := by
  have hi : (w.createdOne env sender input).isInitialized = w.isInitialized :=
    apply_createdOne (·.isInitialized) (fun _ _ => rfl) fun _ => rfl
  have hg : (w.createdOne env sender input).governance.isPaused = w.governance.isPaused :=
    apply_createdOne (·.governance.isPaused) (fun _ _ => rfl) fun _ => rfl
  have hp : (w.createdOne env sender input).permits = w.permits :=
    apply_createdOne (·.permits) (fun _ _ => rfl) fun _ => rfl
  exact ⟨hi.trans hs.initialized, hg.trans hs.running, hs.signed, hp ▸ hs.company⟩

theorem ledger_openWindow (key : BytesN32) :
    ((w.fresh.signed sender).openWindow env key).ledger = w.ledger := rfl

theorem dossier_openWindow (key : BytesN32) :
    ((w.fresh.signed sender).openWindow env key).dossier = w.dossier := rfl

theorem ledger_createdOne : (w.createdOne env sender input).ledger =
    (w.enrol sender env.timestamp input).ledger :=
  ledger_enrol_congr ((ledger_openWindow _).trans (reserved_ledger ..))

theorem dossier_createdOne : (w.createdOne env sender input).dossier =
    (w.enrol sender env.timestamp input).dossier :=
  dossier_enrol_congr ((ledger_openWindow _).trans (reserved_ledger ..))
    ((dossier_openWindow _).trans reserved_dossier)

theorem getConfig_createdOne : (w.createdOne env sender input).getConfig = w.getConfig :=
  apply_createdOne (·.getConfig) (fun _ _ => rfl) fun _ => rfl

theorem limit_createdOne : (w.createdOne env sender input).getEffectiveShipmentLimit sender =
    w.getEffectiveShipmentLimit sender :=
  apply_createdOne (·.getEffectiveShipmentLimit sender) (fun _ _ => rfl) fun _ => rfl

theorem quotaTracker_createdOne (hmax : w.getConfig.creationQuotaMax ≠ 0)
    (hpos : 0 < w.getConfig.creationQuotaWindowSeconds) :
    (w.createdOne env sender input).quotaTracker sender env.timestamp =
      ⟨(w.quotaTracker sender env.timestamp).count + 1,
        (w.quotaTracker sender env.timestamp).windowStart⟩ := by
  have hcreated : ∀ (u : World H) (key : BytesN32),
      (((u.fresh.signed sender).openWindow env key).enrol sender env.timestamp input).quotaTracker
        sender env.timestamp = u.quotaTracker sender env.timestamp := fun _ _ => rfl
  exact (hcreated _ _).trans (quotaTracker_reserved (n := 0) hmax hpos)

theorem active_createdOne (h : w.registry.activeShipmentCount sender + 1 ≤ u32Max) :
    (w.createdOne env sender input).registry.activeShipmentCount sender =
      w.registry.activeShipmentCount sender + 1 := by
  have hsat : saturatingAddU32 (w.registry.activeShipmentCount sender) 1 =
      w.registry.activeShipmentCount sender + 1 := min_eq_left h
  rw [← hsat]
  unfold createdOne reserved
  split <;> exact Function.update_self ..

/-- A single creation opens the window of its own action. -/
theorem windowOpen_createdOne {key : BytesN32}
    (hkey : key ≠ H.sha256 (creationPayload sender input)) :
    (w.createdOne env sender input).windowOpen env key = w.windowOpen env key := by
  have hw : (w.createdOne env sender input).governance.idempotencyWindow key =
      w.governance.idempotencyWindow key := by
    unfold createdOne
    refine (Function.update_of_ne hkey _ _).trans ?_
    change (w.reserved sender env.timestamp 1).governance.idempotencyWindow key = _
    rw [reserved_governance]
  unfold windowOpen
  rw [hw]

theorem Unhindered.fresh (hu : w.Unhindered env sender inputs) :
    w.fresh.Unhindered env sender inputs :=
  ⟨hu.parties, hu.keys, hu.windows, hu.quota, hu.active⟩

/-- After the first item the others are as free as before. -/
theorem Unhindered.tail (hu : w.Unhindered env sender (input :: inputs)) :
    (w.createdOne env sender input).fresh.Unhindered env sender inputs := by
  obtain ⟨hp, hk, hw, hq, ha⟩ := hu
  rw [List.map_cons, List.nodup_cons] at hk
  rw [List.length_cons] at ha
  refine Unhindered.fresh ⟨fun i hi => hp i (by simp [hi]), hk.2, fun i hi => ?_, ?_, ?_⟩
  · have hne : H.sha256 (creationPayload sender i) ≠ H.sha256 (creationPayload sender input) := by
      intro he
      refine hk.1 ?_
      rw [← he]
      exact List.mem_map_of_mem hi
    exact (windowOpen_createdOne hne).trans (hw i (by simp [hi]))
  · rw [getConfig_createdOne]
    by_cases hmax : w.getConfig.creationQuotaMax = 0
    · exact .inl hmax
    · obtain ⟨hpos, hend⟩ := hq.resolve_left hmax
      rw [quotaTracker_createdOne hmax hpos]
      exact .inr ⟨hpos, hend⟩
  · rw [active_createdOne (by omega)]
    omega

theorem fits_fresh : w.fresh.Fits env sender inputs ↔ w.Fits env sender inputs := by
  have hroom : w.fresh.Room inputs.length ↔ w.Room inputs.length := Room.congr rfl rfl
  constructor
  · exact fun h => ⟨h.acceptable, h.limit, h.quota, fun hne => hroom.mp (h.room hne)⟩
  · exact fun h => ⟨h.acceptable, h.limit, h.quota, fun hne => hroom.mpr (h.room hne)⟩

/-- Places for the first item and, after it, for the others. -/
theorem fits_cons (hu : w.Unhindered env sender (input :: inputs)) :
    w.Fits env sender (input :: inputs) ↔ (input.Acceptable env.timestamp ∧
      w.registry.activeShipmentCount sender < w.getEffectiveShipmentLimit sender ∧
      w.HasQuota sender env.timestamp 1 ∧ w.Room 1) ∧
      (w.createdOne env sender input).fresh.Fits env sender inputs := by
  have hactive : (w.createdOne env sender input).registry.activeShipmentCount sender =
      w.registry.activeShipmentCount sender + 1 := by
    refine active_createdOne ?_
    have := hu.active
    rw [List.length_cons] at this
    omega
  have hlimit : (w.createdOne env sender input).getEffectiveShipmentLimit sender =
      w.getEffectiveShipmentLimit sender := limit_createdOne
  have hroom : ∀ n, (w.createdOne env sender input).Room n ↔
      (w.enrol sender env.timestamp input).Room n := by
    intro n
    refine Room.congr ledger_createdOne ?_
    exact apply_createdOne (·.governance.config) (fun _ _ => rfl) fun _ => rfl
  have hquota : ∀ (u : World H) (key : BytesN32) (n : ℕ),
      (((u.fresh.signed sender).openWindow env key).enrol sender env.timestamp input).HasQuota
        sender env.timestamp n ↔ u.HasQuota sender env.timestamp n := fun _ _ _ => Iff.rfl
  rw [fits_fresh]
  constructor
  · rintro ⟨hacc, hlim, hq, hr⟩
    rw [List.forall_mem_cons] at hacc
    have hlim := hlim (by simp)
    have hr := hr (by simp)
    rw [List.length_cons] at hlim hq hr
    obtain ⟨hr₁, hrs⟩ := (room_succ sender env.timestamp input).mp hr
    obtain ⟨hq₁, hqs⟩ := (hasQuota_succ hu.quota).mp hq
    refine ⟨⟨hacc.1, by omega, hq₁, hr₁⟩, ⟨hacc.2, fun _ => ?_, (hquota _ _ _).mpr hqs,
      fun _ => (hroom _).mpr hrs⟩⟩
    rw [hactive, hlimit]
    omega
  · rintro ⟨⟨ha, hl, hq₁, hr₁⟩, ⟨hacc, hlim, hqs, hrs⟩⟩
    refine ⟨List.forall_mem_cons.mpr ⟨ha, hacc⟩, fun _ => ?_,
      (hasQuota_succ hu.quota).mpr ⟨hq₁, (hquota _ _ _).mp hqs⟩,
      fun _ => (room_succ sender env.timestamp input).mpr ⟨hr₁, ?_⟩⟩
    · rw [List.length_cons]
      cases inputs with
      | nil => exact hl
      | cons =>
        have := hlim (by simp)
        rw [hactive, hlimit] at this
        omega
    · cases inputs with
      | nil => exact ((room_succ sender env.timestamp input).mp hr₁).2
      | cons => exact (hroom _).mp (hrs (by simp))

theorem eventsOf_createdOne :
    eventsOf (w.createdOne env sender input).trace = w.creationEvents sender input := by
  have hcall : ∀ (u : World H) (key : BytesN32),
      (((u.fresh.signed sender).openWindow env key).enrol sender env.timestamp input).trace =
        [.auth sender] ++ (((u.fresh.signed sender).openWindow env key).creationEvents sender
          input).map .event := fun _ _ => rfl
  have htrace : (w.createdOne env sender input).trace = [.auth sender] ++
      (w.creationEvents sender input).map .event := by
    rw [createdOne, hcall, creationEvents_congr ((ledger_openWindow _).trans (reserved_ledger ..))
      ((dossier_openWindow _).trans reserved_dossier)]
  rw [htrace, eventsOf_append, eventsOf_map_event]
  rfl

/-- Counting the others after the first item is stored. -/
theorem sansWindows_reserved_createdOne {n : ℕ} :
    ((w.createdOne env sender input).fresh.reserved sender env.timestamp n).sansWindows =
      (((w.reserved sender env.timestamp 1).reserved sender env.timestamp n).enrol sender
        env.timestamp input).sansWindows := by
  unfold createdOne
  generalize w.reserved sender env.timestamp 1 = v
  by_cases hoff : v.getConfig.creationQuotaMax = 0 ∨ n = 0
  · rw [reserved, if_pos (by exact hoff), reserved, if_pos hoff]
    rfl
  · rw [reserved, if_neg (by exact hoff), reserved, if_neg hoff]
    rfl

end World

/-! ### The two ways compared -/

theorem returns_createdOne (hs : w.Serves env sender) (hu : w.Unhindered env sender (input :: inputs))
    {id : ℕ} {w₁ : World H} : (createShipment sender input).Returns env w.fresh id w₁ ↔
      (input.Acceptable env.timestamp ∧
        w.registry.activeShipmentCount sender < w.getEffectiveShipmentLimit sender ∧
        w.HasQuota sender env.timestamp 1 ∧ w.Room 1) ∧
      id = w.ledger.shipmentCount + 1 ∧ w₁ = w.createdOne env sender input := by
  have hroom : w.fresh.Room 1 ↔ w.Room 1 := World.Room.congr rfl rfl
  rw [returns_createShipment, World.openWindow_reserved, World.signed_reserved, hroom]
  constructor
  · rintro ⟨-, ha, -, -, hl, hq, hr, hid, h⟩
    exact ⟨⟨ha, hl, hq, hr⟩, hid, h⟩
  · rintro ⟨⟨ha, hl, hq, hr⟩, hid, h⟩
    exact ⟨⟨hs.initialized, hs.running, hs.signed, hs.company⟩, ha, hu.parties input (by simp),
      hu.windows input (by simp), hl, hq, hr, hid, h⟩

/-- The single creations go through when there is a place for every item. -/
theorem exists_createEach (hs : w.Serves env sender) (hu : w.Unhindered env sender inputs) :
    (∃ r, createEach sender env w inputs = some r) ↔ w.Fits env sender inputs := by
  induction inputs generalizing w with
  | nil =>
    refine ⟨fun _ => ⟨by simp, by simp, .inr (.inl rfl), by simp⟩, fun _ => ⟨_, rfl⟩⟩
  | cons input inputs ih =>
    rw [World.fits_cons hu, ← ih (hs.createdOne input) hu.tail]
    simp only [createEach_cons, returns_createdOne hs hu]
    constructor
    · rintro ⟨_, _, _, q, ⟨h, rfl, rfl⟩, hq, rfl⟩
      exact ⟨h, q, hq⟩
    · rintro ⟨h, q, hq⟩
      exact ⟨_, _, _, q, ⟨h, rfl, rfl⟩, hq, rfl⟩

/-- The ids, the events and the world of the single creations. -/
theorem createEach_result (hs : w.Serves env sender) (hu : w.Unhindered env sender inputs)
    {r : List ℕ × List Effect × World H} (h : createEach sender env w inputs = some r) :
    r.1 = List.range' (w.ledger.shipmentCount + 1) inputs.length ∧
      eventsOf r.2.1 = World.createdEvents sender env.timestamp w inputs ∧
      r.2.2.sansWindows = ((w.reserved sender env.timestamp inputs.length).enrolAll sender
        env.timestamp inputs).sansWindows := by
  induction inputs generalizing w r with
  | nil =>
    cases h
    refine ⟨rfl, rfl, ?_⟩
    simp [World.reserved, World.enrolAll]
  | cons input inputs ih =>
    obtain ⟨id, w₁, q, h₁, hq, rfl⟩ := createEach_cons.mp h
    obtain ⟨-, rfl, rfl⟩ := (returns_createdOne hs hu).mp h₁
    obtain ⟨hids, hevents, hworld⟩ := ih (hs.createdOne input) hu.tail hq
    refine ⟨?_, ?_, ?_⟩
    · have hcount : (w.createdOne env sender input).fresh.ledger.shipmentCount =
          w.ledger.shipmentCount + 1 := congrArg Ledger.shipmentCount World.ledger_createdOne
      rw [hids, hcount, List.length_cons, List.range'_succ]
    · rw [eventsOf_append, hevents, World.eventsOf_createdOne, World.createdEvents,
        World.createdEvents_congr (v := (w.createdOne env sender input).fresh) World.ledger_createdOne
          World.dossier_createdOne]
    · rw [hworld]
      refine World.sansWindows_enrolAll ?_
      rw [World.sansWindows_reserved_createdOne, World.reserved_reserved (hu.quota.imp_right And.left)]
      rfl

/-- A creation that goes through was open to the sender. -/
theorem serves_of_createEach {r : List ℕ × List Effect × World H} (hne : inputs ≠ [])
    (h : createEach sender env w inputs = some r) : w.Serves env sender := by
  cases inputs with
  | nil => exact absurd rfl hne
  | cons input inputs =>
    obtain ⟨id, w₁, q, h₁, -, -⟩ := createEach_cons.mp h
    have hs := (returns_createShipment.mp h₁).1
    exact ⟨hs.initialized, hs.running, hs.signed, hs.company⟩

/-- A batch in which the sender is neither receiver nor carrier, whose data hashes are
distinct and in no open window, in a quota window that does not run over, goes through
exactly when the single creations do. Ids, events and the world after it are the same,
but for the idempotency windows. That the hash function does not confuse the payloads
of the batch is assumed of the host. -/
theorem batch_creation_refines (w : World H) (env : Env) (sender : Address)
    (inputs : List ShipmentInput) (hne : inputs ≠ [])
    (hlen : inputs.length ≤ w.getConfig.batchOperationLimit)
    (hparties : ∀ input ∈ inputs, sender ≠ input.receiver ∧ sender ≠ input.carrier)
    (hhashes : (inputs.map (·.dataHash)).Nodup)
    (hsha : ∀ a ∈ inputs, ∀ b ∈ inputs,
      H.sha256 (creationPayload sender a) = H.sha256 (creationPayload sender b) →
        creationPayload sender a = creationPayload sender b)
    (hwindows : ∀ input ∈ inputs, w.windowOpen env (H.sha256 (creationPayload sender input)) = false)
    (hquota : w.getConfig.creationQuotaMax = 0 ∨ 0 < w.getConfig.creationQuotaWindowSeconds ∧
      (w.quotaTracker sender env.timestamp).windowStart + w.getConfig.creationQuotaWindowSeconds ≤ u64Max)
    (hactive : w.registry.activeShipmentCount sender + inputs.length < 2 ^ 32) :
    ((∃ ids w', (createShipmentsBatch sender inputs).Returns env w.fresh ids w') ↔
      ∃ r, createEach sender env w inputs = some r) ∧
    ∀ ids w' r, (createShipmentsBatch sender inputs).Returns env w.fresh ids w' →
      createEach sender env w inputs = some r →
      ids = r.1 ∧ eventsOf w'.trace = eventsOf r.2.1 ∧ w'.sansWindows = r.2.2.sansWindows := by
  have hnodup : inputs.Nodup := .of_map _ hhashes
  have hkeys : (inputs.map fun input => H.sha256 (creationPayload sender input)).Nodup := by
    rw [List.nodup_map_iff_inj_on hnodup] at hhashes ⊢
    intro a ha b hb he
    exact hhashes a ha b hb (creationPayload_inj (hsha a ha b hb he))
  have hmax : w.registry.activeShipmentCount sender + inputs.length ≤ u32Max := by
    unfold u32Max
    omega
  have hu : w.Unhindered env sender inputs := ⟨hparties, hkeys, hwindows, hquota, hmax⟩
  have hsat : saturatingAddU32 (w.registry.activeShipmentCount sender) inputs.length =
      w.registry.activeShipmentCount sender + inputs.length := min_eq_left hmax
  have hbatch : ∀ ids w', (createShipmentsBatch sender inputs).Returns env w.fresh ids w' ↔
      w.Serves env sender ∧ w.Fits env sender inputs ∧
      ids = List.range' (w.ledger.shipmentCount + 1) inputs.length ∧
      w' = ((w.fresh.signed sender).reserved sender env.timestamp inputs.length).enrolAll sender
        env.timestamp inputs := by
    intro ids w'
    have hroom : w.fresh.Room inputs.length ↔ w.Room inputs.length := World.Room.congr rfl rfl
    rw [returns_createShipmentsBatch, hroom]
    constructor
    · rintro ⟨hs, -, hl, hq, ha, hr, hid, h⟩
      exact ⟨⟨hs.initialized, hs.running, hs.signed, hs.company⟩, ⟨ha, fun _ => hsat ▸ hl, hq, hr⟩, hid, h⟩
    · rintro ⟨hs, hf, hid, h⟩
      exact ⟨⟨hs.initialized, hs.running, hs.signed, hs.company⟩, hlen, hsat.trans_le (hf.limit hne),
        hf.quota, hf.acceptable, hf.room, hid, h⟩
  refine ⟨⟨?_, ?_⟩, ?_⟩
  · rintro ⟨ids, w', h⟩
    obtain ⟨hs, hf, -, -⟩ := (hbatch ids w').mp h
    exact (exists_createEach hs hu).mpr hf
  · rintro ⟨r, h⟩
    have hs := serves_of_createEach hne h
    exact ⟨_, _, (hbatch _ _).mpr ⟨hs, (exists_createEach hs hu).mp ⟨r, h⟩, rfl, rfl⟩⟩
  · intro ids w' r hb he
    obtain ⟨hs, -, rfl, rfl⟩ := (hbatch ids w').mp hb
    obtain ⟨hids, hevents, hworld⟩ := createEach_result hs hu he
    refine ⟨hids.symm, ?_, ?_⟩
    · rw [World.trace_enrolAll, eventsOf_append, eventsOf_map_event, hevents, World.signed_reserved]
      exact World.createdEvents_congr (World.reserved_ledger ..) World.reserved_dossier
    · rw [hworld, World.signed_reserved]
      exact World.sansWindows_enrolAll rfl

/-- The company, with a quota of three a day, creates two shipments beside its first. -/
theorem batch_creation_refines_two : ∃ (c : Chain Deployment.host) (env : Env)
    (inputs : List ShipmentInput) (ids : List ℕ) (w' : World Deployment.host)
    (r : List ℕ × List Effect × World Deployment.host), Reachable c ∧ inputs.length = 2 ∧
      (createShipmentsBatch Deployment.company inputs).Returns env c.world.fresh ids w' ∧
      createEach Deployment.company env c.world inputs = some r ∧ ids = r.1 ∧
      eventsOf w'.trace = eventsOf r.2.1 ∧ w'.sansWindows = r.2.2.sansWindows := by
  let first : ShipmentInput := { Deployment.shipment with dataHash := 2 }
  let second : ShipmentInput := { Deployment.shipment with dataHash := 3 }
  let env : Env := ⟨6, 6, fun a => a = Deployment.company, fun _ => true⟩
  obtain ⟨ls, c, hr, -, hlen, hsha, hwindows, hquota, hactive, hsome⟩ := exists_play Deployment.chain
    (Deployment.opening ++ [
      Deployment.signed Deployment.admin 5 (.setCreationQuota Deployment.admin 3 86400)])
    (fun r => 2 ≤ r.2.world.getConfig.batchOperationLimit ∧
      (∀ a ∈ [first, second], ∀ b ∈ [first, second],
        Deployment.host.sha256 (creationPayload Deployment.company a) =
          Deployment.host.sha256 (creationPayload Deployment.company b) →
        creationPayload Deployment.company a = creationPayload Deployment.company b) ∧
      (∀ a ∈ [first, second], r.2.world.windowOpen env
        (Deployment.host.sha256 (creationPayload Deployment.company a)) = false) ∧
      (0 < r.2.world.getConfig.creationQuotaWindowSeconds ∧
        (r.2.world.quotaTracker Deployment.company env.timestamp).windowStart +
          r.2.world.getConfig.creationQuotaWindowSeconds ≤ u64Max) ∧
      r.2.world.registry.activeShipmentCount Deployment.company + 2 < 2 ^ 32 ∧
      (createEach Deployment.company env r.2.world [first, second]).isSome = true)
    (by decide +kernel)
  obtain ⟨hiff, hsame⟩ := batch_creation_refines c.world env Deployment.company [first, second]
    (by simp) hlen (by decide) (by decide) hsha hwindows (.inr hquota) hactive
  obtain ⟨r, he⟩ := Option.isSome_iff_exists.mp hsome
  obtain ⟨ids, w', hb⟩ := hiff.mpr ⟨r, he⟩
  exact ⟨c, env, [first, second], ids, w', r, ⟨_, ls, Deployment.deployed, hr⟩, rfl, hb, he,
    hsame ids w' r hb he⟩

end Navin
