/-
# When a status update goes through

`update_status` looks past the record of its shipment: at the admin and the suspensions, at
the records of the prerequisites, at the window of the same update, at two counters and at
the configuration. Whether an update goes through is a matter of these alone.

Key definitions:
- `World.Delivered`, `World.Ready`: a shipment is delivered, and all prerequisites are;
- `World.Updates`: what an update needs.

Key theorems:
- `accepts_iff`: an update that has what it needs goes through, and no other.
-/
import Navin.Exits
import Navin.Idempotency
import Navin.Settings

namespace Navin

open Tx

variable {H : Host} {env : Env} {w w' : World H} {id : ℕ} {s : Shipment} {a admin caller : Address}
  {status : ShipmentStatus} {hash : BytesN32} {β : Type} {n : Unit → Contract H β}

/-- The shipment is there, and delivered. -/
def World.Delivered (w : World H) (id : ℕ) : Prop :=
  ∃ s, w.getShipment id = some s ∧ s.status = .delivered

/-- All prerequisites of the shipment are delivered. -/
def World.Ready (w : World H) (id : ℕ) : Prop := ∀ y ∈ w.dossier.shipmentDependents id, w.Delivered y

/-- The last update is long enough ago. -/
def World.Rested (w : World H) (env : Env) (id : ℕ) : Prop := ∀ last,
  w.dossier.lastStatusUpdate id = some last → w.getConfig.minStatusUpdateInterval ≤ env.timestamp - last

/-- There is room for one more shipment in the status `t` when one leaves the status `st`. -/
def World.Takes (w : World H) (st t : ShipmentStatus) : Prop :=
  Function.update w.ledger.statusCount st (w.ledger.statusCount st - 1) t + 1 ≤ u64Max

/-- The record after an update. -/
def Shipment.updated (s : Shipment) (status : ShipmentStatus) (hash : BytesN32) (now : ℕ) : Shipment :=
  (((s.withStatus status).withDataHash hash).touch now).finalizeIfSettled

/-- What an update of the shipment `s` needs. -/
structure World.Updates (w : World H) (env : Env) (caller : Address) (s : Shipment)
    (status : ShipmentStatus) (hash : BytesN32) : Prop where
  open_ : w.isInitialized = true ∧ w.governance.isPaused = false ∧ env.auth caller = true
  hash_ne : hash ≠ 0
  entitled : caller = s.carrier ∨ w.ledger.admin = some caller
  unfinalized : s.finalized = false
  active : caller = s.carrier → w.CarrierActive caller
  closed : w.windowOpen env (H.sha256 (Action.update s.id status hash).payload) = false
  rested : w.ledger.admin ≠ some caller → w.Rested env s.id
  valid : s.status.isValidTransition status = true
  ready : status = .inTransit → w.Ready s.id
  counted : w.Takes s.status status
  disputes : status = .disputed → w.governance.totalDisputes + 1 ≤ u64Max
  token : w.ledger.tokenContract ≠ none
  lifetimes : w.getConfig.shipmentTtlThreshold ≤ w.getConfig.shipmentTtlExtension

/-! ### The checks -/

theorem returns_requireActiveCarrier {u : Unit} :
    (requireActiveCarrier a).Returns env w u w' ↔ w.CarrierActive a ∧ w' = w := by
  unfold requireActiveCarrier
  rw [returns_gets_bind, returns_rejectIf_bind, returns_rejectIf, ← and_assoc, Bool.not_eq_true,
    Bool.not_eq_true]
  rfl

theorem returns_requirePrerequisitesDelivered {u : Unit} :
    (requirePrerequisitesDelivered id).Returns env w u w' ↔ w.Ready id ∧ w' = w := by
  unfold requirePrerequisitesDelivered
  rw [returns_gets_bind]
  refine returns_checks (fun y w u w' => ?_) _
  rw [returns_bind]
  simp only [returns_loadShipment, returns_rejectIf, not_not]
  constructor
  · rintro ⟨t, _, ⟨ht, rfl⟩, hd, rfl⟩
    exact ⟨⟨t, ht, hd⟩, rfl⟩
  · rintro ⟨⟨t, ht, hd⟩, rfl⟩
    exact ⟨t, w', ⟨ht, rfl⟩, hd, rfl⟩

theorem returns_requireUpdateInterval {u : Unit} :
    (requireUpdateInterval id).Returns env w u w' ↔ w.Rested env id ∧ w' = w := by
  unfold requireUpdateInterval World.Rested timestamp
  rw [returns_gets_bind]
  cases w.dossier.lastStatusUpdate id with
  | none => simp [whenSome, returns_pure]
  | some last =>
    simp only [whenSome, bind_assoc, returns_ask_bind, returns_pure_bind, returns_gets_bind,
      returns_rejectIf, not_lt, Option.some.injEq, forall_eq']

theorem returns_incrementTotalDisputes {u : Unit} : incrementTotalDisputes.Returns env w u w' ↔
    w.governance.totalDisputes + 1 ≤ u64Max ∧ w' = { w with governance := { w.governance with
      totalDisputes := w.governance.totalDisputes + 1 } } := by
  unfold incrementTotalDisputes modifyGovernance
  rw [returns_gets_bind, returns_trapIf_bind, returns_modify, not_lt]

theorem succeeds_modifyDossier_bind {g : Dossier → Dossier} :
    Succeeds (modifyDossier g >>= n) env w ↔ Succeeds (n ()) env { w with dossier := g w.dossier } :=
  succeeds_modify_bind

theorem succeeds_timestamp_bind {k : ℕ → Contract H β} :
    Succeeds (timestamp >>= k) env w ↔ Succeeds (k env.timestamp) env w :=
  (show (timestamp : Contract H ℕ).Returns env w env.timestamp w from rfl).succeeds_iff

/-! ### The update -/

/-- The status update goes through. -/
def World.Accepts (w : World H) (env : Env) (caller : Address) (id : ℕ) (status : ShipmentStatus)
    (hash : BytesN32) : Prop := ∃ w', updateStatus caller id status hash env w = .ok () w'

/-- The table has no way back to the first status. -/
theorem ShipmentStatus.ne_created_of_isValidTransition {st : ShipmentStatus}
    (h : st.isValidTransition status = true) : status ≠ .created := by
  rintro rfl
  cases st <;> cases h

/-- A record within its bounds passes the check after an update. -/
theorem Shipment.valid_updated (hb : 0 ≤ s.escrowAmount ∧ s.escrowAmount ≤ s.totalEscrow)
    (hfin : s.finalized = false) (hne : status ≠ .created) (now : ℕ) :
    (s.updated status hash now).Valid := by
  have hv : (((s.withStatus status).withDataHash hash).touch now).Valid := by
    refine ⟨hb.1, hb.2, fun h => ?_, fun h => absurd h hne⟩
    rw [show s.finalized = true from h] at hfin
    cases hfin
  exact hv.finalizeIfSettled

/-- The event of an update names the token of the contract. -/
theorem succeeds_emitStatusUpdated_bind {old : ShipmentStatus} {m : Contract H Unit} [hm : Total m] :
    Succeeds (emitStatusUpdated id old status hash >>= fun _ => m) env w ↔ w.ledger.tokenContract ≠ none := by
  unfold emitStatusUpdated
  cases ha : w.ledger.tokenContract with
  | none =>
    refine iff_of_false ?_ (by simp)
    rintro ⟨u, w', h⟩
    obtain ⟨_, _, h, -⟩ := returns_bind.mp h
    unfold emitKeyedWithToken at h
    rw [returns_gets_bind, ha, returns_unwrap_bind] at h
    obtain ⟨_, h, -⟩ := h
    cases h
  | some a =>
    rw [(returns_emitKeyedWithToken ha).succeeds_iff]
    exact iff_of_true (hm.out env _) (Option.some_ne_none a)

/-- The end of an update. -/
theorem succeeds_recorded (old : ShipmentStatus) (sender receiver : Address)
    (hlive : (w.ledger.shipment id).isSome = true) :
    Succeeds (do
      extendShipmentTtl id
      setStatusHash id status hash
      emitStatusUpdated id old status hash
      publish (.notification sender .statusChanged id hash)
      publish (.notification receiver .statusChanged id hash)) env w ↔
        w.getConfig.shipmentTtlThreshold ≤ w.getConfig.shipmentTtlExtension ∧
          w.ledger.tokenContract ≠ none := by
  unfold setStatusHash
  rw [succeeds_unit_bind fun _ _ => returns_extendShipmentTtl hlive, succeeds_modifyDossier_bind,
    succeeds_emitStatusUpdated_bind]

/-- What is left to do once the record is written. -/
theorem succeeds_written (old : ShipmentStatus) (sender receiver : Address) (now : ℕ)
    (hlive : (w.ledger.shipment id).isSome = true) :
    Succeeds (do
      when (status = .disputed) incrementTotalDisputes
      setLastStatusUpdate id now
      extendShipmentTtl id
      setStatusHash id status hash
      emitStatusUpdated id old status hash
      publish (.notification sender .statusChanged id hash)
      publish (.notification receiver .statusChanged id hash)) env w ↔
        (status = .disputed → w.governance.totalDisputes + 1 ≤ u64Max) ∧
          w.getConfig.shipmentTtlThreshold ≤ w.getConfig.shipmentTtlExtension ∧
          w.ledger.tokenContract ≠ none := by
  unfold when setLastStatusUpdate
  by_cases hd : status = .disputed
  · rw [if_pos hd, succeeds_unit_bind fun _ _ => returns_incrementTotalDisputes,
      succeeds_modifyDossier_bind]
    exact and_congr ⟨fun h _ => h, fun h => h hd⟩ (succeeds_recorded old sender receiver (by exact hlive))
  · rw [if_neg hd, pure_bind, succeeds_modifyDossier_bind]
    exact (succeeds_recorded old sender receiver (by exact hlive)).trans
      (and_iff_right fun h => absurd h hd).symm

/-- An update goes through exactly if it has what it needs. -/
theorem accepts_iff (hs : w.getShipment id = some s) (hid : s.id = id)
    (hadm : w.ledger.admin = some admin)
    (hb : 0 ≤ s.escrowAmount ∧ s.escrowAmount ≤ s.totalEscrow) :
    w.Accepts env caller id status hash ↔ w.Updates env caller s status hash := by
  have hsucceeds : w.Accepts env caller id status hash ↔
      Succeeds (updateStatus caller id status hash) env w :=
    ⟨fun ⟨w', h⟩ => ⟨(), w', h⟩, fun ⟨_, w', h⟩ => ⟨w', h⟩⟩
  have hadm' : (w.signed caller).ledger.admin = some admin := hadm
  have hs' : (w.signed caller).getShipment id = some s := hs
  have hent : ¬(caller ≠ s.carrier ∧ caller ≠ admin) ↔ caller = s.carrier ∨ w.ledger.admin = some caller := by
    rw [hadm, Option.some.injEq, not_and_or, not_not, not_not, eq_comm (a := caller) (b := admin)]
  have hne : caller ≠ admin ↔ w.ledger.admin ≠ some caller := by
    rw [hadm, Ne, Ne, Option.some.injEq, eq_comm]
  subst hid
  rw [hsucceeds]
  unfold updateStatus validateHash requireNotFinalized validateShipmentTransition
  rw [succeeds_unit_bind fun _ _ => returns_openCall, succeeds_rejectIf_bind,
    succeeds_getAdmin_bind hadm', succeeds_loadShipment_bind hs', succeeds_rejectIf_bind,
    succeeds_rejectIf_bind,
    succeeds_unit_bind (returns_whenCheck fun _ _ => returns_requireActiveCarrier),
    succeeds_unit_bind fun _ _ => returns_checkIdempotency,
    succeeds_unit_bind (returns_whenCheck fun _ _ => returns_requireUpdateInterval),
    succeeds_rejectIf_bind,
    succeeds_unit_bind (returns_whenCheck fun _ _ => returns_requirePrerequisitesDelivered),
    succeeds_timestamp_bind, succeeds_unit_bind fun _ _ => returns_moveStatusCount,
    succeeds_unit_bind fun _ _ => returns_persistShipment, hent, hne, Bool.not_eq_true,
    Bool.not_eq_false]
  have hlive : (Function.update w.ledger.shipment s.id
      (some (s.updated status hash env.timestamp)) s.id).isSome = true := by
    rw [Function.update_self]
    rfl
  constructor
  · rintro ⟨hopen, hhash, hparty, hfin, hact, hclosed, hrest, htrans, hready, hcount, -, hend⟩
    obtain ⟨hdisputes, httl, htoken⟩ :=
      (succeeds_written s.status s.sender s.receiver env.timestamp (by exact hlive)).mp hend
    exact ⟨hopen, hhash, hparty, hfin, hact, hclosed, hrest, htrans, hready, hcount, hdisputes, htoken,
      httl⟩
  · intro h
    refine ⟨h.open_, h.hash_ne, h.entitled, h.unfinalized, h.active, h.closed, h.rested, h.valid, h.ready,
      h.counted, ?_, ?_⟩
    · exact s.valid_updated hb h.unfinalized (ShipmentStatus.ne_created_of_isValidTransition h.valid) _
    · exact (succeeds_written s.status s.sender s.receiver env.timestamp (by exact hlive)).mpr
        ⟨h.disputes, h.lifetimes, h.token⟩

/-! ### Two worlds -/

/-- Room for two more is room for one. -/
theorem World.takes_of_room {st : ShipmentStatus} (h : w.ledger.statusCount status + 1 ≤ u64Max) :
    w.Takes st status := by
  unfold World.Takes
  by_cases hst : status = st
  · subst hst
    rw [Function.update_self]
    omega
  · rwa [Function.update_of_ne hst]

/-- What an update reads apart from the admin, the prerequisites, its window and the
counters is the same in both worlds. -/
structure World.Alike (w w' : World H) (id : ℕ) : Prop where
  initialized : w.isInitialized = w'.isInitialized
  settings : w.settings = w'.settings
  active : ∀ a, w.CarrierActive a ↔ w'.CarrierActive a
  token : w.ledger.tokenContract = w'.ledger.tokenContract
  lastStatusUpdate : w.dossier.lastStatusUpdate id = w'.dossier.lastStatusUpdate id

theorem World.Alike.refl (w : World H) (id : ℕ) : w.Alike w id :=
  ⟨rfl, rfl, fun _ => Iff.rfl, rfl, rfl⟩

namespace World.Alike

variable (h : w.Alike w' s.id)

include h

theorem isPaused_eq : w.governance.isPaused = w'.governance.isPaused := congrArg Settings.isPaused h.settings

theorem getConfig_eq : w.getConfig = w'.getConfig :=
  congrArg (fun x : Settings => x.config.getD ContractConfig.default) h.settings

theorem symm : w'.Alike w s.id :=
  ⟨h.initialized.symm, h.settings.symm, fun a => (h.active a).symm, h.token.symm, h.lastStatusUpdate.symm⟩

/-- An update that has what it needs in one world has it in the other, if the rest is there. -/
theorem updates (hadm : w.ledger.admin = w'.ledger.admin)
    (hclosed : w.windows (H.sha256 (Action.update s.id status hash).payload) =
      w'.windows (H.sha256 (Action.update s.id status hash).payload))
    (hready : status = .inTransit → w.Ready s.id → w'.Ready s.id) (hcounted : w'.Takes s.status status)
    (hdisputes : status = .disputed → w'.governance.totalDisputes + 1 ≤ u64Max)
    (hu : w.Updates env caller s status hash) : w'.Updates env caller s status hash where
  open_ := by
    rw [← h.initialized, ← h.isPaused_eq]
    exact hu.open_
  hash_ne := hu.hash_ne
  entitled := hadm ▸ hu.entitled
  unfinalized := hu.unfinalized
  active hc := (h.active caller).mp (hu.active hc)
  closed := by
    have hc := hu.closed
    unfold World.windowOpen at hc ⊢
    rwa [show w'.governance.idempotencyWindow _ = w.governance.idempotencyWindow _ from hclosed.symm]
  rested hne last hl := by
    rw [← h.getConfig_eq]
    rw [← h.lastStatusUpdate] at hl
    exact hu.rested (hadm ▸ hne) last hl
  valid := hu.valid
  ready hst := hready hst (hu.ready hst)
  counted := hcounted
  disputes := hdisputes
  token := h.token ▸ hu.token
  lifetimes := by
    rw [← h.getConfig_eq]
    exact hu.lifetimes

end World.Alike

/-- The trace is not looked at. -/
theorem accepts_fresh (hs : w.getShipment id = some s) (hid : s.id = id)
    (hadm : w.ledger.admin = some admin) (hb : 0 ≤ s.escrowAmount ∧ s.escrowAmount ≤ s.totalEscrow) :
    w.fresh.Accepts env caller id status hash ↔ w.Accepts env caller id status hash := by
  have h : w.Alike w.fresh s.id := ⟨rfl, rfl, fun _ => Iff.rfl, rfl, rfl⟩
  have hs' : w.fresh.getShipment id = some s := hs
  have hadm' : w.fresh.ledger.admin = some admin := hadm
  rw [accepts_iff hs hid hadm hb, accepts_iff hs' hid hadm' hb]
  exact ⟨fun hu => h.symm.updates rfl rfl (fun _ hr => hr) hu.counted hu.disputes hu,
    fun hu => h.updates rfl rfl (fun _ hr => hr) hu.counted hu.disputes hu⟩

end Navin
