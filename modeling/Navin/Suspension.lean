/-
# Suspension

A suspended company is turned away wherever it acts as the sender of a shipment. A
suspended carrier is turned away from its own operations, but not where the three
parties are treated alike: it still files evidence and raises disputes, which takes
the shipment out of its lifecycle and freezes the escrow.

Key definitions:
- `Call.asCarrier?`, `Call.asCompany?`: the shipment in which the caller acts as the
  carrier, or as the sender;
- `World.ActsSuspended`: a suspended address acts as the party it is suspended as;
- `World.Heeded`: the calls that suspended carriers get through with.

Key theorems:
- `suspension_effective_iff`.
-/
import Navin.Admission
import Navin.Pause

namespace Navin

open Tx

variable {H : Host}

/-! ### Acting while suspended -/

/-- The shipment in which the caller acts as the carrier. -/
def Call.asCarrier? : Call → Option ℕ
  | .updateStatus _ id _ _ | .releaseMilestonePayment _ id _ | .reportGeofenceEvent _ id _ _
  | .updateEta _ id _ _ | .handoffShipment _ _ id _ | .reportConditionBreach _ id _ _ _
  | .recordMilestone _ id _ _ | .recordMilestonesBatch _ id _ | .raiseDispute _ id _
  | .appendNoteHash _ id _ | .addDisputeEvidenceHash _ id _ => some id
  | _ => none

/-- The shipment in which the caller acts as the sender. -/
def Call.asCompany? : Call → Option ℕ
  | .setShipmentMetadata _ id _ _ | .cancelShipment _ id _ | .refundEscrow _ id
  | .depositEscrow _ id _ | .addShipmentDependency _ id _ | .raiseDispute _ id _
  | .appendNoteHash _ id _ | .addDisputeEvidenceHash _ id _ => some id
  | _ => none

/-- The address acts in a shipment as the carrier while suspended as a carrier, or as
the sender while suspended as a company. -/
inductive World.ActsSuspended (w : World H) (call : Call) (a : Address) (id : ℕ) : Prop
  | carrier {s : Shipment} : call.asCarrier? = some id → w.getShipment id = some s → a = s.carrier →
      ¬w.CarrierActive a → ActsSuspended w call a id
  | company {s : Shipment} : call.asCompany? = some id → w.getShipment id = some s → a = s.sender →
      ¬w.CompanyActive a → ActsSuspended w call a id
  | creator : call.creates = true → ¬w.CompanyActive a → ActsSuspended w call a id

/-- What a suspended party gets through with: a dispute, and evidence as long as it
shows in the nonce of the record. -/
def World.Heeded (w : World H) (id : ℕ) : Call → Prop
  | .raiseDispute _ i _ => i = id
  | .addDisputeEvidenceHash _ i _ => i = id ∧
      ∃ s, w.getShipment id = some s ∧ s.integrationNonce ≠ u32Max
  | _ => False

/-! ### What is left to a suspended party -/

variable {env : Env} {w w' : World H} {call : Call} {id : ℕ} {a : Address} {s : Shipment}

/-- The calls that do not ask whether the carrier is suspended, and the one that asks
nobody. -/
def Call.isLenient (id : ℕ) : Call → Prop
  | .raiseDispute _ i _ | .appendNoteHash _ i _ | .addDisputeEvidenceHash _ i _
  | .addShipmentDependency _ i _ => i = id
  | _ => False

theorem admits_createShipment {input : ShipmentInput} :
    wp (createShipment a input) env w fun _ _ => w.CompanyActive a := by
  unfold createShipment
  rw [wp_bind]
  refine wp_openCall fun _ _ => ?_
  rw [wp_bind]
  exact wp_requireCompanyRole fun hact => wp_known hact

theorem admits_createShipmentsBatch {inputs : List ShipmentInput} :
    wp (createShipmentsBatch a inputs) env w fun _ _ => w.CompanyActive a := by
  unfold createShipmentsBatch
  rw [wp_bind]
  refine wp_openCall fun _ _ => ?_
  rw [wp_bind]
  exact wp_requireCompanyRole fun hact => wp_known hact

/-- Only companies that are not suspended create. -/
theorem active_of_creates (hx : call.exec env w = .ok () w') (hcall : call.caller? = some a)
    (hc : call.creates = true) : w.CompanyActive a := by
  cases call with
  | createShipment b input =>
    cases hcall
    have h : wp (discard (createShipment a input)) env w fun _ _ => w.CompanyActive a := by
      unfold discard
      simpa using admits_createShipment
    exact h () w' hx
  | createShipmentsBatch b inputs =>
    cases hcall
    have h : wp (discard (createShipmentsBatch a inputs)) env w fun _ _ => w.CompanyActive a := by
      unfold discard
      simpa using admits_createShipmentsBatch
    exact h () w' hx
  | _ => cases hc

/-- A call in which somebody acts as a party is signed by its caller. -/
theorem World.ActsSuspended.caller?_ne_none (h : w.ActsSuspended call a id) : call.caller? ≠ none := by
  intro hn
  cases h with
  | carrier hid => cases call <;> first | cases hn; done | cases hid
  | company hid => cases call <;> first | cases hn; done | cases hid
  | creator hc => cases call <;> first | cases hn; done | cases hc

/-- A suspended party gets through with a lenient call alone. -/
theorem World.ActsSuspended.lenient (h : w.ActsSuspended call a id) (hk : w.fresh.ledger.Keyed)
    (hx : call.exec env w.fresh = .ok () w') (hcall : call.caller? = some a) : call.isLenient id := by
  have admits : ∀ s, call.subject? = some id → w.getShipment id = some s → w.fresh.Admits s call :=
    fun s hid hs => admits_exec hk hx hid hs
  cases h with
  | @carrier s hid hs ha hsus =>
    cases call with
    | raiseDispute | appendNoteHash | addDisputeEvidenceHash => exact Option.some.inj hid
    | updateStatus | releaseMilestonePayment =>
      cases hcall
      exact (hsus ((admits s hid hs).2 ha)).elim
    | reportGeofenceEvent | updateEta | handoffShipment | reportConditionBreach | recordMilestone
    | recordMilestonesBatch =>
      cases hcall
      exact (hsus (admits s hid hs).2).elim
    | _ => cases hid
  | @company s hid hs ha hsus =>
    cases call with
    | raiseDispute | appendNoteHash | addDisputeEvidenceHash | addShipmentDependency =>
      exact Option.some.inj hid
    | setShipmentMetadata | cancelShipment | refundEscrow =>
      cases hcall
      exact (hsus ((admits s hid hs).2 ha)).elim
    | depositEscrow =>
      cases hcall
      exact (hsus (admits s hid hs)).elim
    | _ => cases hid
  | creator hc hsus => exact (hsus (active_of_creates (w := w.fresh) hx hcall hc)).elim

/-- A lenient call is made on a stored shipment. -/
theorem World.ActsSuspended.exists_record (h : w.ActsSuspended call a id) (hl : call.isLenient id) :
    ∃ s, w.getShipment id = some s := by
  cases h with
  | carrier _ hs => exact ⟨_, hs⟩
  | company _ hs => exact ⟨_, hs⟩
  | creator hc => cases call <;> first | cases hl; done | cases hc

/-- A call that neither names a shipment to write to nor executes anything leaves every
record and moves no token. -/
theorem Effects.nothing (he : Effects env w.fresh call w'.book) (hs : w.fresh.ledger.Sound)
    (ht : call.target? = none) (hexec : w.fresh.executing call = none)
    (hrec : w.getShipment id = some s) :
    w'.getShipment id = some s ∧ transfersOf w'.trace = [] := by
  have hno : ∀ p, ¬PostedBy env w.fresh call p w'.book := by
    intro p hp
    rcases hp.rule.concerns with h | h | h
    · rw [ht] at h
      cases h
    · rw [hexec] at h
      cases h
    · rw [hexec] at h
      cases h
  constructor
  · obtain ⟨s', hs', rfl | ⟨p, hp, -⟩⟩ := he.record hs hrec
    · exact hs'
    · exact (hno p hp).elim
  · rcases he.idle_or_posted hs with ⟨-, hpays, -⟩ | ⟨p, hp⟩
    · have hpays : paymentsOf w'.trace = [] := hpays
      rw [transfersOf_eq, hpays]
      rfl
    · exact (hno p hp).elim

/-- The posting of a call that names its shipment. -/
theorem PostedBy.record_of_target {p : Posting} (hp : PostedBy env w call p w'.book)
    (ht : call.target? = some id) (hs : w.getShipment id = some s) :
    p.old = s ∧ w'.getShipment id = some p.new := by
  have hid : p.old.id = id := hp.rule.concerns.eq_of_target ht
  have hold := hp.stored
  rw [hid] at hold
  refine ⟨Option.some.inj (hold.symm.trans hs), ?_⟩
  have hnew := hp.stored_new
  rw [hid] at hnew
  exact hnew

theorem Shipment.bumpNonce_eq_self : s.bumpNonce = s ↔ s.integrationNonce = u32Max := by
  rw [← saturatingAddU32_eq_self]
  constructor
  · exact congrArg Shipment.integrationNonce
  · intro h
    unfold Shipment.bumpNonce
    rw [h]

/-! ### Whole calls -/

/-- A call made by a suspended address alone, in which it acts as the party it is
suspended as, leaves the record and moves no token, unless it is a dispute, or evidence
that shows in the record. -/
theorem suspension_effective_iff {c c' : Chain H} {trace : List Effect} (hc : Reachable c)
    (hstep : Step c (.committed call env trace) c') (hsig : signersOf trace = [a])
    (hact : c.world.ActsSuspended call a id) :
    (c'.world.getShipment id = c.world.getShipment id ∧ transfersOf trace = []) ↔
      ¬c.world.Heeded id call := by
  cases hstep with
  | @committed _ _ w' _ hx =>
    have hsound : c.world.fresh.ledger.Sound := hc.sound
    have he := exec_effects hsound.keyed hx
    have hcall : call.caller? = some a := by
      obtain ⟨b, hb⟩ := Option.ne_none_iff_exists'.mp hact.caller?_ne_none
      rw [hb, caller?_eq hx hsig hb]
    have hlen : call.isLenient id := hact.lenient hsound.keyed hx hcall
    change (w'.getShipment id = c.world.getShipment id ∧ transfersOf w'.trace = []) ↔ _
    obtain ⟨s, hs⟩ := hact.exists_record hlen
    rw [hs]
    cases call with
    | appendNoteHash => exact iff_of_true (he.nothing hsound rfl rfl hs) not_false
    | addShipmentDependency => exact iff_of_true (he.nothing hsound rfl rfl hs) not_false
    | raiseDispute b i hash =>
      cases hlen
      refine iff_of_false ?_ (fun h => h rfl)
      rintro ⟨hrec, -⟩
      obtain ⟨p, hp⟩ := he.exists_posting rfl
      obtain ⟨rfl, hnew⟩ := hp.record_of_target rfl hs
      cases hp.rule with
      | raiseDispute _ _ _ hne =>
        rw [hnew] at hrec
        exact hne (congrArg Shipment.status (Option.some.inj hrec)).symm
      | forceRelease hexec => cases hexec
      | forceRefund hexec => cases hexec
    | addDisputeEvidenceHash b i hash =>
      cases hlen
      obtain ⟨p, hp⟩ := he.exists_posting rfl
      obtain ⟨rfl, hnew⟩ := hp.record_of_target rfl hs
      cases hp.rule with
      | @addDisputeEvidenceHash _ s _ _ _ =>
        rw [hnew, hp.transfersOf_eq, Option.some_inj, Shipment.bumpNonce_eq_self]
        constructor
        · rintro ⟨hmax, -⟩ ⟨-, t, ht, hne⟩
          obtain rfl : t = s := Option.some.inj (ht.symm.trans hs)
          exact hne hmax
        · intro hn
          refine ⟨?_, rfl⟩
          by_contra hne
          exact hn ⟨rfl, s, hs, hne⟩
      | forceRelease hexec => cases hexec
      | forceRefund hexec => cases hexec
    | _ => exact hlen.elim

/-- A suspended carrier notes something beside the shipment. -/
theorem suspension_effective_note : ∃ (c c' : Chain Deployment.host) (call : Call) (env : Env)
    (trace : List Effect), Reachable c ∧ Step c (.committed call env trace) c' ∧
      signersOf trace = [Deployment.carrier] ∧
      c.world.ActsSuspended call Deployment.carrier 1 ∧ ¬c.world.Heeded 1 call ∧
      c'.world.getShipment 1 = c.world.getShipment 1 ∧ transfersOf trace = [] := by
  obtain ⟨ls, c, trace, c', hr, hstep, hsig, hs, hsus⟩ := exists_commit Deployment.chain
    (Deployment.opening ++ [
      Deployment.signed Deployment.admin 5 (.suspendCarrier Deployment.admin Deployment.carrier)])
    (.appendNoteHash Deployment.carrier 1 2)
    ⟨6, 6, fun a => a = Deployment.carrier, fun _ => true⟩
    (fun r trace _ => signersOf trace = [Deployment.carrier] ∧
      r.2.world.getShipment 1 = some (Shipment.new 1 Deployment.company Deployment.shipment 4) ∧
      r.2.world.isCarrierSuspended Deployment.carrier = true)
    (by decide +kernel)
  have hc : Reachable c := ⟨_, ls, Deployment.deployed, hr⟩
  have hact : c.world.ActsSuspended (.appendNoteHash Deployment.carrier 1 2) Deployment.carrier 1 :=
    .carrier rfl hs rfl fun h => Bool.false_ne_true (h.1.symm.trans hsus)
  exact ⟨c, c', _, _, trace, hc, hstep, hsig, hact, not_false,
    (suspension_effective_iff hc hstep hsig hact).mpr not_false⟩

/-- A suspended carrier raises a dispute: the shipment leaves its lifecycle. -/
theorem raiseDispute_while_suspended :
    ¬∀ (c c' : Chain Deployment.host) (call : Call) (env : Env) (trace : List Effect) (id : ℕ)
      (s : Shipment) (a : Address), Reachable c → Step c (.committed call env trace) c' →
      signersOf trace = [a] → c.world.ActsSuspended call a id → c.world.getShipment id = some s →
      c.world.ledger.admin ≠ some a → c.world.hasRole a .guardian = false → a ≠ s.receiver →
      c'.world.getShipment id = c.world.getShipment id ∧ transfersOf trace = [] := by
  intro hall
  obtain ⟨ls, c, trace, c', hr, hstep, hsig, hs, hsus, hadm, hg, hne⟩ := exists_commit Deployment.chain
    (Deployment.opening ++ [
      Deployment.signed Deployment.admin 5 (.suspendCarrier Deployment.admin Deployment.carrier)])
    (.raiseDispute Deployment.carrier 1 2)
    ⟨6, 6, fun a => a = Deployment.carrier, fun _ => true⟩
    (fun r trace c' => signersOf trace = [Deployment.carrier] ∧
      r.2.world.getShipment 1 = some (Shipment.new 1 Deployment.company Deployment.shipment 4) ∧
      r.2.world.isCarrierSuspended Deployment.carrier = true ∧
      r.2.world.ledger.admin = some Deployment.admin ∧
      r.2.world.hasRole Deployment.carrier .guardian = false ∧
      c'.world.getShipment 1 ≠ r.2.world.getShipment 1)
    (by decide +kernel)
  have hact : c.world.ActsSuspended (.raiseDispute Deployment.carrier 1 2) Deployment.carrier 1 :=
    .carrier rfl hs rfl fun h => Bool.false_ne_true (h.1.symm.trans hsus)
  exact hne (hall c c' _ _ trace 1 _ _ ⟨_, ls, Deployment.deployed, hr⟩ hstep hsig hact hs
    (by rw [hadm]; decide) hg (by decide)).1

end Navin
