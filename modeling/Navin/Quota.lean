/-
# The creation quota

A company may create `creation_quota_max` shipments in a window of
`creation_quota_window_seconds`. The tracker of a company holds a count and the start of
its window, and the window starts again with the first creation after it ran out. So the
windows do not slide: a company that creates at the end of one window and at the start of
the next creates twice its quota in a short time.

The quota is set by two calls, and only one of them asks for a window. Neither looks at
the end of the window, which a creation computes.

Key definitions:
- `Call.creation?`, `Label.creations`: who creates, and when;
- `World.overlooked`: the shipments that are forgotten and less than a window old;
- `Label.LeavesRoom`: a creation leaves room for them;
- `World.QuotaUsable`, `QuotaFits`: the quota works, and what it takes.

Key theorems:
- `quotas_exec`, `quotas_created`: what one call does to the trackers;
- `creation_quota_sliding`: creations in whole runs;
- `quota_usable`: the quota that is set, in whole runs.
-/
import Navin.Lib.Windows
import Navin.Creation
import Navin.Settings
import Navin.Token

namespace Navin

open Tx

set_option synthInstance.maxSize 4000

variable {H : Host} {env : Env} {w w' v : World H} {call : Call} {a : Address} {n : ℕ}

/-! ### Trackers -/

/-- The trackers of the companies. -/
def World.quotas (w : World H) : Address → Option CreationQuotaTracker := w.registry.companyCreationQuota

section

instance : LedgerFree (World.quotas (H := H)) := ⟨fun _ _ => rfl⟩

instance : PermitsFree (World.quotas (H := H)) := ⟨fun _ _ _ h => h⟩

instance : CountsFree (World.quotas (H := H)) := ⟨fun _ _ _ h => h⟩

instance : DossierFree (World.quotas (H := H)) := ⟨fun _ _ => rfl⟩

instance : GovernanceFree (World.quotas (H := H)) := ⟨fun _ _ => rfl⟩

instance : AuthFree (World.quotas (H := H)) := ⟨fun _ _ => rfl⟩

instance : PlainFree (World.quotas (H := H)) := ⟨fun _ _ _ => rfl⟩

instance : PaymentFree (World.quotas (H := H)) := ⟨fun _ _ _ => rfl⟩

end

/-- Who creates how many shipments. -/
def Call.creation? : Call → Option (Address × ℕ)
  | .createShipment sender _ => some (sender, 1)
  | .createShipmentsBatch sender inputs => some (sender, inputs.length)
  | _ => none

/-- A call that creates nothing leaves the trackers. -/
theorem quotas_exec (hc : call.creation? = none) :
    wp call.exec env w fun _ w' => w'.quotas = w.quotas := by
  have keep : ∀ {m : Contract H Unit} [Preserves World.quotas m],
      wp m env w fun _ w' => w'.quotas = w.quotas :=
    Preserves.wp World.quotas fun _ _ h => h
  cases call with
  | createShipment => cases hc
  | createShipmentsBatch => cases hc
  | _ =>
    unfold Call.exec
    exact keep

/-- The quota is taken from the registry under the configuration. -/
theorem World.quotas_reserved_congr (hr : v.registry = w.registry) (hc : v.getConfig = w.getConfig)
    (now : ℕ) : (v.reserved a now n).quotas = (w.reserved a now n).quotas := by
  unfold World.quotas World.reserved World.quotaTracker
  rw [hr, hc]
  split
  · exact congrArg Registry.companyCreationQuota hr
  · rfl

theorem World.quotas_enrolAll {now : ℕ} {inputs : List ShipmentInput} :
    (w.enrolAll a now inputs).quotas = w.quotas := by
  induction inputs generalizing w with
  | nil => rfl
  | cons input inputs ih => exact ih

/-- A creation finds quota and takes it. -/
theorem quotas_created (hc : call.creation? = some (a, n)) (hx : call.exec env w = .ok () w') :
    w.HasQuota a env.timestamp n ∧ w'.quotas = (w.reserved a env.timestamp n).quotas := by
  cases call with
  | createShipment sender input =>
    obtain ⟨rfl, rfl⟩ := Prod.mk.inj (Option.some.inj hc)
    obtain ⟨id, hx⟩ := returns_discard.mp hx
    obtain ⟨-, -, -, -, -, hq, -, -, rfl⟩ := returns_createShipment.mp hx
    refine ⟨hq, ?_⟩
    let v := (w.signed sender).openWindow env (H.sha256 (creationPayload sender input))
    have hr : v.registry = w.registry := rfl
    have hcfg : v.getConfig = w.getConfig := rfl
    exact World.quotas_reserved_congr hr hcfg _
  | createShipmentsBatch sender inputs =>
    obtain ⟨rfl, rfl⟩ := Prod.mk.inj (Option.some.inj hc)
    obtain ⟨ids, hx⟩ := returns_discard.mp hx
    obtain ⟨-, -, -, hq, -, -, -, rfl⟩ := returns_createShipmentsBatch.mp hx
    refine ⟨hq, ?_⟩
    rw [World.quotas_enrolAll]
    have hr : (w.signed sender).registry = w.registry := rfl
    have hcfg : (w.signed sender).getConfig = w.getConfig := rfl
    exact World.quotas_reserved_congr hr hcfg _
  | _ => cases hc

/-! ### Times of creation -/

/-- When the company created its shipments with an id beyond `k`. -/
def World.creationTimes (w : World H) (k : ℕ) (company : Address) : List ℕ :=
  (List.range' (k + 1) (w.ledger.shipmentCount - k)).filterMap fun id =>
    (w.getShipment id).bind fun s => if s.sender = company then some s.createdAt else none

/-- When a company created its shipments. -/
def creationsBy (company : Address) (xs : List (Address × ℕ)) : List ℕ :=
  (xs.filter fun x => x.1 = company).map (·.2)

theorem creationsBy_append (xs ys : List (Address × ℕ)) :
    creationsBy a (xs ++ ys) = creationsBy a xs ++ creationsBy a ys := by
  unfold creationsBy
  rw [List.filter_append, List.map_append]

theorem creationsBy_replicate (b : Address) (now : ℕ) : creationsBy a (List.replicate n (b, now)) =
    if b = a then List.replicate n now else [] := by
  unfold creationsBy
  by_cases h : b = a
  · rw [if_pos h, List.filter_replicate_of_pos (by simpa using h), List.map_replicate]
  · rw [if_neg h, List.filter_replicate_of_neg (by simpa using h), List.map_nil]

variable {k : ℕ} {sender : Address} {now : ℕ}

theorem World.creationTimes_congr (h : v.ledger = w.ledger) : v.creationTimes k a = w.creationTimes k a := by
  have hget : v.getShipment = w.getShipment := congrArg Ledger.getShipment h
  unfold World.creationTimes
  rw [h, hget]

/-- A new shipment comes last. -/
theorem World.creationTimes_enrol (hk : k ≤ w.ledger.shipmentCount) (input : ShipmentInput) :
    (w.enrol sender now input).creationTimes k a =
      w.creationTimes k a ++ creationsBy a [(sender, now)] := by
  have hcount : (w.enrol sender now input).ledger.shipmentCount = w.ledger.shipmentCount + 1 := rfl
  have hlast : k + 1 + 1 * (w.ledger.shipmentCount - k) = w.ledger.shipmentCount + 1 := by omega
  have hold : ∀ id ∈ List.range' (k + 1) (w.ledger.shipmentCount - k),
      (w.enrol sender now input).getShipment id = w.getShipment id := fun id hid => by
    have hid := (List.mem_range'_1.mp hid).2
    rw [World.getShipment_enrol, if_neg (by omega)]
  unfold World.creationTimes
  rw [hcount, Nat.sub_add_comm hk, List.range'_concat, List.filterMap_append, hlast]
  congr 1
  · exact List.filterMap_congr fun id hid => by rw [hold id hid]
  · rw [List.filterMap_cons, World.getShipment_enrol, if_pos rfl]
    unfold creationsBy
    by_cases h : sender = a
    · simp [Shipment.new, h]
    · simp [Shipment.new, h]

theorem World.creationTimes_enrolAll (hk : k ≤ w.ledger.shipmentCount) (inputs : List ShipmentInput) :
    (w.enrolAll sender now inputs).creationTimes k a =
      w.creationTimes k a ++ creationsBy a (List.replicate inputs.length (sender, now)) := by
  induction inputs generalizing w with
  | nil => exact (List.append_nil _).symm
  | cons input inputs ih =>
    have hcons : w.enrolAll sender now (input :: inputs) =
        (w.enrol sender now input).enrolAll sender now inputs := rfl
    have hk' : k ≤ (w.enrol sender now input).ledger.shipmentCount := Nat.le_succ_of_le hk
    rw [hcons, ih hk', World.creationTimes_enrol hk, List.append_assoc, ← creationsBy_append]
    rfl

/-- A creation adds its shipments. -/
theorem creationTimes_created (hc : call.creation? = some (sender, n)) (hx : call.exec env w = .ok () w')
    (hk : k ≤ w.ledger.shipmentCount) :
    k ≤ w'.ledger.shipmentCount ∧ ∀ a, w'.creationTimes k a =
      w.creationTimes k a ++ creationsBy a (List.replicate n (sender, env.timestamp)) := by
  cases call with
  | createShipment sender input =>
    obtain ⟨rfl, rfl⟩ := Prod.mk.inj (Option.some.inj hc)
    obtain ⟨id, hx⟩ := returns_discard.mp hx
    obtain ⟨-, -, -, -, -, -, -, -, rfl⟩ := returns_createShipment.mp hx
    let v := ((w.signed sender).openWindow env (H.sha256 (creationPayload sender input))).reserved
      sender env.timestamp 1
    have hv : v.ledger = w.ledger := World.reserved_ledger ..
    have hk' : k ≤ v.ledger.shipmentCount := by rw [hv]; exact hk
    exact ⟨Nat.le_succ_of_le hk', fun a => (World.creationTimes_enrol hk' input).trans
      (congrArg (· ++ _) (World.creationTimes_congr hv))⟩
  | createShipmentsBatch sender inputs =>
    obtain ⟨rfl, rfl⟩ := Prod.mk.inj (Option.some.inj hc)
    obtain ⟨ids, hx⟩ := returns_discard.mp hx
    obtain ⟨-, -, -, -, -, -, -, rfl⟩ := returns_createShipmentsBatch.mp hx
    let v := (w.signed sender).reserved sender env.timestamp inputs.length
    have hv : v.ledger = w.ledger := World.reserved_ledger ..
    have hk' : k ≤ v.ledger.shipmentCount := by rw [hv]; exact hk
    refine ⟨?_, fun a => (World.creationTimes_enrolAll hk' inputs).trans
      (congrArg (· ++ _) (World.creationTimes_congr hv))⟩
    rw [shipmentCount_enrolAll]
    exact Nat.le_add_right_of_le hk'
  | _ => cases hc

/-- Other calls keep the times. -/
theorem creationTimes_exec (hs : w.ledger.Sound) (hzero : w.ledger.admin = none → w.ledger.shipmentCount = 0)
    (hc : call.creation? = none) (hx : call.exec env w = .ok () w') :
    w'.ledger.shipmentCount = w.ledger.shipmentCount ∧
      ∀ a, w'.creationTimes k a = w.creationTimes k a := by
  have hc : call.creates = false := by
    cases call <;> first | rfl | cases hc
  have hcount := shipmentCount_kept hs hzero hc hx
  refine ⟨hcount, fun a => ?_⟩
  unfold World.creationTimes
  rw [hcount]
  refine List.filterMap_congr fun id _ => ?_
  obtain ⟨p, hp⟩ | hsame := posted_or_same hs.keyed hc hx
  · have hget : w'.getShipment id = _ := hp.getShipment id
    rw [hget]
    split
    · next hid =>
      have hold : w.getShipment p.old.id = some p.old := hp.stored
      rw [hid, hold, Option.bind_some, Option.bind_some, hp.rule.keeps.sender_eq, hp.rule.keeps.createdAt_eq]
    · rfl
  · rw [hsame]

/-! ### Runs -/

variable {c c' c₀ : Chain H} {l : Label} {ls : List Label} {xs : List (Address × ℕ)} {M W : ℕ}

/-- The quota in force. -/
def World.QuotaIs (w : World H) (M W : ℕ) : Prop :=
  w.getConfig.creationQuotaMax = M ∧ w.getConfig.creationQuotaWindowSeconds = W

instance (w : World H) (M W : ℕ) : Decidable (w.QuotaIs M W) := inferInstanceAs (Decidable (_ ∧ _))

/-- How many of the company's shipments beyond `k` its tracker has forgotten, less than a
window after they were created. -/
def World.overlooked (w : World H) (k : ℕ) (company : Address) (now : ℕ) : ℕ :=
  forgotten w.getConfig.creationQuotaWindowSeconds (w.quotaTracker company now).windowStart now
    (w.creationTimes k company)

/-- A creation leaves room in the quota for the company's shipments beyond `k` that its
tracker has forgotten too early. -/
def Label.LeavesRoom (k : ℕ) (c : Chain H) : Label → Prop
  | .committed call env _ => ∀ x ∈ call.creation?, x.2 ≠ 0 →
      c.world.overlooked k x.1 env.timestamp ≠ 0 →
        c.world.overlooked k x.1 env.timestamp + (c.world.quotaTracker x.1 env.timestamp).count + x.2 ≤
          c.world.getConfig.creationQuotaMax
  | _ => True

instance (k : ℕ) (c : Chain H) (l : Label) : Decidable (l.LeavesRoom k c) :=
  match l with
  | .committed .. => inferInstanceAs (Decidable (∀ x ∈ _, _))
  | .reverted .. => .isTrue trivial
  | .outside => .isTrue trivial

/-- The shipments a step creates: by whom, and when. -/
def Label.creations : Label → List (Address × ℕ)
  | .committed call env _ =>
    call.creation?.elim [] fun (a, n) => List.replicate n (a, env.timestamp)
  | _ => []

/-- No window starts in the future. -/
def Chain.Started (c : Chain H) : Prop := ∀ a t, c.world.quotas a = some t → t.windowStart ≤ c.now

theorem World.windowStart_reserved {now now' : ℕ} (h : ∀ a t, w.quotas a = some t → t.windowStart ≤ now)
    (hnow : now ≤ now') {b : Address} {t : CreationQuotaTracker}
    (ht : (w.reserved a now' n).quotas b = some t) : t.windowStart ≤ now' := by
  unfold World.reserved World.quotas at ht
  split at ht
  · exact (h b t ht).trans hnow
  · have ht : Function.update w.quotas a (some ⟨(w.quotaTracker a now').count + n,
        (w.quotaTracker a now').windowStart⟩) b = some t := ht
    rw [Function.update_apply] at ht
    split at ht
    · rw [← Option.some.inj ht]
      unfold World.quotaTracker
      dsimp only
      split
      · exact le_rfl
      · cases hq : w.registry.companyCreationQuota a with
        | none => exact le_rfl
        | some t' => exact (h a t' hq).trans hnow
    · exact (h b t ht).trans hnow

theorem Step.started (hstep : Step c l c') (h : c.Started) : c'.Started := by
  cases hstep with
  | @committed call env w' hadm hx =>
    intro b t ht
    have ht : w'.quotas b = some t := ht
    cases hc : call.creation? with
    | none =>
      have hsame : w'.quotas = c.world.fresh.quotas := quotas_exec hc () w' hx
      rw [hsame] at ht
      exact (h b t ht).trans hadm.time
    | some x =>
      have hq := (quotas_created (a := x.1) (n := x.2) hc hx).2
      rw [hq] at ht
      have h : ∀ a t, c.world.fresh.quotas a = some t → t.windowStart ≤ c.now := h
      exact World.windowStart_reserved h hadm.time ht
  | reverted hadm => exact fun b t ht => (h b t ht).trans hadm.time
  | outside hnow => exact fun b t ht => (h b t ht).trans hnow

theorem Reachable.started (hc : Reachable c) : c.Started :=
  hc.inv (I := Chain.Started) (fun _ _ _ _ ht => by cases ht) fun _ _ _ _ h hstep => hstep.started h

/-- There are no shipments before the set-up. -/
theorem Reachable.shipmentCount_eq_zero (hc : Reachable c) (h : c.world.ledger.admin = none) :
    c.world.ledger.shipmentCount = 0 := by
  refine hc.inv (I := fun c => c.world.ledger.admin = none → c.world.ledger.shipmentCount = 0)
    (fun _ _ _ => rfl) (fun c l c' hc ih hstep hnone => ?_) h
  cases hstep with
  | @committed call env w' _ hx =>
    have he : Effects env c.world.fresh call w'.book := exec_effects hc.sound.keyed hx
    have hadm : c.world.fresh.ledger.admin = none := he.admin_none hnone
    have hzero : c.world.fresh.ledger.shipmentCount = 0 := ih hadm
    exact (he.shipmentCount_eq hzero hadm).trans hzero
  | reverted => exact ih hnone
  | outside => exact ih hnone

/-- The creations `xs` of a run, against the trackers and the records beyond `k`. -/
structure Chain.Metered (c : Chain H) (k M W : ℕ) (xs : List (Address × ℕ)) : Prop where
  reachable : Reachable c
  since : k ≤ c.world.ledger.shipmentCount
  unset : ∀ a, c.world.quotas a = none → creationsBy a xs = []
  spaced : ∀ a t, c.world.quotas a = some t → Spaced M W t.windowStart t.count (creationsBy a xs)
  recorded : ∀ a, c.world.creationTimes k a = creationsBy a xs

/-- The tracker of a company after `n` creations fits its creations, those included. -/
theorem Chain.Metered.admitted (h : c.Metered k M W xs) (hM : 0 < M) (hW : 0 < W)
    (hq : c.world.QuotaIs M W) (hn : n ≠ 0) (hroom : c.world.HasQuota a now n)
    (hleaves : c.world.overlooked k a now ≠ 0 →
      c.world.overlooked k a now + (c.world.quotaTracker a now).count + n ≤ M) :
    Spaced M W (c.world.quotaTracker a now).windowStart ((c.world.quotaTracker a now).count + n)
      (creationsBy a xs ++ List.replicate n now) := by
  have hcounted : (c.world.quotaTracker a now).count + n ≤ M := by
    rcases hroom with hoff | hnone | ⟨-, -, hroom⟩
    · rw [hq.1] at hoff
      omega
    · exact absurd hnone hn
    · rwa [hq.1] at hroom
  -- the window is open, and the tracker stands at its start
  have hopen : now < (c.world.quotaTracker a now).windowStart + W ∧
      Spaced M W (c.world.quotaTracker a now).windowStart (c.world.quotaTracker a now).count
        (creationsBy a xs) := by
    unfold World.quotaTracker
    rw [hq.2]
    cases hg : c.world.quotas a with
    | none =>
      have hg' : c.world.registry.companyCreationQuota a = none := hg
      rw [hg', Option.getD_none, if_neg (by dsimp only; omega), h.unset a hg]
      exact ⟨Nat.lt_add_of_pos_right hW, .nil M W now 0⟩
    | some t =>
      have hg' : c.world.registry.companyCreationQuota a = some t := hg
      rw [hg', Option.getD_some]
      by_cases hover : t.windowStart + W ≤ now
      · rw [if_pos hover]
        exact ⟨Nat.lt_add_of_pos_right hW, (h.spaced a t hg).restart hover⟩
      · rw [if_neg hover]
        exact ⟨Nat.lt_of_not_le hover, h.spaced a t hg⟩
  refine hopen.2.letIn hopen.1 ?_
  have hforgotten : forgotten W (c.world.quotaTracker a now).windowStart now (creationsBy a xs) =
      c.world.overlooked k a now := by
    unfold World.overlooked
    rw [hq.2, h.recorded a]
  rw [hforgotten]
  by_cases hnone : c.world.overlooked k a now = 0
  · omega
  · exact hleaves hnone

/-- Nothing was created. -/
theorem Chain.Metered.kept (h : c.Metered k M W xs) (hreach : Reachable c')
    (hquotas : c'.world.quotas = c.world.quotas) (hcount : k ≤ c'.world.ledger.shipmentCount)
    (htimes : ∀ a, c'.world.creationTimes k a = c.world.creationTimes k a) : c'.Metered k M W xs where
  reachable := hreach
  since := hcount
  unset b hb := h.unset b (hquotas ▸ hb)
  spaced b t ht := h.spaced b t (hquotas ▸ ht)
  recorded b := (htimes b).trans (h.recorded b)

/-- The creations of one call. -/
theorem Chain.Metered.created (h : c.Metered k M W xs) (hM : 0 < M) (hW : 0 < W)
    (hq : c.world.QuotaIs M W) {trace : List Effect}
    (hstep : Step c (.committed call env trace) c') (hc : call.creation? = some (a, n)) (hn : n ≠ 0)
    (hleaves : (Label.committed call env trace).LeavesRoom k c) :
    c'.Metered k M W (xs ++ List.replicate n (a, env.timestamp)) := by
  have hreach := h.reachable.step hstep
  cases hstep with
  | @committed _ _ w' _ hx =>
    obtain ⟨hroom, hquotas⟩ := quotas_created hc hx
    have hroom : c.world.HasQuota a env.timestamp n := hroom
    have hon : ¬(c.world.getConfig.creationQuotaMax = 0 ∨ n = 0) := by
      rw [hq.1]
      omega
    have hquotas : w'.quotas = Function.update c.world.quotas a
        (some ⟨(c.world.quotaTracker a env.timestamp).count + n,
          (c.world.quotaTracker a env.timestamp).windowStart⟩) := by
      rw [hquotas]
      unfold World.reserved World.quotas
      rw [if_neg (by exact hon)]
      rfl
    have hspaced := h.admitted hM hW hq hn hroom fun hover => (hleaves _ hc hn hover).trans_eq hq.1
    obtain ⟨hcount, htimes⟩ := creationTimes_created (w := c.world.fresh) hc hx h.since
    refine ⟨hreach, hcount, fun b hb => ?_, fun b t ht => ?_, fun b => ?_⟩
    · have hb : w'.quotas b = none := hb
      rw [hquotas, Function.update_apply] at hb
      split at hb
      · cases hb
      · next hne =>
        rw [creationsBy_append, creationsBy_replicate, if_neg (Ne.symm hne), h.unset b hb]
        rfl
    · have ht : w'.quotas b = some t := ht
      rw [creationsBy_append, creationsBy_replicate]
      rw [hquotas, Function.update_apply] at ht
      split at ht
      · next heq =>
        obtain rfl := Option.some.inj ht
        rw [if_pos heq.symm, heq]
        exact hspaced
      · next hne =>
        rw [if_neg (Ne.symm hne), List.append_nil]
        exact h.spaced b t ht
    · rw [creationsBy_append, ← h.recorded b]
      exact htimes b

/-- A step that leaves room. -/
theorem Chain.Metered.step (h : c.Metered k M W xs) (hM : 0 < M) (hW : 0 < W)
    (hq : c.world.QuotaIs M W) (hstep : Step c l c') (hleaves : l.LeavesRoom k c) :
    c'.Metered k M W (xs ++ l.creations) := by
  have hreach := h.reachable.step hstep
  cases l with
  | committed call env trace =>
    cases hc : call.creation? with
    | none =>
      have hnil : (Label.committed call env trace).creations = [] := by
        simp [Label.creations, hc]
      rw [hnil, List.append_nil]
      cases hstep with
      | @committed _ _ w' _ hx =>
        have hsame : w'.quotas = c.world.fresh.quotas := quotas_exec hc () w' hx
        obtain ⟨hcount, htimes⟩ := creationTimes_exec (w := c.world.fresh) (k := k) h.reachable.sound
          h.reachable.shipmentCount_eq_zero hc hx
        exact h.kept hreach hsame (h.since.trans_eq hcount.symm) htimes
    | some x =>
      have hnew : (Label.committed call env trace).creations =
          List.replicate x.2 (x.1, env.timestamp) := by
        simp [Label.creations, hc]
      rw [hnew]
      by_cases hn : x.2 = 0
      · -- an empty batch
        rw [hn, List.replicate_zero, List.append_nil]
        cases hstep with
        | @committed _ _ w' _ hx =>
          have hsame : w'.quotas = c.world.fresh.quotas := by
            rw [(quotas_created (a := x.1) (n := x.2) hc hx).2, hn]
            unfold World.reserved
            rw [if_pos (.inr rfl)]
          obtain ⟨hcount, htimes⟩ := creationTimes_created (w := c.world.fresh) hc hx h.since
          rw [hn, List.replicate_zero] at htimes
          exact h.kept hreach hsame hcount fun b => (htimes b).trans (List.append_nil _)
      · exact h.created hM hW hq hstep hc hn hleaves
  | reverted call env =>
    have hnil : xs ++ (Label.reverted call env).creations = xs := List.append_nil xs
    rw [hnil]
    cases hstep
    exact h.kept hreach rfl h.since fun _ => rfl
  | outside =>
    have hnil : xs ++ Label.outside.creations = xs := List.append_nil xs
    rw [hnil]
    cases hstep
    exact h.kept hreach rfl h.since fun _ => rfl

/-- While the quota is `M` creations in `W` seconds and creations leave room for those the
trackers have forgotten too early, a company creates at most `M` shipments in any span of
`W` seconds. -/
theorem creation_quota_sliding (hc₀ : Reachable c₀) (hM : 0 < M) (hW : 0 < W)
    (hr : Run (Under Step fun c l => c.world.QuotaIs M W ∧
      l.LeavesRoom c₀.world.ledger.shipmentCount c) c₀ ls c) (company : Address) (t : ℕ) :
    inSpan W t (creationsBy company (ls.flatMap Label.creations)) ≤ M := by
  have hmet : c.Metered c₀.world.ledger.shipmentCount M W (ls.flatMap Label.creations) := by
    refine hr.inv_hist (I := fun ks x => x.Metered c₀.world.ledger.shipmentCount M W
      (ks.flatMap Label.creations)) ?_ ?_
    · refine ⟨hc₀, le_rfl, fun _ _ => rfl, fun _ _ _ => .nil .., fun _ => ?_⟩
      unfold World.creationTimes
      rw [Nat.sub_self]
      rfl
    · rintro ks x l y - h ⟨hstep, hq, hleaves⟩
      rw [List.flatMap_append, List.flatMap_singleton]
      exact h.step hM hW hq hstep hleaves
  cases hq : c.world.quotas company with
  | none =>
    rw [hmet.unset company hq]
    exact Nat.zero_le _
  | some tr => exact (hmet.spaced company tr hq).bounded t

/-- Two shipments in one window, and one more in the next, which forgets the second. -/
theorem creation_quota_spaced : ∃ (c₀ c : Chain Deployment.host) (ls : List Label), Reachable c₀ ∧
    Run Step c₀ ls c ∧ creationsBy Deployment.company (ls.flatMap Label.creations) = [10, 109, 110] ∧
    ∀ t, inSpan 100 t (creationsBy Deployment.company (ls.flatMap Label.creations)) ≤ 2 := by
  obtain ⟨ls₀, c₀, ls, c, hr₀, hr, htimes⟩ := exists_play_under Deployment.chain
    (Deployment.opening ++ [
      Deployment.signed Deployment.admin 5 (.setCreationQuota Deployment.admin 2 100)])
    [Deployment.signed Deployment.company 10 (.createShipment Deployment.company
        { Deployment.shipment with dataHash := 2 }),
      Deployment.signed Deployment.company 109 (.createShipmentsBatch Deployment.company
        [{ Deployment.shipment with dataHash := 3 }]),
      Deployment.signed Deployment.company 110 (.createShipment Deployment.company
        { Deployment.shipment with dataHash := 4 })]
    (fun c₀ c l => c.world.QuotaIs 2 100 ∧ l.LeavesRoom c₀.world.ledger.shipmentCount c)
    (fun q => creationsBy Deployment.company (q.1.flatMap Label.creations) = [10, 109, 110])
    (by decide +kernel)
  have hc₀ : Reachable c₀ := ⟨_, ls₀, Deployment.deployed, hr₀⟩
  exact ⟨c₀, c, ls, hc₀, hr.of_under, htimes,
    creation_quota_sliding hc₀ (by decide) (by decide) hr Deployment.company⟩

/-- One shipment at the end of a window and two at the start of the next. -/
theorem creation_quota_tumbles :
    ¬∀ (c₀ c : Chain Deployment.host) (ls : List Label) (M W : ℕ), Reachable c₀ → 0 < M → 0 < W →
      Run (Under Step fun c _ => c.world.QuotaIs M W) c₀ ls c → ∀ company t,
        inSpan W t (creationsBy company (ls.flatMap Label.creations)) ≤ M := by
  intro hall
  obtain ⟨ls₀, c₀, ls, c, hr₀, hr, hmany⟩ := exists_play_under Deployment.chain
    (Deployment.opening ++ [
      Deployment.signed Deployment.admin 5 (.setCreationQuota Deployment.admin 2 100)])
    [Deployment.signed Deployment.company 10 (.createShipment Deployment.company
        { Deployment.shipment with dataHash := 2 }),
      Deployment.signed Deployment.company 109 (.createShipment Deployment.company
        { Deployment.shipment with dataHash := 3 }),
      Deployment.signed Deployment.company 110 (.createShipmentsBatch Deployment.company
        [{ Deployment.shipment with dataHash := 4 }, { Deployment.shipment with dataHash := 5 }])]
    (fun _ c _ => c.world.QuotaIs 2 100)
    (fun q => 2 < inSpan 100 109 (creationsBy Deployment.company (q.1.flatMap Label.creations)))
    (by decide +kernel)
  have hle := hall c₀ c ls 2 100 ⟨_, ls₀, Deployment.deployed, hr₀⟩ (by decide) (by decide) hr
    Deployment.company 109
  exact Nat.not_lt.mpr hle hmany

/-! ### The quota that is set -/

section

variable {T requested : ℕ} {company : Address}

/-- A quota of `M` in `W` seconds is off, or its windows have a length and end in time
when they start by `T`. -/
def QuotaFits (T M W : ℕ) : Prop := M = 0 ∨ 0 < W ∧ T + W ≤ u64Max

instance (T M W : ℕ) : Decidable (QuotaFits T M W) := inferInstanceAs (Decidable (_ ∨ _ ∧ _))

/-- At every time up to `T`, a quota that is on has a window, and neither a creation nor
the view traps on the end of the window. -/
structure World.QuotaUsable (w : World H) (T : ℕ) : Prop where
  window : 0 < w.getConfig.creationQuotaMax → 0 < w.getConfig.creationQuotaWindowSeconds
  check : ∀ env company requested, env.timestamp ≤ T →
    ¬(checkAndUpdateCreationQuotaBy company requested).Traps env w
  status : ∀ env company, env.timestamp ≤ T → ¬(getCreationQuotaStatus company).Traps env w

theorem checkedAddU64_eq_none {x y : ℕ} : checkedAddU64 x y = none ↔ u64Max < x + y := by
  unfold checkedAddU64
  split <;> simp <;> omega

theorem traps_timestamp_bind {β : Type} {k : ℕ → Contract H β} :
    (timestamp >>= k).Traps env w ↔ (k env.timestamp).Traps env w := Iff.rfl

theorem traps_checkAndUpdateCreationQuotaBy :
    (checkAndUpdateCreationQuotaBy company requested).Traps env w ↔
      w.getConfig.creationQuotaMax ≠ 0 ∧ requested ≠ 0 ∧
        u64Max < ((w.quotas company).getD ⟨0, env.timestamp⟩).windowStart +
          w.getConfig.creationQuotaWindowSeconds := by
  unfold checkAndUpdateCreationQuotaBy storageSetCreationQuota modifyRegistry when
  rw [traps_gets_bind]
  split
  · next hon =>
    have hon : w.getConfig.creationQuotaMax ≠ 0 ∧ requested ≠ 0 := not_or.mp hon
    rw [traps_timestamp_bind, traps_gets_bind, traps_bind, traps_unwrap, checkedAddU64_eq_none]
    simp only [traps_bind, not_traps_okOr, not_traps_rejectIf, not_traps_modify, and_false,
      exists_false, or_false, ne_eq, hon.1, hon.2, not_false_eq_true, true_and]
    rfl
  · next hoff =>
    have hoff : w.getConfig.creationQuotaMax = 0 ∨ requested = 0 := not_not.mp hoff
    simp only [not_traps_pure, false_iff]
    rintro ⟨hmax, hreq, -⟩
    exact hoff.elim hmax hreq

theorem tracker_of_traps (h : (getCreationQuotaStatus company).Traps env w) :
    w.getConfig.creationQuotaMax ≠ 0 ∧ ∃ t, w.quotas company = some t ∧
      u64Max < t.windowStart + w.getConfig.creationQuotaWindowSeconds := by
  unfold getCreationQuotaStatus requireInitialized at h
  rw [bind_assoc, traps_gets_bind, traps_bind] at h
  rcases h with h | ⟨_, _, hi, h⟩
  · exact absurd h not_traps_rejectIf
  obtain ⟨-, rfl⟩ := returns_rejectIf.mp hi
  rw [traps_gets_bind] at h
  split at h
  · exact absurd h not_traps_pure
  · next hon =>
    refine ⟨hon, ?_⟩
    rw [traps_timestamp_bind, traps_gets_bind] at h
    split at h
    · exact absurd h not_traps_pure
    · next t ht =>
      refine ⟨t, ht, ?_⟩
      rw [traps_bind, traps_unwrap, checkedAddU64_eq_none] at h
      rcases h with h | ⟨e, w₁, -, h⟩
      · exact h
      · split at h
        · exact absurd h not_traps_pure
        · exact absurd h not_traps_pure

/-- A quota that fits is usable where every window has started. -/
theorem World.QuotaUsable.of_fits (hstarted : ∀ a t, w.quotas a = some t → t.windowStart ≤ T)
    (hfits : QuotaFits T w.getConfig.creationQuotaMax w.getConfig.creationQuotaWindowSeconds) :
    w.QuotaUsable T := by
  have hend : w.getConfig.creationQuotaMax ≠ 0 → 0 < w.getConfig.creationQuotaWindowSeconds ∧
      T + w.getConfig.creationQuotaWindowSeconds ≤ u64Max := fun hmax => hfits.resolve_left hmax
  refine ⟨fun hmax => (hend hmax.ne').1, fun env company requested hnow htrap => ?_,
    fun env company hnow htrap => ?_⟩
  · obtain ⟨hmax, -, hover⟩ := traps_checkAndUpdateCreationQuotaBy.mp htrap
    have hend := (hend hmax).2
    cases hq : w.quotas company with
    | none =>
      rw [hq] at hover
      change u64Max < env.timestamp + _ at hover
      omega
    | some t =>
      rw [hq] at hover
      change u64Max < t.windowStart + _ at hover
      have ht := hstarted company t hq
      omega
  · obtain ⟨hmax, t, hq, hover⟩ := tracker_of_traps htrap
    have hend := (hend hmax).2
    have ht := hstarted company t hq
    omega

/-- A company without a tracker meets a quota that does not fit. -/
theorem World.QuotaUsable.fits (h : w.QuotaUsable T) (hnone : w.quotas company = none) :
    QuotaFits T w.getConfig.creationQuotaMax w.getConfig.creationQuotaWindowSeconds := by
  by_cases hmax : w.getConfig.creationQuotaMax = 0
  · exact .inl hmax
  · refine .inr ⟨h.window (Nat.pos_of_ne_zero hmax), ?_⟩
    by_contra hover
    let env : Env := ⟨T, 0, fun _ => true, fun _ => true⟩
    refine h.check env company 1 le_rfl (traps_checkAndUpdateCreationQuotaBy.mpr ⟨hmax, by decide, ?_⟩)
    rw [hnone]
    change u64Max < T + _
    omega

/-- The quota a call sets. -/
def Call.quotaSet? : Call → Option (ℕ × ℕ)
  | .setCreationQuota _ maxPerWindow windowSeconds => some (maxPerWindow, windowSeconds)
  | .updateConfig _ config => some (config.creationQuotaMax, config.creationQuotaWindowSeconds)
  | _ => none

/-- The quotas a step sets fit. -/
def Label.QuotaFits (T : ℕ) : Label → Prop
  | .committed call _ _ => ∀ q ∈ call.quotaSet?, Navin.QuotaFits T q.1 q.2
  | _ => True

instance (T : ℕ) (l : Label) : Decidable (l.QuotaFits T) :=
  match l with
  | .committed .. => inferInstanceAs (Decidable (∀ q ∈ _, _))
  | .reverted .. => .isTrue trivial
  | .outside => .isTrue trivial

/-- A step that sets a quota that fits leaves one that fits. -/
theorem Step.quotaFits (hstep : Step c l c') (hl : l.QuotaFits T)
    (h : QuotaFits T c.world.getConfig.creationQuotaMax c.world.getConfig.creationQuotaWindowSeconds) :
    QuotaFits T c'.world.getConfig.creationQuotaMax c'.world.getConfig.creationQuotaWindowSeconds := by
  cases hstep with
  | @committed call env w' _ hx =>
    change QuotaFits T w'.getConfig.creationQuotaMax w'.getConfig.creationQuotaWindowSeconds
    rcases getConfig_exec hx with hw | hw | ⟨_, n, seconds, rfl, hw⟩ | ⟨_, config, rfl, hw, -⟩
    · rw [hw]
      exact h
    · rw [hw]
      exact .inl rfl
    · rw [hw]
      exact hl _ rfl
    · rw [hw]
      exact hl _ rfl
  | reverted => exact h
  | outside => exact h

/-- In a run in which every quota that is set fits until `T`, the quota is usable until `T`
in every state. A quota that does not fit is not usable, for a company without a tracker. -/
theorem quota_usable (T : ℕ) :
    (∀ (c₀ c : Chain H) (ls : List Label), Deployed c₀ →
      Run (Under Step fun _ l => l.QuotaFits T) c₀ ls c → c.now ≤ T → c.world.QuotaUsable T) ∧
    ∀ (w : World H) company, w.quotas company = none → w.QuotaUsable T →
      QuotaFits T w.getConfig.creationQuotaMax w.getConfig.creationQuotaWindowSeconds := by
  refine ⟨fun c₀ c ls hd hr hnow => ?_, fun w company hnone h => h.fits hnone⟩
  have hstarted := Reachable.started ⟨c₀, ls, hd, hr.of_under⟩
  refine .of_fits (fun a t ht => (hstarted a t ht).trans hnow) ?_
  refine hr.inv (I := fun c => QuotaFits T c.world.getConfig.creationQuotaMax
    c.world.getConfig.creationQuotaWindowSeconds) ?_ ?_
  · cases hd
    exact .inl rfl
  · rintro a l b h ⟨hstep, hl⟩
    exact hstep.quotaFits hl h

/-- A quota of two in a hundred seconds is usable for the next centuries. -/
theorem quota_usable_two : ∃ (c : Chain Deployment.host) (ls : List Label),
    Run Step Deployment.chain ls c ∧ c.world.getConfig.creationQuotaMax = 2 ∧
      c.world.QuotaUsable 10000000000 := by
  obtain ⟨ls, c, -, hp, hmax, hnow⟩ := exists_play Deployment.chain [
      Deployment.signed Deployment.admin 1
        (.initializeContract Deployment.admin Deployment.tokenContract),
      Deployment.signed Deployment.admin 2 (.setCreationQuota Deployment.admin 2 100)]
    (fun r => r.2.world.getConfig.creationQuotaMax = 2 ∧ r.2.now ≤ 10000000000) (by decide +kernel)
  have hr : Run (Under Step fun _ l => l.QuotaFits 10000000000) Deployment.chain ls c :=
    run_under_of_play hp (by decide +kernel)
  exact ⟨c, ls, hr.of_under, hmax, (quota_usable _).1 _ c ls Deployment.deployed hr hnow⟩

/-- `update_config` stores a quota without a window. -/
theorem quota_without_window :
    ¬∀ (c : Chain Deployment.host) (ls : List Label), Run Step Deployment.chain ls c →
      c.world.QuotaUsable u64Max := by
  intro hall
  obtain ⟨ls, c, hr, -, hmax, hwindow⟩ := exists_play Deployment.chain [
      Deployment.signed Deployment.admin 1
        (.initializeContract Deployment.admin Deployment.tokenContract),
      Deployment.signed Deployment.admin 2 (.updateConfig Deployment.admin
        { ContractConfig.default with creationQuotaMax := 1, creationQuotaWindowSeconds := 0 })]
    (fun r => 0 < r.2.world.getConfig.creationQuotaMax ∧
      r.2.world.getConfig.creationQuotaWindowSeconds = 0) (by decide +kernel)
  have hpos := (hall c ls hr).window hmax
  rw [hwindow] at hpos
  cases hpos

end

end Navin
