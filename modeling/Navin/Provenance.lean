/-
# Where a shipment comes from

Every stored shipment was ordered by its sender, in a creation that the sender signed,
and what was agreed then stays. The carrier is the one of the order until the shipment
is handed over, and each carrier signs when it hands over to the next.

Key definitions:
- `Call.orders`, `Label.Bears`: what a creation orders, and the step that stored a shipment;
- `Label.handoffs`, `Relay`: the hand-offs of a shipment, each signed by who has it.

Key theorems:
- `record_kept`: no step loses a shipment or changes what was agreed;
- `record_traced`: every shipment of every run goes back to a signed order.
-/
import Navin.Parties
import Navin.Recovered

namespace Navin

open Tx

variable {H : Host}

/-- The orders of a creation: the sender and the items. -/
def Call.orders : Call → List (Address × ShipmentInput)
  | .createShipment sender input => [(sender, input)]
  | .createShipmentsBatch sender inputs => inputs.map (sender, ·)
  | _ => []

/-- What was agreed when the shipment was created. -/
structure Shipment.SameTerms (s t : Shipment) : Prop where
  id_eq : t.id = s.id
  sender_eq : t.sender = s.sender
  receiver_eq : t.receiver = s.receiver
  createdAt_eq : t.createdAt = s.createdAt
  deadline_eq : t.deadline = s.deadline
  schedule_eq : t.paymentMilestones = s.paymentMilestones

namespace Shipment.SameTerms

variable {s t u : Shipment}

theorem refl (s : Shipment) : s.SameTerms s := ⟨rfl, rfl, rfl, rfl, rfl, rfl⟩

theorem trans (h : s.SameTerms t) (h' : t.SameTerms u) : s.SameTerms u where
  id_eq := h'.id_eq.trans h.id_eq
  sender_eq := h'.sender_eq.trans h.sender_eq
  receiver_eq := h'.receiver_eq.trans h.receiver_eq
  createdAt_eq := h'.createdAt_eq.trans h.createdAt_eq
  deadline_eq := h'.deadline_eq.trans h.deadline_eq
  schedule_eq := h'.schedule_eq.trans h.schedule_eq

end Shipment.SameTerms

theorem Shipment.Keeps.sameTerms {s t : Shipment} {now : ℕ} (h : s.Keeps t now) : s.SameTerms t :=
  ⟨h.id_eq, h.sender_eq, h.receiver_eq, h.createdAt_eq, h.deadline_eq, h.schedule_eq⟩

/-- The step that stored the shipment: its sender ordered `input`, signed, and the order
passed the checks. -/
inductive Label.Bears (s : Shipment) (input : ShipmentInput) : Label → Prop
  | mk {call : Call} {env : Env} {trace : List Effect} : (s.sender, input) ∈ call.orders →
      env.auth s.sender = true → input.Acceptable env.timestamp →
      (Shipment.new s.id s.sender input env.timestamp).SameTerms s →
      Label.Bears s input (.committed call env trace)

theorem Label.Bears.congr {s t : Shipment} {input : ShipmentInput} {l : Label} (h : l.Bears s input)
    (ht : s.SameTerms t) : l.Bears t input := by
  cases h with
  | mk horder hsigned hok hterms =>
    refine .mk ?_ ?_ hok ?_
    · rwa [ht.sender_eq]
    · rwa [ht.sender_eq]
    · rw [ht.sender_eq, ht.id_eq]
      exact hterms.trans ht

/-- A hand-off: who hands over, to whom, and who signed. -/
structure Handoff where
  giver : Address
  taker : Address
  auth : Address → Bool

/-- The hand-offs of a shipment among what a step commits. -/
def Label.handoffs (id : ℕ) : Label → List Handoff
  | .committed (.handoffShipment a b i _) env _ => if i = id then [⟨a, b, env.auth⟩] else []
  | _ => []

/-- The hand-offs `hs`, in order, lead from the carrier `a` to the carrier `b`; who hands
over has the shipment and signs. -/
inductive Relay (a : Address) : List Handoff → Address → Prop
  | nil : Relay a [] a
  | snoc {hs : List Handoff} {h : Handoff} : Relay a hs h.giver → h.auth h.giver = true →
      Relay a (hs ++ [h]) h.taker

theorem Relay.append {a b c : Address} {hs hs' : List Handoff} (h : Relay a hs b) (h' : Relay b hs' c) :
    Relay a (hs ++ hs') c := by
  induction h' with
  | nil => rwa [List.append_nil]
  | snoc _ hsigned ih =>
    rw [← List.append_assoc]
    exact .snoc ih hsigned

/-! ### One call -/

variable {env : Env} {w w' : World H} {call : Call} {p : Posting} {sender : Address} {now id : ℕ}
  {input : ShipmentInput} {inputs : List ShipmentInput} {s : Shipment}

/-- A hand-off is signed by the one who hands over. -/
theorem wp_handoffShipment {a b : Address} {hash : BytesN32} :
    wp (handoffShipment a b id hash) env w fun _ _ => env.auth a = true := by
  unfold handoffShipment
  rw [wp_bind]
  refine wp_requireInitialized fun _ => ?_
  rw [wp_bind]
  exact wp_requireAuth fun ha _ _ _ => ha

/-- What is found after a batch was there before, or is an item of it. -/
theorem getShipment_enrolAll_cases
    (hs : (w.enrolAll sender now inputs).getShipment id = some s) :
    w.getShipment id = some s ∨
      ∃ input ∈ inputs, s = Shipment.new s.id sender input now := by
  induction inputs generalizing w with
  | nil => exact .inl hs
  | cons input inputs ih =>
    have hcons : w.enrolAll sender now (input :: inputs) =
        (w.enrol sender now input).enrolAll sender now inputs := rfl
    rw [hcons] at hs
    rcases ih hs with hold | ⟨i, hi, hnew⟩
    · rw [World.getShipment_enrol] at hold
      split at hold
      · exact .inr ⟨input, List.mem_cons_self, by rw [← Option.some.inj hold]; rfl⟩
      · exact .inl hold
    · exact .inr ⟨i, List.mem_cons_of_mem _ hi, hnew⟩

/-- A creation leaves what was there, and what is new was ordered. -/
theorem record_created (hc : call.creates = true) (hx : call.exec env w = .ok () w')
    (hs : w'.getShipment id = some s) : w.getShipment id = some s ∨
      ∃ input, (Label.committed call env w'.trace).Bears s input ∧ s.carrier = input.carrier ∧
        s.createdAt = s.updatedAt ∧ s.updatedAt = env.timestamp := by
  have hbears : ∀ sender input, (sender, input) ∈ call.orders → env.auth sender = true →
      input.Acceptable env.timestamp → s = Shipment.new s.id sender input env.timestamp →
        ∃ input, (Label.committed call env w'.trace).Bears s input ∧ s.carrier = input.carrier ∧
          s.createdAt = s.updatedAt ∧ s.updatedAt = env.timestamp := by
    intro sender input horder hsigned hok hnew
    have hsender : s.sender = sender := by rw [hnew]; rfl
    refine ⟨input, .mk (hsender ▸ horder) (hsender ▸ hsigned) hok ?_, ?_, ?_, ?_⟩
    · rw [hsender, ← hnew]
      exact .refl s
    · rw [hnew]
      rfl
    · rw [hnew]
      rfl
    · rw [hnew]
      rfl
  cases call with
  | createShipment sender input =>
    obtain ⟨i, hx⟩ := returns_discard.mp hx
    obtain ⟨hserves, hok, -, -, -, -, -, -, hw'⟩ := returns_createShipment.mp hx
    rw [hw', World.getShipment_enrol] at hs
    split at hs
    · refine .inr (hbears sender input (List.mem_singleton.mpr rfl) hserves.signed hok ?_)
      rw [← Option.some.inj hs]
      rfl
    · unfold World.getShipment at hs ⊢
      rw [World.reserved_ledger] at hs
      exact .inl hs
  | createShipmentsBatch sender inputs =>
    obtain ⟨ids, hx⟩ := returns_discard.mp hx
    obtain ⟨hserves, -, -, -, hok, -, -, hw'⟩ := returns_createShipmentsBatch.mp hx
    rw [hw'] at hs
    rcases getShipment_enrolAll_cases hs with hold | ⟨input, hin, hnew⟩
    · unfold World.getShipment at hold ⊢
      rw [World.reserved_ledger] at hold
      exact .inl hold
    · exact .inr (hbears sender input (List.mem_map_of_mem hin) hserves.signed (hok input hin) hnew)
  | _ => cases hc

/-- A posting keeps what was agreed, and hands over only in a hand-off. -/
theorem PostedBy.relay (hp : PostedBy env w call p w'.book) (hx : call.exec env w = .ok () w')
    {trace : List Effect} :
    Relay p.old.carrier ((Label.committed call env trace).handoffs p.old.id) p.new.carrier := by
  by_cases hcall : ∃ a b i hash, call = .handoffShipment a b i hash
  · obtain ⟨a, b, i, hash, rfl⟩ := hcall
    obtain ⟨hid, htaker⟩ := hp.handoff
    have hsigned : env.auth a = true := wp_handoffShipment () w' hx
    have hgiver : p.old.carrier = a := by
      cases hp.rule with
      | handoffShipment => rfl
      | forceRelease hx => cases hx
      | forceRefund hx => cases hx
    rw [Label.handoffs, if_pos hid.symm, htaker, hgiver]
    show Relay a ([] ++ [⟨a, b, env.auth⟩]) b
    exact .snoc (h := ⟨a, b, env.auth⟩) .nil hsigned
  · have hnone : (Label.committed call env trace).handoffs p.old.id = [] := by
      cases call with
      | handoffShipment => exact absurd ⟨_, _, _, _, rfl⟩ hcall
      | _ => rfl
    have hcarrier : p.new.carrier = p.old.carrier := by
      rcases hp.rule.carrier_eq with heq | ⟨a, hash, heq⟩
      · exact heq
      · exact absurd ⟨_, _, _, _, heq⟩ hcall
    rw [hnone, hcarrier]
    exact .nil

/-- A hand-off is about the record of its posting. -/
theorem PostedBy.handoffs_eq_nil (hp : PostedBy env w call p w'.book) (hid : p.old.id ≠ id)
    {trace : List Effect} : (Label.committed call env trace).handoffs id = [] := by
  cases call with
  | handoffShipment a b i hash =>
    obtain ⟨hi, -⟩ := hp.handoff
    exact if_neg fun he => hid (hi.trans he)
  | _ => rfl

/-- A call that makes no posting hands nothing over. -/
theorem handoffs_eq_nil_of_posts (hc : call.posts = false) {trace : List Effect} :
    (Label.committed call env trace).handoffs id = [] := by
  cases call with
  | handoffShipment => cases hc
  | _ => rfl

/-- A stored record stays, on the terms it has. -/
theorem record_moved (hsound : w.ledger.Sound) (hx : call.exec env w = .ok () w')
    (hs : w.getShipment id = some s) : ∃ s', w'.getShipment id = some s' ∧ s.SameTerms s' ∧
      Relay s.carrier ((Label.committed call env w'.trace).handoffs id) s'.carrier ∧
      (s'.updatedAt = s.updatedAt ∨ s'.updatedAt = env.timestamp) := by
  have he := exec_effects hsound.keyed hx
  obtain ⟨s', hs', hcase⟩ := he.record hsound hs
  have hs' : w'.getShipment id = some s' := hs'
  refine ⟨s', hs', ?_⟩
  by_cases hpost : ∃ p, PostedBy env w call p w'.book
  · obtain ⟨p, hp⟩ := hpost
    have hget : w'.getShipment id = _ := hp.getShipment id
    by_cases hid : id = p.old.id
    · rw [if_pos hid] at hget
      have hnew : s' = p.new := Option.some.inj (hs'.symm.trans hget)
      have hold : s = p.old := Option.some.inj (hs.symm.trans (hid ▸ hp.stored))
      rw [hnew, hold, hid]
      exact ⟨hp.rule.keeps.sameTerms, hp.relay hx, hp.rule.keeps.updatedAt⟩
    · rw [if_neg hid] at hget
      have hsame : s' = s := Option.some.inj ((hs'.symm.trans hget).trans hs)
      rw [hsame, hp.handoffs_eq_nil (Ne.symm hid)]
      exact ⟨.refl s, .nil, .inl rfl⟩
  · have hsame : s' = s := by
      rcases hcase with hsame | ⟨p, hp, -⟩
      · exact hsame
      · exact absurd ⟨p, hp⟩ hpost
    have hposts : call.posts = false := by
      by_contra hc
      exact hpost (he.exists_posting (by simpa using hc))
    rw [hsame, handoffs_eq_nil_of_posts hposts]
    exact ⟨.refl s, .nil, .inl rfl⟩

/-- A record that was not there was ordered. -/
theorem record_new (hk : w.ledger.Keyed) (hx : call.exec env w = .ok () w')
    (hnone : w.getShipment id = none) (hs : w'.getShipment id = some s) :
    ∃ input, (Label.committed call env w'.trace).Bears s input ∧ s.carrier = input.carrier ∧
      s.createdAt = s.updatedAt ∧ s.updatedAt = env.timestamp := by
  by_cases hc : call.creates = true
  · rcases record_created hc hx hs with hold | hnew
    · rw [hnone] at hold
      cases hold
    · exact hnew
  · rcases posted_or_same hk (by simpa using hc) hx with ⟨p, hp⟩ | hsame
    · have hget : w'.getShipment id = _ := hp.getShipment id
      split at hget
      · rename_i hid
        have hold : w.getShipment id = some p.old := hid ▸ hp.stored
        rw [hnone] at hold
        cases hold
      · have hold : w.getShipment id = some s := hget.symm.trans hs
        rw [hnone] at hold
        cases hold
    · rw [hsame, hnone] at hs
      cases hs

/-- What is not stored is not handed over. -/
theorem handoffs_eq_nil (hk : w.ledger.Keyed) (hx : call.exec env w = .ok () w')
    (hnone : w.getShipment id = none) {trace : List Effect} :
    (Label.committed call env trace).handoffs id = [] := by
  by_cases hc : call.posts = true
  · obtain ⟨p, hp⟩ := (exec_effects hk hx).exists_posting hc
    refine hp.handoffs_eq_nil fun hid => ?_
    have hold : w.getShipment id = some p.old := hid ▸ hp.stored
    rw [hnone] at hold
    cases hold
  · exact handoffs_eq_nil_of_posts (by simpa using hc)

/-! ### Runs -/

variable {c c' c₀ : Chain H} {l : Label} {ls : List Label}

/-- The hand-offs of a shipment in the course of a run. -/
def handoffsOver (id : ℕ) (ls : List Label) : List Handoff := ls.flatMap (·.handoffs id)

theorem handoffsOver_snoc : handoffsOver id (ls ++ [l]) = handoffsOver id ls ++ l.handoffs id := by
  simp [handoffsOver]

/-- What becomes of a stored shipment in a step. -/
theorem Step.record_moved (hstep : Step c l c') (hsound : c.world.ledger.Sound)
    (hs : c.world.getShipment id = some s) (hle : s.updatedAt ≤ c.now) :
    ∃ s', c'.world.getShipment id = some s' ∧ s.SameTerms s' ∧
      Relay s.carrier (l.handoffs id) s'.carrier ∧ s.updatedAt ≤ s'.updatedAt ∧ s'.updatedAt ≤ c'.now := by
  cases hstep with
  | @committed call env w' ha hx =>
    have hsound : c.world.fresh.ledger.Sound := hsound
    have hs : c.world.fresh.getShipment id = some s := hs
    have htime : c.now ≤ env.timestamp := ha.time
    obtain ⟨s', hs', hterms, hrelay, hu⟩ := Navin.record_moved hsound hx hs
    refine ⟨s', hs', hterms, hrelay, ?_⟩
    show s.updatedAt ≤ s'.updatedAt ∧ s'.updatedAt ≤ env.timestamp
    omega
  | reverted ha => exact ⟨s, hs, .refl s, .nil, le_rfl, hle.trans ha.time⟩
  | outside hnow => exact ⟨s, hs, .refl s, .nil, le_rfl, hle.trans hnow⟩

/-- A shipment that is new after a step was ordered in it. -/
theorem Step.record_new (hstep : Step c l c') (hk : c.world.ledger.Keyed)
    (hnone : c.world.getShipment id = none) (hs : c'.world.getShipment id = some s) :
    ∃ input, l.Bears s input ∧ s.carrier = input.carrier ∧ s.createdAt = s.updatedAt ∧
      s.updatedAt = c'.now := by
  cases hstep with
  | @committed call env w' ha hx =>
    have hk : c.world.fresh.ledger.Keyed := hk
    exact Navin.record_new hk hx hnone hs
  | reverted =>
    have hs : c.world.getShipment id = some s := hs
    rw [hnone] at hs
    cases hs
  | outside =>
    have hs : c.world.getShipment id = some s := hs
    rw [hnone] at hs
    cases hs

theorem Step.handoffs_eq_nil (hstep : Step c l c') (hk : c.world.ledger.Keyed)
    (hnone : c.world.getShipment id = none) : l.handoffs id = [] := by
  cases hstep with
  | committed ha hx =>
    have hk : c.world.fresh.ledger.Keyed := hk
    exact Navin.handoffs_eq_nil hk hx hnone
  | reverted => rfl
  | outside => rfl

theorem Label.Bears.createdAt_lt (h : l.Bears s input) : s.createdAt < s.deadline := by
  cases h with
  | @mk _ env _ _ _ hok hterms =>
    have hcreated : s.createdAt = env.timestamp := hterms.createdAt_eq
    have hdeadline : s.deadline = input.deadline := hterms.deadline_eq
    rw [hcreated, hdeadline]
    exact hok.later

/-- The record goes back to an order in the run. -/
structure Traced (ls : List Label) (now : ℕ) (s : Shipment) : Prop where
  origin : ∃ l ∈ ls, ∃ input, l.Bears s input ∧ Relay input.carrier (handoffsOver s.id ls) s.carrier
  created_le : s.createdAt ≤ s.updatedAt
  updated_le : s.updatedAt ≤ now

/-- A step takes what is traced to what is traced. -/
theorem Traced.step (h : Traced ls c.now s) (hstep : Step c l c') (hsound : c.world.ledger.Sound)
    (hs : c.world.getShipment s.id = some s) {s' : Shipment}
    (hs' : c'.world.getShipment s.id = some s') : Traced (ls ++ [l]) c'.now s' := by
  obtain ⟨k, hk, input, hbears, hrelay⟩ := h.origin
  obtain ⟨t, ht, hterms, hmoved, hle, hnow⟩ := hstep.record_moved hsound hs h.updated_le
  obtain rfl : t = s' := Option.some.inj (ht.symm.trans hs')
  refine ⟨⟨k, List.mem_append_left _ hk, input, hbears.congr hterms, ?_⟩, ?_, hnow⟩
  · rw [hterms.id_eq, handoffsOver_snoc]
    exact hrelay.append hmoved
  · rw [hterms.createdAt_eq]
    exact h.created_le.trans hle

/-- Every record goes back to an order, and what is not stored was never handed over. -/
structure Chain.Traced (ls : List Label) (c : Chain H) : Prop where
  sound : c.world.ledger.Sound
  record : ∀ id s, c.world.getShipment id = some s → Navin.Traced ls c.now s
  absent : ∀ id, c.world.getShipment id = none → handoffsOver id ls = []

theorem Deployed.traced (hd : Deployed c₀) : c₀.Traced [] where
  sound := hd.sound
  record id s hs := by
    cases hd
    cases hs
  absent _ _ := rfl

theorem Chain.Traced.step (h : c.Traced ls) (hstep : Step c l c') : c'.Traced (ls ++ [l]) := by
  have hsound' : c'.world.ledger.Sound := hstep.sound h.sound
  refine ⟨hsound', fun id s' hs' => ?_, fun id hnone' => ?_⟩
  · cases hg : c.world.getShipment id with
    | some s =>
      have hid : s.id = id := h.sound.keyed.get hg
      exact (h.record id s hg).step hstep h.sound (hid.symm ▸ hg) (hid.symm ▸ hs')
    | none =>
      have hid : s'.id = id := hsound'.keyed.get hs'
      obtain ⟨input, hbears, hcarrier, hcreated, hnow⟩ := hstep.record_new h.sound.keyed hg hs'
      have hover : handoffsOver s'.id (ls ++ [l]) = [] := by
        rw [hid, handoffsOver_snoc, h.absent id hg, hstep.handoffs_eq_nil h.sound.keyed hg]
        rfl
      refine ⟨⟨l, by simp, input, hbears, ?_⟩, hcreated.le, hnow.le⟩
      rw [hover, hcarrier]
      exact .nil
  · cases hg : c.world.getShipment id with
    | some s =>
      obtain ⟨s', hs', -⟩ := hstep.record_moved h.sound hg (h.record id s hg).updated_le
      rw [hnone'] at hs'
      cases hs'
    | none => rw [handoffsOver_snoc, h.absent id hg, hstep.handoffs_eq_nil h.sound.keyed hg]; rfl

theorem Run.traced (hd : Deployed c₀) (hr : Run Step c₀ ls c) : c.Traced ls :=
  hr.inv_hist (I := fun ks x => x.Traced ks) hd.traced fun _ _ _ _ _ h hstep => h.step hstep

namespace Deployment

/-- The carrier hands the first shipment to the treasury, which hands it back. -/
def thereAndBack : List (Call × Env) := [
  signed admin 5 (.addCarrier admin treasury),
  signed carrier 6 (.handoffShipment carrier treasury 1 3),
  signed treasury 7 (.handoffShipment treasury carrier 1 4)]

end Deployment

/-- In every run of a deployed contract, every stored shipment was ordered by its sender
in a creation of the run that the sender signed, on the terms it has; from the carrier of
the order the signed hand-offs of the run lead to the carrier it has, and its times are in
order. -/
theorem record_traced (hd : Deployed c₀) (hr : Run Step c₀ ls c)
    (hs : c.world.getShipment id = some s) :
    (∃ l ∈ ls, ∃ input, l.Bears s input ∧ Relay input.carrier (handoffsOver id ls) s.carrier) ∧
      s.createdAt < s.deadline ∧ s.createdAt ≤ s.updatedAt ∧ s.updatedAt ≤ c.now := by
  have h : c.Traced ls := hr.traced hd
  have hid : s.id = id := h.sound.keyed.get hs
  obtain ⟨l, hl, input, hbears, hrelay⟩ := (h.record id s hs).origin
  rw [hid] at hrelay
  exact ⟨⟨l, hl, input, hbears, hrelay⟩, hbears.createdAt_lt, (h.record id s hs).created_le,
    (h.record id s hs).updated_le⟩

/-- The shipment is handed to the treasury and back. -/
theorem record_traced_there_and_back : ∃ (c : Chain Deployment.host) (ls : List Label) (s : Shipment),
    Run Step Deployment.chain ls c ∧ c.world.getShipment 1 = some s ∧
      (handoffsOver 1 ls).map (fun h => (h.giver, h.taker)) =
        [(Deployment.carrier, Deployment.treasury), (Deployment.treasury, Deployment.carrier)] ∧
      (∃ l ∈ ls, ∃ input, l.Bears s input ∧ Relay input.carrier (handoffsOver 1 ls) s.carrier) ∧
      s.createdAt < s.deadline ∧ s.createdAt ≤ s.updatedAt ∧ s.updatedAt ≤ c.now := by
  obtain ⟨ls, c, hr, -, hsome, hover⟩ := exists_play Deployment.chain
    (Deployment.opening ++ Deployment.thereAndBack)
    (fun r => (r.2.world.getShipment 1).isSome = true ∧
      (handoffsOver 1 r.1).map (fun h => (h.giver, h.taker)) =
        [(Deployment.carrier, Deployment.treasury), (Deployment.treasury, Deployment.carrier)])
    (by decide +kernel)
  obtain ⟨s, hs⟩ := Option.isSome_iff_exists.mp hsome
  exact ⟨c, ls, s, hr, hs, hover, record_traced Deployment.deployed hr hs⟩

/-- In every run from a reachable state a stored shipment stays, the expiry of archived
entries left out: what was agreed is as it was, the time of its last update does not go
back, and its carrier is who the signed hand-offs of the run lead to. -/
theorem record_kept (hc : Reachable c) (hr : Run Step c ls c') (hs : c.world.getShipment id = some s) :
    ∃ s', c'.world.getShipment id = some s' ∧ s.SameTerms s' ∧
      Relay s.carrier (handoffsOver id ls) s'.carrier ∧ s.updatedAt ≤ s'.updatedAt ∧
      s'.updatedAt ≤ c'.now := by
  obtain ⟨c₀, ks, hd, hr₀⟩ := hc
  have hle : s.updatedAt ≤ c.now := ((hr₀.traced hd).record id s hs).updated_le
  refine (hr.inv_hist (I := fun ls x => x.world.ledger.Sound ∧ ∃ s', x.world.getShipment id = some s' ∧
    s.SameTerms s' ∧ Relay s.carrier (handoffsOver id ls) s'.carrier ∧ s.updatedAt ≤ s'.updatedAt ∧
      s'.updatedAt ≤ x.now) ⟨hr₀.sound hd, s, hs, .refl s, .nil, le_rfl, hle⟩ ?_).2
  rintro ls a l b - ⟨hsound, t, ht, hterms, hrelay, hup, hnow⟩ hstep
  obtain ⟨u, hu, hterms', hmoved, hup', hnow'⟩ := hstep.record_moved hsound ht hnow
  refine ⟨hstep.sound hsound, u, hu, hterms.trans hterms', ?_, hup.trans hup', hnow'⟩
  rw [handoffsOver_snoc]
  exact hrelay.append hmoved

/-- Paid for, under way, handed over, and delivered. -/
theorem record_kept_delivered : ∃ (c c' : Chain Deployment.host) (ls : List Label) (s s' : Shipment),
    Reachable c ∧ Run Step c ls c' ∧ c.world.getShipment 1 = some s ∧ s.status = .created ∧
      c'.world.getShipment 1 = some s' ∧ s'.status = .delivered ∧ s'.carrier ≠ s.carrier ∧
      s.SameTerms s' ∧ Relay s.carrier (handoffsOver 1 ls) s'.carrier ∧ s.updatedAt ≤ s'.updatedAt ∧
      s'.updatedAt ≤ c'.now := by
  obtain ⟨ks, c, ls, c', hr, hr', -, hbefore, hafter⟩ := exists_play₂ Deployment.chain Deployment.opening
    [Deployment.signed Deployment.company 5 (.depositEscrow Deployment.company 1 1000),
      Deployment.signed Deployment.admin 6 (.addCarrier Deployment.admin Deployment.treasury),
      Deployment.signed Deployment.carrier 7 (.updateStatus Deployment.carrier 1 .inTransit 2),
      Deployment.signed Deployment.carrier 8
        (.handoffShipment Deployment.carrier Deployment.treasury 1 3),
      Deployment.signed Deployment.receiver 9 (.confirmDelivery Deployment.receiver 1 4)]
    (fun c r => (c.world.getShipment 1).map (fun s => (s.status, s.carrier)) =
        some (.created, Deployment.carrier) ∧
      (r.2.world.getShipment 1).map (fun s => (s.status, s.carrier)) =
        some (.delivered, Deployment.treasury)) (by decide +kernel)
  have hc : Reachable c := ⟨_, ks, Deployment.deployed, hr⟩
  obtain ⟨s, hs, heq⟩ := Option.map_eq_some_iff.mp hbefore
  obtain ⟨t, ht, heq'⟩ := Option.map_eq_some_iff.mp hafter
  obtain ⟨s', hs', hkept⟩ := record_kept hc hr' hs
  obtain rfl : t = s' := Option.some.inj (ht.symm.trans hs')
  obtain ⟨hstatus, hcarrier⟩ := Prod.mk.inj heq
  obtain ⟨hstatus', hcarrier'⟩ := Prod.mk.inj heq'
  refine ⟨c, c', ls, s, t, hc, hr', hs, hstatus, hs', hstatus', ?_, hkept⟩
  rw [hcarrier, hcarrier']
  decide

end Navin
