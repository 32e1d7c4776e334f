/-
# The three parties of a shipment

A shipment has a sender, a receiver and a carrier. `create_shipment` refuses two
parties in one hand. The other places where parties are set look less closely: a
batch compares the receiver with the carrier only, and a hand-off compares the new
carrier with nobody, so that a receiver who becomes the carrier confirms a delivery
and is paid for it.

Key definitions:
- `Shipment.PartiesDistinct`, `World.PartiesDistinct`;
- `World.keepsApart`: the batches and hand-offs that keep the parties apart.

Key theorems:
- `Step.partiesDistinct_iff`: one step;
- `parties_distinct_iff`: whole runs.
-/
import Navin.Creation
import Navin.Token

namespace Navin

open Tx

variable {H : Host}

/-- No two of the three parties are the same. -/
structure Shipment.PartiesDistinct (s : Shipment) : Prop where
  sender_receiver : s.sender ≠ s.receiver
  sender_carrier : s.sender ≠ s.carrier
  receiver_carrier : s.receiver ≠ s.carrier

/-- The parties of every stored shipment are distinct. -/
def World.PartiesDistinct (w : World H) : Prop :=
  ∀ id s, w.getShipment id = some s → s.PartiesDistinct

/-- The call is no batch with the sender among the other parties of an item, and no
hand-off to the sender or the receiver. -/
def World.keepsApart (w : World H) : Call → Bool
  | .createShipmentsBatch sender inputs =>
    inputs.all fun input => sender ≠ input.receiver ∧ sender ≠ input.carrier
  | .handoffShipment _ newCarrier id _ =>
    (w.getShipment id).all fun s => newCarrier ≠ s.sender ∧ newCarrier ≠ s.receiver
  | _ => true

/-- What is called and goes through keeps the parties apart. -/
def Label.KeepsApart (c : Chain H) : Label → Prop
  | .committed call _ _ => c.world.keepsApart call = true
  | _ => True

instance (c : Chain H) (l : Label) : Decidable (l.KeepsApart c) :=
  match l with
  | .committed call _ _ => inferInstanceAs (Decidable (c.world.keepsApart call = true))
  | .reverted .. => .isTrue trivial
  | .outside => .isTrue trivial

/-! ### One call -/

variable {env : Env} {w w' : World H} {call : Call} {p : Posting} {sender : Address} {now : ℕ}
  {input : ShipmentInput} {inputs : List ShipmentInput}

/-- A posting leaves the carrier, unless it is a hand-off. -/
theorem Rule.carrier_eq (hr : Rule env w call p) :
    p.new.carrier = p.old.carrier ∨
      ∃ a hash, call = .handoffShipment a p.new.carrier p.old.id hash := by
  cases hr with
  | handoffShipment => exact .inr ⟨_, _, rfl⟩
  | @recordMilestonesBatch s items =>
    have hb := s.batchOf_payBatch env.timestamp (items.map (·.1))
    exact .inl hb.carrier_eq
  | _ => exact .inl rfl

/-- The parties of a new record are those of the item. -/
theorem partiesDistinct_new {id : ℕ} (h : input.receiver ≠ input.carrier) :
    (Shipment.new id sender input now).PartiesDistinct ↔
      sender ≠ input.receiver ∧ sender ≠ input.carrier :=
  ⟨fun hd => ⟨hd.sender_receiver, hd.sender_carrier⟩, fun hd => ⟨hd.1, hd.2, h⟩⟩

theorem World.PartiesDistinct.enrol (h : w.PartiesDistinct) (hc : input.receiver ≠ input.carrier)
    (hs : sender ≠ input.receiver ∧ sender ≠ input.carrier) :
    (w.enrol sender now input).PartiesDistinct :=
  forall_records_enrol ((partiesDistinct_new hc).mpr hs) h

theorem World.PartiesDistinct.enrolAll_iff (h : w.PartiesDistinct)
    (hc : ∀ input ∈ inputs, input.receiver ≠ input.carrier) :
    (w.enrolAll sender now inputs).PartiesDistinct ↔
      ∀ input ∈ inputs, sender ≠ input.receiver ∧ sender ≠ input.carrier := by
  induction inputs generalizing w with
  | nil => exact ⟨fun _ => by simp, fun _ => h⟩
  | cons input inputs ih =>
    rw [List.forall_mem_cons] at hc ⊢
    have hcons : w.enrolAll sender now (input :: inputs) =
        (w.enrol sender now input).enrolAll sender now inputs := rfl
    rw [hcons]
    constructor
    · intro hall
      -- the first record is still there at the end
      have hfirst : ((w.enrol sender now input).enrolAll sender now inputs).getShipment
          (w.ledger.shipmentCount + 1) =
            some (Shipment.new (w.ledger.shipmentCount + 1) sender input now) := by
        have hcount : w.ledger.shipmentCount + 1 ≤ (w.enrol sender now input).ledger.shipmentCount :=
          le_rfl
        rw [World.getShipment_enrolAll hcount, World.getShipment_enrol, if_pos rfl]
      have hinput := (partiesDistinct_new hc.1).mp (hall _ _ hfirst)
      exact ⟨hinput, (ih (h.enrol hc.1 hinput) hc.2).mp hall⟩
    · rintro ⟨hinput, hrest⟩
      exact (ih (h.enrol hc.1 hinput) hc.2).mpr hrest

theorem World.PartiesDistinct.congr (hl : w'.ledger = w.ledger) :
    w'.PartiesDistinct ↔ w.PartiesDistinct := by
  unfold World.PartiesDistinct World.getShipment
  rw [hl]

/-- A single creation. -/
theorem World.PartiesDistinct.createShipment (h : w.PartiesDistinct)
    (hx : (Call.createShipment sender input).exec env w = .ok () w') : w'.PartiesDistinct := by
  obtain ⟨id, hx⟩ := returns_discard.mp hx
  obtain ⟨-, hacc, hp, -, -, -, -, -, rfl⟩ := returns_createShipment.mp hx
  refine World.PartiesDistinct.enrol ?_ hacc.apart hp
  exact (World.PartiesDistinct.congr (World.reserved_ledger ..)).mpr h

/-- A batch. -/
theorem World.PartiesDistinct.batch_iff (h : w.PartiesDistinct)
    (hx : (Call.createShipmentsBatch sender inputs).exec env w = .ok () w') :
    w'.PartiesDistinct ↔ w.keepsApart (.createShipmentsBatch sender inputs) = true := by
  have hapart : w.keepsApart (.createShipmentsBatch sender inputs) = true ↔
      ∀ input ∈ inputs, sender ≠ input.receiver ∧ sender ≠ input.carrier := by
    simp [World.keepsApart]
  rw [hapart]
  obtain ⟨ids, hx⟩ := returns_discard.mp hx
  obtain ⟨-, -, -, -, hacc, -, -, rfl⟩ := returns_createShipmentsBatch.mp hx
  refine World.PartiesDistinct.enrolAll_iff ?_ fun input hi => (hacc input hi).apart
  exact (World.PartiesDistinct.congr (World.reserved_ledger ..)).mpr h

/-- A hand-off writes the new carrier. -/
theorem PostedBy.handoff {a b : Address} {id : ℕ} {hash : BytesN32} {book : Book H.Token}
    (hp : PostedBy env w (.handoffShipment a b id hash) p book) : p.old.id = id ∧ p.new.carrier = b := by
  cases hp.rule with
  | handoffShipment => exact ⟨rfl, rfl⟩
  | forceRelease hx => cases hx
  | forceRefund hx => cases hx

theorem World.PartiesDistinct.handoff_iff (h : w.PartiesDistinct) (hk : w.ledger.Keyed) {a b : Address}
    {id : ℕ} {hash : BytesN32} (hx : (Call.handoffShipment a b id hash).exec env w = .ok () w') :
    w'.PartiesDistinct ↔ w.keepsApart (.handoffShipment a b id hash) = true := by
  have hapart : w.keepsApart (.handoffShipment a b id hash) = true ↔
      ∀ s, w.getShipment id = some s → b ≠ s.sender ∧ b ≠ s.receiver := by
    cases hg : w.getShipment id <;> simp [World.keepsApart, hg]
  rw [hapart]
  constructor
  · intro h' s hs
    obtain ⟨p, hp⟩ := (exec_effects hk hx).exists_posting rfl
    obtain ⟨hid, hcarrier⟩ := hp.handoff
    have hold : w.getShipment p.old.id = some p.old := hp.stored
    rw [hid, hs] at hold
    obtain rfl := Option.some.inj hold
    have hd := h' _ _ hp.stored_new
    rw [← hp.rule.keeps.sender_eq, ← hp.rule.keeps.receiver_eq, ← hcarrier]
    exact ⟨hd.sender_carrier.symm, hd.receiver_carrier.symm⟩
  · intro hb
    refine forall_records_of_not_creates hk rfl hx (fun p hp hd => ?_) h
    obtain ⟨hid, hcarrier⟩ := hp.handoff
    have hold : w.getShipment id = some p.old := hid ▸ hp.stored
    have hb := hb p.old hold
    refine ⟨?_, ?_, ?_⟩
    · rw [hp.rule.keeps.sender_eq, hp.rule.keeps.receiver_eq]
      exact hd.sender_receiver
    · rw [hp.rule.keeps.sender_eq, hcarrier]
      exact hb.1.symm
    · rw [hp.rule.keeps.receiver_eq, hcarrier]
      exact hb.2.symm

/-- Calls that set no party. -/
theorem World.PartiesDistinct.keep (h : w.PartiesDistinct) (hk : w.ledger.Keyed)
    (hc : call.creates = false) (hn : ∀ a b id hash, call ≠ .handoffShipment a b id hash)
    (hx : call.exec env w = .ok () w') : w'.PartiesDistinct := by
  refine forall_records_of_not_creates hk hc hx (fun p hp hd => ?_) h
  have hkeeps := hp.rule.keeps
  have hcarrier : p.new.carrier = p.old.carrier := by
    rcases hp.rule.carrier_eq with hcarrier | ⟨a, hash, hcall⟩
    · exact hcarrier
    · exact absurd hcall (hn _ _ _ _)
  refine ⟨?_, ?_, ?_⟩
  · rw [hkeeps.sender_eq, hkeeps.receiver_eq]
    exact hd.sender_receiver
  · rw [hkeeps.sender_eq, hcarrier]
    exact hd.sender_carrier
  · rw [hkeeps.receiver_eq, hcarrier]
    exact hd.receiver_carrier

/-! ### Runs -/

variable {c c' : Chain H} {l : Label}

/-- A step keeps the parties distinct exactly when it keeps them apart. -/
theorem Step.partiesDistinct_iff (hstep : Step c l c') (hs : c.world.ledger.Sound)
    (h : c.world.PartiesDistinct) : c'.world.PartiesDistinct ↔ l.KeepsApart c := by
  cases hstep with
  | @committed call env w' _ hx =>
    have h : c.world.fresh.PartiesDistinct := h
    have hk : c.world.fresh.ledger.Keyed := hs.keyed
    change w'.PartiesDistinct ↔ _
    cases call with
    | createShipment => exact ⟨fun _ => rfl, fun _ => h.createShipment hx⟩
    | createShipmentsBatch => exact h.batch_iff hx
    | handoffShipment => exact h.handoff_iff hk hx
    | _ => exact ⟨fun _ => rfl, fun _ => h.keep hk rfl (fun _ _ _ _ => Call.noConfusion) hx⟩
  | reverted => exact ⟨fun _ => trivial, fun _ => h⟩
  | outside => exact ⟨fun _ => trivial, fun _ => h⟩

/-- Along every run of a deployed contract whose batches and hand-offs keep the parties
apart, the three parties of every stored shipment are distinct, and the next step keeps
them so exactly when it keeps the parties apart. -/
theorem parties_distinct_iff {c₀ : Chain H} {ls : List Label} (hd : Deployed c₀)
    (hr : Run (Under Step fun c l => l.KeepsApart c) c₀ ls c) :
    c.world.PartiesDistinct ∧
      ∀ l c', Step c l c' → (c'.world.PartiesDistinct ↔ l.KeepsApart c) := by
  have hsound : c.world.ledger.Sound := hr.of_under.sound hd
  have hdistinct : c.world.PartiesDistinct := by
    refine (hr.inv (I := fun c => c.world.ledger.Sound ∧ c.world.PartiesDistinct) ?_ ?_).2
    · refine ⟨hd.sound, fun id s hs => ?_⟩
      cases hd
      cases hs
    · rintro a l b ⟨hs, h⟩ ⟨hstep, hl⟩
      exact ⟨hstep.sound hs, (hstep.partiesDistinct_iff hs h).mpr hl⟩
  exact ⟨hdistinct, fun l c' hstep => hstep.partiesDistinct_iff hsound hdistinct⟩

/-- A batch of one, and a hand-off to the treasury. -/
theorem parties_distinct_treasury : ∃ (c : Chain Deployment.host) (ls : List Label),
    Run (Under Step fun c l => l.KeepsApart c) Deployment.chain ls c ∧
      (c.world.getShipment 2).isSome = true ∧ c.world.PartiesDistinct := by
  obtain ⟨ls, c, -, hp, hs⟩ := exists_play Deployment.chain
    (Deployment.opening ++ [
      Deployment.signed Deployment.company 5 (.createShipmentsBatch Deployment.company
        [{ Deployment.shipment with dataHash := 2 }]),
      Deployment.signed Deployment.admin 6 (.addCarrier Deployment.admin Deployment.treasury),
      Deployment.signed Deployment.carrier 7
        (.handoffShipment Deployment.carrier Deployment.treasury 1 3)])
    (fun r => (r.2.world.getShipment 2).isSome = true) (by decide +kernel)
  have hr : Run (Under Step fun c l => l.KeepsApart c) Deployment.chain ls c :=
    run_under_of_play hp (by decide +kernel)
  exact ⟨c, ls, hr, hs, (parties_distinct_iff Deployment.deployed hr).1⟩

/-- The carrier hands the shipment to its receiver, who is a carrier too. -/
theorem handoff_to_receiver :
    ¬∀ c : Chain Deployment.host, Reachable c → c.world.PartiesDistinct := by
  intro hall
  obtain ⟨ls, c, hr, -, hs⟩ := exists_play Deployment.chain
    (Deployment.opening ++ [
      Deployment.signed Deployment.admin 5 (.addCarrier Deployment.admin Deployment.receiver),
      Deployment.signed Deployment.carrier 6
        (.handoffShipment Deployment.carrier Deployment.receiver 1 3)])
    (fun r => (r.2.world.getShipment 1).any (fun s => s.receiver = s.carrier) = true)
    (by decide +kernel)
  obtain ⟨s, hg, hs⟩ := (Option.any_eq_true _ _).mp hs
  exact (hall c ⟨_, ls, Deployment.deployed, hr⟩ 1 s hg).receiver_carrier (of_decide_eq_true hs)

end Navin
