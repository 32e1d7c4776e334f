/-
# Sound ledgers

The invariant every reachable state has, whatever was called: records are stored
under their own ids, ids are handed out in order, and no escrow is below zero or
above what it started from.

Key definitions:
- `Ledger.Sound`.

Key theorems:
- `Effects.record`, `Effects.forall_records`: what a call does to one record, and
  to a property of all records;
- `Effects.sound`: a committed call keeps it;
- `Reachable.sound`: so every reachable ledger is sound.
-/
import Navin.Accounts

namespace Navin

variable {H : Host}

/-! ### The records after each effect -/

namespace Ledger

variable {Token : Type} (l : Ledger Token)

theorem getShipment_setShipment (s : Shipment) (id : ℕ) :
    (l.setShipment s).getShipment id = if id = s.id then some s else l.getShipment id := by
  unfold getShipment
  rw [setShipment_shipment, setShipment_archivedShipment, Function.update_apply]
  split_ifs <;> rfl

theorem getShipment_post (self : Address) (now : ℕ) (p : Posting) (token : Token) (id : ℕ) :
    (l.post self now p token).getShipment id = if id = p.new.id then some p.new else l.getShipment id := by
  unfold getShipment
  rw [post_shipment, post_archivedShipment, Function.update_apply]
  split_ifs <;> rfl

theorem getShipment_enrol (s : Shipment) (id : ℕ) :
    (l.enrol s).getShipment id = if id = s.id then some s else l.getShipment id := by
  unfold getShipment
  rw [enrol_shipment, enrol_archivedShipment, Function.update_apply]
  split_ifs <;> rfl

/-- The archive shows what the live table showed. -/
theorem getShipment_putAway {id : ℕ} {s : Shipment} (hs : l.shipment id = some s) (i : ℕ) :
    (l.putAway id s).getShipment i = l.getShipment i := by
  by_cases hi : i = id
  · subst hi
    have h₁ : (l.putAway i s).shipment i = none := Function.update_self ..
    have h₂ : (l.putAway i s).archivedShipment i = some s := Function.update_self ..
    rw [getShipment, getShipment, h₁, h₂, hs]
  · have h₁ : (l.putAway id s).shipment i = l.shipment i := Function.update_of_ne hi ..
    have h₂ : (l.putAway id s).archivedShipment i = l.archivedShipment i := Function.update_of_ne hi ..
    rw [getShipment, getShipment, h₁, h₂]

end Ledger

/-! ### The invariant -/

/-- What holds of every reachable ledger. -/
structure Ledger.Sound {Token : Type} (l : Ledger Token) : Prop where
  keyed : l.Keyed
  unset : l.admin = none → ∀ id, l.getShipment id = none
  ids : ∀ id s, l.getShipment id = some s → 1 ≤ id ∧ id ≤ l.shipmentCount
  escrow_nonneg : ∀ id s, l.getShipment id = some s → 0 ≤ s.escrowAmount
  escrow_le_total : ∀ id s, l.getShipment id = some s → s.escrowAmount ≤ s.totalEscrow

namespace Ledger.Sound

variable {Token : Type} {l : Ledger Token}

theorem empty (token : Token) : (Ledger.empty token).Sound where
  keyed := ⟨(fun _ _ h => by cases h), (fun _ _ h => by cases h)⟩
  unset _ _ := rfl
  ids _ _ h := by cases h
  escrow_nonneg _ _ h := by cases h
  escrow_le_total _ _ h := by cases h

/-- A ledger with the same records, count and admin. -/
theorem congr {l' : Ledger Token} (h : l.Sound) (hs : l'.shipment = l.shipment)
    (ha : l'.archivedShipment = l.archivedShipment) (hc : l'.shipmentCount = l.shipmentCount)
    (hadm : l'.admin = none → l.admin = none) : l'.Sound := by
  have hg : l'.getShipment = l.getShipment := by
    funext id
    unfold Ledger.getShipment
    rw [hs, ha]
  refine ⟨⟨?_, ?_⟩, ?_, ?_, ?_, ?_⟩
  · rw [hs]
    exact h.keyed.live
  · rw [ha]
    exact h.keyed.archived
  · rw [hg]
    exact fun hn => h.unset (hadm hn)
  · rw [hg, hc]
    exact h.ids
  · rw [hg]
    exact h.escrow_nonneg
  · rw [hg]
    exact h.escrow_le_total

theorem enrol (h : l.Sound) (hadm : l.admin ≠ none) (sender : Address) (input : ShipmentInput) (now : ℕ) :
    (l.enrol (Shipment.new (l.shipmentCount + 1) sender input now)).Sound where
  keyed := by
    refine ⟨?_, h.keyed.archived⟩
    intro id s hs
    rw [Ledger.enrol_shipment, Function.update_apply] at hs
    split at hs
    · rename_i hid
      rw [← Option.some.inj hs, hid]
    · exact h.keyed.live id s hs
  unset hn := absurd hn hadm
  ids id s hs := by
    rw [Ledger.getShipment_enrol] at hs
    rw [Ledger.enrol_shipmentCount]
    change _ ∧ id ≤ l.shipmentCount + 1
    split at hs
    · rename_i hid
      have hid : id = l.shipmentCount + 1 := hid
      omega
    · have := h.ids id s hs
      omega
  escrow_nonneg id s hs := by
    rw [Ledger.getShipment_enrol] at hs
    split at hs
    · rw [← Option.some.inj hs]
      exact le_rfl
    · exact h.escrow_nonneg id s hs
  escrow_le_total id s hs := by
    rw [Ledger.getShipment_enrol] at hs
    split at hs
    · rw [← Option.some.inj hs]
      exact le_rfl
    · exact h.escrow_le_total id s hs

theorem enrolled {l' : Ledger Token} {sender : Address} {now : ℕ} (h : l.Sound) (hadm : l.admin ≠ none)
    (he : l.Enrolled sender now l') : l'.Sound ∧ l'.admin = l.admin := by
  induction he with
  | nil => exact ⟨h, rfl⟩
  | snoc _ _ _ ih =>
    obtain ⟨ih, ha⟩ := ih
    exact ⟨ih.enrol (by rw [ha]; exact hadm) _ _ _, ha⟩

theorem putAway {id : ℕ} {s : Shipment} (h : l.Sound) (hs : l.shipment id = some s) :
    (l.putAway id s).Sound where
  keyed := by
    constructor
    · intro i t ht
      have ht : Function.update l.shipment id none i = some t := ht
      rw [Function.update_apply] at ht
      split at ht
      · cases ht
      · exact h.keyed.live i t ht
    · intro i t ht
      have ht : Function.update l.archivedShipment id (some s) i = some t := ht
      rw [Function.update_apply] at ht
      split at ht
      · rename_i hi
        rw [← Option.some.inj ht, hi]
        exact h.keyed.live id s hs
      · exact h.keyed.archived i t ht
  unset hn i := by
    rw [l.getShipment_putAway hs]
    exact h.unset hn i
  ids i t ht := by
    rw [l.getShipment_putAway hs] at ht
    exact h.ids i t ht
  escrow_nonneg i t ht := by
    rw [l.getShipment_putAway hs] at ht
    exact h.escrow_nonneg i t ht
  escrow_le_total i t ht := by
    rw [l.getShipment_putAway hs] at ht
    exact h.escrow_le_total i t ht

/-- A posting on a record that is there, with its id kept and its escrow within
its bounds. -/
theorem post {self : Address} {now : ℕ} {p : Posting} {token : Token} (h : l.Sound)
    (hs : l.getShipment p.old.id = some p.old) (hid : p.new.id = p.old.id)
    (h₀ : 0 ≤ p.new.escrowAmount) (h₁ : p.new.escrowAmount ≤ p.new.totalEscrow) :
    (l.post self now p token).Sound where
  keyed := by
    refine ⟨?_, h.keyed.archived⟩
    intro id s hl
    rw [Ledger.post_shipment, Function.update_apply] at hl
    split at hl
    · rename_i hi
      rw [← Option.some.inj hl, hi]
    · exact h.keyed.live id s hl
  unset hn := by
    rw [h.unset hn] at hs
    cases hs
  ids id s hg := by
    rw [Ledger.getShipment_post] at hg
    split at hg
    · rename_i hi
      rw [hi, hid]
      exact h.ids _ _ hs
    · exact h.ids id s hg
  escrow_nonneg id s hg := by
    rw [Ledger.getShipment_post] at hg
    split at hg
    · rw [← Option.some.inj hg]
      exact h₀
    · exact h.escrow_nonneg id s hg
  escrow_le_total id s hg := by
    rw [Ledger.getShipment_post] at hg
    split at hg
    · rw [← Option.some.inj hg]
      exact h₁
    · exact h.escrow_le_total id s hg

end Ledger.Sound

/-! ### What a call does to a record -/

variable {env : Env} {w : World H} {call : Call} {b : Book H.Token}

theorem Ledger.getShipment_enrolled {Token : Type} {l l' : Ledger Token} {sender : Address} {now : ℕ}
    (h : l.Sound) (hadm : l.admin ≠ none) (he : l.Enrolled sender now l') {id : ℕ} {s : Shipment}
    (hs : l.getShipment id = some s) : l'.getShipment id = some s := by
  induction he with
  | nil => exact hs
  | snoc he _ _ ih =>
    rw [Ledger.getShipment_enrol, if_neg]
    · exact ih
    · -- the new id is above every id in use
      have := ((h.enrolled hadm he).1.ids id s ih).2
      change ¬id = _ + 1
      omega

theorem Ledger.Enrolled.admin_eq {Token : Type} {l l' : Ledger Token} {sender : Address} {now : ℕ}
    (h : l.Enrolled sender now l') : l'.admin = l.admin := by
  induction h with
  | nil => rfl
  | snoc _ _ _ ih => exact ih

/-- What leaves a contract without an admin was called on one. -/
theorem Effects.admin_none (he : Effects env w call b) (h : b.ledger.admin = none) : w.ledger.admin = none := by
  cases he with
  | quiet => exact h
  | initialized => cases h
  | handedOver => cases h
  | enrolled _ _ hadm he => exact absurd (he.admin_eq.symm.trans h) hadm
  | archived => exact h
  | posted _ _ _ hp =>
    obtain ⟨t, token, _, _, rfl⟩ := hp
    exact h

/-- There are no shipments before the set-up, nor right after it. -/
theorem Effects.shipmentCount_eq (he : Effects env w call b) (hzero : w.ledger.shipmentCount = 0)
    (h : w.ledger.admin = none) : b.ledger.shipmentCount = w.ledger.shipmentCount := by
  cases he with
  | quiet => rfl
  | initialized => exact hzero.symm
  | handedOver => rfl
  | enrolled _ _ hadm => exact absurd h hadm
  | archived => rfl
  | posted _ _ _ hp =>
    obtain ⟨t, token, _, _, rfl⟩ := hp
    rfl

theorem PostedBy.getShipment {p : Posting} (h : PostedBy env w call p b) (id : ℕ) :
    b.ledger.getShipment id = if id = p.old.id then some p.new else w.ledger.getShipment id := by
  obtain ⟨t, token, _, _, rfl⟩ := h.posted
  rw [Ledger.getShipment_post, h.rule.keeps.id_eq]
  rfl

theorem PostedBy.stored_new {p : Posting} (h : PostedBy env w call p b) :
    b.ledger.getShipment p.old.id = some p.new := by
  rw [h.getShipment, if_pos rfl]

/-- A record that was there is there afterwards; it is the same, or the call made
a posting on it. -/
theorem Effects.record (he : Effects env w call b) (h : w.ledger.Sound) {id : ℕ} {s : Shipment}
    (hs : w.ledger.getShipment id = some s) : ∃ s', b.ledger.getShipment id = some s' ∧
      (s' = s ∨ ∃ p, PostedBy env w call p b ∧ p.old = s ∧ p.new = s') := by
  cases he with
  | quiet => exact ⟨s, hs, .inl rfl⟩
  | initialized _ hn =>
    rw [h.unset hn] at hs
    cases hs
  | handedOver => exact ⟨s, hs, .inl rfl⟩
  | enrolled _ _ hadm he => exact ⟨s, Ledger.getShipment_enrolled h hadm he hs, .inl rfl⟩
  | archived _ hl _ =>
    refine ⟨s, ?_, .inl rfl⟩
    rw [Book.map_ledger, book_ledger, Ledger.getShipment_putAway _ hl]
    exact hs
  | @posted p b hg hv hr hp =>
    have hp : PostedBy env w call p b := ⟨hg, hv, hr, hp⟩
    rw [hp.getShipment]
    by_cases hid : id = p.old.id
    · rw [if_pos hid]
      rw [hid, hg] at hs
      exact ⟨p.new, rfl, .inr ⟨p, hp, Option.some.inj hs, rfl⟩⟩
    · rw [if_neg hid]
      exact ⟨s, hs, .inl rfl⟩

/-- What every new record has and every posting keeps, every record has. -/
theorem Effects.forall_records {P : Shipment → Prop} (he : Effects env w call b)
    (hnew : ∀ id sender input, P (Shipment.new id sender input env.timestamp))
    (hpost : ∀ p, PostedBy env w call p b → P p.old → P p.new)
    (h : ∀ id s, w.ledger.getShipment id = some s → P s) {id : ℕ} {s : Shipment}
    (hs : b.ledger.getShipment id = some s) : P s := by
  cases he with
  | quiet => exact h id s hs
  | initialized => exact h id s hs
  | handedOver => exact h id s hs
  | enrolled _ _ _ he =>
    clear hpost
    induction he with
    | nil => exact h id s hs
    | snoc _ _ _ ih =>
      rw [Ledger.getShipment_enrol] at hs
      split at hs
      · rw [← Option.some.inj hs]
        exact hnew _ _ _
      · exact ih hs
  | archived _ hl _ =>
    rw [Book.map_ledger, book_ledger, Ledger.getShipment_putAway _ hl] at hs
    exact h id s hs
  | @posted p b hg hv hr hp =>
    have hp : PostedBy env w call p b := ⟨hg, hv, hr, hp⟩
    rw [hp.getShipment] at hs
    split at hs
    · rw [← Option.some.inj hs]
      exact hpost p hp (h _ _ hg)
    · exact h id s hs

/-! ### Steps and runs -/

/-- A committed call leaves a sound ledger sound. -/
theorem Effects.sound (he : Effects env w call b) (h : w.ledger.Sound) : b.ledger.Sound := by
  cases he with
  | quiet => exact h
  | initialized _ hn =>
    -- before the set-up there are no shipments, so the count may start over
    refine ⟨⟨h.keyed.live, h.keyed.archived⟩, fun hadm => ?_, ?_, ?_, ?_⟩
    · cases hadm
    all_goals
      intro id s hs
      have hs : w.ledger.getShipment id = some s := hs
      rw [h.unset hn] at hs
      cases hs
  | handedOver => exact h.congr rfl rfl rfl (fun hn => by cases hn)
  | enrolled _ _ hadm he => exact (h.enrolled hadm he).1
  | archived _ hs _ => exact h.putAway hs
  | posted hs hv hr hp =>
    obtain ⟨t, token, _, _, rfl⟩ := hp
    have hb := hr.bounds hv (h.escrow_nonneg _ _ hs) (h.escrow_le_total _ _ hs)
    exact h.post hs hr.keeps.id_eq hb.1 hb.2

/-- The record of a posting stays within its bounds. -/
theorem PostedBy.bounds {p : Posting} (h : PostedBy env w call p b) (hs : w.ledger.Sound) :
    0 ≤ p.old.escrowAmount ∧ 0 ≤ p.new.escrowAmount := by
  have h₀ := hs.escrow_nonneg _ _ h.stored
  exact ⟨h₀, (h.rule.bounds h.valid h₀ (hs.escrow_le_total _ _ h.stored)).1⟩

/-- A step of the chain leaves a sound ledger sound. -/
theorem Step.sound {c c' : Chain H} {l : Label} (hstep : Step c l c') (h : c.world.ledger.Sound) :
    c'.world.ledger.Sound := by
  cases hstep with
  | committed _ hx =>
    have h : c.world.fresh.ledger.Sound := h
    exact (exec_effects h.keyed hx).sound h
  | reverted => exact h
  | outside => exact h.congr rfl rfl rfl id

theorem Deployed.sound {c : Chain H} (h : Deployed c) : c.world.ledger.Sound := by
  cases h
  exact .empty _

theorem Run.sound {c c' : Chain H} {ls : List Label} (hr : Run Step c ls c') (hd : Deployed c) :
    c'.world.ledger.Sound :=
  hr.inv hd.sound fun _ _ _ h hs => hs.sound h

theorem Reachable.sound {c : Chain H} (h : Reachable c) : c.world.ledger.Sound := by
  obtain ⟨c₀, ls, hd, hr⟩ := h
  exact hr.sound hd

end Navin
