/-
# The integration nonce

An integrator that reads the same nonce of a shipment twice takes it that neither the
status nor the escrow changed in between. The nonce is advanced by hand: most entry
points write it with the new record, a payment to the carrier advances it when there is
something to pay, and two recovery operations and the delivery of a shipment without
escrow leave it as it was.

Key definitions:
- `Shipment.Raised`: the nonce was advanced a number of times;
- `World.Bypasses`: the calls that change a record behind the nonce.

Key theorems:
- `Rule.raised`, `Rule.unraised`;
- `nonce_detects_iff`: one call;
- `nonce_watch`: a run without such calls.
-/
import Navin.Sound
import Navin.Token

namespace Navin

variable {H : Host}

namespace Shipment

/-- What an integrator watches is another. -/
def Differs (s t : Shipment) : Prop := t.status ≠ s.status ∨ t.escrowAmount ≠ s.escrowAmount

/-- From `s` to `t` the nonce was advanced `k` times, and not for nothing. -/
structure Raised (s t : Shipment) (k : ℕ) : Prop where
  nonce_eq : t.integrationNonce = min (s.integrationNonce + k) u32Max
  still : k = 0 → ¬s.Differs t

variable {s t u : Shipment} {j k now : ℕ} {x : ℤ}

/-- The nonce never goes down, and it goes up with a change of what is watched. -/
def Watched (s t : Shipment) : Prop :=
  s.integrationNonce ≤ t.integrationNonce ∧
    (s.Differs t → s.integrationNonce < u32Max → s.integrationNonce < t.integrationNonce)

theorem Watched.refl (s : Shipment) : s.Watched s :=
  ⟨le_rfl, fun h => (by rcases h with h | h <;> exact absurd rfl h)⟩

theorem Watched.trans (h : s.Watched t) (h' : t.Watched u) (ht : t.integrationNonce ≤ u32Max) :
    s.Watched u := by
  refine ⟨h.1.trans h'.1, fun hd hlt => ?_⟩
  by_cases hst : s.Differs t
  · exact (h.2 hst hlt).trans_le h'.1
  · have htu : t.Differs u := by
      unfold Differs at hst hd ⊢
      push Not at hst
      rwa [← hst.1, ← hst.2] at hd
    by_cases hmax : t.integrationNonce < u32Max
    · exact h.1.trans_lt (h'.2 htu hmax)
    · have := h'.1
      omega

theorem Raised.watched (h : s.Raised t k) (hs : s.integrationNonce ≤ u32Max) : s.Watched t := by
  have heq := h.nonce_eq
  refine ⟨by omega, fun hd hlt => ?_⟩
  have hk : k ≠ 0 := fun hk => h.still hk hd
  omega

/-- Nothing that is watched changed. -/
theorem Raised.same (hs : s.integrationNonce ≤ u32Max) (hn : t.integrationNonce = s.integrationNonce)
    (hst : t.status = s.status) (he : t.escrowAmount = s.escrowAmount) : s.Raised t 0 := by
  refine ⟨by omega, fun _ hd => ?_⟩
  rcases hd with hd | hd
  · exact hd hst
  · exact hd he

/-- The nonce was written with the record. -/
theorem Raised.next (hn : t.integrationNonce = saturatingAddU32 s.integrationNonce 1) :
    s.Raised t 1 := ⟨hn, fun h => absurd h one_ne_zero⟩

theorem Raised.finalizeIfSettled (h : s.Raised t k) : s.Raised t.finalizeIfSettled k :=
  ⟨h.nonce_eq, h.still⟩

theorem Raised.trans (h : s.Raised t j) (h' : t.Raised u k) : s.Raised u (j + k) := by
  have heq := h.nonce_eq
  have heq' := h'.nonce_eq
  refine ⟨by omega, fun hk hd => ?_⟩
  have hst : ¬s.Differs t := h.still (by omega)
  have htu : ¬t.Differs u := h'.still (by omega)
  unfold Differs at hst htu hd
  push Not at hst htu
  rw [htu.1, htu.2, hst.1, hst.2] at hd
  simp at hd

/-- A payment advances the nonce when it pays. -/
theorem raised_payOff (hs : s.integrationNonce ≤ u32Max) (x : ℤ) (now : ℕ) :
    s.Raised (s.payOff x now) (if 0 < s.payable x then 1 else 0) := by
  by_cases hpos : 0 < s.payable x
  · rw [if_pos hpos]
    exact Raised.next (by rw [payOff_integrationNonce, if_pos hpos])
  · have hz : s.payable x = 0 := le_antisymm (not_lt.mp hpos) (s.payable_nonneg x)
    rw [if_neg hpos, payOff_of_zero hz]
    exact Raised.same hs rfl rfl rfl

theorem raised_payMilestone (hs : s.integrationNonce ≤ u32Max) (name : Symbol) (x : ℤ) (now : ℕ) :
    ∃ k, s.Raised (s.payMilestone name x now) k := by
  have h := raised_payOff (s := s.markPaid name) hs x now
  exact ⟨_, h.nonce_eq, h.still⟩

theorem raised_payBatch (hs : s.integrationNonce ≤ u32Max) (now : ℕ) (names : List Symbol) :
    ∃ k, s.Raised (s.payBatch now names).1 k := by
  induction names generalizing s with
  | nil => exact ⟨0, Raised.same hs rfl rfl rfl⟩
  | cons name names ih =>
    rw [payBatch]
    split
    · exact ih hs
    · split
      · exact ih hs
      · next m _ _ =>
        obtain ⟨j, hj⟩ := raised_payMilestone hs name (s.share m.2) now
        obtain ⟨k, hk⟩ := ih (s := s.payMilestone name (s.share m.2) now)
          (by rw [hj.nonce_eq]; exact min_le_right _ _)
        exact ⟨j + k, hj.trans hk⟩

end Shipment

/-! ### The rules -/

/-- The call changes a record of this kind and leaves its nonce. -/
def Call.bypasses (s : Shipment) : Call → Prop
  | .recoverShipment .. | .unlockEscrow .. => True
  | .confirmDelivery .. => s.escrowAmount ≤ 0
  | _ => False

variable {env : Env} {w w' : World H} {call : Call} {p : Posting}

theorem Rule.raised (hr : Rule env w call p) (hn : p.old.integrationNonce ≤ u32Max)
    (hb : ¬call.bypasses p.old) : ∃ k, p.old.Raised p.new k := by
  cases hr with
  | @confirmDelivery s =>
    have hpos : 0 < s.payable s.escrowAmount := by
      have he : 0 < s.escrowAmount := not_le.mp hb
      rwa [s.payable_all he.le]
    exact ⟨1, Shipment.Raised.next (if_pos hpos)⟩
  | @confirmPartialDelivery s hash percent status _ _ hpos hle =>
    have hpay : 0 < s.payable (s.share percent) := by
      unfold Shipment.payable
      omega
    exact ⟨1, Shipment.Raised.next (if_pos hpay)⟩
  | recordOther => exact ⟨0, .same hn rfl rfl rfl⟩
  | recordMilestone =>
    obtain ⟨k, h⟩ := Shipment.raised_payMilestone hn _ _ env.timestamp
    exact ⟨k, h.finalizeIfSettled⟩
  | releaseMilestonePayment =>
    obtain ⟨k, h⟩ := Shipment.raised_payMilestone hn _ _ env.timestamp
    exact ⟨k, h.finalizeIfSettled⟩
  | recordMilestonesBatch =>
    obtain ⟨k, h⟩ := Shipment.raised_payBatch hn env.timestamp _
    exact ⟨k, h.finalizeIfSettled⟩
  | releaseNothing => exact ⟨0, .same hn rfl rfl rfl⟩
  | releaseEscrow => exact ⟨_, (Shipment.raised_payOff hn _ env.timestamp).finalizeIfSettled⟩
  | clearFinalization => exact ⟨0, .same hn rfl rfl rfl⟩
  | recoverShipment => exact absurd trivial hb
  | unlockEscrow => exact absurd trivial hb
  | _ => exact ⟨1, .next rfl⟩

/-- Behind the nonce. -/
theorem Rule.unraised (hr : Rule env w call p) (hb : call.bypasses p.old) :
    p.new.integrationNonce = p.old.integrationNonce ∧ p.old.Differs p.new := by
  cases hr with
  | @confirmDelivery s _ _ hv =>
    have he : s.escrowAmount ≤ 0 := hb
    have hz : s.payable s.escrowAmount = 0 := by
      unfold Shipment.payable
      omega
    refine ⟨if_neg (by rw [Shipment.payable] at hz ⊢; exact hz.not_gt), .inl fun hd => ?_⟩
    have hd : ShipmentStatus.delivered = s.status := hd
    rw [← hd] at hv
    cases hv
  | recoverShipment _ hne => exact ⟨rfl, .inl (Ne.symm hne)⟩
  | unlockEscrow _ hne => exact ⟨rfl, .inr (Ne.symm hne)⟩
  | forceRelease hx =>
    cases call <;> first | cases hx | cases hb
  | forceRefund hx =>
    cases call <;> first | cases hx | cases hb
  | _ => cases hb

theorem Rule.target_of_bypasses (hr : Rule env w call p) (hb : call.bypasses p.old) :
    call.target? = some p.old.id := by
  rcases hr.concerns with h | h | h
  · exact h
  · cases call <;> first | cases h | cases hb
  · cases call <;> first | cases h | cases hb

/-! ### Chains -/

/-- The nonces of the records fit their width. -/
def Ledger.Stamped {Token : Type} (l : Ledger Token) : Prop :=
  ∀ id s, l.getShipment id = some s → s.integrationNonce ≤ u32Max

theorem Rule.nonce_le (hr : Rule env w call p) (hn : p.old.integrationNonce ≤ u32Max) :
    p.new.integrationNonce ≤ u32Max := by
  by_cases hb : call.bypasses p.old
  · rw [(hr.unraised hb).1]
    exact hn
  · obtain ⟨k, h⟩ := hr.raised hn hb
    rw [h.nonce_eq]
    exact min_le_right _ _

variable {c c' c₀ : Chain H} {l : Label} {ls : List Label} {trace : List Effect} {id : ℕ}
  {s s' : Shipment}

theorem Step.stamped (hstep : Step c l c') (hs : c.world.ledger.Sound) (h : c.world.ledger.Stamped) :
    c'.world.ledger.Stamped := by
  cases hstep with
  | committed _ hx =>
    have hs : c.world.fresh.ledger.Sound := hs
    exact fun id s => (exec_effects hs.keyed hx).forall_records (fun _ _ _ => Nat.zero_le _)
      (fun _ hp => hp.rule.nonce_le) h
  | reverted => exact h
  | outside => exact h

theorem Reachable.stamped (hc : Reachable c) : c.world.ledger.Stamped :=
  hc.inv (I := fun c => c.world.ledger.Stamped) (fun _ _ _ _ hs => by cases hs)
    fun _ _ _ ha h hstep => hstep.stamped ha.sound h

/-- The records of two states, as an integrator compares them. -/
def World.Watched (w w' : World H) : Prop :=
  ∀ id s s', w.getShipment id = some s → w'.getShipment id = some s' → s.Watched s'

/-- The call changes a stored record and leaves its nonce, which could still be advanced. -/
def World.Bypasses (w : World H) (call : Call) : Prop :=
  ∃ id ∈ call.target?, ∃ s ∈ w.getShipment id, call.bypasses s ∧ s.integrationNonce < u32Max

/-- The calls of the step leave no change behind a nonce. -/
def Label.Marks (c : Chain H) : Label → Prop
  | .committed call _ _ => ¬c.world.Bypasses call
  | _ => True

/-- A posting, as an integrator sees it. -/
theorem PostedBy.watched {b : Book H.Token} (hp : PostedBy env w call p b) (hk : w.ledger.Stamped)
    (hb : ¬w.Bypasses call) : p.old.Watched p.new := by
  have hn := hk p.old.id p.old hp.stored
  by_cases h : call.bypasses p.old
  · obtain ⟨heq, -⟩ := hp.rule.unraised h
    have hmax : ¬p.old.integrationNonce < u32Max := fun hlt =>
      hb ⟨_, hp.rule.target_of_bypasses h, _, hp.stored, h, hlt⟩
    exact ⟨heq.ge, fun _ hlt => absurd hlt hmax⟩
  · obtain ⟨k, h⟩ := hp.rule.raised hn h
    exact h.watched hn

/-- A record after a step. -/
theorem Step.record_watched (hstep : Step c l c') (hc : Reachable c) (hl : l.Marks c)
    (hg : c.world.getShipment id = some s) :
    ∃ s', c'.world.getShipment id = some s' ∧ s.Watched s' := by
  cases hstep with
  | committed _ hx =>
    have hs : c.world.fresh.ledger.Sound := hc.sound
    obtain ⟨s', hg', hcase⟩ := (exec_effects hs.keyed hx).record hs hg
    refine ⟨s', hg', ?_⟩
    rcases hcase with rfl | ⟨p, hp, rfl, rfl⟩
    · exact .refl s'
    · exact hp.watched hc.stamped hl
  | reverted => exact ⟨s, hg, .refl s⟩
  | outside => exact ⟨s, hg, .refl s⟩

/-- **The nonce.** A call raises the nonce of every record whose status or escrow it changes,
and lowers none, unless it is one of those that change a record behind its nonce. -/
theorem nonce_detects_iff (hc : Reachable c) (hstep : Step c (.committed call env trace) c') :
    c.world.Watched c'.world ↔ ¬c.world.Bypasses call := by
  constructor
  · rintro hw ⟨id, hid, s, hg, hb, hlt⟩
    cases hstep with
    | committed _ hx =>
      have hs : c.world.fresh.ledger.Sound := hc.sound
      have hposts : call.posts = true := by cases call <;> first | rfl | cases hb
      obtain ⟨p, hp⟩ := (exec_effects hs.keyed hx).exists_posting hposts
      have heq : p.old.id = id := hp.rule.concerns.eq_of_target hid
      obtain rfl : p.old = s := by
        have hstored := hp.stored
        rw [heq] at hstored
        exact Option.some.inj (hstored.symm.trans hg)
      obtain ⟨hsame, hdiff⟩ := hp.rule.unraised hb
      have hnew := (hw p.old.id p.old p.new hp.stored hp.stored_new).2 hdiff hlt
      omega
  · intro hb id s s' hg hg'
    obtain ⟨t, ht, hw⟩ := hstep.record_watched hc hb hg
    rwa [Option.some.inj (hg'.symm.trans ht)]

/-- A run of calls that leave no change behind a nonce: between two equal nonces, neither the
status nor the escrow of the shipment changed. -/
theorem nonce_watch (hc : Reachable c) (hr : Run (Under Step fun c l => l.Marks c) c ls c')
    (hg : c.world.getShipment id = some s) : ∃ s', c'.world.getShipment id = some s' ∧ s.Watched s' := by
  refine (hr.inv (I := fun x => Reachable x ∧ ∃ t, x.world.getShipment id = some t ∧ s.Watched t)
    ⟨hc, s, hg, .refl s⟩ ?_).2
  rintro x l y ⟨hx, t, ht, hst⟩ ⟨hstep, hl⟩
  obtain ⟨u, hu, htu⟩ := hstep.record_watched hx hl ht
  exact ⟨hx.step hstep, u, hu, hst.trans htu (hx.stamped id t ht)⟩

/-- The carrier takes a shipment into transit. -/
theorem nonce_detects_inTransit : ∃ (c c' : Chain Deployment.host) (call : Call) (env : Env)
    (trace : List Effect), Reachable c ∧ Step c (.committed call env trace) c' ∧
      (c.world.getShipment 1).map (·.status) = some .created ∧
      (c'.world.getShipment 1).map (·.status) = some .inTransit ∧ c.world.Watched c'.world := by
  obtain ⟨ls, c, trace, c', hr, hstep, hs, hs'⟩ := exists_commit Deployment.chain
    Deployment.opening (.updateStatus Deployment.carrier 1 .inTransit 2)
    ⟨5, 5, fun a => a = Deployment.carrier, fun _ => true⟩
    (fun r _ c' => (r.2.world.getShipment 1).map (·.status) = some .created ∧
      (c'.world.getShipment 1).map (·.status) = some .inTransit)
    (by decide +kernel)
  have hc : Reachable c := ⟨_, ls, Deployment.deployed, hr⟩
  refine ⟨c, c', _, _, trace, hc, hstep, hs, hs', (nonce_detects_iff hc hstep).mpr ?_⟩
  rintro ⟨_, _, _, _, hb, _⟩
  exact hb

/-- The receiver confirms the delivery of a shipment that was never funded. -/
theorem nonce_misses_delivery : ¬∀ (c c' : Chain Deployment.host) (call : Call) (env : Env)
    (trace : List Effect), Reachable c → Step c (.committed call env trace) c' →
      c.world.Watched c'.world := by
  intro hall
  obtain ⟨ls, c, trace, c', hr, hstep, hs, hs'⟩ := exists_commit Deployment.chain
    (Deployment.opening ++ [
      Deployment.signed Deployment.carrier 5 (.updateStatus Deployment.carrier 1 .inTransit 2)])
    (.confirmDelivery Deployment.receiver 1 3)
    ⟨6, 6, fun a => a = Deployment.receiver, fun _ => true⟩
    (fun r _ c' =>
      (r.2.world.getShipment 1).map (fun s => (s.status, s.integrationNonce)) = some (.inTransit, 1) ∧
      (c'.world.getShipment 1).map (fun s => (s.status, s.integrationNonce)) = some (.delivered, 1))
    (by decide +kernel)
  obtain ⟨s, hg, hs⟩ := Option.map_eq_some_iff.mp hs
  obtain ⟨s', hg', hs'⟩ := Option.map_eq_some_iff.mp hs'
  obtain ⟨hst, hn⟩ := Prod.mk.inj hs
  obtain ⟨hst', hn'⟩ := Prod.mk.inj hs'
  have hw := (hall c c' _ _ trace ⟨_, ls, Deployment.deployed, hr⟩ hstep 1 s s' hg hg').2
    (.inl (by rw [hst, hst']; decide)) (by rw [hn]; decide)
  omega

end Navin
