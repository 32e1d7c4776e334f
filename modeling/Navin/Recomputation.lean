/-
# Keys recomputed by a client

A client that knows the shipment, the topic and the number of an event can ask the
contract for its key. The answer is looked up: the domain in a table of topics, the
topic itself in a copy of its encoding that has room for 24 characters. An emitter passes
both by hand. They agree for every topic but two: one has its events hashed in another
domain than the table says, and one is too long for the copy.

Key definitions:
- `emitterKinds`: the domain and the topic each emitter passes.

Key theorems:
- `computeIdempotencyKey_eq`: what the view answers;
- `key_recomputed_iff`: against the keys of any run.
-/
import Navin.Entry.Queries
import Navin.Keys
import Navin.Creation
import Navin.Lib.Alike
import Mathlib.Tactic.Ring

namespace Navin

open Tx

variable {H : Host} {env : Env} {w w' : World H}

/-! ### The view -/

theorem utf8EncodeChar_ofUInt8 {b : UInt8} (h : isSymbolByte b = true) :
    String.utf8EncodeChar (Char.ofUInt8 b) = [b] := by
  have hle : b.toNat ≤ 127 := by
    simp [isSymbolByte, UInt8.le_iff_toNat_le, ← UInt8.toNat_inj] at h
    omega
  have hval : (Char.ofUInt8 b).val = b.toUInt32 := rfl
  rw [String.utf8EncodeChar_eq_singleton]
  · rw [hval]
    simp
  · rw [Char.utf8Size_eq_one_iff, UInt32.le_iff_toNat_le]
    exact hle

/-- The bytes of a symbol are characters. -/
theorem isValidUTF8_of_symbol {bytes : List UInt8} (h : bytes.all isSymbolByte = true) :
    bytes.toByteArray.IsValidUTF8 := by
  refine ⟨bytes.map Char.ofUInt8, ?_⟩
  unfold List.utf8Encode
  congr 1
  rw [List.flatMap_map]
  conv_lhs => rw [← List.flatMap_singleton' bytes]
  exact List.flatMap_congr  fun b hb => (utf8EncodeChar_ofUInt8 (List.all_eq_true.mp h b hb)).symm

/-- The answer of the view: a key for the topics that fit, a panic for the others. -/
theorem computeIdempotencyKey_eq (id : ℕ) (s : Symbol) (n : ℕ) (w : World H) :
    computeIdempotencyKey id s n env w = if s.bytes.length ≤ 24 then
      .ok (H.sha256 (idempotencyPayload (hashDomainForSymbol s) id s.bytes n)) w else .trap := by
  obtain ⟨hraw, hcount, htopic⟩ := xdrBuffer_xdrSymbol s.bytes
  have hbuffer : xdrBuffer (xdrSymbol s.bytes) =
      s.toXdr.take 32 ++ List.replicate (32 - s.toXdr.length) 0 := rfl
  rw [hbuffer] at hraw hcount htopic
  have hlen : fromBeBytes (beBytes 4 s.bytes.length) = s.bytes.length :=
    fromBeBytes_beBytes (lt_of_le_of_lt s.length_le (by decide))
  unfold computeIdempotencyKey
  dsimp only
  rw [hraw, hcount, hlen]
  by_cases hle : s.bytes.length ≤ 24
  · rw [if_pos hle, htopic hle, utf8OrEmpty, if_pos (isValidUTF8_of_symbol s.legal),
      trapIf_of_not (by omega)]
    rfl
  · rw [if_neg hle]
    change Tx.bind (trapIf (32 < 8 + s.bytes.length)) _ env w = .trap
    unfold Tx.bind trapIf
    rw [if_pos (by omega)]

/-! ### The emitters -/

/-- The domain and the topic that each emitter of an indexed event passes. -/
def emitterKinds : List (ℕ × String) := [
  (HashDomain.shipment, Topic.shipmentCreated), (HashDomain.shipment, Topic.statusUpdated),
  (HashDomain.shipment, Topic.milestoneRecorded), (HashDomain.escrow, Topic.escrowDeposited),
  (HashDomain.escrow, Topic.escrowReleased), (HashDomain.escrow, Topic.escrowRefunded),
  (HashDomain.escrow, Topic.milestonePaymentReleased),
  (HashDomain.platform, Topic.platformFeeCollected),
  (HashDomain.shipment, Topic.shipmentCancelled), (HashDomain.shipment, Topic.shipmentExpired),
  (HashDomain.shipment, Topic.deliverySuccess), (HashDomain.dispute, Topic.disputeResolved),
  (HashDomain.shipment, Topic.deliveryConfirmed), (HashDomain.shipment, Topic.geofenceEvent),
  (HashDomain.shipment, Topic.etaUpdated)]

theorem kind_of_stamp {e : Event} {st : Stamp} (h : e.stamp? = some st) :
    (st.domain, st.topic) ∈ emitterKinds := by
  cases e <;> cases h <;> simp [emitterKinds]

/-- The table and the buffer against what the emitters pass. -/
theorem emitterKinds_spec : ∀ kind ∈ emitterKinds,
    (hashDomainForEvent kind.2.toUTF8.toList = kind.1 ↔ kind.2 ≠ Topic.geofenceEvent) ∧
    hashDomainForEvent kind.2.toUTF8.toList < 256 ∧
    (kind.2.toUTF8.toList.length ≤ 24 ↔ kind.2 ≠ Topic.milestonePaymentReleased) := by
  decide +kernel

/-- No other domain gives the event the same key. -/
def Stamp.Separated (H : Host) (st : Stamp) : Prop :=
  ∀ domain < 256, H.sha256 (idempotencyPayload domain st.id st.topic.toUTF8.toList
    st.key.eventCounter) = st.key.idempotencyKey → domain = st.domain

instance (st : Stamp) : Decidable (st.Separated H) :=
  @Nat.decidableBallLT 256 _ fun domain _ => inferInstanceAs (Decidable (H.sha256 (idempotencyPayload
    domain st.id st.topic.toUTF8.toList st.key.eventCounter) = st.key.idempotencyKey →
      domain = st.domain))

variable {c c₀ : Chain H} {ls : List Label} {st : Stamp}

/-- The keys of a run are hashed from what some emitter passes. -/
theorem stamp_of_run (hr : Run Step c₀ ls c) (hst : st ∈ stampsOf (ls.flatMap Label.trace)) :
    (st.domain, st.topic) ∈ emitterKinds ∧ st.Genuine H := by
  refine hr.inv_hist (I := fun ks _ => ∀ st ∈ stampsOf (ks.flatMap Label.trace),
    (st.domain, st.topic) ∈ emitterKinds ∧ st.Genuine H) (fun _ h => (by cases h)) ?_ st hst
  intro ks x l y _ ih hstep st hst
  rw [List.flatMap_append, List.flatMap_singleton, stampsOf_append, List.mem_append] at hst
  rcases hst with hst | hst
  · exact ih st hst
  · cases hstep with
    | committed _ hx =>
      refine ⟨?_, (keys_exec hx).1 st hst⟩
      obtain ⟨x, -, hst⟩ := List.mem_filterMap.mp hst
      cases x with
      | event e => exact kind_of_stamp hst
      | _ => cases hst
    | reverted => cases hst
    | outside => cases hst

/-- **A client's key.** The view answers with the key of an event exactly when the topic of
the event is neither that of a milestone payment nor that of a geofence event. -/
theorem key_recomputed_iff (hr : Run Step c₀ ls c) (hst : st ∈ stampsOf (ls.flatMap Label.trace))
    (hsep : st.Separated H) {s : Symbol} (hs : s.bytes = st.topic.toUTF8.toList) :
    computeIdempotencyKey st.id s st.key.eventCounter env w = .ok st.key.idempotencyKey w ↔
      st.topic ≠ Topic.milestonePaymentReleased ∧ st.topic ≠ Topic.geofenceEvent := by
  obtain ⟨hkind, hgen⟩ := stamp_of_run hr hst
  obtain ⟨hdomain, hlt, hlen⟩ := emitterKinds_spec _ hkind
  unfold Stamp.Genuine at hgen
  unfold Stamp.Separated at hsep
  rw [← hs] at hdomain hlt hlen hgen hsep
  rw [computeIdempotencyKey_eq, ← hlen, ← hdomain]
  by_cases hfits : s.bytes.length ≤ 24
  · rw [if_pos hfits, Outcome.ok.injEq, and_iff_left rfl, and_iff_right hfits]
    constructor
    · exact fun h => hsep _ hlt h
    · intro h
      rw [hashDomainForSymbol, h, hgen]
  · rw [if_neg hfits]
    exact iff_of_false (fun h => by cases h) fun h => hfits h.1

/-- The creation of a shipment, recomputed. -/
theorem key_recomputed_created : ∃ (c : Chain Deployment.host) (ls : List Label) (st : Stamp)
    (s : Symbol), Run Step Deployment.chain ls c ∧ st ∈ stampsOf (ls.flatMap Label.trace) ∧
      s.bytes = Topic.shipmentCreated.toUTF8.toList ∧ ∀ env (w : World Deployment.host),
        computeIdempotencyKey st.id s st.key.eventCounter env w = .ok st.key.idempotencyKey w := by
  obtain ⟨ls, c, hr, -, hall, hlen⟩ := exists_play Deployment.chain Deployment.opening
    (fun r => (∀ st ∈ stampsOf (r.1.flatMap Label.trace),
      st.topic = Topic.shipmentCreated ∧ st.Separated Deployment.host) ∧
      (stampsOf (r.1.flatMap Label.trace)).length = 1) (by decide +kernel)
  obtain ⟨st, hst⟩ := List.length_eq_one_iff.mp hlen
  have hmem : st ∈ stampsOf (ls.flatMap Label.trace) := by
    rw [hst]
    exact List.mem_singleton_self st
  obtain ⟨htopic, hsep⟩ := hall st hmem
  have hs : Topic.shipmentCreated.toUTF8.toList = st.topic.toUTF8.toList := by rw [htopic]
  refine ⟨c, ls, st, ⟨Topic.shipmentCreated.toUTF8.toList, by decide +kernel, by decide +kernel⟩, hr,
    hmem, rfl, fun env w => (key_recomputed_iff hr hmem hsep hs).mpr ?_⟩
  rw [htopic]
  decide

/-- The carrier records a milestone that is paid: the key of the payment cannot be asked for. -/
theorem key_unanswered : ¬∀ (c : Chain Deployment.host) (ls : List Label) (st : Stamp) (s : Symbol),
    Run Step Deployment.chain ls c → st ∈ stampsOf (ls.flatMap Label.trace) →
      s.bytes = st.topic.toUTF8.toList → ∀ env (w : World Deployment.host),
        computeIdempotencyKey st.id s st.key.eventCounter env w = .ok st.key.idempotencyKey w := by
  intro hall
  obtain ⟨ls, c, hr, -, hany⟩ := exists_play Deployment.chain
    (Deployment.opening ++ [
      Deployment.signed Deployment.company 5 (.depositEscrow Deployment.company 1 1000),
      Deployment.signed Deployment.carrier 100 (.updateStatus Deployment.carrier 1 .inTransit 3),
      Deployment.signed Deployment.carrier 200
        (.recordMilestone Deployment.carrier 1 Deployment.pickup 4)])
    (fun r => ∃ st ∈ stampsOf (r.1.flatMap Label.trace), st.topic = Topic.milestonePaymentReleased)
    (by decide +kernel)
  obtain ⟨st, hst, htopic⟩ := hany
  have h := hall c ls st ⟨Topic.milestonePaymentReleased.toUTF8.toList, by decide +kernel,
    by decide +kernel⟩ hr hst (by rw [htopic]) ⟨0, 0, fun _ => false, fun _ => false⟩ c.world
  rw [computeIdempotencyKey_eq, if_neg (by decide +kernel)] at h
  cases h

end Navin
