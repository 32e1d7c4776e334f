/-
# What the guards let through

The checks at the head of the entry points change nothing but the trace. Each
rule says what is known once the check was passed.

Key theorems:
- `wp_guard`: a check is passed over;
- `wp_openCall`, `wp_requireAdmin`, `wp_requireNotFinalized` and the others: a
  check is passed, and what it checked holds.
-/
import Navin.Book

namespace Navin

open Tx

variable {H : Host} {α : Type} {Q : α → World H → Prop} {QU : Unit → World H → Prop} {env : Env}
  {w : World H}

/-- A function that only reads is passed over. -/
theorem wp_guard {m : Contract H α} [hm : Preserves (fun w : World H => w) m] (h : ∀ a, Q a w) :
    wp m env w Q :=
  (hm.out env w).mono fun a w' hw => by
    have hw : w' = w := hw
    rw [hw]
    exact h a

/-- The world after `a` signed. -/
def World.signed (w : World H) (a : Address) : World H := { w with trace := w.trace ++ [.auth a] }

@[simp] theorem signed_ledger (w : World H) (a : Address) : (w.signed a).ledger = w.ledger := rfl

@[simp] theorem signed_governance (w : World H) (a : Address) :
    (w.signed a).governance = w.governance := rfl

@[simp] theorem signed_dossier (w : World H) (a : Address) : (w.signed a).dossier = w.dossier := rfl

@[simp] theorem signed_book (w : World H) (a : Address) : (w.signed a).book = w.book :=
  AuthFree.out w a

@[simp] theorem signed_hasActiveRole (w : World H) (a b : Address) (r : Role) :
    (w.signed a).hasActiveRole b r = w.hasActiveRole b r := rfl

@[simp] theorem signed_executing (w : World H) (a : Address) (pid : ℕ) :
    (w.signed a).governance.proposal pid = w.governance.proposal pid := rfl

theorem wp_modifyGovernance {g : Governance → Governance} :
    wp (modifyGovernance g : Contract H Unit) env w QU ↔
      QU () { w with governance := g w.governance } := by
  unfold modifyGovernance
  rw [wp_modify]

theorem wp_log {e : Effect} : wp (log e : Contract H Unit) env w QU ↔
    QU () { w with trace := w.trace ++ [e] } := by
  unfold log
  rw [wp_modify]

theorem wp_requireInitialized (h : w.ledger.admin ≠ none → QU () w) :
    wp (requireInitialized : Contract H Unit) env w QU := by
  unfold requireInitialized
  simp only [wp_bind, wp_gets, wp_rejectIf]
  intro hi
  refine h fun hn => hi ?_
  simp [World.isInitialized, hn]

theorem wp_requireAuth {a : Address} (h : env.auth a = true → QU () (w.signed a)) :
    wp (requireAuth a) env w QU := by
  unfold requireAuth
  simp only [wp_bind, wp_ask, wp_trapIf, wp_log, Bool.not_eq_false]
  exact h

theorem wp_openCall {a : Address}
    (h : w.ledger.admin ≠ none → env.auth a = true → QU () (w.signed a)) :
    wp (openCall a) env w QU := by
  unfold openCall
  simp only [wp_bind]
  refine wp_requireInitialized fun hi => ?_
  refine wp_guard fun _ => ?_
  exact wp_requireAuth fun ha => h hi ha

theorem wp_getAdmin {Q : Address → World H → Prop}
    (h : ∀ a, w.ledger.admin = some a → Q a w) : wp (getAdmin : Contract H Address) env w Q := by
  unfold getAdmin
  simp only [wp_bind, wp_gets, wp_unwrap]
  exact h

theorem wp_requireAdmin {a : Address} (h : w.ledger.admin = some a → QU () w) :
    wp (requireAdmin a) env w QU := by
  unfold requireAdmin
  rw [wp_bind]
  refine wp_getAdmin fun b hb => ?_
  rw [wp_rejectIf]
  intro hab
  rw [not_not.mp hab] at hb
  exact h hb

theorem wp_requireAdminOrGuardian {a : Address}
    (h : w.ledger.admin = some a ∨ w.hasActiveRole a .guardian = true → QU () w) :
    wp (requireAdminOrGuardian a) env w QU := by
  unfold requireAdminOrGuardian requireAdminOr
  rw [wp_bind]
  refine wp_guard fun _ => ?_
  rw [wp_bind]
  refine wp_getAdmin fun b hb => ?_
  rw [wp_bind, wp_gets, wp_rejectIf]
  intro hn
  refine h ?_
  by_cases hba : b = a
  · rw [hb, hba]
    exact .inl rfl
  · refine .inr ?_
    by_contra hg
    exact hn ⟨hba, by simpa using hg⟩

theorem wp_requireNotFinalized {s : Shipment} (h : s.finalized = false → QU () w) :
    wp (requireNotFinalized s) env w QU := by
  unfold requireNotFinalized
  rw [wp_rejectIf, Bool.not_eq_true]
  exact h

theorem wp_validateShipmentTransition {s t : ShipmentStatus}
    (h : s.isValidTransition t = true → QU () w) :
    wp (validateShipmentTransition s t) env w QU := by
  unfold validateShipmentTransition
  rw [wp_rejectIf, Bool.not_eq_false]
  exact h

/-- The caller is a party or the admin. -/
theorem wp_requireEither {caller party admin : Address} {e : NavinError}
    (hadm : w.ledger.admin = some admin)
    (h : caller = party ∨ w.ledger.admin = some caller → QU () w) :
    wp (rejectIf (caller ≠ party ∧ caller ≠ admin) e) env w QU := by
  rw [wp_rejectIf]
  intro hn
  refine h ?_
  by_cases hp : caller = party
  · exact .inl hp
  · refine .inr ?_
    rw [hadm]
    by_contra hc
    exact hn ⟨hp, fun he => hc (by rw [he])⟩

theorem wp_checkedMulDiv {a b c : ℤ} {Q : ℤ → World H → Prop} (h : Q ((a * b).tdiv c) w) :
    wp (checkedMulDiv a b c) env w Q := by
  unfold checkedMulDiv
  simp only [wp_bind, wp_rejectIf, wp_okOr, wp_pure]
  intro _ product hp
  rw [checkedI128_eq_some hp]
  exact h

/-- The lock is set around an operation: the operation sees the same book and the
same fees. -/
theorem wp_withReentrancyLock {m : Contract H Unit}
    (h : ∀ w₁ : World H, w₁.book = w.book → w₁.governance.feeConfig = w.governance.feeConfig →
      w₁.ledger = w.ledger → wp m env w₁ fun _ w₂ => ∀ w₃ : World H, w₃.book = w₂.book → QU () w₃) :
    wp (withReentrancyLock m) env w QU := by
  unfold withReentrancyLock
  simp only [wp_bind, wp_gets, wp_rejectIf, wp_modifyGovernance, wp_ensure]
  intro _
  refine wp.mono (h _ ?_ ?_ ?_) fun _ w₂ h₂ => h₂ _ ?_ <;> rfl

/-- Every stored record is stored under its own id. -/
structure Ledger.Keyed {Token : Type} (l : Ledger Token) : Prop where
  live : ∀ id s, l.shipment id = some s → s.id = id
  archived : ∀ id s, l.archivedShipment id = some s → s.id = id

theorem Ledger.Keyed.get {Token : Type} {l : Ledger Token} (h : l.Keyed) {id : ℕ} {s : Shipment}
    (hs : l.getShipment id = some s) : s.id = id := by
  unfold Ledger.getShipment at hs
  cases hl : l.shipment id with
  | none =>
    rw [hl] at hs
    exact h.archived id s hs
  | some t =>
    rw [hl] at hs
    obtain rfl : t = s := Option.some.inj hs
    exact h.live id t hl

/-- The record a call loads, under the id it was asked for. -/
theorem wp_load {Q : Shipment → World H → Prop} {id : ℕ} (hk : w.book.ledger.Keyed)
    (h : ∀ s, s.id = id → w.book.ledger.getShipment s.id = some s → Q s w) :
    wp (loadShipment id) env w Q :=
  wp_loadShipment fun s hs => h s (hk.get hs) (by rw [hk.get hs]; exact hs)

end Navin
