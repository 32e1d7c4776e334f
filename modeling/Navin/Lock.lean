/-
# The reentrancy lock

Three entry points take the lock around the token: a deposit, a release and a
refund. The other functions neither look at the lock nor report it, and a dozen of
them reach the token.

Key definitions:
- `Lockless`: however the function ends, the lock is as it was, and the error is not
  that of the lock;
- `Call.Invokes`: the call asks the token for a transfer.

Key theorems:
- `lockless_exec`: every other call is lockless;
- `lock_covers_iff`.
-/
import Navin.Errors
import Navin.Laws
import Navin.Token

namespace Navin

open Tx

set_option synthInstance.maxSize 4000

variable {H : Host} {α : Type}

/-- The error of the lock. -/
@[reducible] def NavinError.isReentrancy : NavinError → Bool
  | .reentrancyDetected => true
  | _ => false

def World.locked (w : World H) : Bool := w.governance.reentrancyLock

/-- The function does not know the lock. -/
abbrev Lockless (m : Contract H α) : Prop := Spares World.locked NavinError.isReentrancy m

/-! ### Functions that do not know the lock -/

instance (g : Ledger H.Token → Ledger H.Token) : Lockless (modifyLedger g) := .modify fun _ => rfl

instance (g : Registry → Registry) : Lockless (modifyRegistry g : Contract H Unit) :=
  .modify fun _ => rfl

instance (g : Dossier → Dossier) : Lockless (modifyDossier g : Contract H Unit) :=
  .modify fun _ => rfl

instance (g : Governance → Governance) [h : ∀ x, Same (g x).reentrancyLock x.reentrancyLock] :
    Lockless (modifyGovernance g : Contract H Unit) := .modify fun w => (h w.governance).out

instance (e : Effect) : Lockless (log e : Contract H Unit) := .modify fun _ => rfl

instance (id : ℕ) : Lockless (incrementEventCount id : Contract H Unit) := by
  unfold incrementEventCount
  infer_instance

/-- The functions that do not know the lock, as a law. -/
abbrev lockLaw (H : Host) : Law (World H) NavinError := .frame World.locked NavinError.isReentrancy

instance (payload : List UInt8) : Obeys (lockLaw H) (checkIdempotency payload) := by
  have h : Lockless (checkIdempotency payload : Contract H Unit) := by
    unfold checkIdempotency hasIdempotencyWindow setIdempotencyWindow
    infer_instance
  exact h.obeys

instance : (lockLaw H).Fits where
  ordinary e w he := by
    refine ⟨rfl, ?_⟩
    cases e <;> first | rfl | cases he
  ledger _ _ := rfl
  registry _ _ := rfl
  dossier _ _ _ := rfl
  governance _ _ h _ _ := h
  keyless _ _ _ := rfl
  counted _ _ _ _ := Spares.obeys inferInstance
  transfer _ _ _ _ := Spares.obeys inferInstance
  settled _ _ _ _ _ _ := Spares.obeys inferInstance

instance : (lockLaw H).Announces where
  keyed domain topic id event _ := by
    have h : Lockless (emitKeyed domain topic id event : Contract H Unit) := by
      unfold emitKeyed
      infer_instance
    exact h.obeys

/-- A call that does not take the lock does not know it. -/
theorem lockless_exec {call : Call} (h : call.takesLock = false) :
    Lockless (call.exec : Contract H Unit) := by
  refine Obeys.spares (obeys_exec (fun _ => inferInstance) (fun _ _ => inferInstance) ?_ ?_ ?_)
  · rw [h]
    exact fun hl => by cases hl
  · intro _ id _ s
    have h : Lockless (storageArchiveShipment id s : Contract H Unit) := by
      unfold storageArchiveShipment
      infer_instance
    exact h.obeys
  · exact fun _ _ => Spares.obeys inferInstance

/-! ### Asking the token -/

/-- The same host with a token contract that answers otherwise. -/
def Host.answering (H : Host)
    (transfer : H.Token → (Address → Bool) → Address → Address → Address → ℤ → Option H.Token) : Host :=
  { H with transfer := transfer }

/-- A world, with nothing said about the host. -/
structure Snapshot (Token : Type) where
  ledger : Ledger Token
  registry : Registry
  dossier : Dossier
  governance : Governance
  trace : List Effect

def World.snapshot (w : World H) : Snapshot H.Token :=
  ⟨w.ledger, w.registry, w.dossier, w.governance, w.trace⟩

/-- The world of a snapshot, over a host with the same tokens. -/
def Snapshot.world (s : Snapshot H.Token) : World H := ⟨s.ledger, s.registry, s.dossier, s.governance, s.trace⟩

/-- The end of a computation, seen from outside. -/
def Outcome.map {ε σ τ α : Type} (g : σ → τ) : Outcome ε σ α → Outcome ε τ α
  | .ok a s => .ok a (g s)
  | .err e s => .err e (g s)
  | .trap => .trap

/-- How a call ends when it starts from a snapshot. -/
def Call.outcome (H : Host) (call : Call) (env : Env) (s : Snapshot H.Token) :
    Outcome NavinError (Snapshot H.Token) Unit :=
  Outcome.map World.snapshot ((call.exec : Contract H Unit) env s.world)

/-- The call asks the token for a transfer: with other answers it ends otherwise. -/
def Call.Invokes (call : Call) (env : Env) (w : World H) : Prop :=
  ∃ transfer, call.outcome (H.answering transfer) env w.snapshot ≠ call.outcome H env w.snapshot

def World.unlocked (w : World H) : World H :=
  { w with governance := { w.governance with reentrancyLock := false } }

/-- The call is refused because of the lock, and the lock stays. -/
def Call.Blocked (call : Call) (env : Env) (w : World H) : Prop :=
  (∃ w', call.exec env w = .err .reentrancyDetected w' ∧ w'.locked = true) ∧ ¬call.Invokes env w

/-! ### The calls that take the lock -/

namespace Snapshot

variable {Token : Type} (s : Snapshot Token)

def signed (a : Address) : Snapshot Token := { s with trace := s.trace ++ [.auth a] }

/-- What the three calls check before they take the lock: the opening, and for a
deposit the role. No host is needed to say it. -/
def gate (env : Env) (caller : Address) (asCompany : Bool) : Outcome NavinError (Snapshot Token) Unit :=
  if s.ledger.admin.isSome = false then .err .notInitialized s
  else if s.governance.isPaused = true then .err .contractPaused s
  else if env.auth caller = false then .trap
  else if asCompany = true ∧ s.registry.userRole caller .company = false then
    .err .unauthorized (s.signed caller)
  else if asCompany = true ∧ s.registry.roleSuspended caller .company = true then
    .err .unauthorized (s.signed caller)
  else if asCompany = true ∧ s.registry.companySuspended caller = true then
    .err .companySuspended (s.signed caller)
  else .ok () (s.signed caller)

end Snapshot

variable {env : Env} {w : World H}

theorem gate_openCall (caller : Address) (s : Snapshot H.Token) :
    Outcome.map World.snapshot ((openCall caller : Contract H Unit) env s.world) =
      s.gate env caller false := by
  unfold openCall requireInitialized requireNotPaused requireAuth Snapshot.gate
  simp only [Bind.bind, Tx.bind, Tx.gets, rejectIf, Tx.ask, trapIf, log, Tx.modify, World.isInitialized,
    Snapshot.world]
  by_cases h₁ : s.ledger.admin.isSome = false
  · simp [h₁, Outcome.map, World.snapshot]
  by_cases h₂ : s.governance.isPaused = true
  · simp [h₁, h₂, Outcome.map, World.snapshot]
  by_cases h₃ : env.auth caller = false
  · simp [h₁, h₂, h₃, Outcome.map]
  · simp [h₁, h₂, h₃, Outcome.map, World.snapshot, Snapshot.signed]

theorem gate_requireRole (caller : Address) (s : Snapshot H.Token) :
    Outcome.map World.snapshot ((do openCall caller; requireRole caller .company : Contract H Unit) env
      s.world) = s.gate env caller true := by
  unfold requireRole openCall requireInitialized requireNotPaused requireAuth Snapshot.gate
  simp only [Bind.bind, Tx.bind, Tx.gets, rejectIf, Tx.ask, trapIf, log, Tx.modify, World.isInitialized,
    Snapshot.world]
  by_cases h₁ : s.ledger.admin.isSome = false
  · simp [h₁, Outcome.map, World.snapshot]
  by_cases h₂ : s.governance.isPaused = true
  · simp [h₁, h₂, Outcome.map, World.snapshot]
  by_cases h₃ : env.auth caller = false
  · simp [h₁, h₂, h₃, Outcome.map]
  by_cases h₄ : s.registry.userRole caller .company = false
  · simp [h₁, h₂, h₃, h₄, Outcome.map, World.snapshot, World.hasRole, Snapshot.signed]
  by_cases h₅ : s.registry.roleSuspended caller .company = true
  · simp [h₁, h₂, h₃, h₄, h₅, Outcome.map, World.snapshot, World.hasRole, World.isRoleSuspended,
      Snapshot.signed]
  by_cases h₆ : s.registry.companySuspended caller = true
  · simp [h₁, h₂, h₃, h₄, h₅, h₆, Outcome.map, World.snapshot, World.hasRole, World.isRoleSuspended,
      World.isCompanySuspended, Snapshot.signed]
  · simp [h₁, h₂, h₃, h₄, h₅, h₆, Outcome.map, World.snapshot, World.hasRole, World.isRoleSuspended,
      World.isCompanySuspended, Snapshot.signed]

theorem withReentrancyLock_of_locked {m : Contract H α} (h : w.locked = true) :
    withReentrancyLock m env w = .err .reentrancyDetected w := by
  have h : w.governance.reentrancyLock = true := h
  change Tx.bind _ _ env w = _
  simp only [Tx.bind, rejectIf, h, if_true]

/-- Who makes one of the three calls. -/
def Call.locker : Call → Address
  | .depositEscrow source .. => source
  | .releaseEscrow caller _ | .refundEscrow caller _ => caller
  | _ => .account 0

def Call.isDeposit : Call → Bool
  | .depositEscrow .. => true
  | _ => false

/-- One of the three calls is its gate, and then an operation under the lock. -/
theorem exec_of_takesLock {call : Call} (h : call.takesLock = true) :
    ∃ (g : Contract H Unit) (op : Contract H Unit), call.exec = g >>= (fun _ => withReentrancyLock op) ∧
      Obeys (lockLaw H) g ∧ ∀ env (s : Snapshot H.Token), Outcome.map World.snapshot (g env s.world) =
        s.gate env call.locker call.isDeposit := by
  cases call with
  | depositEscrow source =>
    exact ⟨_, _, (bind_assoc ..).symm, inferInstance, fun env s => gate_requireRole source s⟩
  | releaseEscrow caller => exact ⟨_, _, rfl, inferInstance, fun env s => gate_openCall caller s⟩
  | refundEscrow caller => exact ⟨_, _, rfl, inferInstance, fun env s => gate_openCall caller s⟩
  | _ => cases h

section

variable {call : Call} {s s₁ : Snapshot H.Token}

/-- A call that takes the lock ends in the gate, or goes on to the lock after it. -/
theorem outcome_cases (h : call.takesLock = true) (s : Snapshot H.Token) :
    (∃ e s₁, s.gate env call.locker call.isDeposit = .err e s₁ ∧ call.outcome H env s = .err e s₁) ∨
    (s.gate env call.locker call.isDeposit = .trap ∧ call.outcome H env s = .trap) ∨
    ∃ (w₁ : World H) (op : Contract H Unit),
      s.gate env call.locker call.isDeposit = .ok () w₁.snapshot ∧
      call.outcome H env s = Outcome.map World.snapshot (withReentrancyLock op env w₁) := by
  obtain ⟨g, op, hexec, -, hgate⟩ := exec_of_takesLock (H := H) h
  have hout : call.outcome H env s =
      Outcome.map World.snapshot (Tx.bind g (fun _ => withReentrancyLock op) env s.world) := by
    unfold Call.outcome
    rw [hexec]
    rfl
  rw [← hgate, hout]
  unfold Tx.bind
  cases g env s.world with
  | ok u w₁ => exact .inr (.inr ⟨w₁, op, rfl, rfl⟩)
  | err e w₁ => exact .inl ⟨e, w₁.snapshot, rfl, rfl⟩
  | trap => exact .inr (.inl ⟨rfl, rfl⟩)

/-- A call that the gate refuses goes no further. -/
theorem outcome_of_gate_err {e : NavinError} (h : call.takesLock = true)
    (hg : s.gate env call.locker call.isDeposit = .err e s₁) : call.outcome H env s = .err e s₁ := by
  rcases outcome_cases h s with ⟨_, _, hg', hout⟩ | ⟨hg', -⟩ | ⟨_, _, hg', -⟩
  · cases hg.symm.trans hg'
    exact hout
  · cases hg.symm.trans hg'
  · cases hg.symm.trans hg'

theorem outcome_of_gate_trap (h : call.takesLock = true)
    (hg : s.gate env call.locker call.isDeposit = .trap) : call.outcome H env s = .trap := by
  rcases outcome_cases h s with ⟨_, _, hg', -⟩ | ⟨-, hout⟩ | ⟨_, _, hg', -⟩
  · cases hg.symm.trans hg'
  · exact hout
  · cases hg.symm.trans hg'

/-- A call that passes the gate meets the lock. -/
theorem outcome_of_gate_ok (h : call.takesLock = true)
    (hg : s.gate env call.locker call.isDeposit = .ok () s₁)
    (hl : s₁.governance.reentrancyLock = true) :
    call.outcome H env s = .err .reentrancyDetected s₁ := by
  rcases outcome_cases h s with ⟨_, _, hg', -⟩ | ⟨hg', -⟩ | ⟨w₁, op, hg', hout⟩
  · cases hg.symm.trans hg'
  · cases hg.symm.trans hg'
  · cases hg.symm.trans hg'
    rw [hout, withReentrancyLock_of_locked (w := w₁) hl]
    rfl

end

/-- The gate does not look at the lock. -/
theorem gate_unlocked {s₁ : Snapshot H.Token} {caller : Address} {b : Bool}
    (h : w.unlocked.snapshot.gate env caller b = .ok () s₁) :
    w.snapshot.gate env caller b = .ok () (w.snapshot.signed caller) := by
  unfold Snapshot.gate at h ⊢
  split_ifs at h with h₁ h₂ h₃ h₄ h₅ h₆
  exact (if_neg h₁).trans ((if_neg h₂).trans ((if_neg h₃).trans ((if_neg h₄).trans ((if_neg h₅).trans
    (if_neg h₆)))))

/-- One of the three calls that would ask the token is refused while the lock is
set. -/
theorem blocked_of_takesLock {call : Call} (h : call.takesLock = true) (hw : w.locked = true)
    (hi : call.Invokes env w.unlocked) : call.Blocked env w := by
  -- had the gate refused the call, no answer of the token would have mattered
  have hgate : ∃ s₁, w.unlocked.snapshot.gate env call.locker call.isDeposit = .ok () s₁ := by
    obtain ⟨transfer, hne⟩ := hi
    cases hg : w.unlocked.snapshot.gate env call.locker call.isDeposit with
    | ok u s₁ => exact ⟨s₁, rfl⟩
    | err e s₁ =>
      exact absurd ((outcome_of_gate_err (H := H.answering transfer) h hg).trans
        (outcome_of_gate_err h hg).symm) hne
    | trap =>
      exact absurd ((outcome_of_gate_trap (H := H.answering transfer) h hg).trans
        (outcome_of_gate_trap h hg).symm) hne
  obtain ⟨s₁, hgate⟩ := hgate
  have hg := gate_unlocked hgate
  have hout : ∀ transfer, call.outcome (H.answering transfer) env w.snapshot =
      .err .reentrancyDetected (w.snapshot.signed call.locker) :=
    fun transfer => outcome_of_gate_ok (H := H.answering transfer) h hg hw
  refine ⟨⟨w.signed call.locker, ?_, hw⟩, fun hinv => ?_⟩
  · have hx := outcome_of_gate_ok h hg hw
    unfold Call.outcome at hx
    have hw : w.snapshot.world = w := rfl
    rw [hw] at hx
    cases hy : (call.exec : Contract H Unit) env w with
    | ok u w' => rw [hy] at hx; cases hx
    | err e w' =>
      rw [hy] at hx
      obtain ⟨he, hs⟩ := Outcome.err.inj hx
      have hw' : w' = w.signed call.locker := congrArg Snapshot.world hs
      rw [he, hw']
    | trap => rw [hy] at hx; cases hx
  · obtain ⟨transfer, hne⟩ := hinv
    exact hne ((hout transfer).trans (outcome_of_gate_ok h hg hw).symm)

/-! ### After the call -/

/-- The lock is clear at the end of a computation that returns or fails. -/
def Outcome.Unlocked : Outcome NavinError (World H) α → Prop
  | .ok _ w' => w'.locked = false
  | .err _ w' => w'.locked = false
  | .trap => True

theorem unlocked_withReentrancyLock {m : Contract H α} (hw : w.locked = false) :
    (withReentrancyLock m env w).Unlocked := by
  have hw : w.governance.reentrancyLock = false := hw
  change Outcome.Unlocked (Tx.bind _ _ env w)
  simp only [Tx.bind, rejectIf, hw, Bool.false_eq_true, if_false]
  change Outcome.Unlocked (ensure m _ env _)
  unfold ensure
  cases m env _ <;> first | rfl | trivial

/-- Every call that starts with the lock clear ends with the lock clear. -/
theorem unlocked_exec (call : Call) (hw : w.locked = false) :
    ((call.exec : Contract H Unit) env w).Unlocked := by
  cases h : call.takesLock with
  | false =>
    have hl := lockless_exec (H := H) h
    cases hx : (call.exec : Contract H Unit) env w with
    | ok u w' => exact (hl.ok hx).trans hw
    | err e w' => exact (hl.err hx).1.trans hw
    | trap => trivial
  | true =>
    obtain ⟨g, op, hexec, hl, -⟩ := exec_of_takesLock (H := H) h
    rw [hexec]
    change Outcome.Unlocked (Tx.bind g _ env w)
    unfold Tx.bind
    cases hx : g env w with
    | ok u w₁ => exact unlocked_withReentrancyLock ((hl.ok hx).trans hw)
    | err e w₁ => exact (hl.err hx).1.trans hw
    | trap => trivial

/-- A call that would ask the token is refused by a lock that is set exactly when it
is one of the three; and every call gives back a clear lock. -/
theorem lock_covers_iff (call : Call) (env : Env) (w : World H) :
    (w.locked = true → call.Invokes env w.unlocked → (call.Blocked env w ↔ call.takesLock = true)) ∧
      (w.locked = false → (call.exec env w).Unlocked) := by
  refine ⟨fun hw hi => ⟨fun hb => ?_, fun h => blocked_of_takesLock h hw hi⟩, unlocked_exec call⟩
  obtain ⟨⟨w', hx, -⟩, -⟩ := hb
  by_contra hn
  have hbad := ((lockless_exec (by simpa using hn)).err hx).2
  cases hbad

/-! ### Two calls under the lock -/

def Outcome.isOk {ε σ : Type} : Outcome ε σ α → Bool
  | .ok .. => true
  | _ => false

/-- The world with the lock set. -/
def World.withLock (w : World H) : World H :=
  { w with governance := { w.governance with reentrancyLock := true } }

/-- A token that refuses every transfer. -/
def Host.refusing (H : Host) : Host := H.answering fun _ _ _ _ _ _ => none

/-- A call that commits with one token and not with one that refuses asks the
token. -/
theorem Call.invokes_of_refused {call : Call} (h₁ : (call.outcome H env w.snapshot).isOk = true)
    (h₂ : (call.outcome H.refusing env w.snapshot).isOk = false) : call.Invokes env w := by
  refine ⟨fun _ _ _ _ _ _ => none, fun heq => ?_⟩
  have hsame : (call.outcome H.refusing env w.snapshot).isOk = (call.outcome H env w.snapshot).isOk :=
    congrArg Outcome.isOk heq
  rw [h₁, h₂] at hsame
  cases hsame

/-- A deposit meets the lock. -/
theorem lock_covers_deposit : ∃ (w : World Deployment.host) (call : Call) (env : Env),
    w.locked = true ∧ call.Invokes env w.unlocked ∧ call.Blocked env w ∧
      (call.exec env w.unlocked).Unlocked := by
  let call : Call := .depositEscrow Deployment.company 1 1000
  let env : Env := ⟨5, 5, fun a => a = Deployment.company, fun _ => true⟩
  obtain ⟨ls, c, hr, -, h₁, h₂⟩ := exists_play Deployment.chain Deployment.opening
    (fun r => (call.outcome Deployment.host env r.2.world.withLock.unlocked.snapshot).isOk = true ∧
      (call.outcome Deployment.host.refusing env r.2.world.withLock.unlocked.snapshot).isOk = false)
    (by decide +kernel)
  have hi : call.Invokes env c.world.withLock.unlocked := Call.invokes_of_refused h₁ h₂
  exact ⟨c.world.withLock, call, env, rfl, hi, ((lock_covers_iff call env _).1 rfl hi).mpr rfl,
    (lock_covers_iff call env c.world.withLock.unlocked).2 rfl⟩

/-- The receiver confirms a delivery while the lock is set, and the escrow is paid. -/
theorem confirmDelivery_under_lock :
    ¬∀ (call : Call) (env : Env) (w : World Deployment.host), w.locked = true →
      call.Invokes env w.unlocked → call.Blocked env w := by
  intro hall
  let call : Call := .confirmDelivery Deployment.receiver 1 3
  let env : Env := ⟨7, 7, fun a => a = Deployment.receiver, fun _ => true⟩
  obtain ⟨ls, c, hr, -, h₁, h₂, h₃⟩ := exists_play Deployment.chain
    (Deployment.opening ++ [
      Deployment.signed Deployment.company 5 (.depositEscrow Deployment.company 1 1000),
      Deployment.signed Deployment.carrier 6 (.updateStatus Deployment.carrier 1 .inTransit 2)])
    (fun r => (call.outcome Deployment.host env r.2.world.withLock.unlocked.snapshot).isOk = true ∧
      (call.outcome Deployment.host.refusing env r.2.world.withLock.unlocked.snapshot).isOk = false ∧
      (call.exec env r.2.world.withLock : Outcome _ (World Deployment.host) _).isOk = true)
    (by decide +kernel)
  obtain ⟨⟨w', hx, -⟩, -⟩ := hall call env c.world.withLock rfl (Call.invokes_of_refused h₁ h₂)
  rw [hx] at h₃
  cases h₃

end Navin
