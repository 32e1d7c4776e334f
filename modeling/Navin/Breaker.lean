/-
# The circuit breaker

Every transfer asks the breaker first and tells it how it ended. A transfer that fails is
told to the breaker, and then the call ends with an error; the host throws away the
writes of such a call, the breaker's among them. So the breaker never hears of a failure:
it is closed, with no failure counted, in every state, and no call is ever refused
because it is open.

Key definitions:
- `World.BreakerIdle`: closed, with nothing counted;
- `Label.FailsAtToken`: a call ended at a transfer that failed;
- `Call.Shielded`: the breaker keeps a call from the token.

Key theorems:
- `breakerLaw`, as a law of the contract;
- `breaker_never_opens`.
-/
import Navin.Errors
import Navin.Laws
import Navin.Lock
import Navin.Lib.Returns

namespace Navin

open Tx

set_option synthInstance.maxSize 4000

variable {H : Host} {env : Env} {w w' : World H} {call : Call} {α : Type}

/-- The breaker as it is deployed and after a reset. -/
def World.BreakerIdle (w : World H) : Prop :=
  w.governance.breaker.getD CircuitBreakerTracker.new = CircuitBreakerTracker.new

instance (w : World H) : Decidable w.BreakerIdle := inferInstanceAs (Decidable (_ = _))

@[reducible] def NavinError.isBreakerOpen : NavinError → Bool
  | .circuitBreakerOpen => true
  | _ => false

/-- An idle breaker stays idle, and from there no call is refused because of it. -/
def breakerLaw (H : Host) : Law (World H) NavinError where
  keeps w w' := w.BreakerIdle → w'.BreakerIdle
  fails w e _ := w.BreakerIdle → e.isBreakerOpen = false
  refl _ := id
  trans h h' hw := h' (h hw)
  after h h' hw := h' (h hw)

namespace breakerLaw

/-- What leaves the breaker alone. -/
theorem keeps_of_same (h : w'.governance.breaker = w.governance.breaker) :
    (breakerLaw H).keeps w w' := by
  intro hw
  unfold World.BreakerIdle
  rw [h]
  exact hw

instance (e : NavinError) [he : IsFalse e.isBreakerOpen] : (breakerLaw H).Refuses e :=
  ⟨fun _ _ => he.out⟩

instance (g : Ledger H.Token → Ledger H.Token) : Obeys (breakerLaw H) (modifyLedger g) :=
  .modify fun _ => id

instance (g : Dossier → Dossier) : Obeys (breakerLaw H) (modifyDossier g) := .modify fun _ => id

instance (e : Effect) : Obeys (breakerLaw H) (log e) := .modify fun _ => id

/-- The idle breaker stored again. -/
theorem obeys_setBreaker : Obeys (breakerLaw H) (setBreaker .new) := .modify fun _ _ => rfl

/-- The idle breaker lets the transfer pass. -/
theorem checkTransferAllowed_of_idle (config : CircuitBreakerConfig) (hw : w.BreakerIdle) :
    checkTransferAllowed config env w =
      .ok () { w with governance := { w.governance with breaker := some .new } } := by
  have hb : w.governance.breaker.getD CircuitBreakerTracker.new = .new := hw
  change (unwrap ((w.governance.breaker.getD CircuitBreakerTracker.new).shouldAllowRequest config
    env.timestamp) >>= fun verdict => liftResult verdict >>= fun t => setBreaker t) env w = _
  rw [hb]
  rfl

instance (config : CircuitBreakerConfig) : Obeys (breakerLaw H) (checkTransferAllowed config) where
  ok {env w u w'} h hw := by
    rw [checkTransferAllowed_of_idle config hw] at h
    cases h
    rfl
  err {env w e w'} h hw := by
    rw [checkTransferAllowed_of_idle config hw] at h
    cases h

instance : Obeys (breakerLaw H) recordTransferSuccess where
  ok {env w u w'} h hw := by
    have hb : w.governance.breaker.getD CircuitBreakerTracker.new = .new := hw
    change (setBreaker (w.governance.breaker.getD CircuitBreakerTracker.new).recordSuccess) env w = _ at h
    rw [hb] at h
    cases h
    rfl
  err h := by cases h

/-- The writes of the breaker on a failure come too late to matter, and raise no error. -/
instance (t a b : Address) (x : ℤ) : Obeys (breakerLaw H) (invokeTokenTransfer t a b x) := by
  have hop : Obeys (breakerLaw H) (invokeTokenOperation t a b x) := by
    unfold invokeTokenOperation
    infer_instance
  have (config : CircuitBreakerConfig) : Obeys (breakerLaw H)
      (onErr (invokeTokenOperation t a b x) fun _ => recordTransferFailure config) := by
    refine .onErr hop (fun h _ => h) fun {r s e s' e' s''} _ hx => ?_
    have hquiet : Never (fun _ => true) (recordTransferFailure config : Contract H Unit) := by
      unfold recordTransferFailure
      infer_instance
    cases (hquiet.err hx).2
  unfold invokeTokenTransfer
  infer_instance

instance (payload : List UInt8) : Obeys (breakerLaw H) (checkIdempotency payload) := by
  have (g : Governance → Governance) [h : ∀ x, Same (g x).breaker x.breaker] :
      Obeys (breakerLaw H) (modifyGovernance g) := .modify fun w => keeps_of_same (h _).out
  unfold checkIdempotency hasIdempotencyWindow setIdempotencyWindow
  infer_instance

instance : (breakerLaw H).Fits where
  ordinary e w he _ := by cases e <;> first | rfl | cases he
  ledger _ _ := id
  registry _ _ := id
  dossier _ _ _ := id
  governance _ _ _ h _ := keeps_of_same h
  keyless _ _ _ := id
  counted _ _ _ _ := by
    unfold incrementEventCount
    infer_instance
  transfer _ _ _ _ := inferInstance
  settled t a b x n id := by
    refine .onErr inferInstance (fun h _ => h) fun {r s e s' e' s''} _ hx _ => ?_
    have hfail : Never NavinError.isBreakerOpen (failSettlement n id e.code : Contract H Unit) :=
      inferInstance
    exact (hfail.err hx).2

instance : (breakerLaw H).Announces where
  keyed domain topic id event _ := by
    unfold emitKeyed incrementEventCount
    infer_instance

end breakerLaw

/-- Every call keeps an idle breaker idle, and is not refused by it. -/
theorem obeys_breakerLaw (call : Call) : Obeys (breakerLaw H) (call.exec : Contract H Unit) := by
  refine obeys_exec (fun _ => inferInstance) (fun _ _ => inferInstance) (fun _ m hm => ?_) (fun _ id _ s => ?_)
    fun _ _ => breakerLaw.obeys_setBreaker
  · exact obeys_withReentrancyLock (fun _ _ => id) (fun h => h) hm
  · unfold storageArchiveShipment
    infer_instance

/-- No failure is ever counted. -/
theorem Reachable.breakerIdle {c : Chain H} (hc : Reachable c) : c.world.BreakerIdle := by
  refine hc.inv (I := fun c => c.world.BreakerIdle) (fun _ _ => rfl) fun a l b _ h hstep => ?_
  cases hstep with
  | @committed call env w' _ hx =>
    have h : a.world.fresh.BreakerIdle := h
    have h' : w'.BreakerIdle := (obeys_breakerLaw call).ok hx h
    exact h'
  | reverted => exact h
  | outside => exact h

/-! ### What the breaker is for -/

/-- A call of the step ended at a transfer that the token refused. -/
def Label.FailsAtToken (c : Chain H) : Label → Prop
  | .reverted call env => call.exec.FailsWith env c.world.fresh .tokenTransferFailed
  | _ => False

/-- The world with the breaker reset. -/
def World.withIdleBreaker (w : World H) : World H :=
  { w with governance := { w.governance with breaker := some .new } }

/-- The breaker keeps the call from the token. -/
def Call.Shielded (call : Call) (env : Env) (w : World H) : Prop :=
  call.exec.FailsWith env w .circuitBreakerOpen ∧ ¬call.Invokes env w

/-- The configuration of the breaker that is in force. -/
def World.breakerConfig (w : World H) : CircuitBreakerConfig :=
  w.governance.breakerConfig.getD CircuitBreakerConfig.default

/-- However many calls in a row failed at the token, the breaker is idle, no call is
refused because it is open, and none is kept from the token. -/
theorem breaker_never_opens {c₀ c : Chain H} {ks : List Label} (hc₀ : Reachable c₀)
    (hr : Run (Under Step fun c l => l.FailsAtToken c) c₀ ks c) : c.world.BreakerIdle ∧
      ∀ (call : Call) (env : Env), ¬call.exec.FailsWith env c.world.fresh .circuitBreakerOpen ∧
        ¬call.Shielded env c.world.fresh := by
  have hc : Reachable c := by
    obtain ⟨d, ls, hd, hr₀⟩ := hc₀
    exact ⟨d, ls ++ ks, hd, hr₀.append hr.of_under⟩
  have hidle : c.world.fresh.BreakerIdle := hc.breakerIdle
  have hopen : ∀ (call : Call) (env : Env), ¬call.exec.FailsWith env c.world.fresh .circuitBreakerOpen := by
    rintro call env ⟨w', hx⟩
    cases (obeys_breakerLaw call).err hx hidle
  exact ⟨hidle, fun call env => ⟨hopen call env, fun h => hopen call env h.1⟩⟩

/-- A call that fails at the token, as a step of the chain. -/
theorem step_of_failsAtToken (env : Env) {c : Chain H} (hadm : env.Admissible c)
    (hx : call.exec.FailsWith env c.world.fresh .tokenTransferFailed) :
    Under Step (fun c l => l.FailsAtToken c) c (.reverted call env) ⟨c.world, env.timestamp⟩ := by
  refine ⟨.reverted hadm fun w hw => ?_, hx⟩
  obtain ⟨w', hx⟩ := hx
  rw [hw] at hx
  cases hx

/-- The breaker is to open at the first failure and to stay open for five minutes. A
deposit fails at the token, and a second later the company makes another one. -/
theorem exists_failed_deposit : ∃ (c₀ c : Chain Deployment.host) (call again : Call) (env next : Env),
    Reachable c₀ ∧ c₀.world.breakerConfig = ⟨1, 300, 1⟩ ∧
    Run (Under Step fun c l => l.FailsAtToken c) c₀ [.reverted call env] c ∧
    next.Admissible c ∧ next.timestamp < c.now + 300 ∧
    again.Invokes next c.world.fresh.withIdleBreaker ∧
    ¬again.exec.FailsWith next c.world.fresh .circuitBreakerOpen := by
  let env : Env := ⟨6, 6, fun a => a = Deployment.company, fun _ => true⟩
  let next : Env := ⟨7, 7, fun a => a = Deployment.company, fun _ => true⟩
  let call : Call := .depositEscrow Deployment.company 1 2000000
  let again : Call := .depositEscrow Deployment.company 1 1000
  obtain ⟨ls, c₀, hr, -, hcfg, hnow, hx, h₁, h₂, h₃⟩ := exists_play Deployment.chain
    (Deployment.opening ++ [Deployment.signed Deployment.admin 5
      (.setCircuitBreakerConfig Deployment.admin (.custom 1 300 1))])
    (fun r => r.2.world.breakerConfig = ⟨1, 300, 1⟩ ∧ r.2.now ≤ 6 ∧
      call.exec.FailsWith env r.2.world.fresh .tokenTransferFailed ∧
      (again.outcome Deployment.host next r.2.world.fresh.withIdleBreaker.snapshot).isOk = true ∧
      (again.outcome Deployment.host.refusing next r.2.world.fresh.withIdleBreaker.snapshot).isOk = false ∧
      ¬again.exec.FailsWith next r.2.world.fresh .circuitBreakerOpen)
    (by decide +kernel)
  have hstep := step_of_failsAtToken env ⟨hnow, by decide⟩ hx
  have hafter : next.Admissible ⟨c₀.world, 6⟩ := ⟨Nat.le_succ 6, by decide⟩
  have hsoon : 7 < 6 + 300 := by decide
  exact ⟨c₀, ⟨c₀.world, 6⟩, call, again, env, next, ⟨_, ls, Deployment.deployed, hr⟩, hcfg,
    .snoc .nil hstep, hafter, hsoon, Call.invokes_of_refused h₁ h₂, h₃⟩

/-- After as many failures as the threshold the breaker is idle. -/
theorem breaker_idle_after_failure : ∃ (c₀ c : Chain Deployment.host) (ks : List Label), Reachable c₀ ∧
    ks.length = c₀.world.breakerConfig.failureThreshold ∧
    Run (Under Step fun c l => l.FailsAtToken c) c₀ ks c ∧ c.world.BreakerIdle := by
  obtain ⟨c₀, c, call, again, env, next, hc₀, hcfg, hr, -⟩ := exists_failed_deposit
  refine ⟨c₀, c, [.reverted call env], hc₀, ?_, hr, (breaker_never_opens hc₀ hr).1⟩
  rw [hcfg]
  rfl

/-- With a threshold of one, a call in the recovery time after a failed one is not
refused. -/
theorem breaker_does_not_shield :
    ¬∀ (c₀ c : Chain Deployment.host) (ks : List Label), Reachable c₀ →
      Run (Under Step fun c l => l.FailsAtToken c) c₀ ks c →
      ks.length = c₀.world.breakerConfig.failureThreshold →
      ∀ (call : Call) (env : Env), env.Admissible c →
        env.timestamp < c.now + c₀.world.breakerConfig.recoveryTimeout →
        call.Invokes env c.world.fresh.withIdleBreaker → call.Shielded env c.world.fresh := by
  intro hall
  obtain ⟨c₀, c, call, again, env, next, hc₀, hcfg, hr, hadm, hsoon, hneeds, hpasses⟩ :=
    exists_failed_deposit
  have hlen : [Label.reverted call env].length = c₀.world.breakerConfig.failureThreshold := by
    rw [hcfg]
    rfl
  have hsoon : next.timestamp < c.now + c₀.world.breakerConfig.recoveryTimeout := by
    rw [hcfg]
    exact hsoon
  exact hpasses (hall c₀ c _ hc₀ hr hlen again next hadm hsoon hneeds).1

end Navin
