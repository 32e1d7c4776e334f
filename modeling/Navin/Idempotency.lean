/-
# The idempotency window

A creation, an update of a status and a resolution of a dispute are refused while the same
action has a window open. The window is a temporary entry under the hash of the action; it
is opened for the seconds of the configuration, rounded up to ledgers and cut down to a
`u32`. The check of the configuration does not look at the seconds, so a window of
`5 * 2 ^ 32` seconds closes with the ledger that opened it.

Key definitions:
- `windowsLaw`, `windowLaw`: a law about the windows alone, and that they close no earlier than
  they did;
- `Opens key m`: the function finds the window of the key closed, and opens it;
- `Env.Ticks`: five seconds a ledger.

Key theorems:
- `windows_exec`: a call leaves every window but that of its own action;
- `Run.outlasts`: over a run no window closes earlier than it did;
- `window_honoured_iff`.
-/
import Navin.Creation
import Navin.Laws
import Navin.Token
import Navin.Lib.Leases

namespace Navin

open Tx

set_option synthInstance.maxSize 4000

variable {H : Host} {env : Env} {w w' : World H} {α β : Type} {key : BytesN32}

/-! ### Windows only move forward -/

/-- The windows, each with its last ledger. -/
def World.windows (w : World H) : BytesN32 → Option ℕ := w.governance.idempotencyWindow

/-- The ledgers a window is opened for. -/
def World.windowLedgers (w : World H) : ℕ := leaseTicks 5 (2 ^ 32) w.getConfig.idempotencyWindowSeconds

/-- A law about the windows alone. -/
def windowsLaw (H : Host) (R : (BytesN32 → Option ℕ) → (BytesN32 → Option ℕ) → Prop)
    (hrefl : ∀ t, R t t) (htrans : ∀ {t t' t''}, R t t' → R t' t'' → R t t'') :
    Law (World H) NavinError where
  keeps w w' := R w.windows w'.windows
  fails _ _ _ := True
  refl w := hrefl w.windows
  trans := htrans
  after _ _ := trivial

namespace windowsLaw

variable {R : (BytesN32 → Option ℕ) → (BytesN32 → Option ℕ) → Prop} {hrefl : ∀ t, R t t}
  {htrans : ∀ {t t' t''}, R t t' → R t' t'' → R t t''}

theorem keeps_of_same (h : w'.windows = w.windows) : (windowsLaw H R hrefl htrans).keeps w w' := by
  show R w.windows w'.windows
  rw [h]
  exact hrefl _

instance : (windowsLaw H R hrefl htrans).Lenient := ⟨fun _ _ _ => trivial⟩

instance (g : Ledger H.Token → Ledger H.Token) : Obeys (windowsLaw H R hrefl htrans) (modifyLedger g) :=
  .modify fun _ => keeps_of_same rfl

instance (g : Dossier → Dossier) : Obeys (windowsLaw H R hrefl htrans) (modifyDossier g) :=
  .modify fun _ => keeps_of_same rfl

instance (g : Governance → Governance) [h : ∀ x, Same (g x).idempotencyWindow x.idempotencyWindow] :
    Obeys (windowsLaw H R hrefl htrans) (modifyGovernance g) := .modify fun _ => keeps_of_same (h _).out

instance (e : Effect) : Obeys (windowsLaw H R hrefl htrans) (log e) := .modify fun _ => keeps_of_same rfl

instance (t a b : Address) (x : ℤ) : Obeys (windowsLaw H R hrefl htrans) (invokeTokenTransfer t a b x) := by
  unfold invokeTokenTransfer checkTransferAllowed invokeTokenOperation recordTransferSuccess timestamp
  infer_instance

instance : (windowsLaw H R hrefl htrans).Fits where
  ordinary _ _ _ := trivial
  ledger _ _ := keeps_of_same rfl
  registry _ _ := keeps_of_same rfl
  dossier _ _ _ := keeps_of_same rfl
  governance _ _ _ _ h := keeps_of_same h
  keyless _ _ _ := keeps_of_same rfl
  counted _ _ _ _ := by
    unfold incrementEventCount
    infer_instance
  transfer _ _ _ _ := inferInstance
  settled _ _ _ _ _ _ := inferInstance

instance : (windowsLaw H R hrefl htrans).Announces where
  keyed domain topic id event _ := by
    unfold emitKeyed incrementEventCount
    infer_instance

/-- A call keeps to a law that its own window keeps to. -/
theorem obeys {call : Call} (h : ∀ action, call.action? = some action →
    Obeys (windowsLaw H R hrefl htrans) (checkIdempotency action.payload)) :
    Obeys (windowsLaw H R hrefl htrans) (call.exec : Contract H Unit) := by
  refine obeys_exec (fun _ => inferInstance) h (fun _ m hm => ?_) (fun _ id _ s => ?_)
    fun _ _ => inferInstance
  · exact obeys_withReentrancyLock (fun _ _ => keeps_of_same rfl) (fun h => h) hm
  · unfold storageArchiveShipment
    infer_instance

end windowsLaw

/-- No window closes earlier than it did. -/
abbrev windowLaw (H : Host) : Law (World H) NavinError :=
  windowsLaw H Outlasts Outlasts.refl Outlasts.trans

/-- The guard opens a window that is closed. -/
instance (payload : List UInt8) : Obeys (windowLaw H) (checkIdempotency payload) := by
  refine .of_ok fun {env w u w'} hx => ?_
  obtain ⟨hclosed, hw⟩ := returns_checkIdempotency.mp hx
  rw [hw]
  exact outlasts_renew hclosed (Nat.le_add_right _ _)

theorem obeys_windowLaw (call : Call) : Obeys (windowLaw H) (call.exec : Contract H Unit) :=
  windowsLaw.obeys fun _ _ => inferInstance

/-- A call leaves every window but that of its own action. -/
theorem windows_exec {call : Call} (h : ∀ action, call.action? = some action → H.sha256 action.payload ≠ key)
    (hx : call.exec env w = .ok () w') : w'.windows key = w.windows key := by
  have hcall : Obeys (windowsLaw H (fun t t' => t' key = t key) (fun _ => rfl) fun h h' => h'.trans h)
      (call.exec : Contract H Unit) := by
    refine windowsLaw.obeys fun action ha => .of_ok fun {env w u w'} hx => ?_
    obtain ⟨-, hw⟩ := returns_checkIdempotency.mp hx
    rw [hw]
    exact Function.update_of_ne (h action ha).symm _ _
  exact hcall.ok hx

section

variable {a b : Chain H} {l : Label} {ls : List Label}

theorem Step.outlasts (h : Step a l b) : Outlasts a.world.windows b.world.windows := by
  cases h with
  | @committed _ _ w' _ hx =>
    have h : Outlasts a.world.fresh.windows w'.windows := (obeys_windowLaw _).ok hx
    exact h
  | reverted => exact .refl _
  | outside => exact .refl _

theorem Run.outlasts (h : Run Step a ls b) : Outlasts a.world.windows b.world.windows := by
  refine h.inv (I := fun x => Outlasts a.world.windows x.world.windows) (.refl _) fun x l y hx hl => ?_
  exact hx.trans hl.outlasts

end

/-! ### The three calls open a window -/

/-- What the guard looks at: the windows and the configuration. -/
def World.guard (w : World H) : (BytesN32 → Option ℕ) × Option ContractConfig :=
  (w.governance.idempotencyWindow, w.governance.config)

instance : AuthFree (World.guard (H := H)) := ⟨fun _ _ => rfl⟩

/-- Where the function returns, the window of the key was closed, and it is open now. -/
class Opens (key : BytesN32) (m : Contract H α) : Prop where
  out : ∀ {env w a w'}, m env w = .ok a w' →
    w.windowOpen env key = false ∧ Lasts w'.windows key (env.sequence + w.windowLedgers)

namespace Opens

instance (payload : List UInt8) : Opens (H.sha256 payload) (checkIdempotency payload : Contract H Unit) where
  out {env w u w'} hx := by
    obtain ⟨hclosed, hw⟩ := returns_checkIdempotency.mp hx
    rw [hw]
    exact ⟨hclosed, lasts_update _ _ _⟩

/-- What comes before the guard leaves alone what the guard looks at. -/
instance before (m : Contract H α) (k : α → Contract H β) [hm : Preserves World.guard m]
    [hk : ∀ a, Opens key (k a)] : Opens key (m >>= k) where
  out {env w b w'} hx := by
    obtain ⟨a, w₁, hx₁, hx₂⟩ := returns_bind.mp hx
    have hguard : w₁.guard = w.guard := hm.out env w a w₁ hx₁
    have hwindows : w₁.governance.idempotencyWindow = w.governance.idempotencyWindow :=
      congrArg Prod.fst hguard
    have hconfig : w₁.getConfig = w.getConfig :=
      congrArg (fun c => c.getD ContractConfig.default) (congrArg Prod.snd hguard)
    have h := (hk a).out hx₂
    unfold World.windowOpen World.windowLedgers at h ⊢
    rwa [hwindows, hconfig] at h

/-- What comes after it keeps the window open. -/
instance (priority := high) after (m : Contract H α) (k : α → Contract H β) [hm : Opens key m]
    [hk : ∀ a, Obeys (windowLaw H) (k a)] : Opens key (m >>= k) where
  out {env w b w'} hx := by
    obtain ⟨a, w₁, hx₁, hx₂⟩ := returns_bind.mp hx
    obtain ⟨hclosed, hopen⟩ := hm.out hx₁
    have houtlasts : Outlasts w₁.windows w'.windows := (hk a).ok hx₂
    exact ⟨hclosed, houtlasts key _ hopen⟩

instance (priority := high) seqBefore (m : Contract H α) (n : Contract H β) [Preserves World.guard m]
    [Opens key n] : Opens key (m >>= fun _ => n) := before m fun _ => n

instance (priority := high) seqAfter (m : Contract H α) (n : Contract H β) [Opens key m]
    [Obeys (windowLaw H) n] : Opens key (m >>= fun _ => n) := after m fun _ => n

end Opens

/-- A call with an action finds its window closed, and opens it. -/
theorem opens_exec {call : Call} {action : Action} (h : call.action? = some action) :
    Opens (H.sha256 action.payload) (call.exec : Contract H Unit) := by
  cases call with
  | createShipment sender input =>
    cases h
    show Opens (H.sha256 (sender.toXdr ++ beBytes 32 input.dataHash.toNat))
      (discard (createShipment sender input))
    unfold discard createShipment
    infer_instance
  | updateStatus caller id newStatus dataHash =>
    cases h
    have : Obeys (windowLaw H) (requireUpdateInterval id : Contract H Unit) := by
      unfold requireUpdateInterval
      infer_instance
    have : Obeys (windowLaw H) (requirePrerequisitesDelivered id : Contract H Unit) := by
      unfold requirePrerequisitesDelivered
      infer_instance
    have (old : ShipmentStatus) : Obeys (windowLaw H)
        (emitStatusUpdated id old newStatus dataHash : Contract H Unit) := by
      unfold emitStatusUpdated
      infer_instance
    show Opens (H.sha256 (beBytes 8 id ++ newStatus.toXdr ++ beBytes 32 dataHash.toNat))
      (updateStatus caller id newStatus dataHash)
    unfold updateStatus
    infer_instance
  | resolveDispute admin id resolution reasonHash =>
    cases h
    have (s : Shipment) (x : ℤ) :
        Obeys (windowLaw H) (emitResolutionPaid resolution id s x : Contract H Unit) := by
      unfold emitResolutionPaid emitEscrowReleased emitEscrowRefunded
      cases resolution <;> infer_instance
    show Opens (H.sha256 (beBytes 8 id ++ resolution.toXdr ++ beBytes 32 reasonHash.toNat))
      (resolveDispute admin id resolution reasonHash)
    unfold resolveDispute emitDisputeResolved
    infer_instance
  | _ => cases h

/-! ### Two calls with one action -/

/-- Five seconds a ledger. -/
def Env.Ticks (env : Env) (genesis : ℕ) : Prop := env.timestamp = genesis + 5 * env.sequence

instance (env : Env) (genesis : ℕ) : Decidable (env.Ticks genesis) := inferInstanceAs (Decidable (_ = _))

/-- The call of a step, if there is one, is made in step with the ledgers. -/
def Label.Ticks (genesis : ℕ) : Label → Prop
  | .committed _ env _ | .reverted _ env => env.Ticks genesis
  | .outside => True

instance (genesis : ℕ) : DecidablePred (Label.Ticks genesis)
  | .committed _ env _ | .reverted _ env => inferInstanceAs (Decidable (env.Ticks genesis))
  | .outside => inferInstanceAs (Decidable True)

section

variable {a b c d : Chain H} {ls : List Label} {first second : Call} {env' : Env}
  {trace trace' : List Effect} {action : Action}

theorem Step.opens (h : Step a (.committed first env trace) b) (ha : first.action? = some action) :
    a.world.windowOpen env (H.sha256 action.payload) = false ∧
      Lasts b.world.windows (H.sha256 action.payload) (env.sequence + a.world.windowLedgers) := by
  cases h with
  | @committed _ _ w' _ hx =>
    have h : a.world.fresh.windowOpen env (H.sha256 action.payload) = false ∧
        Lasts w'.windows (H.sha256 action.payload) (env.sequence + a.world.fresh.windowLedgers) :=
      (opens_exec ha).out hx
    exact h

/-- Whatever happens in between, the second call comes after the window of the first. -/
theorem Step.repeats_after (h : Step a (.committed first env trace) b) (hr : Run Step b ls c)
    (h' : Step c (.committed second env' trace') d) (ha : first.action? = some action)
    (ha' : second.action? = some action) : env.sequence + a.world.windowLedgers < env'.sequence := by
  obtain ⟨-, hlasts⟩ := h.opens ha
  obtain ⟨hclosed, -⟩ := h'.opens ha'
  have hlasts : Lasts c.world.windows _ (env.sequence + a.world.windowLedgers) := hr.outlasts _ _ hlasts
  exact hlasts.lt_of_not_held hclosed

end

/-- Two calls that go through with one action are at least the window of the first apart,
where the window has no more ledgers than a `u32` can hold. And this is what it takes: the
guard passes one payload twice only with the window between if and only if it is so. -/
theorem window_honoured_iff (genesis : ℕ) :
    (∀ (a b c d : Chain H) (ls : List Label) (first second : Call) (env env' : Env)
      (trace trace' : List Effect) (action : Action),
      first.action? = some action → second.action? = some action →
      Step a (.committed first env trace) b → Run Step b ls c →
      Step c (.committed second env' trace') d → env.Ticks genesis → env'.Ticks genesis →
      a.world.getConfig.idempotencyWindowSeconds ≤ 5 * u32Max →
      env.timestamp + a.world.getConfig.idempotencyWindowSeconds ≤ env'.timestamp) ∧
    ∀ (w w' : World H) (env : Env) (payload : List UInt8), env.Ticks genesis →
      (checkIdempotency payload).Returns env w () w' →
      ((∀ env' w'', env'.Ticks genesis → (checkIdempotency payload).Returns env' w' () w'' →
        env.timestamp + w.getConfig.idempotencyWindowSeconds ≤ env'.timestamp) ↔
        w.getConfig.idempotencyWindowSeconds ≤ 5 * u32Max) := by
  have apart : ∀ {env env' : Env} {W : ℕ}, env.Ticks genesis → env'.Ticks genesis → W ≤ 5 * u32Max →
      env.sequence + leaseTicks 5 (2 ^ 32) W < env'.sequence → env.timestamp + W ≤ env'.timestamp := by
    intro env env' W ht ht' hW hlt
    have hcover : W ≤ 5 * leaseTicks 5 (2 ^ 32) W := le_mul_leaseTicks (by decide) (by decide) hW
    unfold Env.Ticks at ht ht'
    omega
  constructor
  · intro a b c d ls first second env env' trace trace' action ha ha' h hr h' ht ht' hW
    exact apart ht ht' hW (h.repeats_after hr h' ha ha')
  · intro w w' env payload ht hw
    obtain ⟨-, rfl⟩ := returns_checkIdempotency.mp hw
    have hlast : (w.openWindow env (H.sha256 payload)).governance.idempotencyWindow (H.sha256 payload) =
        some (env.sequence + w.windowLedgers) := Function.update_self ..
    constructor
    · intro hall
      by_contra hW
      -- the ledger after the window
      let env' : Env := { env with
        sequence := env.sequence + w.windowLedgers + 1
        timestamp := genesis + 5 * (env.sequence + w.windowLedgers + 1) }
      have hclosed : (w.openWindow env (H.sha256 payload)).windowOpen env' (H.sha256 payload) = false := by
        unfold World.windowOpen
        rw [hlast]
        simp [env']
      have hle := hall env' _ rfl (returns_checkIdempotency.mpr ⟨hclosed, rfl⟩)
      have hshort : 5 * (w.windowLedgers + 1) < w.getConfig.idempotencyWindowSeconds :=
        lt_of_leaseTicks_wrap (by decide) (by decide) (not_le.mp hW)
      unfold Env.Ticks at ht
      change env.timestamp + _ ≤ genesis + 5 * (env.sequence + w.windowLedgers + 1) at hle
      omega
    · intro hW env' w'' ht' hw''
      obtain ⟨hclosed, -⟩ := returns_checkIdempotency.mp hw''
      have hlasts : Lasts (w.openWindow env (H.sha256 payload)).windows (H.sha256 payload)
          (env.sequence + w.windowLedgers) := ⟨_, hlast, le_rfl⟩
      exact apart ht ht' hW (hlasts.lt_of_not_held hclosed)

/-- The clock of the plays: one ledger after the other, signed by one address. -/
def ticking (a : Address) (ledger : ℕ) : Env := ⟨5 * ledger, ledger, fun b => b = a, fun _ => true⟩

/-- A contract in use, and its companies. -/
def tickingOpening : List (Call × Env) := [
  (.initializeContract Deployment.admin Deployment.tokenContract, ticking Deployment.admin 1),
  (.addCompany Deployment.admin Deployment.company, ticking Deployment.admin 2),
  (.addCarrier Deployment.admin Deployment.carrier, ticking Deployment.admin 3)]

/-- A shipment created twice, the second time as soon as the window of five minutes allows;
and the guard of the first creation alone. -/
theorem window_honoured_iff_default : ∃ (a b c : Chain Deployment.host) (trace trace' : List Effect)
    (payload : List UInt8) (w : World Deployment.host),
    Reachable a ∧ a.world.getConfig.idempotencyWindowSeconds = 300 ∧
    Step a (.committed (.createShipment Deployment.company Deployment.shipment)
      (ticking Deployment.company 4) trace) b ∧
    Step b (.committed (.createShipment Deployment.company Deployment.shipment)
      (ticking Deployment.company 65) trace') c ∧
    20 + 300 ≤ (ticking Deployment.company 65).timestamp ∧
    (checkIdempotency payload).Returns (ticking Deployment.company 4) a.world () w ∧
    ∀ env' w', env'.Ticks 0 → (checkIdempotency payload).Returns env' w () w' →
      20 + 300 ≤ env'.timestamp := by
  obtain ⟨ls, a, trace, b, trace', c, hr, h, h', hW⟩ := exists_commit₂ Deployment.chain tickingOpening
    (.createShipment Deployment.company Deployment.shipment)
    (.createShipment Deployment.company Deployment.shipment) (ticking Deployment.company 4)
    (ticking Deployment.company 65)
    (fun r _ _ => r.2.world.getConfig.idempotencyWindowSeconds = 300) (by decide +kernel)
  have hW : a.world.getConfig.idempotencyWindowSeconds = 300 := hW
  have hfits : a.world.getConfig.idempotencyWindowSeconds ≤ 5 * u32Max := by
    rw [hW]
    decide
  have hle := (window_honoured_iff 0).1 a b b c [] _ _ _ _ _ _ _ rfl rfl h .nil h' rfl rfl hfits
  have hguard := (returns_checkIdempotency (u := ())).mpr ⟨(h.opens rfl).1, rfl⟩
  have hnext := ((window_honoured_iff 0).2 _ _ (ticking Deployment.company 4) _ rfl hguard).mpr hfits
  rw [hW] at hle hnext
  exact ⟨a, b, c, trace, trace', _, _, ⟨_, ls, Deployment.deployed, hr⟩, hW, h, h', hle, hguard, hnext⟩

/-- With a window of `5 * 2 ^ 32` seconds, which `update_config` accepts, a shipment is
created again in the next ledger. -/
theorem repeated_in_window : ¬∀ (genesis : ℕ) (c₀ a b c d : Chain Deployment.host)
    (ks ls : List Label) (first second : Call) (env env' : Env) (trace trace' : List Effect)
    (action : Action), Deployed c₀ → Run Step c₀ ks a → first.action? = some action →
    second.action? = some action → Step a (.committed first env trace) b → Run Step b ls c →
    Step c (.committed second env' trace') d →
    (∀ l ∈ ks ++ .committed first env trace :: ls ++ [.committed second env' trace'], l.Ticks genesis) →
    env.timestamp + a.world.getConfig.idempotencyWindowSeconds ≤ env'.timestamp := by
  intro hall
  obtain ⟨ks, a, trace, b, trace', c, hr, h, h', hW, hticks⟩ := exists_commit₂ Deployment.chain
    (tickingOpening ++ [(.updateConfig Deployment.admin
      { ContractConfig.default with idempotencyWindowSeconds := 5 * 2 ^ 32 },
      ticking Deployment.admin 4)])
    (.createShipment Deployment.company Deployment.shipment)
    (.createShipment Deployment.company Deployment.shipment) (ticking Deployment.company 5)
    (ticking Deployment.company 6)
    (fun r _ _ => r.2.world.getConfig.idempotencyWindowSeconds = 5 * 2 ^ 32 ∧ ∀ l ∈ r.1, l.Ticks 0)
    (by decide +kernel)
  have hle := hall 0 _ a b b c ks [] _ _ _ _ trace trace' _ Deployment.deployed hr rfl rfl h .nil h'
    (fun l hl => ?_)
  · have hW : a.world.getConfig.idempotencyWindowSeconds = 5 * 2 ^ 32 := hW
    rw [hW] at hle
    exact absurd hle (by decide)
  · rcases List.mem_append.mp hl with hl | hl
    · rcases List.mem_append.mp hl with hl | hl
      · exact hticks l hl
      · obtain rfl := List.mem_singleton.mp hl
        rfl
    · obtain rfl := List.mem_singleton.mp hl
      rfl

end Navin
