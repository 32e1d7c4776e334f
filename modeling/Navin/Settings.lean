/-
# What the admin sets

The configuration, the fee, the pause and the configuration of the breaker change by
seven calls only. A configuration is checked before it is stored, and a quota is set
without a change to what the check looks at, so that every configuration that is ever
read passes the check.

Key definitions:
- `World.settings`, `Call.sets`;
- `World.configEntry`: the configuration and its checksum.

Key theorems:
- `settings_exec`: the other calls leave the settings;
- `configEntry_exec`, `getConfig_exec`: what a call does to the configuration;
- `Reachable.validConfig`: the configuration in force passes its check.
-/
import Navin.Calls

namespace Navin

open Tx

set_option synthInstance.maxSize 4000

variable {H : Host} {env : Env} {w w' : World H} {call : Call}

def World.settings (w : World H) : Settings := w.governance.settings

/-- The calls that write the settings. -/
def Call.sets : Call → Bool
  | .initializeContract .. | .setCreationQuota .. | .updateConfig .. | .setPlatformFee ..
  | .pause .. | .unpause .. | .setCircuitBreakerConfig .. => true
  | _ => false

section

instance : LedgerFree (World.settings (H := H)) := ⟨fun _ _ => rfl⟩

instance : RegistryFree (World.settings (H := H)) := ⟨fun _ _ => rfl⟩

instance : DossierFree (World.settings (H := H)) := ⟨fun _ _ => rfl⟩

instance : ConductFree (World.settings (H := H)) := ⟨fun _ _ h => h⟩

instance : AuthFree (World.settings (H := H)) := ⟨fun _ _ => rfl⟩

instance : PlainFree (World.settings (H := H)) := ⟨fun _ _ _ => rfl⟩

instance : PaymentFree (World.settings (H := H)) := ⟨fun _ _ _ => rfl⟩

end

/-- A call that sets nothing leaves the settings. -/
theorem settings_exec (hc : call.sets = false) :
    wp call.exec env w fun _ w' => w'.settings = w.settings := by
  have keep : ∀ {m : Contract H Unit} [Preserves World.settings m],
      wp m env w fun _ w' => w'.settings = w.settings :=
    Preserves.wp World.settings fun _ _ h => h
  cases call with
  | initializeContract => cases hc
  | setCreationQuota => cases hc
  | updateConfig => cases hc
  | setPlatformFee => cases hc
  | pause => cases hc
  | unpause => cases hc
  | setCircuitBreakerConfig => cases hc
  | _ =>
    unfold Call.exec
    exact keep

/-! ### The configuration -/

/-- The configuration in force passes `validate_config`. -/
def World.ValidConfig (w : World H) : Prop := w.getConfig.validate = .ok ()

/-- The configuration and its checksum, as they are stored. -/
def World.configEntry (w : World H) : Option ContractConfig × Option BytesN32 :=
  (w.governance.config, w.governance.configChecksum)

/-- The entry of a configuration: it comes with its checksum. -/
def ContractConfig.entry (H : Host) (c : ContractConfig) : Option ContractConfig × Option BytesN32 :=
  (some c, some (H.sha256 c.checksumBytes))

theorem World.getConfig_of_entry (h : w'.configEntry = w.configEntry) : w'.getConfig = w.getConfig := by
  have hconfig : w'.governance.config = w.governance.config := congrArg Prod.fst h
  unfold World.getConfig
  rw [hconfig]

theorem World.getConfig_of_stored {c : ContractConfig} (h : w'.configEntry = c.entry H) :
    w'.getConfig = c := by
  have hconfig : w'.governance.config = some c := congrArg Prod.fst h
  unfold World.getConfig
  rw [hconfig]
  rfl

section

instance : LedgerFree (World.configEntry (H := H)) := ⟨fun _ _ => rfl⟩

instance : RegistryFree (World.configEntry (H := H)) := ⟨fun _ _ => rfl⟩

instance : AuthFree (World.configEntry (H := H)) := ⟨fun _ _ => rfl⟩

instance : PlainFree (World.configEntry (H := H)) := ⟨fun _ _ _ => rfl⟩

instance (g : Governance → Governance) [h : ∀ x, Same (g x).config x.config]
    [h' : ∀ x, Same (g x).configChecksum x.configChecksum] :
    Preserves (World.configEntry (H := H)) (modifyGovernance g : Contract H Unit) :=
  Preserves.modify fun w => by
    unfold World.configEntry
    rw [(h w.governance).out, (h' w.governance).out]

instance (c : ContractConfig) :
    Writes (World.configEntry (H := H)) (fun _ => c.entry H) (setConfig c : Contract H Unit) where
  out r s := by
    unfold setConfig modifyGovernance
    rw [wp_bind, wp_modify, wp_bind, wp_rejectIf]
    intro _
    rw [wp_modify]
    rfl

end

/-- A quota is set in the configuration in force. -/
theorem configEntry_setCreationQuota {admin : Address} {n seconds : ℕ} :
    wp (setCreationQuota admin n seconds) env w fun _ w' => w'.configEntry = ContractConfig.entry H
      { w.getConfig with creationQuotaMax := n, creationQuotaWindowSeconds := seconds } := by
  unfold Navin.setCreationQuota
  rw [wp_bind]
  refine Preserves.wp World.configEntry fun _ w₁ h₁ => ?_
  rw [wp_bind]
  refine Preserves.wp World.configEntry fun _ w₂ h₂ => ?_
  rw [wp_bind]
  refine Preserves.wp World.configEntry fun _ w₃ h₃ => ?_
  rw [wp_bind]
  refine Preserves.wp World.configEntry fun _ w₄ h₄ => ?_
  have hconfig : w₄.getConfig = w.getConfig :=
    World.getConfig_of_entry (((h₄.trans h₃).trans h₂).trans h₁)
  rw [wp_bind, wp_gets, hconfig]
  exact Writes.wp World.configEntry (g := fun _ => ContractConfig.entry H { w.getConfig with
    creationQuotaMax := n, creationQuotaWindowSeconds := seconds }) fun _ _ h => h

/-- A configuration is checked before it is stored. -/
theorem configEntry_updateConfig {admin : Address} {config : ContractConfig} :
    wp (updateConfig admin config) env w fun _ w' =>
      w'.configEntry = config.entry H ∧ config.validate = .ok () := by
  unfold updateConfig
  rw [wp_bind]
  refine .of_forall fun _ w₁ => ?_
  rw [wp_bind]
  refine .of_forall fun _ w₂ => ?_
  rw [wp_bind, wp_rejectIf]
  intro hv
  refine Writes.wp World.configEntry (g := fun _ => config.entry H) fun _ _ h => ⟨h, ?_⟩
  cases hc : config.validate with
  | ok => rfl
  | error e =>
    rw [hc] at hv
    exact absurd rfl hv

theorem configEntry_initializeContract {admin tokenContract : Address} :
    wp (initializeContract admin tokenContract) env w fun _ w' =>
      w'.configEntry = ContractConfig.default.entry H := by
  unfold initializeContract
  exact Writes.wp World.configEntry (g := fun _ => ContractConfig.default.entry H) fun _ _ h => h

/-- What a call stores as the configuration, if it stores one. -/
theorem configEntry_exec (hx : call.exec env w = .ok () w') : w'.configEntry = w.configEntry ∨
    ∃ c : ContractConfig, w'.configEntry = c.entry H ∧ (c = .default ∨
      (∃ admin n seconds, call = .setCreationQuota admin n seconds ∧
        c = { w.getConfig with creationQuotaMax := n, creationQuotaWindowSeconds := seconds }) ∨
      ∃ admin, call = .updateConfig admin c ∧ c.validate = .ok ()) := by
  have keep : ∀ {m : Contract H Unit} [Preserves World.configEntry m],
      wp m env w fun _ w' => w'.configEntry = w.configEntry :=
    Preserves.wp World.configEntry fun _ _ h => h
  by_cases hc : call.sets = true
  · cases call with
    | initializeContract => exact .inr ⟨_, configEntry_initializeContract () w' hx, .inl rfl⟩
    | setCreationQuota admin n seconds =>
      exact .inr ⟨_, configEntry_setCreationQuota () w' hx, .inr (.inl ⟨admin, n, seconds, rfl, rfl⟩)⟩
    | updateConfig admin config =>
      obtain ⟨he, hvalid⟩ := configEntry_updateConfig () w' hx
      exact .inr ⟨config, he, .inr (.inr ⟨admin, rfl, hvalid⟩)⟩
    | setPlatformFee =>
      unfold Call.exec Navin.setPlatformFee at hx
      exact .inl (keep () w' hx)
    | pause =>
      unfold Call.exec Navin.pause at hx
      exact .inl (keep () w' hx)
    | unpause =>
      unfold Call.exec Navin.unpause at hx
      exact .inl (keep () w' hx)
    | setCircuitBreakerConfig =>
      unfold Call.exec Navin.setCircuitBreakerConfig at hx
      exact .inl (keep () w' hx)
    | _ => cases hc
  · have hs : w'.settings = w.settings := settings_exec (by simpa using hc) () w' hx
    exact .inl (Prod.ext (congrArg Settings.config hs) (congrArg Settings.configChecksum hs))

/-- What a call does to the configuration. -/
theorem getConfig_exec (hx : call.exec env w = .ok () w') : w'.getConfig = w.getConfig ∨
    w'.getConfig = ContractConfig.default ∨
    (∃ admin n seconds, call = .setCreationQuota admin n seconds ∧ w'.getConfig =
      { w.getConfig with creationQuotaMax := n, creationQuotaWindowSeconds := seconds }) ∨
    ∃ admin config, call = .updateConfig admin config ∧ w'.getConfig = config ∧
      config.validate = .ok () := by
  rcases configEntry_exec hx with he | ⟨c, he, hc⟩
  · exact .inl (World.getConfig_of_entry he)
  · have hget := World.getConfig_of_stored he
    rcases hc with rfl | ⟨admin, n, seconds, hcall, rfl⟩ | ⟨admin, hcall, hvalid⟩
    · exact .inr (.inl hget)
    · exact .inr (.inr (.inl ⟨admin, n, seconds, hcall, hget⟩))
    · exact .inr (.inr (.inr ⟨admin, c, hcall, hget, hvalid⟩))

/-- Every call leaves a configuration that passes the check, which does not look at the
quota. -/
theorem World.ValidConfig.exec (h : w.ValidConfig) (hx : call.exec env w = .ok () w') :
    w'.ValidConfig := by
  unfold World.ValidConfig
  rcases getConfig_exec hx with hw | hw | ⟨_, n, seconds, -, hw⟩ | ⟨_, config, -, hw, hvalid⟩
  · rw [hw]
    exact h
  · rw [hw]
    decide
  · rw [hw]
    exact h
  · rw [hw]
    exact hvalid

theorem Reachable.validConfig {c : Chain H} (hc : Reachable c) : c.world.ValidConfig := by
  have hdefault : ContractConfig.default.validate = .ok () := by decide
  refine hc.inv (I := fun c => c.world.ValidConfig) (fun _ _ => hdefault) fun a l b _ h hstep => ?_
  cases hstep with
  | @committed _ _ w' _ hx =>
    have h : a.world.fresh.ValidConfig := h
    have h' : w'.ValidConfig := h.exec hx
    exact h'
  | reverted => exact h
  | outside => exact h

namespace ContractConfig

theorem inRange_bind {x lo hi : ℕ} {message : String} {k : Unit → Except String Unit}
    (h : (inRange x lo hi message >>= k) = .ok ()) : (lo ≤ x ∧ x ≤ hi) ∧ k () = .ok () := by
  unfold inRange at h
  split at h
  · cases h
  · exact ⟨by omega, h⟩

theorem maxMilestones_le {c : ContractConfig} (h : c.validate = .ok ()) :
    c.maxMilestonesPerShipment ≤ 1000 := by
  unfold validate at h
  obtain ⟨-, h⟩ := inRange_bind h
  obtain ⟨-, h⟩ := inRange_bind h
  obtain ⟨-, h⟩ := inRange_bind h
  obtain ⟨-, h⟩ := inRange_bind h
  obtain ⟨-, h⟩ := inRange_bind h
  exact (inRange_bind h).1.2

end ContractConfig

end Navin
