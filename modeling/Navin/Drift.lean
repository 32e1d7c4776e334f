/-
# The checksum of the configuration

The checksum is the hash of fifteen fields at fixed widths, one after the other: it tells
any two of them apart. The idempotency window and the creation quota are fields of the
configuration that are not among them, so that a change of these alone goes unnoticed.

Key definitions:
- `ContractConfig.hashed`, `ContractConfig.unhashed`: what the checksum covers, and the rest;
- `World.configChecksum`: the checksum that is stored, or else computed;
- `Call.configured`: the configuration a call sets.

Key theorems:
- `checksumBytes_eq_iff`: the bytes agree exactly if the fields covered do;
- `Reachable.summed`: the stored checksum is that of the configuration in force;
- `checksum_detects_iff`.
-/
import Navin.Audit
import Navin.Bytes
import Navin.Settings
import Navin.Token
import Navin.Entry.Queries

namespace Navin

open Tx

set_option synthInstance.maxSize 4000

variable {H : Host} {env : Env} {w w' : World H} {call : Call}

/-! ### The fields -/

namespace ContractConfig

/-- The fields that are hashed are in the range of their types. -/
structure Fits (c : ContractConfig) : Prop where
  ttlThreshold : c.shipmentTtlThreshold < 2 ^ 32
  ttlExtension : c.shipmentTtlExtension < 2 ^ 32
  interval : c.minStatusUpdateInterval < 2 ^ 64
  batch : c.batchOperationLimit < 2 ^ 32
  metadata : c.maxMetadataEntries < 2 ^ 32
  limit : c.defaultShipmentLimit < 2 ^ 32
  minAdmins : c.multisigMinAdmins < 2 ^ 32
  maxAdmins : c.multisigMaxAdmins < 2 ^ 32
  expiry : c.proposalExpirySeconds < 2 ^ 64
  grace : c.deadlineGraceSeconds < 2 ^ 64
  milestones : c.maxMilestonesPerShipment < 2 ^ 32
  notes : c.maxNotesPerShipment < 2 ^ 32
  evidence : c.maxEvidencePerDispute < 2 ^ 32
  breaches : c.maxBreachesPerShipment < 2 ^ 32

/-- The fields that are hashed. -/
def hashed (c : ContractConfig) : ContractConfig :=
  { c with idempotencyWindowSeconds := 0, creationQuotaMax := 0, creationQuotaWindowSeconds := 0 }

/-- The fields that are not. -/
def unhashed (c : ContractConfig) : ℕ × ℕ × ℕ :=
  (c.idempotencyWindowSeconds, c.creationQuotaMax, c.creationQuotaWindowSeconds)

variable {c d : ContractConfig}

theorem eq_of_parts (h : c.hashed = d.hashed) (h' : c.unhashed = d.unhashed) : c = d := by
  cases c
  cases d
  simp_all [hashed, unhashed]

theorem checksumBytes_eq_iff (hc : c.Fits) (hd : d.Fits) :
    c.checksumBytes = d.checksumBytes ↔ c.hashed = d.hashed := by
  constructor
  · intro h
    unfold checksumBytes at h
    simp only [List.append_assoc] at h
    obtain ⟨h₁, h⟩ := delimited_beBytes 4 hc.ttlThreshold hd.ttlThreshold h
    obtain ⟨h₂, h⟩ := delimited_beBytes 4 hc.ttlExtension hd.ttlExtension h
    obtain ⟨h₃, h⟩ := delimited_beBytes 8 hc.interval hd.interval h
    obtain ⟨h₄, h⟩ := delimited_beBytes 4 hc.batch hd.batch h
    obtain ⟨h₅, h⟩ := delimited_beBytes 4 hc.metadata hd.metadata h
    obtain ⟨h₆, h⟩ := delimited_beBytes 4 hc.limit hd.limit h
    obtain ⟨h₇, h⟩ := delimited_beBytes 4 hc.minAdmins hd.minAdmins h
    obtain ⟨h₈, h⟩ := delimited_beBytes 4 hc.maxAdmins hd.maxAdmins h
    obtain ⟨h₉, h⟩ := delimited_beBytes 8 hc.expiry hd.expiry h
    obtain ⟨h₁₀, h⟩ := delimited_beBytes 8 hc.grace hd.grace h
    obtain ⟨hflag, h⟩ := List.cons.inj h
    obtain ⟨h₁₂, h⟩ := delimited_beBytes 4 hc.milestones hd.milestones h
    obtain ⟨h₁₃, h⟩ := delimited_beBytes 4 hc.notes hd.notes h
    obtain ⟨h₁₄, h⟩ := delimited_beBytes 4 hc.evidence hd.evidence h
    have h₁₅ := (delimited_beBytes 4).inj hc.breaches hd.breaches h
    have h₁₁ : c.autoDisputeBreach = d.autoDisputeBreach := by
      cases hx : c.autoDisputeBreach <;> cases hy : d.autoDisputeBreach <;> simp [hx, hy] at hflag ⊢
    unfold hashed
    rw [h₁, h₂, h₃, h₄, h₅, h₆, h₇, h₈, h₉, h₁₀, h₁₁, h₁₂, h₁₃, h₁₄, h₁₅]
  · intro h
    have hbytes : ∀ x : ContractConfig, x.checksumBytes = x.hashed.checksumBytes := fun _ => rfl
    rw [hbytes c, hbytes d, h]

theorem inRange_last {x lo hi : ℕ} {message : String} (h : inRange x lo hi message = .ok ()) :
    lo ≤ x ∧ x ≤ hi := by
  unfold inRange at h
  split at h
  · cases h
  · omega

/-- A configuration that passes the check. -/
theorem fits_of_validate (h : c.validate = .ok ()) : c.Fits := by
  unfold validate at h
  obtain ⟨h₁, h⟩ := inRange_bind h
  obtain ⟨h₂, h⟩ := inRange_bind h
  obtain ⟨h₃, h⟩ := inRange_bind h
  obtain ⟨h₄, h⟩ := inRange_bind h
  obtain ⟨h₅, h⟩ := inRange_bind h
  obtain ⟨h₆, h⟩ := inRange_bind h
  obtain ⟨h₇, h⟩ := inRange_bind h
  obtain ⟨h₈, h⟩ := inRange_bind h
  obtain ⟨h₉, h⟩ := inRange_bind h
  obtain ⟨h₁₀, h⟩ := inRange_bind h
  split at h
  · cases h
  obtain ⟨h₁₁, h⟩ := inRange_bind h
  obtain ⟨h₁₂, h⟩ := inRange_bind h
  have h₁₃ := inRange_last h
  constructor <;> omega

end ContractConfig

/-! ### What is stored -/

/-- The checksum that is stored, or else computed. -/
def World.configChecksum (w : World H) : BytesN32 :=
  w.governance.configChecksum.getD (H.sha256 w.getConfig.checksumBytes)

theorem returns_getConfigChecksum {k : BytesN32} :
    (getConfigChecksum : Contract H BytesN32).Returns env w k w' ↔
      w.ledger.admin.isSome = true ∧ k = w.configChecksum ∧ w' = w := by
  unfold getConfigChecksum
  rw [returns_unit_bind fun _ _ => returns_requireInitialized, returns_gets_bind, returns_gets_bind,
    returns_pure]
  rfl

/-- The checksum is that of the configuration. -/
def World.Summed (w : World H) : Prop := w.configChecksum = H.sha256 w.getConfig.checksumBytes

theorem World.Summed.exec (h : w.Summed) (hx : call.exec env w = .ok () w') : w'.Summed := by
  unfold World.Summed World.configChecksum at h ⊢
  rcases configEntry_exec hx with he | ⟨c, he, -⟩
  · have hsum : w'.governance.configChecksum = w.governance.configChecksum := congrArg Prod.snd he
    rwa [World.getConfig_of_entry he, hsum]
  · have hsum : w'.governance.configChecksum = some (H.sha256 c.checksumBytes) := congrArg Prod.snd he
    rw [World.getConfig_of_stored he, hsum]
    rfl

variable {c c' : Chain H}

/-- In every reachable state the checksum is that of the configuration in force. -/
theorem Reachable.summed (hc : Reachable c) : c.world.Summed := by
  refine hc.inv (I := fun c => c.world.Summed) (fun _ _ => rfl) fun a l b _ h hstep => ?_
  cases hstep with
  | @committed _ _ w' _ hx =>
    have h : a.world.fresh.Summed := h
    have h' : w'.Summed := h.exec hx
    exact h'
  | reverted => exact h
  | outside => exact h

/-! ### What a change of the configuration shows -/

/-- The configuration that a call sets, over the one in force. -/
def Call.configured (config : ContractConfig) : Call → Option ContractConfig
  | .updateConfig _ newConfig => some newConfig
  | .setCreationQuota _ maxPerWindow windowSeconds => some { config with
      creationQuotaMax := maxPerWindow, creationQuotaWindowSeconds := windowSeconds }
  | _ => none

theorem getConfig_configured {new : ContractConfig}
    (hnew : call.configured w.getConfig = some new) (hx : call.exec env w = .ok () w') :
    w'.getConfig = new := by
  cases call with
  | updateConfig admin config =>
    cases hnew
    exact World.getConfig_of_stored (configEntry_updateConfig () w' hx).1
  | setCreationQuota admin n seconds =>
    cases hnew
    exact World.getConfig_of_stored (configEntry_setCreationQuota () w' hx)
  | _ => cases hnew

/-- A call that sets the configuration is made of a contract in use, and leaves it so. -/
theorem admin_configured {config new : ContractConfig} (hnew : call.configured config = some new)
    (hx : call.exec env w = .ok () w') :
    w.ledger.admin.isSome = true ∧ w'.ledger.admin.isSome = true := by
  have hbook : ∀ {m : Contract H Unit} [Preserves World.book m], m env w = .ok () w' →
      w'.ledger = w.ledger := fun {m} _ hx =>
    Preserves.wp World.book (fun _ _ hb => congrArg Book.ledger hb) () w' hx
  have hopen : w.ledger.admin ≠ none ∧ w'.ledger = w.ledger := by
    cases call with
    | updateConfig admin config =>
      refine ⟨?_, hbook (m := updateConfig admin config) hx⟩
      have key : wp (updateConfig admin config) env w fun _ _ => w.ledger.admin ≠ none := by
        unfold updateConfig
        rw [wp_bind]
        exact wp_openCall fun h _ => .of_forall fun _ _ => h
      exact key () w' hx
    | setCreationQuota admin n seconds =>
      refine ⟨?_, hbook (m := setCreationQuota admin n seconds) hx⟩
      have key : wp (setCreationQuota admin n seconds) env w fun _ _ => w.ledger.admin ≠ none := by
        unfold setCreationQuota
        rw [wp_bind]
        exact wp_requireInitialized fun h => .of_forall fun _ _ => h
      exact key () w' hx
    | _ => cases hnew
  obtain ⟨hadmin, hledger⟩ := hopen
  have hsome := Option.isSome_iff_ne_none.mpr hadmin
  exact ⟨hsome, by rw [hledger]; exact hsome⟩

/-- Two configurations that differ are serialized differently, and a call that changes the
configuration changes the checksum, if and only if they agree in the three fields that are
not serialized or differ in one that is. For the call the hash is assumed not to collide on
the two configurations. -/
theorem checksum_detects_iff :
    (∀ c d : ContractConfig, c.Fits → d.Fits →
      ((c ≠ d → c.checksumBytes ≠ d.checksumBytes) ↔ c.unhashed = d.unhashed ∨ c.hashed ≠ d.hashed)) ∧
    ∀ (c c' : Chain H) (call : Call) (env : Env) (trace : List Effect) (new : ContractConfig),
      Reachable c → Step c (.committed call env trace) c' →
      call.configured c.world.getConfig = some new →
      (H.sha256 new.checksumBytes = H.sha256 c.world.getConfig.checksumBytes →
        new.checksumBytes = c.world.getConfig.checksumBytes) →
      ∃ k k', getConfigChecksum.Returns env c.world k c.world ∧
        getConfigChecksum.Returns env c'.world k' c'.world ∧
        ((k' = k → c'.world.getConfig = c.world.getConfig) ↔
          new.unhashed = c.world.getConfig.unhashed ∨ new.hashed ≠ c.world.getConfig.hashed) := by
  have parts : ∀ c d : ContractConfig, ((c.hashed = d.hashed → c = d) ↔
      c.unhashed = d.unhashed ∨ c.hashed ≠ d.hashed) := by
    intro c d
    constructor
    · intro h
      by_cases hh : c.hashed = d.hashed
      · exact .inl (by rw [h hh])
      · exact .inr hh
    · rintro (hu | hne) hh
      · exact ContractConfig.eq_of_parts hh hu
      · exact absurd hh hne
  constructor
  · intro c d hc hd
    rw [← parts, ← ContractConfig.checksumBytes_eq_iff hc hd]
    exact not_imp_not
  · intro c c' call env trace new hc hstep hnew hfree
    have hc' := hc.step hstep
    have hsum : c.world.Summed := hc.summed
    have hsum' : c'.world.Summed := hc'.summed
    have hfits := ContractConfig.fits_of_validate hc.validConfig
    have hfits' := ContractConfig.fits_of_validate hc'.validConfig
    cases hstep with
    | @committed _ _ w' _ hx =>
      have hget : w'.getConfig = new := getConfig_configured (w := c.world.fresh) hnew hx
      obtain ⟨hadmin, hadmin'⟩ := admin_configured hnew hx
      refine ⟨_, _, returns_getConfigChecksum.mpr ⟨hadmin, rfl, rfl⟩,
        returns_getConfigChecksum.mpr ⟨hadmin', rfl, rfl⟩, ?_⟩
      rw [hsum, hsum']
      change (H.sha256 w'.getConfig.checksumBytes = _ → w'.getConfig = _) ↔ _
      change w'.getConfig.Fits at hfits'
      rw [hget] at hfits' ⊢
      rw [← parts, ← ContractConfig.checksumBytes_eq_iff hfits' hfits]
      constructor
      · intro h heq
        exact h (congrArg H.sha256 heq)
      · intro h heq
        exact h (hfree heq)

/-- A change of the size of a batch shows. -/
theorem checksum_detects_iff_batch : ∃ (ls : List Label) (c : Chain Deployment.host)
    (trace : List Effect) (c' : Chain Deployment.host) (k k' : BytesN32) (env : Env),
    Run Step Deployment.chain ls c ∧ Step c (.committed (.updateConfig Deployment.admin
      { ContractConfig.default with batchOperationLimit := 20 }) env trace) c' ∧
    getConfigChecksum.Returns env c.world k c.world ∧
    getConfigChecksum.Returns env c'.world k' c'.world ∧ k' ≠ k ∧
    ContractConfig.default.checksumBytes ≠
      { ContractConfig.default with batchOperationLimit := 20 }.checksumBytes := by
  have hfits : ContractConfig.default.Fits := ContractConfig.fits_of_validate (by decide)
  have hfits' : { ContractConfig.default with batchOperationLimit := 20 }.Fits :=
    ContractConfig.fits_of_validate (by decide)
  obtain ⟨ls, c, trace, c', hr, hstep, hold, hchanged, hfree⟩ := exists_commit Deployment.chain [
      Deployment.signed Deployment.admin 1
        (.initializeContract Deployment.admin Deployment.tokenContract)]
    (.updateConfig Deployment.admin { ContractConfig.default with batchOperationLimit := 20 })
    (Deployment.signed Deployment.admin 2 (.pause Deployment.admin)).2
    (fun r _ c' => r.2.world.getConfig = .default ∧ c'.world.getConfig ≠ r.2.world.getConfig ∧
      Deployment.host.sha256 { ContractConfig.default with batchOperationLimit := 20 }.checksumBytes ≠
        Deployment.host.sha256 r.2.world.getConfig.checksumBytes) (by decide +kernel)
  obtain ⟨k, k', hk, hk', hiff⟩ := checksum_detects_iff.2 c c' _ _ _ _
    ⟨_, ls, Deployment.deployed, hr⟩ hstep rfl fun h => absurd h hfree
  refine ⟨ls, c, trace, c', k, k', _, hr, hstep, hk, hk', fun heq => ?_,
    (checksum_detects_iff (H := Deployment.host).1 _ _ hfits hfits').mpr (.inl rfl) (by decide)⟩
  exact hchanged (hiff.mpr (by rw [hold]; exact .inl rfl) heq)

/-- A new quota and a longer window do not show. -/
theorem checksum_misses_drift :
    (∃ c d : ContractConfig, c.Fits ∧ d.Fits ∧ c ≠ d ∧ c.checksumBytes = d.checksumBytes) ∧
    ∃ (ls : List Label) (c : Chain Deployment.host) (trace : List Effect)
      (c' : Chain Deployment.host), Run Step Deployment.chain ls c ∧
      Step c (.committed (.setCreationQuota Deployment.admin 5 3600)
        (Deployment.signed Deployment.admin 2 (.pause Deployment.admin)).2 trace) c' ∧
      c'.world.getConfig ≠ c.world.getConfig ∧ c'.world.configChecksum = c.world.configChecksum := by
  constructor
  · exact ⟨.default, { ContractConfig.default with idempotencyWindowSeconds := 600 },
      ContractConfig.fits_of_validate (by decide), ContractConfig.fits_of_validate (by decide),
      by decide, rfl⟩
  · obtain ⟨ls, c, trace, c', hr, hstep, h⟩ := exists_commit Deployment.chain [
        Deployment.signed Deployment.admin 1
          (.initializeContract Deployment.admin Deployment.tokenContract)]
      (.setCreationQuota Deployment.admin 5 3600)
      (Deployment.signed Deployment.admin 2 (.pause Deployment.admin)).2
      (fun r _ c' => c'.world.getConfig ≠ r.2.world.getConfig ∧
        c'.world.configChecksum = r.2.world.configChecksum) (by decide +kernel)
    exact ⟨ls, c, trace, c', hr, hstep, h⟩

end Navin
