/-
# Analytics, versions and salts

What the registers of a contract show at the end of a run: the shipments created, the sums
deposited, the disputes opened, the upgrades made. The views that show them are
`get_analytics` and `dry_run_migration`.

Key definitions:
- `getAnalytics`, `dryRunMigration`: the views;
- `DisputesOne`: a step that puts a shipment in dispute;
- `Chain.upgrades`, `UpgradedTo`: the code a step brings, and by what right.

Key theorems:
- `noted_disputed_iff`: a dispute is noted when one is opened;
- `analytics_exact`: what the analytics of a run show;
- `versions_exact`: the version and the code after the upgrades of a run;
- `dryRun_exact`: a dry run tells whether the upgrade would go through;
- `salts_unique`: no salt is used twice.
-/
import Navin.Registers
import Navin.Provenance
import Navin.Closing

namespace Navin

open Tx

set_option synthInstance.maxSize 4000

variable {H : Host} {env : Env} {w w' : World H} {call : Call} {id : ℕ} {n : Note}
  {carrier admin : Address} {hash : BytesN32}

/-! ### What the notes tell -/

/-- The shipment is put in dispute. -/
def Disputes (w w' : World H) (id : ℕ) : Prop :=
  ∃ s s', w.getShipment id = some s ∧ s.status ≠ .disputed ∧ w'.getShipment id = some s' ∧
    s'.status = .disputed

/-- Only these rules put a shipment in dispute. -/
theorem Rule.disputes {p : Posting} (hr : Rule env w call p) (hn : call.isRecovery = false)
    (hold : p.old.status ≠ .disputed) (hnew : p.new.status = .disputed) :
    .disputed ∈ w.noted call ∨ ∃ a id x y h, call = .reportConditionBreach a id x y h := by
  have same : p.new.status = p.old.status → .disputed ∈ w.noted call ∨
      ∃ a id x y h, call = .reportConditionBreach a id x y h :=
    fun h => absurd (h.symm.trans hnew) hold
  cases hr with
  | setShipmentMetadata => exact same rfl
  | addDisputeEvidenceHash => exact same rfl
  | handoffShipment => exact same rfl
  | reportConditionBreach => exact .inr ⟨_, _, _, _, _, rfl⟩
  | @updateStatus _ _ status =>
    have hst : status = .disputed := hnew
    refine .inl ?_
    simp [World.noted, hst]
  | confirmDelivery => cases hnew
  | @confirmPartialDelivery s _ percent status _ _ _ _ hto =>
    have hst : status = .disputed := hnew
    rw [hst] at hto
    split at hto <;> cases hto
  | recordOther => exact same rfl
  | recordMilestone => exact same rfl
  | @recordMilestonesBatch s items =>
    have hb := s.batchOf_payBatch env.timestamp (items.map (·.1))
    exact same hb.status_eq
  | releaseNothing => exact same rfl
  | releaseMilestonePayment => exact same rfl
  | depositEscrow => exact same rfl
  | cancelShipment => cases hnew
  | forceCancelShipment => cases hnew
  | checkDeadline => cases hnew
  | releaseEscrow => exact same rfl
  | refundEscrow => cases hnew
  | raiseDispute => exact .inl (List.mem_singleton.mpr rfl)
  | releaseToCarrier => cases hnew
  | refundToCompany => cases hnew
  | forceRelease => cases hnew
  | forceRefund => cases hnew
  | recoverShipment => cases hn
  | unlockEscrow => cases hn
  | clearFinalization => cases hn
  | rollbackOnExternalFailure => cases hn

/-- A report notes a dispute exactly when it opens one. -/
theorem reportConditionBreach_disputes {breach : BreachType} {severity : Severity}
    (hx : (reportConditionBreach carrier id breach severity hash).Returns env w () w')
    (hk : w.ledger.Keyed) :
    .disputed ∈ w.noted (.reportConditionBreach carrier id breach severity hash) ↔ ∃ j, Disputes w w' j := by
  obtain ⟨s, hs, hopens, hkept⟩ := wp_reportConditionBreach.of_returns hx
  by_cases ho : w.Opens severity s
  · have hid : s.id = id := hk.get hs
    have hget : w'.getShipment id = some ((s.withStatus .disputed).touch env.timestamp) := by
      rw [hopens ho]
      have hlive : (w.ledger.setShipment ((s.withStatus .disputed).touch env.timestamp)).shipment id =
          some ((s.withStatus .disputed).touch env.timestamp) := by
        show Function.update w.ledger.shipment s.id _ id = _
        rw [hid, Function.update_self]
      show (w.ledger.setShipment ((s.withStatus .disputed).touch env.timestamp)).getShipment id = _
      unfold Ledger.getShipment
      rw [hlive]
    refine ⟨fun _ => ⟨id, s, _, hs, ho.2.2.2, hget, rfl⟩, fun _ => ?_⟩
    simp [World.noted, hs, ho]
  · have hget : w'.getShipment = w.getShipment := by
      rw [hkept ho]
      rfl
    refine ⟨fun h => ?_, fun h => ?_⟩
    · simp [World.noted, hs, ho] at h
    · obtain ⟨j, t, t', ht, hne, ht', heq⟩ := h
      rw [hget, ht] at ht'
      rw [Option.some.inj ht'] at hne
      exact absurd heq hne

/-- The disputes that are noted are the shipments put in dispute, recoveries apart. -/
theorem noted_disputed_iff (hs : w.ledger.Sound) (hn : call.isRecovery = false)
    (hx : call.exec env w = .ok () w') : .disputed ∈ w.noted call ↔ ∃ j, Disputes w w' j := by
  have he : Effects env w call w'.book := exec_effects hs.keyed hx
  have posted : call.posts = true → (∀ p, Rule env w call p → p.old.status ≠ .disputed ∧
      p.new.status = .disputed) → ∃ j, Disputes w w' j := by
    intro hposts hrule
    obtain ⟨p, hp⟩ := he.exists_posting hposts
    obtain ⟨hold, hnew⟩ := hrule p hp.rule
    exact ⟨p.old.id, p.old, p.new, hp.stored, hold, hp.stored_new, hnew⟩
  by_cases hcall : ∃ a id x y h, call = .reportConditionBreach a id x y h
  · obtain ⟨a, id, x, y, h, rfl⟩ := hcall
    exact reportConditionBreach_disputes hx hs.keyed
  · constructor
    · intro hnoted
      rcases writes_of_noted hnoted with ⟨a, id, hash, rfl⟩ | ⟨a, id, hash, rfl⟩ | hreport
      · refine posted rfl fun p hr => ?_
        cases hr with
        | raiseDispute _ _ _ hne => exact ⟨hne, rfl⟩
        | forceRelease hx => cases hx
        | forceRefund hx => cases hx
      · refine posted rfl fun p hr => ?_
        cases hr with
        | @updateStatus _ s _ _ _ _ hv =>
          refine ⟨fun heq => ?_, rfl⟩
          have heq : s.status = .disputed := heq
          rw [heq] at hv
          cases hv
        | forceRelease hx => cases hx
        | forceRefund hx => cases hx
      · exact absurd hreport hcall
    · intro h
      obtain ⟨j, s, s', hs₀, hne, hs', heq⟩ := h
      obtain ⟨t, ht, hcases⟩ := he.record hs hs₀
      have hts : t = s' := Option.some.inj (ht.symm.trans hs')
      rcases hcases with rfl | ⟨p, hp, rfl, hnew⟩
      · rw [hts] at hne
        exact absurd heq hne
      · have hst : p.new.status = .disputed := by rw [hnew, hts, heq]
        exact (hp.rule.disputes hn hne hst).resolve_right hcall

/-- An upgrade is noted only by a contract that is set up. -/
theorem initialized_of_upgraded (hx : call.exec env w = .ok () w') (h : .upgraded hash ∈ w.noted call) :
    w.ledger.admin ≠ none := by
  have key : wp call.exec env w fun _ _ => w.ledger.admin ≠ none := by
    rcases writes_of_noted h with ⟨a, v, rfl⟩ | hexec
    · show wp (upgrade a hash v) env w _
      unfold upgrade
      rw [wp_bind]
      exact wp_requireInitialized fun hinit => .of_forall fun _ _ => hinit
    · cases call with
      | approveAction a pid =>
        show wp (approveAction a pid) env w _
        unfold approveAction
        rw [wp_bind]
        exact wp_requireInitialized fun hinit => .of_forall fun _ _ => hinit
      | executeProposal pid =>
        show wp (executeProposal pid) env w _
        unfold executeProposal
        rw [wp_bind]
        exact wp_requireInitialized fun hinit => .of_forall fun _ _ => hinit
      | _ => cases hexec
  exact key () w' hx

/-! ### A contract that is not set up -/

/-- No shipment, and the first version. -/
def World.Blank (w : World H) : Prop :=
  w.ledger.admin = none → w.ledger.shipmentCount = 0 ∧ w.registers.shown = 1

/-- The set-up notes itself, and leaves the version it finds. -/
theorem code_exec (hblank : w.Blank) (hx : call.exec env w = .ok () w') :
    w'.registers.code = ((w.noted call).filterMap (·.hash?)).foldl nextCode w.registers.code := by
  have hregs : w'.registers = (w.noted call).foldl Registers.write w.registers :=
    registers_exec call () w' hx
  by_cases hf : .founded ∈ w.noted call
  · obtain ⟨a, b, rfl⟩ := writes_of_noted hf
    have hnone : w.ledger.admin = none := empowers_initializeContract () w' hx
    have hshown : w.registers.shown = 1 := (hblank hnone).2
    rw [hregs]
    show (1, w.registers.wasm) = (w.registers.shown, w.registers.wasm)
    rw [hshown]
  · rw [hregs, Registers.code_foldl hf]

theorem Step.blank {c c' : Chain H} {l : Label} (hstep : Step c l c') (hs : c.world.ledger.Sound)
    (h : c.world.Blank) : c'.world.Blank := by
  cases hstep with
  | @committed call env w' ha hx =>
    intro hnone
    have hblank : c.world.fresh.Blank := h
    have hs₀ : c.world.fresh.ledger.Sound := hs
    have he := exec_effects hs₀.keyed hx
    have hadm : c.world.fresh.ledger.admin = none := he.admin_none hnone
    obtain ⟨hzero, hshown⟩ := hblank hadm
    refine ⟨(he.shipmentCount_eq hzero hadm).trans hzero, ?_⟩
    have hnohash : (c.world.fresh.noted call).filterMap (·.hash?) = [] := by
      refine List.filterMap_eq_nil_iff.mpr fun n hn => ?_
      cases n with
      | upgraded hash => exact absurd hadm (initialized_of_upgraded hx hn)
      | _ => rfl
    have hcode := code_exec hblank hx
    rw [hnohash] at hcode
    exact (congrArg Prod.fst hcode).trans hshown
  | reverted => exact h
  | outside => exact h

/-! ### The number of shipments -/

theorem shipmentCount_exec (hs : w.ledger.Sound) (hblank : w.Blank) (hx : call.exec env w = .ok () w') :
    w'.ledger.shipmentCount = w.ledger.shipmentCount + call.orders.length := by
  by_cases hc : call.creates = true
  · cases call with
    | createShipment sender input =>
      obtain ⟨i, hx⟩ := returns_discard.mp hx
      obtain ⟨-, -, -, -, -, -, -, -, hw'⟩ := returns_createShipment.mp hx
      rw [hw']
      show World.enrolment _ + 1 = _
      rw [World.enrolment, World.reserved_ledger]
      rfl
    | createShipmentsBatch sender inputs =>
      obtain ⟨ids, hx⟩ := returns_discard.mp hx
      obtain ⟨-, -, -, -, -, -, -, hw'⟩ := returns_createShipmentsBatch.mp hx
      rw [hw', shipmentCount_enrolAll, World.reserved_ledger, Call.orders, List.length_map]
      rfl
    | _ => cases hc
  · have hc : call.creates = false := Bool.eq_false_of_not_eq_true hc
    have hnone : call.orders = [] := by
      cases call <;> first | rfl | cases hc
    rw [hnone, List.length_nil, add_zero]
    exact shipmentCount_kept hs (fun hadm => (hblank hadm).1) hc hx

/-! ### The registers over a run -/

theorem Deployed.blank {c : Chain H} (h : Deployed c) : c.world.Blank := by
  cases h
  exact fun _ => ⟨rfl, rfl⟩

/-- The code a step brings, if it upgrades the contract. -/
def Chain.upgrades (c : Chain H) : Label → List BytesN32
  | .committed call _ _ => (c.world.noted call).filterMap (·.hash?)
  | _ => []

/-- The sum a step takes into escrow, before the fee. -/
def Label.deposits : Label → List ℤ
  | .committed (.depositEscrow _ _ amount) _ _ => [amount]
  | _ => []

/-- The shipments a step creates. -/
def Label.created : Label → List (Address × ShipmentInput)
  | .committed call _ _ => call.orders
  | _ => []

/-- A step puts a shipment in dispute; the admin's repairs do not count. -/
def DisputesOne (c : Chain H) (l : Label) (c' : Chain H) : Prop :=
  l.calls Call.isRecovery = false ∧ ∃ id, Disputes c.world c'.world id

/-- A dispute is counted in the step that opens it, and in no other. -/
theorem Step.totalDisputes {c c' : Chain H} {l : Label} (hstep : Step c l c')
    (hs : c.world.ledger.Sound) :
    (DisputesOne c l c' → c'.world.registers.totalDisputes = c.world.registers.totalDisputes + 1) ∧
      (¬DisputesOne c l c' → c'.world.registers.totalDisputes = c.world.registers.totalDisputes) := by
  have same : c'.world.getShipment = c.world.getShipment → ¬DisputesOne c l c' := by
    intro heq h
    obtain ⟨-, id, s, s', hs₀, hne, hs', hst⟩ := h
    rw [heq, hs₀] at hs'
    rw [Option.some.inj hs'] at hne
    exact hne hst
  cases hstep with
  | @committed call env w' ha hx =>
    have hs₀ : c.world.fresh.ledger.Sound := hs
    have hregs : w'.registers = (c.world.fresh.noted call).foldl Registers.write c.world.registers :=
      registers_exec (w := c.world.fresh) call () w' hx
    rw [noted_fresh] at hregs
    have htotal : w'.registers.totalDisputes =
        c.world.registers.totalDisputes + (c.world.noted call).count .disputed := by
      rw [hregs, Registers.totalDisputes_foldl]
    show (_ → w'.registers.totalDisputes = _) ∧ (_ → w'.registers.totalDisputes = _)
    rw [htotal]
    by_cases hrec : call.isRecovery = true
    · have hnone : (c.world.noted call).count .disputed = 0 := by
        cases call <;> first | rfl | cases hrec
      refine ⟨fun h => ?_, fun _ => by rw [hnone, add_zero]⟩
      exact absurd (hrec.symm.trans h.1) Bool.noConfusion
    · have hrec : call.isRecovery = false := Bool.eq_false_of_not_eq_true hrec
      have hiff := noted_disputed_iff hs₀ hrec hx
      rw [noted_fresh] at hiff
      have hle := length_noted_le c.world call
      constructor
      · intro h
        have hmem : .disputed ∈ c.world.noted call := hiff.mpr h.2
        have hpos : 0 < (c.world.noted call).count .disputed := List.count_pos_iff.mpr hmem
        have := List.count_le_length (a := Note.disputed) (l := c.world.noted call)
        omega
      · intro h
        have hnot : .disputed ∉ c.world.noted call := fun hmem => h ⟨hrec, hiff.mp hmem⟩
        rw [List.count_eq_zero_of_not_mem hnot, add_zero]
  | reverted => exact ⟨fun h => absurd h (same rfl), fun _ => rfl⟩
  | outside => exact ⟨fun h => absurd h (same rfl), fun _ => rfl⟩

/-- The deposits of a step are what it notes of them. -/
theorem deposits_committed (w : World H) (call : Call) (trace : List Effect) :
    (Label.committed call env trace).deposits = (w.noted call).filterMap (·.amount?) := by
  by_cases hcall : ∃ a id x, call = .depositEscrow a id x
  · obtain ⟨a, id, x, rfl⟩ := hcall
    rfl
  · have hleft : (Label.committed call env trace).deposits = [] := by
      cases call with
      | depositEscrow a id x => exact absurd ⟨a, id, x, rfl⟩ hcall
      | _ => rfl
    rw [hleft]
    refine (List.filterMap_eq_nil_iff.mpr fun n hn => ?_).symm
    cases n with
    | deposited x =>
      obtain ⟨a, id, hx⟩ := writes_of_noted hn
      exact absurd ⟨a, id, x, hx⟩ hcall
    | _ => rfl

theorem Step.totalEscrowVolume {c c' : Chain H} {l : Label} (hstep : Step c l c') :
    c'.world.registers.totalEscrowVolume = c.world.registers.totalEscrowVolume + l.deposits.sum := by
  cases hstep with
  | @committed call env w' ha hx =>
    have hregs : w'.registers = (c.world.noted call).foldl Registers.write c.world.registers :=
      registers_exec (w := c.world.fresh) call () w' hx
    show w'.registers.totalEscrowVolume = _
    rw [hregs, Registers.totalEscrowVolume_foldl, deposits_committed c.world call w'.trace]
  | reverted => exact (add_zero _).symm
  | outside => exact (add_zero _).symm

theorem Step.shipmentCount {c c' : Chain H} {l : Label} (hstep : Step c l c')
    (hs : c.world.ledger.Sound) (hblank : c.world.Blank) :
    c'.world.ledger.shipmentCount = c.world.ledger.shipmentCount + l.created.length := by
  cases hstep with
  | committed _ hx =>
    have hs₀ : c.world.fresh.ledger.Sound := hs
    have hblank₀ : c.world.fresh.Blank := hblank
    have hcount := shipmentCount_exec hs₀ hblank₀ hx
    exact hcount
  | reverted => rfl
  | outside => rfl

theorem Step.code {c c' : Chain H} {l : Label} (hstep : Step c l c') (hblank : c.world.Blank) :
    c'.world.registers.code = (c.upgrades l).foldl nextCode c.world.registers.code := by
  cases hstep with
  | committed _ hx =>
    have hblank₀ : c.world.fresh.Blank := hblank
    have hcode := code_exec hblank₀ hx
    rw [noted_fresh] at hcode
    exact hcode
  | reverted => rfl
  | outside => rfl

/-! ### The views -/

/-- `dry_run_migration`. -/
def dryRunMigration (targetVersion : ℕ) : Contract H MigrationReport := do
  requireInitialized
  let currentVersion ← gets (·.getVersion)
  let next ← unwrap (checkedAddU32 currentVersion 1)
  rejectIf (targetVersion ≠ next) .invalidMigrationEdge
  let shipmentCount ← gets (·.ledger.shipmentCount)
  return ⟨currentVersion, targetVersion, shipmentCount⟩

/-- The one edge of a migration. -/
theorem migration_edge {target next version : ℕ} : (checkedAddU32 version 1 = some next ∧ ¬target ≠ next) ↔
    (target = version + 1 ∧ target ≤ u32Max) ∧ next = target := by
  unfold checkedAddU32
  constructor
  · intro h
    obtain ⟨hnext, heq⟩ := h
    obtain rfl := not_not.mp heq
    split at hnext
    · rename_i hle
      obtain rfl := Option.some.inj hnext
      exact ⟨⟨rfl, hle⟩, rfl⟩
    · cases hnext
  · intro h
    obtain ⟨⟨htarget, hle⟩, rfl⟩ := h
    rw [htarget] at hle
    rw [if_pos hle, htarget]
    exact ⟨rfl, not_not.mpr rfl⟩

theorem returns_dryRunMigration {target : ℕ} {x : MigrationReport} :
    (dryRunMigration target).Returns env w x w' ↔ w.ledger.admin.isSome = true ∧
      (target = w.getVersion + 1 ∧ target ≤ u32Max) ∧
      x = ⟨w.getVersion, target, w.ledger.shipmentCount⟩ ∧ w' = w := by
  unfold dryRunMigration
  rw [returns_unit_bind fun _ _ => returns_requireInitialized, returns_gets_bind, returns_unwrap_bind]
  simp only [returns_rejectIf_bind, returns_gets_bind, returns_pure, ← and_assoc, migration_edge]
  simp [and_assoc]

theorem returns_requireAdmin {u : Unit} : (requireAdmin admin : Contract H Unit).Returns env w u w' ↔
    w.ledger.admin = some admin ∧ w' = w := by
  unfold requireAdmin getAdmin
  simp only [bind_assoc, returns_gets_bind, returns_unwrap_bind, returns_rejectIf]
  constructor
  · intro h
    obtain ⟨b, hb, hne, hw⟩ := h
    obtain rfl := not_not.mp hne
    exact ⟨hb, hw⟩
  · intro h
    exact ⟨admin, h.1, not_not.mpr rfl, h.2⟩

/-- What an upgrade writes and tells. -/
def World.migrated (w : World H) (admin : Address) (hash : BytesN32) (target : ℕ) : World H :=
  { w with
    governance := { w.governance with version := some target, wasm := some hash }
    trace := w.trace ++ [.auth admin, .event (.contractUpgraded admin hash target),
      .event (.migrationReported ⟨w.getVersion, target, w.ledger.shipmentCount⟩)] }

theorem returns_upgrade {target : ℕ} {u : Unit} : (upgrade admin hash target).Returns env w u w' ↔
    w.ledger.admin.isSome = true ∧ env.auth admin = true ∧ hash ≠ 0 ∧ w.ledger.admin = some admin ∧
      (target = w.getVersion + 1 ∧ target ≤ u32Max) ∧ env.wasmUploaded hash = true ∧
      w' = w.migrated admin hash target := by
  unfold upgrade validateHash updateCurrentContractWasm setVersion publish log modifyGovernance
  rw [returns_unit_bind fun _ _ => returns_requireInitialized,
    returns_unit_bind fun _ _ => returns_requireAuth, returns_rejectIf_bind,
    returns_unit_bind fun _ _ => returns_requireAdmin, returns_gets_bind, returns_unwrap_bind]
  simp only [returns_rejectIf_bind, returns_gets_bind, returns_modify_bind, returns_ask_bind,
    returns_trapIf_bind, returns_modify, World.signed, List.append_assoc, List.singleton_append]
  constructor
  · intro h
    obtain ⟨hinit, hauth, hhash, hadmin, next, hnext, heq, hup, hw⟩ := h
    exact ⟨hinit, hauth, hhash, hadmin, (migration_edge.mp ⟨hnext, heq⟩).1, Bool.eq_true_of_not_eq_false hup, hw⟩
  · intro h
    obtain ⟨hinit, hauth, hhash, hadmin, hedge, hup, hw⟩ := h
    obtain ⟨hnext, heq⟩ := migration_edge.mpr ⟨hedge, rfl⟩
    exact ⟨hinit, hauth, hhash, hadmin, target, hnext, heq, by simp [hup], hw⟩

/-! ### Main results -/

/-- An upgrade by the admin, or one the council voted for. -/
def UpgradedTo (hash : BytesN32) (c : Chain H) (l : Label) : Prop :=
  ∃ call env trace, l = .committed call env trace ∧
    ((∃ a v, call = .upgrade a hash v ∧ c.world.ledger.admin = some a ∧ SignedBy trace a) ∨
      c.world.Passes env call trace (.upgrade hash))

theorem Step.upgradedTo {c c' : Chain H} {l : Label} (hc : Reachable c) (hstep : Step c l c')
    (h : hash ∈ c.upgrades l) : UpgradedTo hash c l := by
  cases hstep with
  | @committed call env w' ha hx =>
    have g : Signed env c.world.fresh call w'.trace := hc.signed hx
    obtain ⟨n, hn, hhash⟩ := List.mem_filterMap.mp h
    have hn' : n = .upgraded hash := by
      cases n with
      | upgraded k => rw [Option.some.inj hhash]
      | _ => cases hhash
    subst hn'
    refine ⟨call, env, w'.trace, rfl, ?_⟩
    rcases writes_of_noted hn with ⟨a, v, rfl⟩ | hexec
    · have hadmin : c.world.fresh.ledger.admin = some a := (returns_upgrade.mp hx).2.2.2.1
      exact .inl ⟨a, v, rfl, hadmin, g.caller a rfl⟩
    · exact .inr (g.passed _ hexec)
  | reverted => cases h
  | outside => cases h

/-- The version and the code at the end of a run: as many versions on as there were upgrades,
and the code of the last one; each was signed by the admin, or voted for by the council. -/
theorem versions_exact {c₀ c : Chain H} {ls : List Label} {hs : List BytesN32} (hd : Deployed c₀)
    (hr : Gathers Step Chain.upgrades c₀ ls c hs) :
    c.world.getVersion = 1 + hs.length ∧ c.world.governance.wasm = hs.getLast? ∧
      ∀ hash ∈ hs, Past Step (fun a l _ => UpgradedTo hash a l) c₀ ls c := by
  have hcode : c.world.registers.code = hs.foldl nextCode c₀.world.registers.code := by
    refine hr.foldl_eq (φ := fun x => x.world.registers.code)
      (I := fun x => x.world.ledger.Sound ∧ x.world.Blank) ⟨hd.sound, hd.blank⟩ ?_ ?_
    · intro a l b hI hstep
      exact ⟨hstep.sound hI.1, hstep.blank hI.1 hI.2⟩
    · intro a l b hI hstep
      exact hstep.code hI.2
  have hzero : c₀.world.registers.code = (1, none) := by
    cases hd
    rfl
  rw [hzero, foldl_nextCode, Option.or_none] at hcode
  obtain ⟨hversion, hwasm⟩ := Prod.mk.inj hcode
  refine ⟨hversion, hwasm, (hr.past (Q := UpgradedTo) ?_).2⟩
  intro ks a l b hra hstep hash hmem
  exact hstep.upgradedTo ⟨c₀, ks, hd, hra⟩ hmem

/-- The admin upgrades the contract, and then the council does. -/
theorem versions_exact_voted : ∃ (c : Chain Deployment.host) (ls : List Label) (hs : List BytesN32),
    Gathers Step Chain.upgrades Deployment.chain ls c hs ∧ c.world.governance.wasm = some 8 ∧
      c.world.getVersion = 3 ∧ c.world.getVersion = 1 + hs.length ∧
      c.world.governance.wasm = hs.getLast? ∧
      ∀ hash ∈ hs, Past Step (fun a l _ => UpgradedTo hash a l) Deployment.chain ls c := by
  obtain ⟨ls, c, hr, -, hwasm, hversion⟩ := exists_play Deployment.chain
    (Deployment.opening ++ [
      Deployment.signed Deployment.admin 5 (.upgrade Deployment.admin 7 2),
      Deployment.signed Deployment.admin 6
        (.initMultisig Deployment.admin [Deployment.admin, Deployment.treasury] 2),
      Deployment.signed Deployment.admin 7 (.proposeAction Deployment.admin (.upgrade 8)),
      Deployment.signed Deployment.treasury 8 (.approveAction Deployment.treasury 1)])
    (fun r => r.2.world.governance.wasm = some 8 ∧ r.2.world.getVersion = 3) (by decide +kernel)
  obtain ⟨hs, hg⟩ := hr.gathers Chain.upgrades
  exact ⟨c, ls, hs, hg, hwasm, hversion, versions_exact Deployment.deployed hg⟩

/-- The salt of a proposal. -/
def Label.salts : Label → List BytesN32
  | .committed (.proposeActionWithSalt _ _ salt) _ _ => [salt]
  | _ => []

/-- A salt that is used was not used before. -/
theorem Step.salts {c c' : Chain H} {l : Label} (hstep : Step c l c') :
    (∀ x ∈ l.salts, c.world.registers.proposalSalt x = false) ∧ l.salts.Nodup ∧
      ∀ x, c'.world.registers.proposalSalt x = true ↔
        c.world.registers.proposalSalt x = true ∨ x ∈ l.salts := by
  have same : l.salts = [] → c'.world.registers.proposalSalt = c.world.registers.proposalSalt →
      (∀ x ∈ l.salts, c.world.registers.proposalSalt x = false) ∧ l.salts.Nodup ∧
        ∀ x, c'.world.registers.proposalSalt x = true ↔
          c.world.registers.proposalSalt x = true ∨ x ∈ l.salts := by
    intro hnone heq
    rw [hnone, heq]
    simp
  cases hstep with
  | @committed call env w' ha hx =>
    by_cases hcall : ∃ a action salt, call = .proposeActionWithSalt a action salt
    · obtain ⟨a, action, salt, rfl⟩ := hcall
      obtain ⟨n, hx⟩ := returns_discard.mp hx
      obtain ⟨hunused, hregs⟩ := registers_proposeActionWithSalt.of_returns hx
      have hset : w'.registers.proposalSalt =
          Function.update c.world.registers.proposalSalt salt true := by
        rw [hregs]
        rfl
      refine ⟨fun x hmem => ?_, List.nodup_singleton salt, fun x => ?_⟩
      · rw [List.mem_singleton.mp hmem]
        exact hunused
      · show w'.registers.proposalSalt x = true ↔ _ ∨ x ∈ [salt]
        rw [hset, List.mem_singleton]
        by_cases hsalt : x = salt
        · rw [hsalt, Function.update_self]
          simp
        · rw [Function.update_of_ne hsalt]
          simp [hsalt]
    · refine same ?_ ?_
      · cases call with
        | proposeActionWithSalt a action salt => exact absurd ⟨a, action, salt, rfl⟩ hcall
        | _ => rfl
      · have hregs : w'.registers = (c.world.fresh.noted call).foldl Registers.write c.world.registers :=
          registers_exec (w := c.world.fresh) call () w' hx
        show w'.registers.proposalSalt = _
        rw [hregs]
        refine Registers.proposalSalt_foldl (fun salt hmem => ?_) _
        obtain ⟨a, action, heq⟩ := writes_of_noted hmem
        exact hcall ⟨a, action, salt, heq⟩
  | reverted => exact same rfl rfl
  | outside => exact same rfl rfl

/-- No salt serves twice, whatever became of the proposal that carried it. -/
theorem salts_unique {c c' : Chain H} {ls : List Label} (hr : Run Step c ls c') :
    (ls.flatMap (·.salts)).Nodup ∧
      ∀ x ∈ ls.flatMap (·.salts), c.world.governance.proposalSalt x = false := by
  have key : (∀ x, c'.world.registers.proposalSalt x = true ↔
      c.world.registers.proposalSalt x = true ∨ x ∈ ls.flatMap (·.salts)) ∧
      (ls.flatMap (·.salts)).Nodup ∧
        ∀ x ∈ ls.flatMap (·.salts), c.world.governance.proposalSalt x = false := by
    refine hr.inv_hist (I := fun ks y => (∀ x, y.world.registers.proposalSalt x = true ↔
      c.world.registers.proposalSalt x = true ∨ x ∈ ks.flatMap (·.salts)) ∧
      (ks.flatMap (·.salts)).Nodup ∧
        ∀ x ∈ ks.flatMap (·.salts), c.world.governance.proposalSalt x = false) ?_ ?_
    · simp
    · intro ks y l z _ ih hstep
      obtain ⟨hused, hnodup, hfresh⟩ := ih
      obtain ⟨hunused, hnodup', hused'⟩ := hstep.salts
      have hnone : ∀ x ∈ l.salts, ¬(c.world.registers.proposalSalt x = true ∨ x ∈ ks.flatMap (·.salts)) := by
        intro x hx h
        rw [← hused x, hunused x hx] at h
        cases h
      have hone : [l].flatMap (·.salts) = l.salts := by simp
      rw [List.flatMap_append, hone]
      refine ⟨fun x => ?_, ?_, ?_⟩
      · rw [hused' x, hused x, List.mem_append, or_assoc]
      · refine List.nodup_append.mpr ⟨hnodup, hnodup', ?_⟩
        intro x hx y hy heq
        exact hnone y hy (.inr (heq ▸ hx))
      · intro x hx
        rcases List.mem_append.mp hx with hx | hx
        · exact hfresh x hx
        · exact Bool.eq_false_of_not_eq_true fun h => hnone x hx (.inl h)
  exact key.2

/-- Two proposals with salts of their own. -/
theorem salts_unique_two : ∃ (c' : Chain Deployment.host) (ls : List Label),
    Run Step Deployment.chain ls c' ∧ ls.flatMap (·.salts) = [7, 8] ∧ (ls.flatMap (·.salts)).Nodup ∧
      ∀ x ∈ ls.flatMap (·.salts), (Deployment.chain).world.governance.proposalSalt x = false := by
  obtain ⟨ls, c, hr, -, hsalts⟩ := exists_play Deployment.chain
    (Deployment.opening ++ [
      Deployment.signed Deployment.admin 6
        (.initMultisig Deployment.admin [Deployment.admin, Deployment.treasury] 2),
      Deployment.signed Deployment.admin 7 (.proposeActionWithSalt Deployment.admin (.upgrade 8) 7),
      Deployment.signed Deployment.admin 8 (.proposeActionWithSalt Deployment.admin (.upgrade 8) 8)])
    (fun r => r.1.flatMap (·.salts) = [7, 8]) (by decide +kernel)
  exact ⟨c, ls, hr, hsalts, salts_unique hr⟩

/-- A dry run tells the admin, before anything is signed, whether an upgrade would go through,
and what it would report. -/
theorem dryRun_exact {c : Chain H} {target : ℕ} {report : MigrationReport} (hadm : env.Admissible c)
    (hadmin : c.world.ledger.admin = some admin) (hsigned : env.auth admin = true) (hhash : hash ≠ 0)
    (hup : env.wasmUploaded hash = true) :
    (∃ v, (dryRunMigration target).Returns env c.world report v) ↔
      ∃ trace c', Step c (.committed (.upgrade admin hash target) env trace) c' ∧
        .event (.migrationReported report) ∈ trace := by
  have hsome : c.world.ledger.admin.isSome = true := by
    rw [hadmin]
    rfl
  constructor
  · intro h
    obtain ⟨v, hv⟩ := h
    obtain ⟨-, hedge, rfl, -⟩ := returns_dryRunMigration.mp hv
    have hx : (upgrade admin hash target).Returns env c.world.fresh ()
        (c.world.fresh.migrated admin hash target) :=
      returns_upgrade.mpr ⟨hsome, hsigned, hhash, hadmin, hedge, hup, rfl⟩
    refine ⟨_, _, .committed hadm hx, ?_⟩
    show _ ∈ [] ++ [Effect.auth admin, .event (.contractUpgraded admin hash target),
      .event (.migrationReported ⟨c.world.getVersion, target, c.world.ledger.shipmentCount⟩)]
    simp
  · intro h
    obtain ⟨trace, c', hstep, hmem⟩ := h
    cases hstep with
    | committed _ hx =>
      obtain ⟨-, -, -, -, hedge, -, rfl⟩ := returns_upgrade.mp hx
      have hmem : Effect.event (.migrationReported report) ∈ [] ++ [Effect.auth admin,
          .event (.contractUpgraded admin hash target),
          .event (.migrationReported ⟨c.world.getVersion, target, c.world.ledger.shipmentCount⟩)] := hmem
      have hreport : report = ⟨c.world.getVersion, target, c.world.ledger.shipmentCount⟩ := by
        simpa using hmem
      exact ⟨c.world, returns_dryRunMigration.mpr ⟨hsome, hedge, hreport, rfl⟩⟩

end Navin
