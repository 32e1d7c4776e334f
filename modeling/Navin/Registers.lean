/-
# Registers

The contract keeps a few registers beside its shipments: its version and its code, the
volume it ever took into escrow, the disputes it ever saw, and the salts of proposals.
Each call writes one note into them or none.

Key definitions:
- `Registers`, `Note`: the registers, and what is noted in them;
- `World.noted`: what a call notes.

Key theorems:
- `registers_exec`: every committed call writes its notes and nothing else;
- `writes_of_noted`: the calls behind each note.
-/
import Navin.Powers
import Navin.Breaches
import Navin.Lib.Counters

namespace Navin

open Tx

set_option synthInstance.maxSize 4000

variable {H : Host} {env : Env} {w w' : World H} {call : Call} {a b : Address} {id : ℕ}

/-! ### The registers -/

/-- The registers of a contract. -/
structure Registers where
  version : Option ℕ
  wasm : Option BytesN32
  totalEscrowVolume : ℤ
  totalDisputes : ℕ
  proposalSalt : BytesN32 → Bool

@[reducible] def Governance.registers (g : Governance) : Registers where
  version := g.version
  wasm := g.wasm
  totalEscrowVolume := g.totalEscrowVolume
  totalDisputes := g.totalDisputes
  proposalSalt := g.proposalSalt

def World.registers (w : World H) : Registers := w.governance.registers

/-- What is noted in the registers. -/
inductive Note where
  | founded
  | upgraded (hash : BytesN32)
  | deposited (amount : ℤ)
  | disputed
  | salted (salt : BytesN32)
  deriving DecidableEq

/-- The code an upgrade brings. -/
def Note.hash? : Note → Option BytesN32
  | .upgraded hash => some hash
  | _ => none

/-- The sum a deposit brings. -/
def Note.amount? : Note → Option ℤ
  | .deposited amount => some amount
  | _ => none

namespace Registers

/-- The version that is shown: a contract that was not set up shows the first. -/
def shown (r : Registers) : ℕ := r.version.getD 1

def write (r : Registers) : Note → Registers
  | .founded => { r with version := some 1 }
  | .upgraded hash => { r with version := some (r.shown + 1), wasm := some hash }
  | .deposited amount => { r with totalEscrowVolume := r.totalEscrowVolume + amount }
  | .disputed => { r with totalDisputes := r.totalDisputes + 1 }
  | .salted salt => { r with proposalSalt := Function.update r.proposalSalt salt true }

/-- The version that is shown, and the code. -/
def code (r : Registers) : ℕ × Option BytesN32 := (r.shown, r.wasm)

end Registers

/-- An upgrade to the next version. -/
def nextCode (x : ℕ × Option BytesN32) (hash : BytesN32) : ℕ × Option BytesN32 := (x.1 + 1, some hash)

theorem Registers.code_write {n : Note} (hn : n ≠ .founded) (r : Registers) :
    (r.write n).code = n.hash?.toList.foldl nextCode r.code := by
  cases n with
  | founded => exact absurd rfl hn
  | _ => rfl

theorem Registers.code_foldl {ns : List Note} (hns : .founded ∉ ns) (r : Registers) :
    (ns.foldl write r).code = (ns.filterMap (·.hash?)).foldl nextCode r.code := by
  induction ns generalizing r with
  | nil => rfl
  | cons n ns ih =>
    have hn : n ≠ .founded := fun h => hns (h ▸ List.mem_cons_self)
    rw [List.foldl_cons, ih fun h => hns (List.mem_cons_of_mem n h), code_write hn]
    cases hhash : n.hash? with
    | none => simp [hhash]
    | some hash => simp [hhash]

theorem foldl_nextCode (hs : List BytesN32) (x : ℕ × Option BytesN32) :
    hs.foldl nextCode x = (x.1 + hs.length, hs.getLast?.or x.2) := by
  induction hs generalizing x with
  | nil => rfl
  | cons hash hs ih =>
    rw [List.foldl_cons, ih, nextCode, List.length_cons, List.getLast?_cons]
    cases hs.getLast? <;> simp [Nat.add_comm, Nat.add_assoc]

/-- What an action of the council notes. -/
def AdminAction.notes : AdminAction → List Note
  | .upgrade hash => [.upgraded hash]
  | _ => []

/-- What a call notes in the state `w`. -/
def World.noted (w : World H) (call : Call) : List Note :=
  match call with
  | .initializeContract .. => [.founded]
  | .upgrade _ hash _ => [.upgraded hash]
  | .depositEscrow _ _ amount => [.deposited amount]
  | .raiseDispute .. => [.disputed]
  | .updateStatus _ _ status _ => if status = .disputed then [.disputed] else []
  | .reportConditionBreach _ id _ severity _ =>
    if (w.getShipment id).any fun s => decide (w.Opens severity s) then [.disputed] else []
  | .proposeActionWithSalt _ _ salt => [.salted salt]
  | .approveAction .. | .executeProposal .. => ((w.executing call).map (·.notes)).getD []
  | _ => []

/-- The calls that may note something. -/
def Call.notes : Call → Bool
  | .initializeContract .. | .depositEscrow .. | .upgrade .. | .approveAction .. | .executeProposal ..
  | .raiseDispute .. | .updateStatus .. | .reportConditionBreach .. | .proposeActionWithSalt .. => true
  | _ => false

/-! ### Calls that note nothing -/

instance : LedgerFree (World.registers (H := H)) := ⟨fun _ _ => rfl⟩

instance : RegistryFree (World.registers (H := H)) := ⟨fun _ _ => rfl⟩

instance : DossierFree (World.registers (H := H)) := ⟨fun _ _ => rfl⟩

instance : AuthFree (World.registers (H := H)) := ⟨fun _ _ => rfl⟩

instance : PlainFree (World.registers (H := H)) := ⟨fun _ _ _ => rfl⟩

instance : PaymentFree (World.registers (H := H)) := ⟨fun _ _ _ => rfl⟩

instance (g : Governance → Governance) [h : ∀ x, Same (g x).registers x.registers] :
    Preserves (World.registers (H := H)) (modifyGovernance g : Contract H Unit) :=
  .modify fun w => (h w.governance).out

instance registers_withReentrancyLock (m : Contract H Unit) [Preserves World.registers m] :
    Preserves World.registers (withReentrancyLock m : Contract H Unit) := by
  have := Preserves.ensure (f := World.registers) (m := m)
    (g := fun w => { w with governance := { w.governance with reentrancyLock := false } })
    (fun w => rfl)
  unfold withReentrancyLock
  infer_instance

instance registers_invokeTokenTransfer (t : Address) (x : ℤ) :
    Preserves World.registers (invokeTokenTransfer t a b x : Contract H Unit) := by
  unfold invokeTokenTransfer checkTransferAllowed recordTransferSuccess
  infer_instance

instance registers_collectPlatformFee (t : Address) (x : ℤ) :
    Preserves World.registers (collectPlatformFee id t x : Contract H ℤ) := by
  unfold collectPlatformFee
  refine @Preserves.bind _ _ _ _ _ _ _ _ _ inferInstance fun c => ?_
  cases c <;> (dsimp only; infer_instance)

instance registers_checkIdempotency (payload : List UInt8) :
    Preserves World.registers (checkIdempotency payload : Contract H Unit) := by
  unfold checkIdempotency setIdempotencyWindow
  infer_instance

instance registers_internalReleaseEscrow (s : Shipment) (x : ℤ) :
    Preserves World.registers (internalReleaseEscrow s x : Contract H Shipment) := by
  unfold internalReleaseEscrow
  infer_instance

instance registers_payRecordedMilestone (s : Shipment) (name : Symbol) :
    Preserves World.registers (payRecordedMilestone id s name : Contract H Shipment) := by
  unfold payRecordedMilestone
  split <;> infer_instance

instance registers_recordBatchItem (s : Shipment) (item : Symbol × BytesN32) :
    Preserves World.registers (recordBatchItem a id s item : Contract H Shipment) := by
  unfold recordBatchItem
  split <;> infer_instance

instance registers_forceSettle (status : ShipmentStatus) (recipient : Shipment → Address)
    (emitPaid : ℕ → Address → ℤ → Contract H Unit) [∀ i a x, Preserves World.registers (emitPaid i a x)] :
    Preserves World.registers (forceSettle id status recipient emitPaid : Contract H Unit) := by
  unfold forceSettle payIfTokenSet
  infer_instance

instance registers_forceRelease : Preserves World.registers (forceRelease id : Contract H Unit) := by
  unfold forceRelease
  infer_instance

instance registers_forceRefund : Preserves World.registers (forceRefund id : Contract H Unit) := by
  unfold forceRefund
  infer_instance

theorem registers_unnoted (hc : call.notes = false) :
    wp call.exec env w fun _ w' => w'.registers = w.registers := by
  have keep : ∀ {m : Contract H Unit} [Preserves World.registers m],
      wp m env w fun _ w' => w'.registers = w.registers :=
    Preserves.wp World.registers fun _ _ h => h
  cases call with
  | initializeContract => cases hc
  | depositEscrow => cases hc
  | upgrade => cases hc
  | approveAction => cases hc
  | executeProposal => cases hc
  | raiseDispute => cases hc
  | updateStatus => cases hc
  | reportConditionBreach => cases hc
  | proposeActionWithSalt => cases hc
  | _ =>
    simp only [Call.exec, setCreationQuota, updateConfig, setPlatformFee, pause, unpause,
      setCircuitBreakerConfig, resetCircuitBreaker, setConfig, logAudit, addCarrierToWhitelist,
      addCompany, addCarrier, addPartyRole, addGuardian, addOperator, addStaffRole, removeGuardian,
      removeOperator, revokeRole, suspendRole, reactivateRole, transferAdmin, acceptAdminTransfer,
      initMultisig, proposeAction, createShipment, createShipmentsBatch, storeNewShipment,
      discard, recordMilestone, recordMilestonesBatch,
      releaseMilestonePayment, confirmDelivery, confirmPartialDelivery, releaseEscrow,
      refundEscrow, cancelShipment, forceCancelShipment, checkDeadline, resolveDispute,
      handoffShipment]
    exact keep

/-! ### Calls that do -/

variable {source caller carrier admin : Address} {amount : ℤ} {hash salt : BytesN32} {pid : ℕ}
  {n : Note}

instance writes_withReentrancyLock (m : Contract H Unit) [Writes World.registers (·.write n) m] :
    Writes World.registers (·.write n) (withReentrancyLock m : Contract H Unit) := by
  have := Writes.ensure (f := World.registers) (g := (·.write n)) (m := m)
    (k := fun w => { w with governance := { w.governance with reentrancyLock := false } })
    (fun w => rfl)
  unfold withReentrancyLock
  infer_instance

instance writes_addTotalEscrowVolume : Writes World.registers (·.write (.deposited amount))
    (addTotalEscrowVolume amount : Contract H Unit) := ⟨fun env w => by
  unfold addTotalEscrowVolume
  simp only [wp_bind, wp_rejectIf, wp_gets, wp_okOr, wp_modifyGovernance]
  intro _ x hx _
  obtain rfl := checkedI128_eq_some hx
  rfl⟩

instance writes_incrementTotalDisputes : Writes World.registers (·.write .disputed)
    (incrementTotalDisputes : Contract H Unit) := ⟨fun _ _ => wp_incrementTotalDisputes rfl⟩

theorem registers_depositEscrow : wp (depositEscrow source id amount) env w fun _ w' =>
    w'.registers = w.registers.write (.deposited amount) := by
  have h : Writes World.registers (·.write (.deposited amount))
      (depositEscrow source id amount : Contract H Unit) := by
    unfold depositEscrow
    infer_instance
  exact h.out env w

theorem registers_raiseDispute : wp (raiseDispute caller id hash) env w fun _ w' =>
    w'.registers = w.registers.write .disputed := by
  have h : Writes World.registers (·.write .disputed) (raiseDispute caller id hash : Contract H Unit) := by
    unfold raiseDispute
    infer_instance
  exact h.out env w

theorem registers_updateStatus {i : ℕ} {status : ShipmentStatus} :
    wp (updateStatus caller i status hash) env w fun _ w' =>
      w'.registers = if status = .disputed then w.registers.write .disputed else w.registers := by
  have h : Writes World.registers (if status = .disputed then (·.write .disputed) else id)
      (updateStatus caller i status hash : Contract H Unit) := by
    unfold updateStatus
    infer_instance
  refine (h.out env w).mono fun _ w' hw' => ?_
  rw [hw']
  split <;> rfl

theorem registers_reportConditionBreach {breach : BreachType} {severity : Severity} :
    wp (reportConditionBreach carrier id breach severity hash) env w fun _ w' =>
      w'.registers = (w.noted (.reportConditionBreach carrier id breach severity hash)).foldl
        Registers.write w.registers := by
  refine wp_reportConditionBreach.mono fun _ w' h => ?_
  obtain ⟨s, hs, hopens, hkept⟩ := h
  simp only [World.noted, hs, Option.any_some]
  by_cases ho : w.Opens severity s
  · rw [hopens ho, if_pos (decide_eq_true ho)]
    rfl
  · have hno : ¬decide (w.Opens severity s) = true := by simpa using ho
    rw [hkept ho, if_neg hno]
    rfl

theorem registers_proposeActionWithSalt {action : AdminAction} :
    wp (proposeActionWithSalt a action salt) env w fun _ w' =>
      w.registers.proposalSalt salt = false ∧ w'.registers = w.registers.write (.salted salt) := by
  have h : Preserves World.registers (proposeAction a action : Contract H ℕ) := by
    unfold proposeAction
    infer_instance
  unfold proposeActionWithSalt setProposalSaltUsed
  simp only [wp_bind, wp_gets, wp_rejectIf, wp_modifyGovernance]
  refine wp_guard fun _ _ hunused => ?_
  refine (h.out env _).mono fun _ w' h => ⟨Bool.eq_false_of_not_eq_true hunused, ?_⟩
  rw [h]
  rfl

theorem registers_initializeContract : wp (initializeContract a b) env w fun _ w' =>
    w'.registers = w.registers.write .founded := by
  have h : Writes World.registers (·.write .founded) (setVersion 1 : Contract H Unit) :=
    ⟨fun _ _ => wp_modifyGovernance.mpr rfl⟩
  have h' : Writes World.registers (·.write .founded) (initializeContract a b : Contract H Unit) := by
    unfold initializeContract setConfig storageSetShipmentLimit
    infer_instance
  exact h'.out env w

/-- An upgrade goes to the next version. -/
theorem registers_upgrade {target : ℕ} : wp (upgrade admin hash target) env w fun _ w' =>
    target = w.registers.shown + 1 ∧ w'.registers = w.registers.write (.upgraded hash) := by
  unfold upgrade updateCurrentContractWasm setVersion
  simp only [wp_bind, wp_gets, wp_rejectIf, wp_modifyGovernance, wp_log, wp_unwrap, wp_ask, wp_trapIf]
  refine wp_guard fun _ => ?_
  refine wp_requireAuth fun _ => ?_
  refine wp_guard fun _ => ?_
  refine wp_guard fun _ => ?_
  intro next hnext htarget _
  obtain rfl := checkedAddU32_eq_some hnext
  obtain rfl := not_not.mp htarget
  exact ⟨rfl, rfl⟩

theorem registers_performAction {action : AdminAction} : wp (performAction a action) env w fun _ w' =>
    w'.registers = action.notes.foldl Registers.write w.registers := by
  cases action with
  | upgrade wasmHash =>
    unfold performAction setVersion updateCurrentContractWasm
    simp only [wp_bind, wp_gets, wp_okOr, wp_modifyGovernance, wp_log, wp_ask, wp_trapIf]
    intro next hnext _
    obtain rfl := checkedAddU32_eq_some hnext
    rfl
  | transferAdmin =>
    unfold performAction
    exact Preserves.out (f := World.registers) env w
  | forceRelease =>
    show wp (forceRelease _) env w _
    exact Preserves.out (f := World.registers) env w
  | forceRefund =>
    show wp (forceRefund _) env w _
    exact Preserves.out (f := World.registers) env w

theorem registers_executeProposalInternal :
    wp (executeProposalInternal pid) env w fun _ w' => ∃ p, w.governance.proposal pid = some p ∧
      w'.registers = p.action.notes.foldl Registers.write w.registers := by
  unfold executeProposalInternal
  simp only [wp_bind, wp_gets, wp_okOr, wp_rejectIf, wp_timestamp, wp_modifyGovernance, wp_log]
  intro p hp _ _ _
  exact registers_performAction.mono fun _ w' h => ⟨p, hp, h⟩

theorem registers_executeProposal : wp (executeProposal pid) env w fun _ w' =>
    w'.registers = (w.noted (.executeProposal pid)).foldl Registers.write w.registers := by
  unfold executeProposal
  rw [wp_bind]
  refine wp_guard fun _ => ?_
  refine registers_executeProposalInternal.mono fun _ w' h => ?_
  obtain ⟨p, hp, hw'⟩ := h
  have hx : w.executing (.executeProposal pid) = some p.action := by simp [World.executing, hp]
  simpa only [World.noted, hx, Option.map_some, Option.getD_some] using hw'

theorem registers_approveAction : wp (approveAction a pid) env w fun _ w' =>
    w'.registers = (w.noted (.approveAction a pid)).foldl Registers.write w.registers := by
  unfold approveAction
  simp only [wp_bind, wp_gets, wp_okOr, wp_rejectIf, wp_timestamp, wp_modifyGovernance, wp_log, wp_when]
  refine wp_guard fun _ => ?_
  refine wp_requireAuth fun _ _ p hp _ _ _ => ?_
  have hp : w.governance.proposal pid = some p := hp
  constructor
  · intro hthr
    refine registers_executeProposalInternal.mono fun _ w' h => ?_
    obtain ⟨q, hq, hw'⟩ := h
    have hx : w.executing (.approveAction a pid) = some q.action :=
      World.executing_of_approved hp hq (by simpa using hthr)
    simp only [World.noted, hx, Option.map_some, Option.getD_some]
    exact hw'
  · intro hthr
    have hx : w.executing (.approveAction a pid) = none := by
      have hlt : ¬w.governance.multisigThreshold.getD 2 ≤ p.approvals.length + 1 := by simpa using hthr
      simp only [World.executing, hp, Option.bind_some, if_neg hlt]
    simp only [World.noted, hx]
    rfl

/-- Every call writes its notes into the registers, and nothing else. -/
theorem registers_exec (call : Call) : wp call.exec env w fun _ w' =>
    w'.registers = (w.noted call).foldl Registers.write w.registers := by
  by_cases hc : call.notes = true
  · cases call with
    | initializeContract => exact registers_initializeContract
    | depositEscrow => exact registers_depositEscrow
    | raiseDispute => exact registers_raiseDispute
    | updateStatus =>
      refine registers_updateStatus.mono fun _ _ h => ?_
      rw [h, World.noted]
      split <;> rfl
    | reportConditionBreach => exact registers_reportConditionBreach
    | upgrade => exact registers_upgrade.mono fun _ _ h => h.2
    | proposeActionWithSalt =>
      show wp (discard (proposeActionWithSalt _ _ _)) env w _
      unfold discard
      rw [wp_bind]
      refine registers_proposeActionWithSalt.mono fun _ _ h => ?_
      rw [wp_pure]
      exact h.2
    | approveAction => exact registers_approveAction
    | executeProposal => exact registers_executeProposal
    | _ => cases hc
  · have hc : call.notes = false := Bool.eq_false_of_not_eq_true hc
    have hnone : w.noted call = [] := by
      cases call <;> first | rfl | cases hc
    rw [hnone]
    exact registers_unnoted hc

/-! ### Reading the notes -/

/-- The calls behind a note. -/
def World.Writes (w : World H) (call : Call) : Note → Prop
  | .founded => ∃ a b, call = .initializeContract a b
  | .upgraded hash => (∃ a v, call = .upgrade a hash v) ∨ w.executing call = some (.upgrade hash)
  | .deposited x => ∃ a id, call = .depositEscrow a id x
  | .disputed => (∃ a id h, call = .raiseDispute a id h) ∨
      (∃ a id h, call = .updateStatus a id .disputed h) ∨
      ∃ a id x y h, call = .reportConditionBreach a id x y h
  | .salted salt => ∃ a action, call = .proposeActionWithSalt a action salt

theorem writes_of_noted (h : n ∈ w.noted call) : w.Writes call n := by
  have enacted : n ∈ ((w.executing call).map (·.notes)).getD [] → w.Writes call n := by
    intro h
    cases hx : w.executing call with
    | none =>
      rw [hx] at h
      cases h
    | some action =>
      rw [hx] at h
      cases action with
      | upgrade hash =>
        obtain rfl := List.mem_singleton.mp h
        exact .inr hx
      | _ => cases h
  cases call with
  | initializeContract a b =>
    obtain rfl := List.mem_singleton.mp h
    exact ⟨a, b, rfl⟩
  | upgrade a hash v =>
    obtain rfl := List.mem_singleton.mp h
    exact .inl ⟨a, v, rfl⟩
  | depositEscrow a id x =>
    obtain rfl := List.mem_singleton.mp h
    exact ⟨a, id, rfl⟩
  | raiseDispute a id hash =>
    obtain rfl := List.mem_singleton.mp h
    exact .inl ⟨a, id, hash, rfl⟩
  | updateStatus a id status hash =>
    by_cases hst : status = .disputed
    · rw [World.noted, if_pos hst] at h
      obtain rfl := List.mem_singleton.mp h
      exact .inr (.inl ⟨a, id, hash, by rw [hst]⟩)
    · rw [World.noted, if_neg hst] at h
      cases h
  | reportConditionBreach a id x y hash =>
    rw [World.noted] at h
    split at h
    · obtain rfl := List.mem_singleton.mp h
      exact .inr (.inr ⟨a, id, x, y, hash, rfl⟩)
    · cases h
  | proposeActionWithSalt a action salt =>
    obtain rfl := List.mem_singleton.mp h
    exact ⟨a, action, rfl⟩
  | approveAction => exact enacted h
  | executeProposal => exact enacted h
  | _ => cases h

theorem length_noted_le (w : World H) (call : Call) : (w.noted call).length ≤ 1 := by
  have enacted : (((w.executing call).map (·.notes)).getD []).length ≤ 1 := by
    rcases w.executing call with _ | action
    · exact Nat.zero_le 1
    · cases action <;> simp [AdminAction.notes]
  cases call with
  | updateStatus =>
    rw [World.noted]
    split <;> simp
  | reportConditionBreach =>
    rw [World.noted]
    split <;> simp
  | approveAction => exact enacted
  | executeProposal => exact enacted
  | _ => simp [World.noted]

namespace Registers

theorem totalDisputes_foldl (ns : List Note) (r : Registers) :
    (ns.foldl write r).totalDisputes = r.totalDisputes + ns.count .disputed := by
  induction ns generalizing r with
  | nil => rfl
  | cons n ns ih =>
    rw [List.foldl_cons, ih, List.count_cons]
    cases n with
    | disputed =>
      show r.totalDisputes + 1 + _ = _
      simp only [beq_self_eq_true, if_true]
      omega
    | _ => simp [write]

theorem totalEscrowVolume_foldl (ns : List Note) (r : Registers) :
    (ns.foldl write r).totalEscrowVolume = r.totalEscrowVolume + (ns.filterMap (·.amount?)).sum := by
  induction ns generalizing r with
  | nil => exact (add_zero _).symm
  | cons n ns ih =>
    rw [List.foldl_cons, ih]
    cases n with
    | deposited amount =>
      show r.totalEscrowVolume + amount + _ = r.totalEscrowVolume + (amount + _)
      exact add_assoc _ _ _
    | _ => rfl

theorem proposalSalt_foldl {ns : List Note} (h : ∀ salt, .salted salt ∉ ns) (r : Registers) :
    (ns.foldl write r).proposalSalt = r.proposalSalt := by
  induction ns generalizing r with
  | nil => rfl
  | cons n ns ih =>
    rw [List.foldl_cons, ih fun salt hmem => h salt (List.mem_cons_of_mem n hmem)]
    cases n with
    | salted salt => exact absurd List.mem_cons_self (h salt)
    | _ => rfl

end Registers

theorem noted_fresh (w : World H) (call : Call) : w.fresh.noted call = w.noted call := rfl

end Navin
