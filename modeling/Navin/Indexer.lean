/-
# What an indexer knows

An indexer that reads only the events of the contract keeps a row for each shipment: its
status and what is in escrow. Each event enters what it tells, and at every point of a run
the rows are the statuses and the escrows the contract has stored.

Key definitions:
- `Row`, `Tiding.enter`: the rows, and what a tiding makes of one;
- `rowOf`: the row after the steps of a run;
- `Retold`: a log tells how a record became another.

Key theorems:
- `Rule.retold`: what a posting tells is what it does to the record;
- `exec_leads`: what a call tells leads from the rows before to the rows after;
- `rows_exact`: the rows at the end of a run.
-/
import Navin.Audit
import Navin.News
import Navin.Lib.Replay

namespace Navin

open Tx

variable {H : Host} {env : Env} {w w' : World H} {call : Call} {a : Address} {id : ℕ} {s t : Shipment}

/-! ### Rows -/

/-- What an indexer keeps of a shipment. -/
structure Row where
  status : ShipmentStatus
  escrow : ℤ
  deriving DecidableEq

def Shipment.row (s : Shipment) : Row := ⟨s.status, s.escrowAmount⟩

namespace Tiding

def status? : Tiding → Option ShipmentStatus
  | created => some .created
  | status s => some s
  | escrow _ => none
  | refunded _ => some .cancelled

def change : Tiding → ℤ
  | escrow change => change
  | refunded amount => -amount
  | _ => 0

@[simp] theorem change_status (s : ShipmentStatus) : (status s).change = 0 := rfl

@[simp] theorem change_escrow (x : ℤ) : (escrow x).change = x := rfl

@[simp] theorem change_refunded (x : ℤ) : (refunded x).change = -x := rfl

/-- The row after a tiding. -/
def enter (t : Tiding) (r : Option Row) : Option Row :=
  match t with
  | created => some ⟨.created, 0⟩
  | t => r.map fun row => ⟨t.status?.getD row.status, row.escrow + t.change⟩

end Tiding

/-! ### What the log says of a change -/

/-- The log tells how the record `s` became `t`. -/
structure Retold (s t : Shipment) (log : List (ℕ × Tiding)) : Prop where
  keyed : ∀ x ∈ log, x.1 = s.id
  kept : ∀ x ∈ log, x.2 ≠ .created
  agrees : ∀ x ∈ log, ∀ st, x.2.status? = some st → st = t.status
  told : t.status = s.status ∨ ∃ x ∈ log, x.2.status? = some t.status
  change : t.escrowAmount = s.escrowAmount + (log.map (·.2.change)).sum

namespace Retold

variable {log log' : List (ℕ × Tiding)}

theorem perm (h : Retold s t log) (hp : log'.Perm log) : Retold s t log' where
  keyed x hx := h.keyed x (hp.mem_iff.mp hx)
  kept x hx := h.kept x (hp.mem_iff.mp hx)
  agrees x hx := h.agrees x (hp.mem_iff.mp hx)
  told := h.told.imp_right fun ⟨x, hx, hst⟩ => ⟨x, hp.mem_iff.mpr hx, hst⟩
  change := by rw [h.change, (hp.map _).sum_eq]

/-- A row that has the status already, or is told of it, has it in the end. -/
theorem replayAt_some {id : ℕ} {st : ShipmentStatus} (hkeyed : ∀ x ∈ log, x.1 = id)
    (hkept : ∀ x ∈ log, x.2 ≠ .created) (hagrees : ∀ x ∈ log, ∀ st', x.2.status? = some st' → st' = st)
    (row : Row) (htold : st = row.status ∨ ∃ x ∈ log, x.2.status? = some st) :
    replayAt Tiding.enter id log (some row) = some ⟨st, row.escrow + (log.map (·.2.change)).sum⟩ := by
  induction log generalizing row with
  | nil =>
    rcases htold with rfl | ⟨x, hx, -⟩
    · simp [replayAt]
    · cases hx
  | cons x log ih =>
    have hx : x.1 = id := hkeyed x List.mem_cons_self
    have henter : x.2.enter (some row) = some ⟨x.2.status?.getD row.status, row.escrow + x.2.change⟩ := by
      have hne := hkept x List.mem_cons_self
      unfold Tiding.enter
      cases hc : x.2 with
      | created => exact absurd hc hne
      | _ => rfl
    have hstep : replayAt Tiding.enter id (x :: log) (some row) =
        replayAt Tiding.enter id log (some ⟨x.2.status?.getD row.status, row.escrow + x.2.change⟩) := by
      rw [← henter, ← hx]
      exact replayAt_cons_self x.1 x.2 log (some row)
    rw [hstep, ih (fun y hy => hkeyed y (List.mem_cons_of_mem x hy))
      (fun y hy => hkept y (List.mem_cons_of_mem x hy))
      (fun y hy => hagrees y (List.mem_cons_of_mem x hy)), List.map_cons, List.sum_cons, add_assoc]
    cases hst : x.2.status? with
    | some st' => exact .inl (hagrees x List.mem_cons_self st' hst).symm
    | none =>
      rcases htold with h | ⟨y, hy, hyst⟩
      · exact .inl h
      · rcases List.mem_cons.mp hy with rfl | hy
        · rw [hst] at hyst
          cases hyst
        · exact .inr ⟨y, hy, hyst⟩

theorem row_eq (h : Retold s t log) : replayAt Tiding.enter s.id log (some s.row) = some t.row := by
  rw [replayAt_some h.keyed h.kept h.agrees s.row h.told]
  show some (Row.mk t.status (s.escrowAmount + (log.map (·.2.change)).sum)) = _
  rw [← h.change]
  rfl

end Retold

/-! ### What the payments tell -/

def Notice.tiding (n : Notice) (amount : ℤ) : Tiding :=
  match n with
  | released => .escrow (-amount)
  | refunded => .refunded amount

/-- What the events of a movement tell. -/
def Movement.tidings : Movement → List Tiding
  | .settled n _ amount => [n.tiding amount]
  | .bare n _ amount => [n.tiding amount]
  | .announced _ amount => [.escrow (-amount)]
  | _ => []

/-- What the movements tell of what is in escrow, and of the status. -/
def toldChange (ms : List Movement) : ℤ := ((ms.flatMap (·.tidings)).map (·.change)).sum

def toldStatuses (ms : List Movement) : List ShipmentStatus := (ms.flatMap (·.tidings)).filterMap (·.status?)

theorem tidings_ne_created {m : Movement} : ∀ y ∈ m.tidings, y ≠ .created := by
  intro y hy
  cases m with
  | settled n => cases n <;> simp [Movement.tidings, Notice.tiding] at hy <;> simp [hy]
  | bare n => cases n <;> simp [Movement.tidings, Notice.tiding] at hy <;> simp [hy]
  | announced => simp [Movement.tidings] at hy; simp [hy]
  | _ => cases hy

theorem news?_pays (ms : List Movement) (self token : Address) (id : ℕ) :
    (ms.flatMap (·.pays self token id)).filterMap Payment.news? = (ms.flatMap (·.tidings)).map (id, ·) := by
  induction ms with
  | nil => rfl
  | cons m ms ih =>
    have hfirst : (m.pays self token id).filterMap Payment.news? = m.tidings.map (id, ·) := by
      cases m with
      | settled n => cases n <;> rfl
      | bare n => cases n <;> rfl
      | _ => rfl
    rw [List.flatMap_cons, List.filterMap_append, ih, hfirst, List.flatMap_cons, List.map_append]

section

variable {ms : List Movement} {x : ℤ}

@[simp] theorem toldChange_nil : toldChange [] = 0 := rfl

@[simp] theorem toldStatuses_nil : toldStatuses [] = [] := rfl

@[simp] theorem toldChange_settled (n : Notice) : toldChange [.settled n a x] = -x := by
  cases n <;> simp [toldChange, Movement.tidings, Notice.tiding, Tiding.change]

/-- What goes out to the carrier is told, and no status. -/
theorem toldChange_of_payouts (h : ∀ m ∈ ms, PayoutOf a m) : toldChange ms = -outflow ms := by
  induction ms with
  | nil => rfl
  | cons m ms ih =>
    have hrest := ih fun n hn => h n (List.mem_cons_of_mem m hn)
    unfold toldChange at hrest ⊢
    rw [List.flatMap_cons, List.map_append, List.sum_append, hrest, outflow_cons]
    cases h m List.mem_cons_self with
    | release =>
      simp [Movement.tidings, Notice.tiding, Tiding.change]
      omega
    | milestone => simp [Movement.tidings]

theorem toldStatuses_of_payouts (h : ∀ m ∈ ms, PayoutOf a m) : toldStatuses ms = [] := by
  induction ms with
  | nil => rfl
  | cons m ms ih =>
    have hrest := ih fun n hn => h n (List.mem_cons_of_mem m hn)
    unfold toldStatuses at hrest ⊢
    rw [List.flatMap_cons, List.filterMap_append, hrest]
    cases h m List.mem_cons_self with
    | release => rfl
    | milestone => rfl

theorem toldChange_payAll_bare {n : Notice} (hx : 0 ≤ x) : toldChange (payAll (.bare n) a x) = -x := by
  unfold payAll
  split
  · cases n <;> simp [toldChange, Movement.tidings, Notice.tiding, Tiding.change]
  · rw [toldChange_nil]
    omega

theorem toldChange_payAll_announced (hx : 0 ≤ x) : toldChange (payAll .announced a x) = -x := by
  unfold payAll
  split
  · simp [toldChange, Movement.tidings, Tiding.change]
  · rw [toldChange_nil]
    omega

@[simp] theorem toldStatuses_payAll_announced : toldStatuses (payAll .announced a x) = [] := by
  unfold payAll
  split <;> rfl

@[simp] theorem toldStatuses_payAll_released : toldStatuses (payAll (.bare .released) a x) = [] := by
  unfold payAll
  split <;> rfl

theorem eq_cancelled_of_payAll {st : ShipmentStatus}
    (h : st ∈ toldStatuses (payAll (.bare .refunded) a x)) : st = .cancelled := by
  unfold payAll at h
  split at h
  · exact List.mem_singleton.mp h
  · cases h

/-- A deposit is told by its own event, and the fee is taken before. -/
theorem tidings_depositMoves (config : Option FeeConfig) :
    (Movement.deposit a x :: feeMoves config x).flatMap (·.tidings) = [] := by
  unfold feeMoves
  cases config with
  | none => rfl
  | some c =>
    dsimp only
    split <;> rfl

end

/-! ### What a posting tells -/

namespace Retold

variable {ms : List Movement}

/-- What one tiding and some payments tell, when they agree. -/
theorem of_told {o : Option Tiding} (hkept : ∀ y ∈ o, y ≠ .created)
    (hst : ∀ y ∈ o, ∀ st, y.status? = some st → st = t.status) (hms : ∀ st ∈ toldStatuses ms, st = t.status)
    (htold : t.status = s.status ∨ (∃ y ∈ o, y.status? = some t.status) ∨ t.status ∈ toldStatuses ms)
    (hchange : t.escrowAmount = s.escrowAmount + (o.elim 0 (·.change)) + toldChange ms) :
    Retold s t ((o.map (s.id, ·)).toList ++ (ms.flatMap (·.tidings)).map (s.id, ·)) := by
  have hlog : ∀ x, x ∈ (o.map (s.id, ·)).toList ++ (ms.flatMap (·.tidings)).map (s.id, ·) ↔
      (∃ y ∈ o, (s.id, y) = x) ∨ ∃ y ∈ ms.flatMap (·.tidings), (s.id, y) = x := by
    intro x
    simp [eq_comm]
  refine ⟨fun x hx => ?_, fun x hx => ?_, fun x hx st hst' => ?_, ?_, ?_⟩
  · rcases (hlog x).mp hx with ⟨y, -, rfl⟩ | ⟨y, -, rfl⟩ <;> rfl
  · rcases (hlog x).mp hx with ⟨y, hy, rfl⟩ | ⟨y, hy, rfl⟩
    · exact hkept y hy
    · obtain ⟨m, -, hy⟩ := List.mem_flatMap.mp hy
      exact tidings_ne_created y hy
  · rcases (hlog x).mp hx with ⟨y, hy, rfl⟩ | ⟨y, hy, rfl⟩
    · exact hst y hy st hst'
    · exact hms st (List.mem_filterMap.mpr ⟨y, hy, hst'⟩)
  · rcases htold with h | ⟨y, hy, h⟩ | h
    · exact .inl h
    · exact .inr ⟨_, (hlog _).mpr (.inl ⟨y, hy, rfl⟩), h⟩
    · obtain ⟨y, hy, h⟩ := List.mem_filterMap.mp h
      exact .inr ⟨_, (hlog _).mpr (.inr ⟨y, hy, rfl⟩), h⟩
  · have hsum : (((ms.flatMap (·.tidings)).map (s.id, ·)).map (·.2.change)).sum = toldChange ms := by
      rw [List.map_map]
      rfl
    rw [List.map_append, List.sum_append, hsum, hchange, add_assoc]
    cases o <;> simp

/-- Nothing is told but payments to the carrier. -/
theorem of_payouts (hst : t.status = s.status) (hms : ∀ m ∈ ms, PayoutOf a m)
    (hbalanced : t.escrowAmount + outflow ms = s.escrowAmount) :
    Retold s t (none.toList ++ (ms.flatMap (·.tidings)).map (s.id, ·)) := by
  refine of_told (o := none) (by simp) (by simp) ?_ (.inl hst) ?_
  · rw [toldStatuses_of_payouts hms]
    simp
  · rw [toldChange_of_payouts hms, Option.elim_none]
    omega

/-- A new status and payments to the carrier. -/
theorem of_status (hms : ∀ m ∈ ms, PayoutOf a m) (hbalanced : t.escrowAmount + outflow ms = s.escrowAmount) :
    Retold s t ((some (s.id, .status t.status)).toList ++ (ms.flatMap (·.tidings)).map (s.id, ·)) := by
  refine of_told (o := some (.status t.status)) (by simp) (by simp [Tiding.status?]) ?_
    (.inr (.inl ⟨_, rfl, rfl⟩)) ?_
  · rw [toldStatuses_of_payouts hms]
    simp
  · rw [toldChange_of_payouts hms, Option.elim_some, Tiding.change_status]
    omega

/-- A cancellation. -/
theorem of_cancelled (hstatus : t.status = .cancelled)
    (hms : ∀ st ∈ toldStatuses ms, st = .cancelled) (hchange : toldChange ms = -s.escrowAmount)
    (hzero : t.escrowAmount = 0) :
    Retold s t ((some (s.id, .status .cancelled)).toList ++ (ms.flatMap (·.tidings)).map (s.id, ·)) := by
  refine of_told (o := some (.status .cancelled)) (by simp) (by simp [Tiding.status?, hstatus])
    (fun st h => (hms st h).trans hstatus.symm) (.inr (.inl ⟨_, rfl, ?_⟩)) ?_
  · rw [hstatus]
    rfl
  · rw [hchange, hzero, Option.elim_some, Tiding.change_status]
    omega

end Retold

variable {p : Posting}

theorem tells_of_executing {action : AdminAction} (h : w.executing call = some action) :
    w.tells call = action.news? := by
  cases call with
  | approveAction => rw [World.tells, h, Option.bind_some]
  | executeProposal => rw [World.tells, h, Option.bind_some]
  | _ => cases h

/-- What the call and its payments tell is what the posting does to the record. -/
theorem Rule.retold (hr : Rule env w call p) (hs : w.getShipment p.old.id = some p.old)
    (h₀ : 0 ≤ p.old.escrowAmount)
    (hreport : ∀ a id breach severity hash, call = .reportConditionBreach a id breach severity hash →
      w.getConfig.autoDisputeBreach = true) :
    Retold p.old p.new ((w.tells call).toList ++ (p.moves.flatMap (·.tidings)).map (p.old.id, ·)) := by
  have hnone : ∀ m ∈ ([] : List Movement), PayoutOf p.old.carrier m := fun m hm => by cases hm
  cases hr with
  | setShipmentMetadata => exact .of_payouts rfl hnone (by simp)
  | addDisputeEvidenceHash => exact .of_payouts rfl hnone (by simp)
  | handoffShipment => exact .of_payouts rfl hnone (by simp)
  | recordOther => exact .of_payouts rfl hnone (by simp)
  | releaseNothing => exact .of_payouts rfl hnone (by simp)
  | clearFinalization => exact .of_payouts rfl hnone (by simp)
  | @recordMilestone s => exact .of_payouts rfl (fun m => s.payoutOf_milestoneMoves) (by simp)
  | @releaseMilestonePayment _ s => exact .of_payouts rfl (fun m => s.payoutOf_milestoneMoves) (by simp)
  | @releaseEscrow _ s => exact .of_payouts rfl (fun m => s.payoutOf_payMoves) (by simp)
  | @recordMilestonesBatch s items =>
    have hbatch := s.batchOf_payBatch env.timestamp (items.map (·.1))
    exact .of_payouts hbatch.status_eq hbatch.moves (by simpa using hbatch.balanced)
  | updateStatus => exact .of_status hnone (by simp)
  | raiseDispute => exact .of_status hnone (by simp)
  | recoverShipment => exact .of_status hnone (by simp)
  | rollbackOnExternalFailure => exact .of_status hnone (by simp)
  | @reportConditionBreach s breach hash hf hc hd =>
    have hopens : w.Opens .critical s := ⟨hreport _ _ _ _ _ rfl, rfl, hc, hd⟩
    have hs : w.getShipment s.id = some s := hs
    rw [World.tells, hs, Option.any_some, if_pos (decide_eq_true hopens)]
    exact .of_status hnone (by simp)
  | @confirmDelivery s => exact .of_status (fun m => s.payoutOf_payMoves) (by simp)
  | @confirmPartialDelivery s hash percent status hf hst hpos hle hstatus =>
    have hs : w.getShipment s.id = some s := hs
    rw [World.tells, hs, Option.map_some, ← hstatus]
    exact .of_status (fun m => s.payoutOf_payMoves) (by simp)
  | @releaseToCarrier _ s _ _ _ _ hne =>
    refine .of_status (a := s.carrier) (fun m hm => ?_) (by simp)
    obtain rfl := List.mem_singleton.mp hm
    exact .release (lt_of_le_of_ne h₀ (Ne.symm hne))
  | @forceRelease _ s hx =>
    rw [tells_of_executing hx]
    refine .of_told (o := some (.status .delivered)) (by simp) (by simp [Tiding.status?]) (by simp)
      (.inr (.inl ⟨_, rfl, rfl⟩)) ?_
    have hchange := toldChange_payAll_bare (a := s.carrier) (n := .released) h₀
    rw [hchange]
    simp [escrowLeft_eq h₀]
  | cancelShipment => exact .of_cancelled rfl (by simp) (toldChange_payAll_announced h₀) rfl
  | forceCancelShipment =>
    exact .of_cancelled rfl (fun _ => eq_cancelled_of_payAll) (toldChange_payAll_bare h₀) (escrowLeft_eq h₀)
  | checkDeadline => exact .of_cancelled rfl (fun _ => eq_cancelled_of_payAll) (toldChange_payAll_bare h₀) rfl
  | refundToCompany =>
    exact .of_cancelled rfl (fun st h => List.mem_singleton.mp h) (toldChange_settled _) rfl
  | forceRefund hx =>
    rw [tells_of_executing hx]
    exact .of_cancelled rfl (fun _ => eq_cancelled_of_payAll) (toldChange_payAll_bare h₀) (escrowLeft_eq h₀)
  | @refundEscrow _ s =>
    -- the refund alone says that the shipment was cancelled
    refine .of_told (o := none) (by simp) (by simp) (fun st h => List.mem_singleton.mp h)
      (.inr (.inr List.mem_cons_self)) ?_
    rw [toldChange_settled]
    simp
  | @unlockEscrow _ s =>
    have hs : w.getShipment s.id = some s := hs
    rw [World.tells, hs, Option.map_some]
    refine .of_told (o := some (.escrow (-s.escrowAmount))) (by simp) (by simp [Tiding.status?]) (by simp)
      (.inl rfl) ?_
    simp
  | @depositEscrow source s amount _ _ _ _ hle =>
    have hzero : s.escrowAmount = 0 := le_antisymm hle h₀
    refine .of_told (o := some (.escrow (netOfFee w.governance.feeConfig amount))) (by simp)
      (by simp [Tiding.status?]) ?_ (.inl rfl) ?_
    · rw [toldStatuses, tidings_depositMoves]
      simp
    · rw [toldChange, tidings_depositMoves]
      simp [hzero]

/-! ### A call -/

/-- The row of the shipment `id` in the contract. -/
def World.row (w : World H) (id : ℕ) : Option Row := (w.getShipment id).map Shipment.row

theorem posted_of_tells (hs : w.ledger.Sound) (hx : call.exec env w = .ok () w') (hc : w.tells call ≠ none) :
    ∃ p, PostedBy env w call p w'.book := by
  by_cases hposts : call.posts = true
  · exact (exec_effects hs.keyed hx).exists_posting hposts
  · -- the other calls that tell execute a proposal or report a breach
    have hsettles : (w.executing call).bind (·.news?) ≠ none →
        (w.executing call).any (·.settles) = true := by
      cases w.executing call with
      | none => exact fun h => absurd rfl h
      | some action => cases action <;> first | exact fun _ => rfl | exact fun h => absurd rfl h
    cases call with
    | approveAction a pid =>
      have hr := (tables_approveAction hs.keyed).of_returns hx
      rw [if_pos (hsettles hc)] at hr
      exact hr.posted hs hx
    | executeProposal pid =>
      have hr := (tables_executeProposal hs.keyed).of_returns hx
      rw [if_pos (hsettles hc)] at hr
      exact hr.posted hs hx
    | reportConditionBreach carrier id breach severity hash =>
      have hany : (w.getShipment id).any (fun s => decide (w.Opens severity s)) = true := by
        by_contra hno
        exact hc (if_neg hno)
      obtain ⟨s, hs', ho⟩ := (Option.any_eq_true _ _).mp hany
      obtain ⟨hauto, hsev, hst₁, hst₂⟩ := of_decide_eq_true ho
      have hr := (tables_reportConditionBreach hs.keyed).of_returns hx
      exact (hr.1 ⟨hauto, hsev, s, hs', hst₁, hst₂⟩).posted hs hx
    | _ => first | exact absurd rfl hposts | exact absurd rfl hc

/-- A report that makes a posting found the toggle on. -/
theorem PostedBy.autoDispute (hp : PostedBy env w call p w'.book) (hk : w.ledger.Keyed)
    (hx : call.exec env w = .ok () w') (a : Address) (id : ℕ) (breach : BreachType)
    (severity : Severity) (hash : BytesN32)
    (hcall : call = .reportConditionBreach a id breach severity hash) :
    w.getConfig.autoDisputeBreach = true := by
  rcases hp.of_report hk hx a id breach severity hash hcall with h | hsame
  · exact h
  · subst hcall
    have hst : p.new.status = p.old.status := congrArg Shipment.status hsame
    cases hp.rule with
    | reportConditionBreach _ _ hne => exact absurd hst.symm hne
    | forceRelease hexec => cases hexec
    | forceRefund hexec => cases hexec

/-- A posting is told in full. -/
theorem PostedBy.leads (hp : PostedBy env w.fresh call p w'.book) (hs : w.fresh.ledger.Sound)
    (hc : call.creates = false) (hx : call.exec env w.fresh = .ok () w') :
    Leads Tiding.enter w.fresh.row w'.row (tidingsOf w'.trace) := by
  have h₀ : 0 ≤ p.old.escrowAmount := hs.escrow_nonneg _ _ hp.stored
  have hnews : newsOf w'.trace = (w.fresh.tells call).toList := (news_exec hc).of_returns hx
  obtain ⟨t, token, -, -, hbook⟩ := hp.posted
  have hpays : paymentsOf w'.trace = p.pays H.currentContractAddress t := congrArg Book.pays hbook
  have hlog : (tidingsOf w'.trace).Perm
      ((w.fresh.tells call).toList ++ (p.moves.flatMap (·.tidings)).map (p.old.id, ·)) := by
    refine (tidingsOf_perm w'.trace).trans ?_
    rw [hnews, hpays, Posting.pays, news?_pays]
  have hretold : Retold p.old p.new (tidingsOf w'.trace) :=
    (hp.rule.retold hp.stored h₀ (hp.autoDispute hs.keyed hx)).perm hlog
  intro id
  have hget : w'.getShipment id = if id = p.old.id then some p.new else w.fresh.getShipment id :=
    hp.getShipment id
  by_cases hid : id = p.old.id
  · subst hid
    have hold : w.fresh.row p.old.id = some p.old.row := congrArg (Option.map Shipment.row) hp.stored
    rw [hold, hretold.row_eq, World.row, hget, if_pos rfl]
    rfl
  · rw [replayAt_of_ne fun x hx => by rw [hretold.keyed x hx]; exact Ne.symm hid]
    rw [World.row, World.row, hget, if_neg hid]

/-- A call that makes no posting and creates nothing tells nothing. -/
theorem tidings_eq_nil (hs : w.fresh.ledger.Sound) (hc : call.creates = false)
    (hx : call.exec env w.fresh = .ok () w') (hno : ¬∃ p, PostedBy env w.fresh call p w'.book) :
    tidingsOf w'.trace = [] := by
  have htells : w.fresh.tells call = none := by
    by_contra h
    exact hno (posted_of_tells hs hx h)
  have hnews : newsOf w'.trace = (w.fresh.tells call).toList := (news_exec hc).of_returns hx
  have hpays : paymentsOf w'.trace = [] := by
    have he := exec_effects hs.keyed hx
    show w'.book.pays = []
    generalize w'.book = b at he hno
    cases he with
    | posted hg hv hr hp => exact absurd ⟨_, hg, hv, hr, hp⟩ hno
    | _ => rfl
  have hperm := tidingsOf_perm w'.trace
  rw [hnews, htells, hpays] at hperm
  exact List.perm_nil.mp hperm

/-- A new shipment is told. -/
theorem leads_enrol (w : World H) (sender : Address) (now : ℕ) (input : ShipmentInput) :
    Leads Tiding.enter w.row (w.enrol sender now input).row [(w.ledger.shipmentCount + 1, .created)] := by
  refine .single ?_ fun id hid => ?_
  · rw [World.row, World.row, World.getShipment_enrol, if_pos rfl]
    rfl
  · rw [World.row, World.row, World.getShipment_enrol, if_neg hid]

theorem tidingsOf_append (xs ys : List Effect) : tidingsOf (xs ++ ys) = tidingsOf xs ++ tidingsOf ys :=
  List.filterMap_append

theorem leads_enrolAll (w : World H) (sender : Address) (now : ℕ) (inputs : List ShipmentInput) :
    ∃ log, tidingsOf (w.enrolAll sender now inputs).trace = tidingsOf w.trace ++ log ∧
      Leads Tiding.enter w.row (w.enrolAll sender now inputs).row log := by
  induction inputs generalizing w with
  | nil => exact ⟨[], (List.append_nil _).symm, .refl _⟩
  | cons input inputs ih =>
    have hcons : w.enrolAll sender now (input :: inputs) =
        (w.enrol sender now input).enrolAll sender now inputs := rfl
    have hfirst : tidingsOf (w.enrol sender now input).trace =
        tidingsOf w.trace ++ [(w.ledger.shipmentCount + 1, .created)] := tidingsOf_append _ _
    obtain ⟨log, hlog, hleads⟩ := ih (w.enrol sender now input)
    refine ⟨[(w.ledger.shipmentCount + 1, .created)] ++ log, ?_, ?_⟩
    · rw [hcons, hlog, hfirst, List.append_assoc]
    · rw [hcons]
      exact (leads_enrol w sender now input).trans hleads

/-- The shipments of a creation are told, and nothing before them. -/
theorem leads_of_enrolAll {v : World H} {sender : Address} {now : ℕ} (inputs : List ShipmentInput)
    (hl : v.ledger = w.ledger) (ht : tidingsOf v.trace = []) :
    Leads Tiding.enter w.row (v.enrolAll sender now inputs).row
      (tidingsOf (v.enrolAll sender now inputs).trace) := by
  obtain ⟨log, hlog, hleads⟩ := leads_enrolAll v sender now inputs
  have hrow : v.row = w.row := by
    funext id
    unfold World.row World.getShipment
    rw [hl]
  rw [hlog, ht, List.nil_append, ← hrow]
  exact hleads

/-- What a committed call tells leads from the rows before to the rows after. -/
theorem exec_leads (hs : w.fresh.ledger.Sound) (hx : call.exec env w.fresh = .ok () w') :
    Leads Tiding.enter w.fresh.row w'.row (tidingsOf w'.trace) := by
  by_cases hc : call.creates = true
  · cases call with
    | createShipment sender input =>
      obtain ⟨i, hx⟩ := returns_discard.mp hx
      obtain ⟨-, -, -, -, -, -, -, -, rfl⟩ := returns_createShipment.mp hx
      refine leads_of_enrolAll [input] (World.reserved_ledger ..) ?_
      rw [World.apply_reserved _ _ _ (·.trace) fun _ => rfl]
      rfl
    | createShipmentsBatch sender inputs =>
      obtain ⟨ids, hx⟩ := returns_discard.mp hx
      obtain ⟨-, -, -, -, -, -, -, rfl⟩ := returns_createShipmentsBatch.mp hx
      refine leads_of_enrolAll inputs (World.reserved_ledger ..) ?_
      rw [World.apply_reserved _ _ _ (·.trace) fun _ => rfl]
      rfl
    | _ => cases hc
  · have hc : call.creates = false := Bool.eq_false_of_not_eq_true hc
    by_cases hp : ∃ p, PostedBy env w.fresh call p w'.book
    · obtain ⟨p, hp⟩ := hp
      exact hp.leads hs hc hx
    · have hsame : ∀ id, w'.getShipment id = w.fresh.getShipment id := by
        rcases posted_or_same hs.keyed hc hx with h | h
        · exact absurd h hp
        · exact h
      rw [tidings_eq_nil hs hc hx hp]
      intro id
      show w.fresh.row id = w'.row id
      rw [World.row, World.row, hsame id]

/-! ### Runs -/

/-- The row an indexer has of the shipment `id` after what the steps told. -/
def rowOf (id : ℕ) (ls : List Label) : Option Row := replayAt Tiding.enter id (ls.flatMap (·.tidings)) none

/-- At the end of every run from deployment, the rows an indexer has are the statuses and the
escrows of the stored shipments: a row for each of them, and none for any other id. An
archived shipment is stored as long as its temporary entry has not expired. -/
theorem rows_exact {c₀ c : Chain H} {ls : List Label} (hd : Deployed c₀) (hr : Run Step c₀ ls c) (id : ℕ) :
    rowOf id ls = (c.world.getShipment id).map fun s => ⟨s.status, s.escrowAmount⟩ := by
  have hleads : Leads Tiding.enter c₀.world.row c.world.row (ls.flatMap (·.tidings)) := by
    refine hr.leads (v := fun x => x.world.row) (I := fun x => x.world.ledger.Sound) hd.sound ?_ ?_
    · intro x l y hs hstep
      exact hstep.sound hs
    · intro x l y hs hstep
      cases hstep with
      | committed _ hx => exact exec_leads hs hx
      | reverted => exact .refl _
      | outside => exact .refl _
  have hnone : c₀.world.row id = none := by
    cases hd
    rfl
  have hrow := hleads id
  rw [hnone] at hrow
  exact hrow

/-- A shipment is paid for, disputed and refunded, and another one created; the third is not
there. -/
theorem rows_exact_refunded : ∃ (c : Chain Deployment.host) (ls : List Label),
    Run Step Deployment.chain ls c ∧
      rowOf 1 ls = some ⟨.cancelled, 0⟩ ∧ rowOf 2 ls = some ⟨.created, 0⟩ ∧ rowOf 3 ls = none := by
  obtain ⟨ls, c, hr, -, h₁, h₂, h₃⟩ := exists_play Deployment.chain
    (Deployment.opening ++ [
      Deployment.signed Deployment.company 5 (.depositEscrow Deployment.company 1 1000),
      Deployment.signed Deployment.company 6 (.createShipment Deployment.company Deployment.parcel),
      Deployment.signed Deployment.receiver 7 (.raiseDispute Deployment.receiver 1 2),
      Deployment.signed Deployment.admin 8 (.resolveDispute Deployment.admin 1 .refundToCompany 3)])
    (fun r => (r.2.world.getShipment 1).map Shipment.row = some ⟨.cancelled, 0⟩ ∧
      (r.2.world.getShipment 2).map Shipment.row = some ⟨.created, 0⟩ ∧
      (r.2.world.getShipment 3).map Shipment.row = none) (by decide +kernel)
  exact ⟨c, ls, hr, (rows_exact Deployment.deployed hr 1).trans h₁,
    (rows_exact Deployment.deployed hr 2).trans h₂, (rows_exact Deployment.deployed hr 3).trans h₃⟩

end Navin
