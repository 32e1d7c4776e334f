/-
# Releasing a schedule

The milestones of a shipment are released one after the other, in the order of its
schedule, by callers who may release them. Each release pays the milestone its percentage
of the deposit, rounded down, and the last one what is left. A milestone whose percentage
rounds down to nothing is not marked: the call returns without an error, and the release
of the next milestone, which counts the marked ones, is refused. So a schedule is
released to its end exactly when no percentage but the last one rounds down to nothing.

Key definitions:
- `Host.PaysOut`: the token lets the contract pay out a sum, in instalments of any size;
- `World.MayRelease`, `releases`: who may release, and the calls in order;
- `Shipment.Progress`: the record after some releases;
- `Chain.ReleasesAll`: the calls all commit, and the deposit is paid out.

Key theorems:
- `succeeds_releaseMilestonePayment`: a release that returns;
- `Step.released`: what a release does to the record;
- `releases_in_order`.
-/
import Navin.Lib.Succeeds
import Navin.Amounts
import Navin.Closing
import Navin.Sequence

namespace Navin

open Tx

set_option synthInstance.maxSize 4000

variable {H : Host} {env : Env} {w w' : World H} {id : ℕ} {s t : Shipment} {x : ℤ}

/-! ### The token -/

/-- The token at `a` lets the contract pay out `rest` to the target, in instalments of any
size: it goes through some states, and in each of them pays what is asked for. -/
def Host.PaysOut (H : Host) (a target : Address) (rest : ℤ) (token : H.Token) : Prop :=
  ∃ P : ℤ → H.Token → Prop, P rest token ∧ ∀ rest token auth x, P rest token →
    auth H.currentContractAddress = true → 0 < x → x ≤ rest →
    ∃ token', H.transfer token auth a H.currentContractAddress target x = some token' ∧
      P (rest - x) token'

/-- An instalment is paid, and the rest can be. -/
theorem Host.PaysOut.pay {a target : Address} {rest : ℤ} {token : H.Token} (env : Env)
    (h : H.PaysOut a target rest token) (hx : 0 < x) (hle : x ≤ rest) :
    ∃ token', H.transfer token (env.tokenAuth H) a H.currentContractAddress target x = some token' ∧
      H.PaysOut a target (rest - x) token' := by
  obtain ⟨P, hP, hpay⟩ := h
  have hauth : env.tokenAuth H H.currentContractAddress = true := by simp [Env.tokenAuth]
  obtain ⟨token', ht, hP'⟩ := hpay rest token _ x hP hauth hx hle
  exact ⟨token', ht, P, hP', hpay⟩

/-- The Navin token pays out what the contract holds, unless it is paused. -/
theorem tokenHost_paysOut {self a target : Address} {l : TokenLedger} {rest : ℤ}
    (hadmin : l.admin ≠ none) (hopen : l.paused = false) (hne : self ≠ target)
    (hself : rest ≤ l.balance self ∧ l.balance self ≤ i128Max)
    (htarget : 0 ≤ l.balance target ∧ l.balance target + rest ≤ i128Max) :
    (tokenHost self a).PaysOut a target rest l := by
  have hmin : i128Min ≤ 0 := by decide
  refine ⟨fun rest l => l.admin ≠ none ∧ l.paused = false ∧
    (rest ≤ l.balance self ∧ l.balance self ≤ i128Max) ∧
    0 ≤ l.balance target ∧ l.balance target + rest ≤ i128Max, ⟨hadmin, hopen, hself, htarget⟩, ?_⟩
  rintro rest l auth x ⟨hadmin, hopen, hself, htarget⟩ hauth hx hle
  have hsource : checkedI128 (l.balance self - x) = some (l.balance self - x) :=
    if_pos ⟨by omega, by omega⟩
  have hdest : checkedI128 (l.balance target + x) = some (l.balance target + x) :=
    if_pos ⟨by omega, by omega⟩
  have hpays : l.transfer auth self target x = some { l with
      balance := Function.update (Function.update l.balance self (l.balance self - x)) target
        (l.balance target + x) } := by
    have hauth : auth self = true := hauth
    have hgo : ¬(l.admin = none ∨ l.paused = true ∨ auth self = false ∨ x ≤ 0 ∨ self = target ∨
        l.balance self < x) := by
      rw [hopen, hauth]
      simp only [hadmin, hne, Bool.false_eq_true, Bool.true_eq_false, false_or]
      omega
    unfold TokenLedger.transfer
    rw [if_neg hgo, hsource, hdest]
    rfl
  refine ⟨_, (if_pos rfl).trans hpays, hadmin, hopen, ?_, ?_⟩
  · simp only [Function.update_of_ne hne, Function.update_self]
    omega
  · simp only [Function.update_self]
    omega

/-- The token of the contract is set once. -/
theorem Effects.tokenContract_ne {call : Call} {b : Book H.Token} (he : Effects env w call b)
    (h : w.ledger.tokenContract ≠ none) : b.ledger.tokenContract ≠ none := by
  cases he with
  | quiet => exact h
  | initialized => exact Option.some_ne_none _
  | handedOver => exact h
  | enrolled _ _ _ he =>
    obtain ⟨-, htoken, -⟩ := Ledger.escrowTotal_enrolled _ he
    rw [htoken]
    exact h
  | archived => exact h
  | posted _ _ _ hp =>
    obtain ⟨a, token, -, -, rfl⟩ := hp
    exact h

/-- A deposit is paid in at the token of the contract. -/
theorem PostedBy.tokenContract_ne {source : Address} {p : Posting} {b : Book H.Token}
    (hp : PostedBy env w (.depositEscrow source id x) p b) : w.ledger.tokenContract ≠ none := by
  obtain ⟨hstored, hvalid, hrule, a, token, -, hfollow, -⟩ := hp
  cases hrule with
  | depositEscrow =>
    intro hnone
    have hnone : w.book.ledger.tokenContract = none := hnone
    rw [hnone] at hfollow
    cases hfollow
  | forceRelease he => cases he
  | forceRefund he => cases he

variable {c c' : Chain H} {l : Label}

/-- Where a record has a deposit, the token of the contract is set. -/
theorem Reachable.tokenContract_ne (hc : Reachable c) (hs : c.world.getShipment id = some s)
    (hpos : 0 < s.totalEscrow) : c.world.ledger.tokenContract ≠ none := by
  refine hc.inv (I := fun c => ∀ id s, c.world.getShipment id = some s → 0 < s.totalEscrow →
    c.world.ledger.tokenContract ≠ none) (fun _ _ _ _ hs => by cases hs)
    (fun a l b ha h hstep => ?_) id s hs hpos
  cases hstep with
  | @committed call env w' _ hx =>
    have hsound : a.world.fresh.ledger.Sound := ha.sound
    have he := exec_effects hsound.keyed hx
    intro i r hr hpos
    refine he.tokenContract_ne (he.forall_records (P := fun s => 0 < s.totalEscrow →
      a.world.ledger.tokenContract ≠ none) ?_ ?_ h hr hpos)
    · intro _ _ _ hpos
      exact absurd hpos (lt_irrefl 0)
    · intro p hp hold hpos
      rcases hp.rule.totalEscrow with heq | ⟨source, amount, rfl, -⟩
      · exact hold (heq ▸ hpos)
      · exact hp.tokenContract_ne
  | reverted => exact h
  | outside => exact h

/-! ### The record after some releases -/

section

variable {L done rest : List (Symbol × ℕ)} {m : Symbol × ℕ}

/-- A schedule makes up the whole. -/
theorem Scheduled.parts_eq (h : Scheduled L) (hne : L ≠ []) : parts L = 100 := by
  rcases h with rfl | ⟨-, -, hsum⟩
  · exact absurd rfl hne
  · exact hsum

/-- The first milestones of a schedule make up their parts. -/
theorem Scheduled.scheduledShare_prefix (h : Scheduled (done ++ rest)) :
    scheduledShare (done ++ rest) (done.map (·.1)) = parts done := by
  have hnodup := h.nodup_names
  rw [List.map_append] at hnodup
  have hdone : (done.filter fun m => m.1 ∈ done.map (·.1)) = done :=
    List.filter_eq_self.mpr fun m hm => decide_eq_true (List.mem_map_of_mem hm)
  have hrest : (rest.filter fun m => m.1 ∈ done.map (·.1)) = [] :=
    List.filter_eq_nil_iff.mpr fun m hm hin =>
      List.disjoint_of_nodup_append hnodup (of_decide_eq_true hin) (List.mem_map_of_mem hm)
  unfold scheduledShare parts
  rw [List.filter_append, hdone, hrest, List.append_nil]

/-- A milestone is not among those before it. -/
theorem Scheduled.not_mem_prefix (h : Scheduled (done ++ m :: rest)) : m.1 ∉ done.map (·.1) := by
  have hnodup := h.nodup_names
  rw [List.map_append] at hnodup
  exact fun hin => List.disjoint_of_nodup_append hnodup hin (List.mem_map_of_mem List.mem_cons_self)

/-- What is before a milestone and the milestone make up the whole only if it is the last. -/
theorem Scheduled.parts_snoc (h : Scheduled (done ++ m :: rest)) :
    parts done + m.2 ≤ 100 ∧ 0 < m.2 ∧ (parts done + m.2 = 100 ↔ rest = []) := by
  have hall := h.parts_eq (by simp)
  have hcons : parts (m :: rest) = m.2 + parts rest := by simp [parts]
  rw [parts_append, hcons] at hall
  have hpos : 0 < m.2 := h.share_pos (by simp)
  refine ⟨by omega, hpos, ?_⟩
  rcases rest with _ | ⟨n, rest⟩
  · have hnil : parts ([] : List (Symbol × ℕ)) = 0 := rfl
    simp only [iff_true]
    omega
  · have hn : 0 < n.2 := h.share_pos (by simp)
    have hrest : parts (n :: rest) = n.2 + parts rest := by simp [parts]
    simp only [reduceCtorEq, iff_false]
    omega

/-- The place of a milestone in the schedule. -/
theorem Scheduled.indexOf (h : Scheduled s.paymentMilestones)
    (hsplit : s.paymentMilestones = done ++ m :: rest) : s.indexOf m.1 = done.length := by
  rw [hsplit] at h
  have hnot : ¬(done.findIdx fun a => a.1 = m.1) < done.length := by
    intro hlt
    obtain ⟨a, ha, he⟩ := List.findIdx_lt_length.mp hlt
    exact h.not_mem_prefix (of_decide_eq_true he ▸ List.mem_map_of_mem ha)
  unfold Shipment.indexOf
  rw [hsplit, List.findIdx_append, if_neg hnot, List.findIdx_cons]
  simp

/-- The schedule's entry of a milestone. -/
theorem Scheduled.findMilestone (h : Scheduled s.paymentMilestones) (hm : m ∈ s.paymentMilestones) :
    s.findMilestone m.1 = some m := by
  cases hf : s.findMilestone m.1 with
  | none => exact absurd (List.mem_map_of_mem hm) (Shipment.findMilestone_eq_none.mp hf)
  | some n =>
    obtain ⟨hn, he⟩ := Shipment.mem_of_findMilestone hf
    rw [List.inj_on_of_nodup_map h.nodup_names hn hm he]

end

/-- The record `t` is `s` with the milestones `done` released, in order, and paid for as
`ps` says. -/
structure Shipment.Progress (s : Shipment) (done : List (Symbol × ℕ)) (ps : List (Symbol × ℤ))
    (t : Shipment) : Prop where
  schedule : t.paymentMilestones = s.paymentMilestones
  total_eq : t.totalEscrow = s.totalEscrow
  carrier_eq : t.carrier = s.carrier
  status : t.status = .inTransit
  completed : t.milestonesCompleted = done.map (·.1)
  paid : t.paidMilestones = done.map (·.1)
  apportioned : Apportioned s.totalEscrow 100 done ps t.escrowAmount

/-- What the release of a milestone pays. -/
def Shipment.releaseDue (s : Shipment) (m : Symbol × ℕ) : ℤ :=
  s.milestoneDue (s.milestonesCompleted ++ [m.1]) m.2

namespace Shipment.Progress

variable {done rest : List (Symbol × ℕ)} {m : Symbol × ℕ} {ps : List (Symbol × ℤ)}

/-- A milestone is due its percentage, and the last one what is left. -/
theorem releaseDue_eq (h : s.Progress done ps t) (hs : s.Regular)
    (hsplit : s.paymentMilestones = done ++ m :: rest) :
    t.releaseDue m = if parts done + m.2 = 100 then t.escrowAmount else s.totalEscrow * m.2 / 100 := by
  have hL := hs.scheduled
  rw [hsplit] at hL
  have hin : m ∈ done ++ m :: rest := by simp
  have hT : 0 ≤ s.totalEscrow := hs.escrow_nonneg.trans hs.escrow_le_total
  have hshare : t.share m.2 = s.totalEscrow * m.2 / 100 := by
    unfold share
    rw [h.total_eq]
    exact Int.tdiv_eq_ediv_of_nonneg (Int.mul_nonneg hT (Int.natCast_nonneg m.2))
  unfold releaseDue milestoneDue
  rw [hshare, h.completed, h.schedule, hsplit, hL.scheduledShare_snoc hin hL.not_mem_prefix,
    hL.scheduledShare_prefix]

/-- While milestones are left, so is some of the deposit. -/
theorem escrow_pos (h : s.Progress done ps t) (hs : s.Regular) (hT : 1 ≤ s.totalEscrow)
    (hsplit : s.paymentMilestones = done ++ m :: rest) : 0 < t.escrowAmount := by
  have hL := hs.scheduled
  rw [hsplit] at hL
  obtain ⟨hle, hpos, -⟩ := hL.parts_snoc
  have hfloor := total_shares_mul_le (T := s.totalEscrow) (d := 100) (by decide) done
  have hless : s.totalEscrow * parts done < s.totalEscrow * 100 := by
    apply Int.mul_lt_mul_of_pos_left _ (by omega)
    omega
  have hp := h.apportioned
  generalize t.escrowAmount = e at hp ⊢
  cases hp with
  | some =>
    push_cast at hfloor
    omega
  | all _ hall => omega

/-- The release pays something, unless the percentage rounds down to nothing. -/
theorem releaseDue_pos_iff (h : s.Progress done ps t) (hs : s.Regular) (hT : 1 ≤ s.totalEscrow)
    (hsplit : s.paymentMilestones = done ++ m :: rest) :
    0 < t.releaseDue m ↔ rest = [] ∨ 100 ≤ s.totalEscrow * m.2 := by
  have hL := hs.scheduled
  rw [hsplit] at hL
  have hlast := hL.parts_snoc.2.2
  rw [h.releaseDue_eq hs hsplit]
  by_cases hall : parts done + m.2 = 100
  · rw [if_pos hall]
    exact iff_of_true (h.escrow_pos hs hT hsplit) (.inl (hlast.mp hall))
  · have hrest : rest ≠ [] := fun he => hall (hlast.mpr he)
    rw [if_neg hall]
    simp only [hrest, false_or]
    omega

/-- A milestone is marked and paid. -/
theorem release (h : s.Progress done ps t) (hs : s.Regular)
    (hsplit : s.paymentMilestones = done ++ m :: rest) (now : ℕ) :
    s.Progress (done ++ [m]) (ps ++ [(m.1, t.payable (t.releaseDue m))])
      (t.payMilestone m.1 (t.releaseDue m) now).finalizeIfSettled := by
  have hL := hs.scheduled
  rw [hsplit] at hL
  obtain ⟨hle, hpos, -⟩ := hL.parts_snoc
  have hT : 0 ≤ s.totalEscrow := hs.escrow_nonneg.trans hs.escrow_le_total
  have hnew : m.1 ∉ t.paidMilestones := h.paid ▸ hL.not_mem_prefix
  refine ⟨h.schedule, h.total_eq, h.carrier_eq, h.status, ?_, ?_, ?_⟩
  · show t.milestonesCompleted ++ [m.1] = _
    rw [h.completed, List.map_append]
    rfl
  · show (if m.1 ∈ t.paidMilestones then t.paidMilestones else t.paidMilestones ++ [m.1]) = _
    rw [if_neg hnew, h.paid, List.map_append]
    rfl
  · refine h.apportioned.pay hT (by decide) hpos hle ?_
    unfold payable
    rw [h.releaseDue_eq hs hsplit]
    rfl

end Shipment.Progress

/-! ### A release that returns -/

/-- The amount of a release is computed without an error. -/
theorem Shipment.Capped.milestoneRelease_eq {m : Symbol × ℕ} (h : s.Capped)
    (hm : m ∈ s.paymentMilestones) (names : List Symbol) :
    (milestoneRelease s names m.2 : Contract H ℤ) = pure (s.milestoneDue names m.2) := by
  have hle := h.share_le hm
  have hshare : scheduledShare s.paymentMilestones names ≤ 100 := h.regular.scheduled.scheduledShare_le
  unfold Shipment.milestoneDue
  by_cases hall : scheduledShare s.paymentMilestones names = 100
  · rw [if_pos hall, milestoneRelease_all hall]
  · have hlt : scheduledShare s.paymentMilestones names < 100 := by omega
    rw [if_neg hall, milestoneRelease_share hlt]
    exact checkedMulDiv_of_capped h.total_nonneg h.total_le (by omega) (by decide)

section

instance (g : Ledger H.Token → Ledger H.Token) : Total (modifyLedger g) := .modify _

instance (g : Dossier → Dossier) : Total (modifyDossier g : Contract H Unit) := .modify _

instance (e : Effect) : Total (log e : Contract H Unit) := .modify _

instance : Total (timestamp : Contract H ℕ) := by
  unfold timestamp
  infer_instance

instance (b : CircuitBreakerTracker) : Total (setBreaker b : Contract H Unit) := .modify _

instance : Total (recordTransferSuccess : Contract H Unit) := by
  unfold recordTransferSuccess getBreaker
  infer_instance

instance (n : ℕ) (op : SettlementOperation) (x : ℤ) (a b : Address) :
    Total (createSettlement n op x a b : Contract H ℕ) := by
  unfold createSettlement incrementSettlementCounter
  infer_instance

instance (domain : ℕ) (topic : String) (n : ℕ) (event : EventKey → Event) :
    Total (emitKeyed domain topic n event : Contract H Unit) := by
  unfold emitKeyed incrementEventCount
  infer_instance

end

/-- A transfer that the token makes, past an idle breaker. -/
theorem succeeds_invokeTokenTransfer {a source target : Address} {token : H.Token}
    (hidle : w.BreakerIdle)
    (ht : H.transfer w.ledger.token (env.tokenAuth H) a source target x = some token) :
    Succeeds (invokeTokenTransfer a source target x) env w := by
  unfold invokeTokenTransfer
  refine succeeds_step ((wp_gets _).mpr ?_)
  have hallow : (checkTransferAllowed _).Returns env w () _ :=
    breakerLaw.checkTransferAllowed_of_idle
      (w.governance.breakerConfig.getD CircuitBreakerConfig.default) hidle
  refine succeeds_bind hallow.succeeds fun _ w₁ h₁ => ?_
  obtain ⟨-, rfl⟩ := Returns.unique h₁ hallow
  refine succeeds_bind (succeeds_onErr ?_) (.of_forall fun _ w₂ => Total.out _ _)
  unfold invokeTokenOperation
  refine succeeds_step (wp_ask.mpr (succeeds_step ((wp_gets _).mpr ?_)))
  refine succeeds_bind (succeeds_okOr ht) (.of_forall fun _ w₂ => ?_)
  exact Total.out _ _

/-- A settlement is created where the rest finds it. -/
theorem wp_createSettlement {n : ℕ} {op : SettlementOperation} {a b : Address} :
    wp (createSettlement n op x a b) env w fun k w₁ => (∃ r, w₁.ledger.settlement k = some r) ∧
      w₁.ledger.token = w.ledger.token ∧ w₁.ledger.tokenContract = w.ledger.tokenContract ∧
      w₁.governance = w.governance := by
  unfold createSettlement incrementSettlementCounter
  simp only [wp_bind, wp_gets, wp_pure, wp_timestamp, wp_modifyLedger_iff]
  exact ⟨⟨_, Function.update_self _ _ _⟩, rfl, rfl, trivial⟩

theorem wp_completeSettlement {k n : ℕ} : wp (completeSettlement k n) env w fun _ w₁ =>
    w₁.ledger.tokenContract = w.ledger.tokenContract := by
  unfold completeSettlement
  simp only [wp_bind, wp_gets, wp_okOr, wp_timestamp, wp_modifyLedger_iff]
  exact fun _ _ => rfl

/-- The carrier is paid when the token pays out what is in escrow. -/
theorem succeeds_internalReleaseEscrow {a : Address} (hidle : w.BreakerIdle)
    (ha : w.ledger.tokenContract = some a)
    (hpays : H.PaysOut a s.carrier s.escrowAmount w.ledger.token) (hmax : s.escrowAmount ≤ maxAmount)
    (hv : (s.payOff x env.timestamp).Valid) : Succeeds (internalReleaseEscrow s x) env w := by
  unfold internalReleaseEscrow
  by_cases hx : x ≤ 0
  · rw [if_pos hx]
    exact succeeds_pure s
  rw [if_neg hx]
  have hmin : (if s.escrowAmount < x then s.escrowAmount else x) = min x s.escrowAmount := by
    split <;> omega
  dsimp only
  rw [hmin]
  by_cases hy : 0 < min x s.escrowAmount
  swap
  · rw [if_neg hy]
    exact succeeds_pure s
  rw [if_pos hy]
  have hp : min x s.escrowAmount = s.payable x := (max_eq_right hy.le).symm
  rw [hp] at hy ⊢
  have hle : s.payable x ≤ s.escrowAmount := hp ▸ min_le_right _ _
  obtain ⟨token, htoken, -⟩ := hpays.pay env hy hle
  refine succeeds_step ((wp_gets _).mpr (succeeds_bind (succeeds_okOr ha) ((wp_okOr _ _).mpr ?_)))
  rintro b hb
  obtain rfl : a = b := Option.some.inj (ha.symm.trans hb)
  refine succeeds_step (wp_createSettlement.mono ?_)
  rintro k w₁ ⟨⟨r, hr⟩, htoken₁, ha₁, hgov₁⟩
  have hidle₁ : w₁.BreakerIdle := by
    unfold World.BreakerIdle
    rw [hgov₁]
    exact hidle
  rw [← htoken₁] at htoken
  refine succeeds_bind (succeeds_onErr (succeeds_invokeTokenTransfer hidle₁ htoken)) ?_
  refine (wp_onErr _ _).mpr (wp_invokeTokenTransfer fun token' w₂ _ h₂ _ => ?_)
  have hl₂ : w₂.ledger = { w₁.ledger with token := token' } := congrArg Book.ledger h₂
  -- the settlement is completed
  have hsettle : Succeeds (completeSettlement k s.id) env w₂ := by
    have hr₂ : w₂.ledger.settlement k = some r := by rw [hl₂]; exact hr
    unfold completeSettlement
    exact succeeds_step ((wp_gets _).mpr (succeeds_bind (succeeds_okOr hr₂)
      (.of_forall fun _ _ => Total.out _ _)))
  refine succeeds_bind hsettle (wp_completeSettlement.mono fun _ w₃ ha₃ => ?_)
  have ha₃ : w₃.ledger.tokenContract = some a := by
    rw [ha₃, hl₂]
    exact ha₁.trans ha
  rw [checkedSubEscrow_of_le hy.le hle hmax]
  refine succeeds_step ((wp_pure _).mpr (succeeds_step (wp_timestamp.mpr ?_)))
  rw [Shipment.payOff_of_pos hy] at hv
  have hstore : (persistShipment _).Returns env w₃ () _ := returns_persistShipment.mpr ⟨hv, rfl⟩
  refine succeeds_bind hstore.succeeds fun _ w₄ h₄ => ?_
  obtain ⟨-, rfl⟩ := Returns.unique h₄ hstore
  refine succeeds_bind ?_ (.of_forall fun _ _ => succeeds_pure _)
  unfold emitEscrowReleased emitKeyedWithToken
  refine succeeds_step ((wp_gets _).mpr (succeeds_bind (succeeds_unwrap ha₃) ?_))
  exact .of_forall fun _ _ => Total.out _ _

/-- The caller of the turn may release the milestones of a shipment with this carrier. -/
structure World.MayRelease (w : World H) (carrier : Address) (turn : Address × Env) : Prop where
  signed : turn.2.auth turn.1 = true
  self : turn.2.auth H.currentContractAddress = false
  party : turn.1 = carrier ∨ w.ledger.admin = some turn.1
  active : turn.1 = carrier → w.CarrierActive carrier

theorem wp_emitKeyed_keeps {domain n : ℕ} {topic : String} {event : EventKey → Event} :
    wp (emitKeyed domain topic n event) env w fun _ w₁ =>
      w₁.ledger = w.ledger ∧ w₁.governance = w.governance := by
  unfold emitKeyed publish log incrementEventCount modifyDossier
  simp only [wp_bind, wp_gets, wp_modify]
  exact ⟨trivial, trivial⟩

/-- A record in transit, paid from, is still valid. -/
theorem Shipment.Capped.valid_payOff (h : s.Capped) (hstatus : s.status = .inTransit)
    (hfin : s.finalized = false) (x : ℤ) (now : ℕ) : (s.payOff x now).Valid := by
  have hle := s.payable_le x h.regular.escrow_nonneg
  have hnn := s.payable_nonneg x
  refine ⟨sub_nonneg.mpr hle, (sub_le_self _ hnn).trans h.regular.escrow_le_total, fun hf => ?_,
    fun hc => ?_⟩
  · have hf : s.finalized = true := hf
    rw [hfin] at hf
    cases hf
  · have hc : s.status = .created := hc
    rw [hstatus] at hc
    cases hc

/-- The release of a milestone whose turn it is. -/
theorem succeeds_releaseMilestonePayment {caller a : Address} {m : Symbol × ℕ}
    (hs : w.getShipment id = some s) (hmay : w.MayRelease s.carrier (caller, env))
    (hinit : w.ledger.admin ≠ none) (hopen : w.governance.isPaused = false) (hcap : s.Capped)
    (hstatus : s.status = .inTransit) (hfin : s.finalized = false) (hm : m ∈ s.paymentMilestones)
    (hnew : m.1 ∉ s.milestonesCompleted) (hidx : s.indexOf m.1 ≤ s.milestonesCompleted.length)
    (hidle : w.BreakerIdle) (ha : w.ledger.tokenContract = some a)
    (hpays : H.PaysOut a s.carrier s.escrowAmount w.ledger.token) :
    Succeeds (releaseMilestonePayment caller id m.1) env w := by
  obtain ⟨hsigned, -, hparty, hactive⟩ := hmay
  obtain ⟨admin, hadmin⟩ := Option.ne_none_iff_exists'.mp hinit
  have hstarted : w.isInitialized = true := by
    show w.ledger.admin.isSome = true
    rw [hadmin]
    rfl
  unfold releaseMilestonePayment
  have hcall := returns_openCall (u := ()).mpr ⟨⟨hstarted, hopen, hsigned⟩, rfl⟩
  refine succeeds_bind hcall.succeeds (wp_openCall fun _ _ => ?_)
  have hload : Succeeds (loadShipment id) env (w.signed caller) :=
    succeeds_step ((wp_gets _).mpr (succeeds_okOr hs))
  refine succeeds_bind hload (wp_loaded hs ?_)
  refine succeeds_bind (succeeds_rejectIf (by simp [hfin])) (wp_guard fun _ => ?_)
  have hget : Succeeds (getAdmin : Contract H Address) env (w.signed caller) :=
    succeeds_step ((wp_gets _).mpr (succeeds_unwrap hadmin))
  refine succeeds_bind hget (wp_getAdmin fun b hb => ?_)
  have hauth : ¬(caller ≠ s.carrier ∧ caller ≠ b) := by
    rintro ⟨h₁, h₂⟩
    rcases hparty with h | h
    · exact h₁ h
    · exact h₂ (Option.some.inj (h.symm.trans hb))
  refine succeeds_bind (succeeds_rejectIf hauth) (wp_guard fun _ => ?_)
  have hcarrier : Succeeds (when (caller = s.carrier) (requireActiveCarrier caller)) env
      (w.signed caller) := by
    unfold when
    by_cases hc : caller = s.carrier
    · obtain ⟨h₁, h₂⟩ := hactive hc
      rw [if_pos hc, hc]
      unfold requireActiveCarrier
      refine succeeds_step ((wp_gets _).mpr ?_)
      exact succeeds_bind (succeeds_rejectIf (Bool.eq_false_iff.mp h₁))
        (wp_guard fun _ => succeeds_rejectIf (Bool.eq_false_iff.mp h₂))
    · rw [if_neg hc]
      exact succeeds_pure ()
  refine succeeds_bind hcarrier (wp_guard fun _ => ?_)
  have hfind := hcap.regular.scheduled.findMilestone hm
  refine succeeds_bind (succeeds_okOr hfind) ((wp_okOr _ _).mpr ?_)
  rintro n hn
  obtain rfl : m = n := Option.some.inj (hfind.symm.trans hn)
  dsimp only
  refine succeeds_bind (succeeds_rejectIf hnew) (wp_guard fun _ => ?_)
  have hnext : ¬(0 < s.paymentMilestones.findIdx (·.1 = m.1) ∧
      s.milestonesCompleted.length < s.paymentMilestones.findIdx (·.1 = m.1)) :=
    fun h => absurd h.2 (not_lt.mpr hidx)
  refine succeeds_bind (succeeds_rejectIf hnext) (wp_guard fun _ => ?_)
  rw [hcap.milestoneRelease_eq hm]
  refine succeeds_step ((wp_pure _).mpr (succeeds_bind ?_ (.of_forall fun _ _ => Total.out _ _)))
  by_cases hpos : 0 < s.milestoneDue (s.milestonesCompleted ++ [m.1]) m.2
  · rw [if_pos hpos]
    unfold emitMilestonePaymentReleased
    refine succeeds_step (wp_emitKeyed_keeps.mono ?_)
    rintro _ w₁ ⟨hl₁, hg₁⟩
    have hidle₁ : w₁.BreakerIdle := by
      unfold World.BreakerIdle
      rw [hg₁]
      exact hidle
    have ha₁ : w₁.ledger.tokenContract = some a := (congrArg Ledger.tokenContract hl₁).trans ha
    have hpays₁ : H.PaysOut a s.carrier s.escrowAmount w₁.ledger.token := by
      rw [hl₁]
      exact hpays
    have hv := (hcap.markPaid m.1).valid_payOff hstatus hfin
    exact succeeds_internalReleaseEscrow (s := s.markPaid m.1) hidle₁ ha₁ hpays₁
      (hcap.regular.escrow_le_total.trans hcap.total_le) (hv _ _)
  · rw [if_neg hpos]
    exact succeeds_pure s

/-! ### What a release does -/

variable {caller : Address} {m : Symbol × ℕ} {done rest : List (Symbol × ℕ)} {ps : List (Symbol × ℤ)}
  {p : Posting} {b : Book H.Token} {trace : List Effect}

/-- A release that pays nothing leaves the milestone as it is. -/
theorem Rule.released (hr : Rule env w (.releaseMilestonePayment caller id m.1) p)
    (hfind : p.old.findMilestone m.1 = some m) : p.old.id = id ∧
      (p.old.releaseDue m ≤ 0 ∧ p.new = p.old.finalizeIfSettled ∧ p.moves = [] ∨
        0 < p.old.releaseDue m ∧
          p.new = (p.old.payMilestone m.1 (p.old.releaseDue m) env.timestamp).finalizeIfSettled ∧
          p.moves = p.old.milestoneMoves m.1 (p.old.releaseDue m)) := by
  cases hr with
  | releaseNothing _ _ hn hx =>
    obtain rfl := Option.some.inj (hfind.symm.trans hn)
    exact ⟨rfl, .inl ⟨hx, rfl, rfl⟩⟩
  | releaseMilestonePayment _ _ hn hx hpos =>
    obtain rfl := Option.some.inj (hfind.symm.trans hn)
    subst hx
    exact ⟨rfl, .inr ⟨hpos, rfl, rfl⟩⟩
  | forceRelease he => cases he
  | forceRefund he => cases he

/-- The token after a milestone payment. -/
theorem Posted.token_paid (hp : Posted env w.book b p) (hmoves : p.moves = t.milestoneMoves m.1 x)
    (hpos : 0 < t.payable x) : ∃ a, w.ledger.tokenContract = some a ∧
      H.transfer w.ledger.token (env.tokenAuth H) a H.currentContractAddress t.carrier (t.payable x) =
        some b.ledger.token := by
  obtain ⟨a, token, -, hfollow, rfl⟩ := hp
  have hpays : p.pays H.currentContractAddress a =
      [.milestone p.old.id m.1 x t.carrier, .moved a H.currentContractAddress t.carrier (t.payable x),
        .released p.old.id t.carrier (t.payable x)] := by
    have hmove : (t.markPaid m.1).payMoves x = [.settled .released t.carrier (t.payable x)] :=
      if_pos hpos
    unfold Posting.pays
    rw [hmoves, Shipment.milestoneMoves, hmove]
    rfl
  rw [hpays] at hfollow
  simp only [Host.follow] at hfollow
  by_cases ha : w.book.ledger.tokenContract = some a
  · rw [if_pos ha] at hfollow
    obtain ⟨token', htoken, heq⟩ := Option.bind_eq_some_iff.mp hfollow
    obtain rfl := Option.some.inj heq
    exact ⟨a, ha, htoken⟩
  · rw [if_neg ha] at hfollow
    cases hfollow

/-- A shipment in transit is not settled. -/
theorem Shipment.Progress.finalizeIfSettled_eq (h : s.Progress done ps t) : t.finalizeIfSettled = t := by
  have hnot : ¬((t.status = .delivered ∨ t.status = .cancelled) ∧ t.escrowAmount = 0) := by
    rw [h.status]
    rintro ⟨h₁ | h₁, -⟩ <;> cases h₁
  unfold Shipment.finalizeIfSettled
  rw [if_neg hnot]

/-- The release of the next milestone leaves the record and pays nothing, or marks and pays
the milestone; the token pays out the rest as it did the whole. -/
theorem Step.released
    (hstep : Step c (.committed (.releaseMilestonePayment caller id m.1) env trace) c')
    (hc : Reachable c) (ht : c.world.getShipment id = some t) (hp : s.Progress done ps t)
    (hs : s.Regular) (hT : 1 ≤ s.totalEscrow) (hsplit : s.paymentMilestones = done ++ m :: rest) :
    (t.releaseDue m ≤ 0 ∧ c'.world.getShipment id = some t) ∨
      0 < t.releaseDue m ∧ ∃ t', c'.world.getShipment id = some t' ∧
        s.Progress (done ++ [m]) (ps ++ [(m.1, paidTo H.currentContractAddress s.carrier trace)]) t' ∧
        ∃ a, c.world.ledger.tokenContract = some a ∧ c'.world.ledger.tokenContract = some a ∧
          (H.PaysOut a s.carrier t.escrowAmount c.world.ledger.token →
            H.PaysOut a s.carrier t'.escrowAmount c'.world.ledger.token) := by
  cases hstep with
  | @committed _ _ w' hadm hx =>
    have hsound : c.world.fresh.ledger.Sound := hc.sound
    obtain ⟨p, hpost⟩ := (exec_effects hsound.keyed hx).exists_posting rfl
    have hin : m ∈ t.paymentMilestones := by
      rw [hp.schedule, hsplit]
      simp
    have hfind := (hc.regular ht).scheduled.findMilestone hin
    have hid : p.old.id = id := by
      rcases hpost.rule.concerns with h | h | h <;> cases h
      rfl
    obtain rfl : p.old = t := by
      have hstored := hpost.stored
      rw [hid] at hstored
      exact Option.some.inj (hstored.symm.trans ht)
    have hnew : (World.fresh w').getShipment id = some p.new := by
      rw [← hid]
      exact hpost.stored_new
    obtain ⟨-, ⟨hx, heq, -⟩ | ⟨hpos, heq, hmoves⟩⟩ := hpost.rule.released hfind
    · rw [heq, hp.finalizeIfSettled_eq] at hnew
      exact .inl ⟨hx, hnew⟩
    · have hescrow := hp.escrow_pos hs hT hsplit
      have hpay : 0 < p.old.payable (p.old.releaseDue m) := by
        unfold Shipment.payable
        omega
      have hpaid : paidTo H.currentContractAddress s.carrier w'.trace =
          p.old.payable (p.old.releaseDue m) := by
        unfold paidTo
        rw [hpost.transfersOut_eq hadm.2 hescrow.le, hmoves, ← hp.carrier_eq]
        exact p.old.paid_milestoneMoves _ _
      obtain ⟨a, ha, htoken⟩ := hpost.posted.token_paid hmoves hpay
      have hrelease := hp.release hs hsplit env.timestamp
      rw [← heq] at hrelease
      have ha' : w'.ledger.tokenContract = some a := by
        obtain ⟨_, _, -, -, hbook⟩ := hpost.posted
        exact (congrArg (·.ledger.tokenContract) hbook).trans ha
      refine .inr ⟨hpos, p.new, hnew, hpaid ▸ hrelease, a, ha, ha', fun hpays => ?_⟩
      have hle := p.old.payable_le (p.old.releaseDue m) hescrow.le
      obtain ⟨token', htoken', hrest⟩ := hpays.pay env hpay hle
      rw [← hp.carrier_eq] at htoken'
      obtain rfl := Option.some.inj (htoken'.symm.trans htoken)
      rw [heq]
      exact hrest

instance : AuthFree (World.standing (H := H)) := ⟨fun _ _ => rfl⟩

/-- A release leaves the roles, the admin and the settings. -/
theorem Step.release_standing {name : Symbol}
    (hstep : Step c (.committed (.releaseMilestonePayment caller id name) env trace) c') :
    c'.world.standing = c.world.standing := by
  cases hstep with
  | @committed _ _ w₁ _ hx =>
    have h : wp (releaseMilestonePayment caller id name) env c.world.fresh fun _ w₁ =>
        w₁.standing = c.world.fresh.standing := Preserves.wp World.standing fun _ _ h => h
    have h₁ : w₁.standing = c.world.fresh.standing := h () w₁ hx
    exact h₁

theorem World.MayRelease.congr {carrier : Address} {turn : Address × Env}
    (h : w.MayRelease carrier turn) (hw : w'.standing = w.standing) : w'.MayRelease carrier turn := by
  have hadmin : w'.ledger.admin = w.ledger.admin := congrArg (·.1) hw
  have hregistry : w'.registry = w.registry := congrArg (·.2.1) hw
  refine ⟨h.signed, h.self, hadmin ▸ h.party, fun hc => ?_⟩
  obtain ⟨h₁, h₂⟩ := h.active hc
  refine ⟨?_, ?_⟩
  · show w'.registry.carrierSuspended carrier = false
    rw [hregistry]
    exact h₁
  · show w'.registry.roleSuspended carrier .carrier = false
    rw [hregistry]
    exact h₂

/-! ### All releases -/

/-- The releases of the milestones, each in its turn. -/
def releases (id : ℕ) (ms : List (Symbol × ℕ)) (turns : List (Address × Env)) : List (Call × Env) :=
  List.zipWith (fun m turn => (.releaseMilestonePayment turn.1 id m.1, turn.2)) ms turns

/-- What the labels pay to an address. -/
def paidOverall (self a : Address) (ls : List Label) : ℤ := (ls.map fun l => paidTo self a l.trace).sum

/-- The releases of the schedule, each in its turn, all commit; then all milestones are
completed, the escrow is empty, and the carrier was paid the deposit. -/
def Chain.ReleasesAll (c : Chain H) (id : ℕ) (s : Shipment) (turns : List (Address × Env)) : Prop :=
  ∃ ls c' s', play c (releases id s.paymentMilestones turns) = some (ls, c') ∧
    c'.world.getShipment id = some s' ∧
    (∀ m ∈ s.paymentMilestones, m.1 ∈ s'.milestonesCompleted) ∧ s'.escrowAmount = 0 ∧
    paidOverall H.currentContractAddress s.carrier ls = s.totalEscrow

theorem play_cons {call : Call} {calls : List (Call × Env)} {ls : List Label} :
    play c ((call, env) :: calls) = some (ls, c') ↔ ∃ trace c₁ ks, commit c call env = some (trace, c₁) ∧
      play c₁ calls = some (ks, c') ∧ ls = .committed call env trace :: ks := by
  constructor
  · intro h
    obtain ⟨⟨trace, c₁⟩, hr, h⟩ := Option.bind_eq_some_iff.mp h
    obtain ⟨⟨ks, c₂⟩, hq, hk⟩ := Option.map_eq_some_iff.mp h
    cases hk
    exact ⟨trace, c₁, ks, hr, hq, rfl⟩
  · rintro ⟨trace, c₁, ks, hr, hq, rfl⟩
    show (commit c call env).bind _ = _
    rw [hr, Option.bind_some, hq]
    rfl

/-- A call that returns is committed. -/
theorem exists_commit_of_succeeds (call : Call) (hadm : env.Admissible c)
    (hx : Succeeds call.exec env c.world.fresh) : ∃ trace c₁, commit c call env = some (trace, c₁) := by
  obtain ⟨u, w', hx⟩ := hx
  have hx : call.exec env c.world.fresh = .ok u w' := hx
  refine ⟨w'.trace, ⟨w'.fresh, env.timestamp⟩, ?_⟩
  unfold commit
  rw [if_pos ⟨hadm.1, hadm.2⟩, hx]

theorem now_of_commit {call : Call} (h : commit c call env = some (trace, c')) :
    c'.now = env.timestamp := by
  cases step_of_commit h
  rfl

/-- The next milestone can be released. -/
theorem Shipment.Progress.succeeds (hp : s.Progress done ps t) (hs : s.Regular) (hT : 1 ≤ s.totalEscrow)
    (hsplit : s.paymentMilestones = done ++ m :: rest) (hc : Reachable c)
    (ht : c.world.getShipment id = some t) (hopen : c.world.governance.isPaused = false)
    (hpays : ∀ a, c.world.ledger.tokenContract = some a →
      H.PaysOut a s.carrier t.escrowAmount c.world.ledger.token)
    (hmay : c.world.MayRelease s.carrier (caller, env)) :
    Succeeds (releaseMilestonePayment caller id m.1) env c.world.fresh := by
  have hL := hs.scheduled
  have hin : m ∈ t.paymentMilestones := by
    rw [hp.schedule, hsplit]
    simp
  have hidx : t.indexOf m.1 ≤ t.milestonesCompleted.length := by
    rw [hp.completed, List.length_map]
    rw [hp.schedule.symm] at hL hsplit
    exact (hL.indexOf hsplit).le
  have hnew : m.1 ∉ t.milestonesCompleted := by
    rw [hsplit] at hL
    rw [hp.completed]
    exact hL.not_mem_prefix
  have hfin : t.finalized = false := by
    by_contra hf
    have hclosed := (hc.closed ht (Bool.eq_true_of_not_eq_false hf)).1
    rw [hp.status] at hclosed
    rcases hclosed with h | h <;> cases h
  have hpos : 0 < t.totalEscrow := by
    rw [hp.total_eq]
    omega
  obtain ⟨a, ha⟩ := Option.ne_none_iff_exists'.mp (hc.tokenContract_ne ht hpos)
  have hinit : c.world.ledger.admin ≠ none := by
    intro hnone
    have hstored : c.world.ledger.getShipment id = some t := ht
    rw [hc.sound.unset hnone id] at hstored
    cases hstored
  have hmay : c.world.fresh.MayRelease t.carrier (caller, env) := by
    rw [hp.carrier_eq]
    exact hmay.congr rfl
  have hpays : H.PaysOut a t.carrier t.escrowAmount c.world.ledger.token := by
    rw [hp.carrier_eq]
    exact hpays a ha
  exact succeeds_releaseMilestonePayment (w := c.world.fresh) ht hmay hinit hopen (hc.capped id t ht)
    hp.status hfin hin hnew hidx hc.breakerIdle ha hpays

/-- Where no percentage but the last rounds down to nothing, the releases all commit. -/
theorem exists_play_releases {turns : List (Address × Env)} (hs : s.Regular) (hT : 1 ≤ s.totalEscrow)
    (hshares : ∀ m ∈ rest.dropLast, 100 ≤ s.totalEscrow * m.2)
    (hsplit : s.paymentMilestones = done ++ rest) (hc : Reachable c)
    (ht : c.world.getShipment id = some t) (hp : s.Progress done ps t)
    (hopen : c.world.governance.isPaused = false)
    (hpays : ∀ a, c.world.ledger.tokenContract = some a →
      H.PaysOut a s.carrier t.escrowAmount c.world.ledger.token)
    (hlen : turns.length = rest.length)
    (htimes : (c.now :: turns.map (·.2.timestamp)).IsChain (· ≤ ·))
    (hmay : ∀ turn ∈ turns, c.world.MayRelease s.carrier turn) :
    ∃ ls c' t' qs, play c (releases id rest turns) = some (ls, c') ∧
      c'.world.getShipment id = some t' ∧ s.Progress (done ++ rest) qs t' ∧
      total qs = total ps + paidOverall H.currentContractAddress s.carrier ls := by
  induction rest generalizing c done t ps turns with
  | nil =>
    refine ⟨[], c, t, ps, rfl, ht, ?_, (add_zero _).symm⟩
    rw [List.append_nil]
    exact hp
  | cons m rest ih =>
    rcases turns with _ | ⟨⟨caller, env⟩, turns⟩
    · cases hlen
    rw [List.map_cons, List.isChain_cons_cons] at htimes
    obtain ⟨htime, htimes⟩ := htimes
    have hmay₀ : c.world.MayRelease s.carrier (caller, env) := hmay _ List.mem_cons_self
    -- the milestone is due something
    have hpos : 0 < t.releaseDue m := by
      refine (hp.releaseDue_pos_iff hs hT hsplit).mpr ?_
      rcases rest with _ | ⟨n, rest⟩
      · exact .inl rfl
      · exact .inr (hshares m List.mem_cons_self)
    have hx := hp.succeeds hs hT hsplit hc ht hopen hpays hmay₀
    obtain ⟨trace, c₁, hcommit⟩ := exists_commit_of_succeeds (.releaseMilestonePayment caller id m.1)
      ⟨htime, hmay₀.self⟩ hx
    have hstep := step_of_commit hcommit
    have hstanding := hstep.release_standing
    rcases hstep.released hc ht hp hs hT hsplit with ⟨hzero, -⟩ | ⟨-, t₁, ht₁, hp₁, b, hb, hb₁, hpays₁⟩
    · omega
    have hopen₁ : c₁.world.governance.isPaused = false :=
      (congrArg (·.2.2.isPaused) hstanding).trans hopen
    obtain ⟨ls, c', t', qs, hplay, ht', hp', htotal⟩ := ih
      (fun n hn => hshares n (by
        rcases rest with _ | ⟨n', rest⟩
        · cases hn
        · exact List.mem_cons_of_mem _ hn))
      (by rw [hsplit, List.append_assoc]; rfl) (hc.step hstep) ht₁ hp₁ hopen₁
      (fun a' ha' => by
        obtain rfl := Option.some.inj (ha'.symm.trans hb₁)
        exact hpays₁ (hpays _ hb))
      (Nat.succ.inj hlen) (by rw [now_of_commit hcommit]; exact htimes)
      (fun turn h => (hmay turn (List.mem_cons_of_mem _ h)).congr hstanding)
    refine ⟨_, c', t', qs, play_cons.mpr ⟨trace, c₁, ls, hcommit, hplay, rfl⟩, ht', ?_, ?_⟩
    · rw [List.append_assoc] at hp'
      exact hp'
    · rw [htotal, total_append, total_singleton]
      show total ps + paidTo _ _ trace + _ = total ps + (paidTo _ _ trace + _)
      exact add_assoc _ _ _

/-- Where the releases all commit, no percentage but the last rounds down to nothing: after
one that does, the next milestone is not the next to be released. -/
theorem shares_of_play {turns : List (Address × Env)} {ls : List Label} (hs : s.Regular)
    (hT : 1 ≤ s.totalEscrow) (hsplit : s.paymentMilestones = done ++ rest) (hc : Reachable c)
    (ht : c.world.getShipment id = some t) (hp : s.Progress done ps t)
    (hlen : turns.length = rest.length) (hplay : play c (releases id rest turns) = some (ls, c')) :
    ∀ m ∈ rest.dropLast, 100 ≤ s.totalEscrow * m.2 := by
  induction rest generalizing c done t ps turns ls with
  | nil => simp
  | cons m rest ih =>
    rcases turns with _ | ⟨⟨caller, env⟩, turns⟩
    · cases hlen
    rcases rest with _ | ⟨n, rest⟩
    · simp
    obtain ⟨trace, c₁, ks, hcommit, hplay₁, -⟩ := play_cons.mp hplay
    have hstep := step_of_commit hcommit
    have hsplit₁ : s.paymentMilestones = (done ++ [m]) ++ n :: rest := by
      rw [hsplit, List.append_assoc]
      rfl
    rcases hstep.released hc ht hp hs hT hsplit with ⟨hzero, ht₁⟩ | ⟨hpos, t₁, ht₁, hp₁, -⟩
    · -- the next release finds too few milestones completed
      rcases turns with _ | ⟨⟨caller', env'⟩, turns⟩
      · cases hlen
      obtain ⟨trace', c₂, _, hcommit', -, -⟩ := play_cons.mp hplay₁
      obtain ⟨-, hidx⟩ := (step_of_commit hcommit').release_new ht₁
      have hL := hs.scheduled
      rw [hp.schedule.symm] at hL hsplit₁
      rw [hL.indexOf hsplit₁, hp.completed] at hidx
      simp at hidx
    · have hdue := ((hp.releaseDue_pos_iff hs hT hsplit).mp hpos).resolve_left (List.cons_ne_nil n rest)
      intro k hk
      rcases List.mem_cons.mp hk with rfl | hk
      · exact hdue
      · exact ih hsplit₁ (hc.step hstep) ht₁ hp₁ (Nat.succ.inj hlen) hplay₁ k hk

/-- When all milestones are released, the deposit is paid out. -/
theorem Shipment.Progress.complete (h : s.Progress s.paymentMilestones ps t) (hs : s.Regular)
    (hne : s.paymentMilestones ≠ []) : t.escrowAmount = 0 ∧ total ps = s.totalEscrow := by
  have hall := hs.scheduled.parts_eq hne
  have hsplit := List.dropLast_append_getLast hne
  have hp := h.apportioned
  rw [← hsplit] at hp hall
  obtain ⟨-, htotal, hzero⟩ := hp.exact hall
  exact ⟨hzero, htotal⟩

/-- A shipment is in transit with its deposit in escrow and nothing released; the token pays
out the deposit, and in each of the turns the caller may release. -/
structure Chain.Releasable (c : Chain H) (id : ℕ) (s : Shipment) (turns : List (Address × Env)) :
    Prop where
  reachable : Reachable c
  stored : c.world.getShipment id = some s
  status : s.status = .inTransit
  completed : s.milestonesCompleted = []
  full : s.escrowAmount = s.totalEscrow
  deposit : 1 ≤ s.totalEscrow
  schedule : s.paymentMilestones ≠ []
  isOpen : c.world.governance.isPaused = false
  pays : ∀ a, c.world.ledger.tokenContract = some a →
    H.PaysOut a s.carrier s.totalEscrow c.world.ledger.token
  length_eq : turns.length = s.paymentMilestones.length
  times : (c.now :: turns.map (·.2.timestamp)).IsChain (· ≤ ·)
  callers : ∀ turn ∈ turns, c.world.MayRelease s.carrier turn

/-- **Releasing a schedule.** The releases of the milestones, made in the order of the
schedule, all commit and pay out the deposit if and only if no percentage but the last one
rounds down to nothing. -/
theorem releases_in_order {turns : List (Address × Env)} (h : c.Releasable id s turns) :
    c.ReleasesAll id s turns ↔ ∀ m ∈ s.paymentMilestones.dropLast, 100 ≤ s.totalEscrow * m.2 := by
  have hc := h.reachable
  have hs := hc.regular h.stored
  have hp : s.Progress [] [] s := by
    refine ⟨rfl, rfl, rfl, h.status, h.completed, ?_, ?_⟩
    · rw [← (hc.listed h.stored).agree]
      exact h.completed
    · rw [h.full]
      exact .nil (by decide)
  constructor
  · rintro ⟨ls, c', s', hplay, -⟩
    exact shares_of_play hs h.deposit rfl hc h.stored hp h.length_eq hplay
  · intro hshares
    obtain ⟨ls, c', s', qs, hplay, hs', hp', htotal⟩ := exists_play_releases hs h.deposit hshares rfl hc
      h.stored hp h.isOpen (h.full ▸ h.pays) h.length_eq h.times h.callers
    obtain ⟨hzero, hpaid⟩ := hp'.complete hs h.schedule
    refine ⟨ls, c', s', hplay, hs', fun m hm => ?_, hzero, ?_⟩
    · rw [hp'.completed]
      exact List.mem_map_of_mem hm
    · rw [← hpaid, htotal, total_nil, zero_add]

namespace Deployment

/-- The carrier's turn. -/
def turn (now : ℕ) : Address × Env := (carrier, (signed carrier now (.extendTtl 1)).2)

/-- What makes a shipment of the deployment releasable, found by evaluation. -/
def Waits (c : Chain host) (s : Shipment) (times : List ℕ) : Prop :=
  (s.carrier = carrier ∧ s.status = .inTransit ∧ s.milestonesCompleted = [] ∧
    s.escrowAmount = s.totalEscrow ∧ 1 ≤ s.totalEscrow ∧ times.length = s.paymentMilestones.length ∧
    s.paymentMilestones ≠ []) ∧
  (c.world.governance.isPaused = false ∧ c.world.ledger.tokenContract = some tokenContract ∧
    (c.now :: times).IsChain (· ≤ ·)) ∧
  (c.world.isCarrierSuspended carrier = false ∧ c.world.isRoleSuspended carrier .carrier = false) ∧
  TokenLedger.admin c.world.ledger.token ≠ none ∧ TokenLedger.paused c.world.ledger.token = false ∧
  (s.totalEscrow ≤ TokenLedger.balance c.world.ledger.token self ∧
    TokenLedger.balance c.world.ledger.token self ≤ i128Max) ∧
  0 ≤ TokenLedger.balance c.world.ledger.token carrier ∧
  TokenLedger.balance c.world.ledger.token carrier + s.totalEscrow ≤ i128Max

instance (c : Chain host) (s : Shipment) (times : List ℕ) : Decidable (Waits c s times) :=
  inferInstanceAs (Decidable (_ ∧ _))

theorem releasable {c : Chain host} {s : Shipment} {times : List ℕ} (hc : Reachable c)
    (hs : c.world.getShipment 1 = some s) (h : Waits c s times) :
    c.Releasable 1 s (times.map turn) := by
  obtain ⟨⟨hcarrier, h₁, h₂, h₃, h₄, h₅, h₆⟩, ⟨hopen, htoken, htimes⟩, hactive, hadmin, hpaused, hself,
    hnn, hroom⟩ := h
  refine ⟨hc, hs, h₁, h₂, h₃, h₄, h₆, hopen, fun a ha => ?_, ?_, ?_, fun t ht => ?_⟩
  · obtain rfl : tokenContract = a := Option.some.inj (htoken.symm.trans ha)
    rw [hcarrier]
    exact tokenHost_paysOut hadmin hpaused (by decide) hself ⟨hnn, hroom⟩
  · rw [List.length_map]
    exact h₅
  · rw [List.map_map]
    show (c.now :: times.map id).IsChain _
    rw [List.map_id]
    exact htimes
  · obtain ⟨now, -, rfl⟩ := List.mem_map.mp ht
    have hother : (turn now).2.auth self = false := by
      show decide (self = carrier) = false
      decide
    rw [hcarrier]
    exact ⟨by simp [turn, signed], hother, .inl rfl, fun _ => hactive⟩

end Deployment

/-- A deposit of 1000 is released in legs of 30, 30 and 40 percent. -/
theorem releases_in_order_legs : ∃ (c : Chain Deployment.host) (s : Shipment) (turns : List (Address × Env)),
    c.Releasable 1 s turns ∧ s.totalEscrow = 1000 ∧ s.paymentMilestones.length = 3 ∧
      c.ReleasesAll 1 s turns := by
  obtain ⟨ls, c, hr, -, hstored⟩ := exists_play Deployment.chain Deployment.threeLegs
    (fun r => ∃ s ∈ r.2.world.getShipment 1, Deployment.Waits r.2 s [7, 8, 8] ∧ s.totalEscrow = 1000 ∧
      s.paymentMilestones.length = 3 ∧ ∀ m ∈ s.paymentMilestones.dropLast, 100 ≤ s.totalEscrow * m.2)
    (by decide +kernel)
  obtain ⟨s, hs, hwaits, htotal, hlen, hshares⟩ := hstored
  have h := Deployment.releasable ⟨_, ls, Deployment.deployed, hr⟩ hs hwaits
  exact ⟨c, s, _, h, htotal, hlen, (releases_in_order h).mpr hshares⟩

/-- Of a deposit of 1, 40 percent round down to nothing. The release of this milestone
commits and leaves it as it is, and the release of the other one is refused. -/
theorem releases_stall : ¬∀ (c : Chain Deployment.host) (s : Shipment) (turns : List (Address × Env)),
    c.Releasable 1 s turns → c.ReleasesAll 1 s turns := by
  intro hall
  obtain ⟨ls, c, hr, -, hstored⟩ := exists_play Deployment.chain
    (Deployment.opening ++ [
      Deployment.signed Deployment.company 5 (.depositEscrow Deployment.company 1 1),
      Deployment.signed Deployment.carrier 6 (.updateStatus Deployment.carrier 1 .inTransit 2)])
    (fun r => ∃ s ∈ r.2.world.getShipment 1, Deployment.Waits r.2 s [7, 8] ∧
      (play r.2 (releases 1 s.paymentMilestones ([7, 8].map Deployment.turn))).isNone = true)
    (by decide +kernel)
  obtain ⟨s, hs, hwaits, hnone⟩ := hstored
  have h := Deployment.releasable ⟨_, ls, Deployment.deployed, hr⟩ hs hwaits
  obtain ⟨ls', c', s', hplay, -⟩ := hall c s _ h
  rw [hplay] at hnone
  cases hnone

end Navin
