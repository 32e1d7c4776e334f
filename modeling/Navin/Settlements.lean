/-
# The settlement ledger

Settlements are numbered as they are made and are completed in the call that made
them, or the call leaves nothing. Each of them stands for one transfer of that
call.

Key definitions:
- `Ledger.Appends`: what a call adds to the settlements;
- `transfersOf`, `Draft.triple`, `SettlementRecord.triple`.

Key theorems:
- `Rule.settles`: the transfers of a posting that has settlements;
- `Step.appends`, `Run.settlement_eq`: settlements are added and never rewritten;
- `settlements_sound`.
-/
import Navin.Solvency

namespace Navin

variable {H : Host}

/-! ### Adding settlements -/

namespace Ledger

variable {Token : Type}

/-- The settlements `ds` were added to `l`, in order. -/
structure Appends (l l' : Ledger Token) (now : ℕ) (ds : List Draft) : Prop where
  counter : l'.settlementCounter = l.settlementCounter + ds.length
  old : ∀ n, n ≤ l.settlementCounter → l'.settlement n = l.settlement n
  new : ∀ i d, ds[i]? = some d →
    l'.settlement (l.settlementCounter + 1 + i) = some (d.record (l.settlementCounter + 1 + i) now)
  beyond : ∀ n, l.settlementCounter + ds.length < n → l'.settlement n = l.settlement n
  inactive : (∀ id, l.activeSettlement id = none) → ∀ id, l'.activeSettlement id = none

theorem Appends.refl (l : Ledger Token) (now : ℕ) : l.Appends l now [] :=
  ⟨rfl, fun _ _ => rfl, (fun _ _ h => by cases h), fun _ _ => rfl, id⟩

theorem Idle.appends {l l' : Ledger Token} (h : l.Idle l') (now : ℕ) : l.Appends l' now [] :=
  ⟨h.counter_eq, fun _ _ => by rw [h.settlement_eq], (fun _ _ h => by cases h),
    fun _ _ => by rw [h.settlement_eq], h.inactive⟩

theorem le_nextSettlement (l : Ledger Token) : l.settlementCounter ≤ l.nextSettlement := by
  unfold nextSettlement checkedAddU64
  split
  · exact Nat.le_succ _
  · exact le_rfl

/-- Below the last `u64` the next number is the next number. -/
theorem nextSettlement_eq {l : Ledger Token} (h : l.nextSettlement < u64Max) :
    l.nextSettlement = l.settlementCounter + 1 := by
  have hle := l.le_nextSettlement
  unfold nextSettlement checkedAddU64
  rw [if_pos (by omega)]
  rfl

theorem le_settleAll (l : Ledger Token) (now : ℕ) (ds : List Draft) :
    l.settlementCounter ≤ (l.settleAll now ds).settlementCounter := by
  induction ds generalizing l with
  | nil => exact le_rfl
  | cons d ds ih => exact l.le_nextSettlement.trans (ih (l.settle now d))

theorem settleAll_appends (l : Ledger Token) (now : ℕ) (ds : List Draft)
    (h : (l.settleAll now ds).settlementCounter < u64Max) : l.Appends (l.settleAll now ds) now ds := by
  induction ds generalizing l with
  | nil => exact .refl l now
  | cons d ds ih =>
    have hrest := ih (l.settle now d) h
    have hnext : l.nextSettlement = l.settlementCounter + 1 :=
      nextSettlement_eq (lt_of_le_of_lt ((l.settle now d).le_settleAll now ds) h)
    have hcounter : (l.settle now d).settlementCounter = l.settlementCounter + 1 := hnext
    have hset : (l.settle now d).settlement = Function.update l.settlement (l.settlementCounter + 1)
        (some (d.record (l.settlementCounter + 1) now)) := by
      rw [settle_settlement, hnext]
    rw [settleAll_cons]
    refine ⟨?_, fun n hn => ?_, fun i e he => ?_, fun n hn => ?_, fun ha id => ?_⟩
    · rw [hrest.counter, hcounter, List.length_cons]
      omega
    · rw [hrest.old n (by omega), hset, Function.update_of_ne (by omega)]
    · cases i with
      | zero =>
        obtain rfl : d = e := Option.some.inj he
        rw [hrest.old _ (by omega), hset, Nat.add_zero, Function.update_self]
      | succ i =>
        have := hrest.new i e he
        rw [hcounter] at this
        rwa [show l.settlementCounter + 1 + (i + 1) = l.settlementCounter + 1 + 1 + i by omega]
    · rw [List.length_cons] at hn
      rw [hrest.beyond n (by omega), hset, Function.update_of_ne (by omega)]
    · refine hrest.inactive (fun j => ?_) id
      rw [settle_activeSettlement, Function.update_apply]
      split
      · rfl
      · exact ha j

end Ledger

/-! ### Settlements and transfers -/

/-- The transfers of a trace: from, to, amount. -/
def transfersOf (trace : List Effect) : List (Address × Address × ℤ) :=
  trace.filterMap fun
    | .transfer _ source target amount => some (source, target, amount)
    | _ => none

def SettlementRecord.triple (r : SettlementRecord) : Address × Address × ℤ :=
  (r.source, r.target, r.amount)

def Draft.triple (d : Draft) : Address × Address × ℤ := (d.source, d.target, d.amount)

def Payment.transfer? : Payment → Option (Address × Address × ℤ)
  | .moved _ source target amount => some (source, target, amount)
  | _ => none

/-- The transfer of a movement. -/
def Movement.transfer? (self : Address) : Movement → Option (Address × Address × ℤ)
  | settled _ recipient amount => some (self, recipient, amount)
  | bare _ recipient amount => some (self, recipient, amount)
  | deposit source amount => some (source, self, amount)
  | fee treasury amount => some (self, treasury, amount)
  | _ => none

theorem transfersOf_eq (trace : List Effect) :
    transfersOf trace = (paymentsOf trace).filterMap (·.transfer?) := by
  unfold transfersOf paymentsOf
  rw [List.filterMap_filterMap]
  refine List.filterMap_congr fun e _ => ?_
  cases e with
  | auth => rfl
  | transfer => rfl
  | event ev => cases ev <;> rfl

theorem transfer?_pays (self t : Address) (id : ℕ) (ms : List Movement) :
    (ms.flatMap (·.pays self t id)).filterMap (·.transfer?) = ms.filterMap (·.transfer? self) := by
  induction ms with
  | nil => rfl
  | cons m ms ih =>
    rw [List.flatMap_cons, List.filterMap_append, ih, List.filterMap_cons]
    cases m with
    | settled n => cases n <;> rfl
    | bare n => cases n <;> rfl
    | announced => rfl
    | milestone => rfl
    | deposit => rfl
    | fee => rfl

/-- The movements of a payout to the carrier are settled one by one. -/
theorem transfers_of_payouts {carrier self : Address} {id : ℕ} {ms : List Movement}
    (h : ∀ m ∈ ms, PayoutOf carrier m) :
    ms.filterMap (·.transfer? self) = (ms.filterMap (·.draft? self id)).map (·.triple) := by
  rw [List.map_filterMap]
  refine List.filterMap_congr fun m hm => ?_
  cases h m hm with
  | release => rfl
  | milestone => rfl

theorem drafts_payAll_bare (n : Notice) (a self : Address) (x : ℤ) (id : ℕ) :
    (payAll (.bare n) a x).filterMap (·.draft? self id) = [] := by
  unfold payAll
  split <;> rfl

theorem drafts_payAll_announced (a self : Address) (x : ℤ) (id : ℕ) :
    (payAll .announced a x).filterMap (·.draft? self id) = [] := by
  unfold payAll
  split <;> rfl

variable {env : Env} {w w' : World H} {call : Call} {p : Posting}

/-- A posting makes the transfer of a settlement as often as it makes such a
settlement. -/
theorem Rule.settles (hr : Rule env w call p) {self : Address} (hself : env.auth self = false)
    {d : Draft} (hd : d ∈ p.drafts self) :
    (p.moves.filterMap (·.transfer? self)).count d.triple =
      ((p.drafts self).map (·.triple)).count d.triple := by
  have payouts : ∀ ms : List Movement, (∀ m ∈ ms, PayoutOf p.old.carrier m) →
      (ms.filterMap (·.transfer? self)).count d.triple =
        ((ms.filterMap (·.draft? self p.old.id)).map (·.triple)).count d.triple := fun ms h => by
    rw [transfers_of_payouts h]
  unfold Posting.drafts at hd ⊢
  cases hr with
  | @confirmDelivery s => exact payouts _ fun m hm => s.payoutOf_payMoves hm
  | @confirmPartialDelivery s => exact payouts _ fun m hm => s.payoutOf_payMoves hm
  | @recordMilestone s => exact payouts _ fun m hm => s.payoutOf_milestoneMoves hm
  | @recordMilestonesBatch s items =>
    exact payouts _ (s.batchOf_payBatch env.timestamp (items.map (·.1))).moves
  | @releaseMilestonePayment _ s => exact payouts _ fun m hm => s.payoutOf_milestoneMoves hm
  | @releaseEscrow _ s => exact payouts _ fun m hm => s.payoutOf_payMoves hm
  | @depositEscrow source s amount _ ha =>
    have hne : source ≠ self := fun he => by rw [he, hself] at ha; cases ha
    unfold feeMoves at hd ⊢
    cases hconf : w.governance.feeConfig with
    | none => rfl
    | some c =>
      rw [hconf] at hd
      dsimp only at hd ⊢
      split
      · rename_i hpos
        rw [if_pos hpos] at hd
        obtain rfl := List.mem_singleton.mp hd
        -- the fee is paid from the contract, the deposit is not
        simp [Movement.transfer?, Movement.draft?, Draft.triple, hne]
      · rfl
  | refundEscrow => rfl
  | releaseToCarrier => rfl
  | refundToCompany => rfl
  | forceCancelShipment => rw [drafts_payAll_bare] at hd; cases hd
  | checkDeadline => rw [drafts_payAll_bare] at hd; cases hd
  | forceRelease => rw [drafts_payAll_bare] at hd; cases hd
  | forceRefund => rw [drafts_payAll_bare] at hd; cases hd
  | cancelShipment => rw [drafts_payAll_announced] at hd; cases hd
  | _ => cases hd

/-! ### One step -/

variable {b : Book H.Token}

theorem PostedBy.appends (hp : PostedBy env w call p b) (hlt : b.ledger.settlementCounter < u64Max) :
    w.ledger.Appends b.ledger env.timestamp (p.drafts H.currentContractAddress) := by
  obtain ⟨t, token, -, -, rfl⟩ := hp.posted
  have h := w.ledger.settleAll_appends env.timestamp (p.drafts H.currentContractAddress) hlt
  exact ⟨h.counter, h.old, h.new, h.beyond, h.inactive⟩

/-- The transfers of the trace are those of the posting. -/
theorem PostedBy.transfersOf_eq (hp : PostedBy env w.fresh call p w'.book) :
    transfersOf w'.trace = p.moves.filterMap (·.transfer? H.currentContractAddress) := by
  obtain ⟨t, token, -, -, hb⟩ := hp.posted
  have hpays : paymentsOf w'.trace = p.pays H.currentContractAddress t := congrArg Book.pays hb
  rw [Navin.transfersOf_eq, hpays, Posting.pays, transfer?_pays]

theorem Effects.counter_le (he : Effects env w call b) (hs : w.ledger.Sound) :
    w.ledger.settlementCounter ≤ b.ledger.settlementCounter := by
  rcases he.idle_or_posted hs with ⟨-, -, hidle⟩ | ⟨p, hp⟩
  · exact hidle.counter_eq.ge
  · obtain ⟨t, token, -, -, rfl⟩ := hp.posted
    exact w.ledger.le_settleAll _ _

/-- The effects a step leaves in its trace. -/
def Label.trace : Label → List Effect
  | .committed _ _ trace => trace
  | _ => []

variable {c c' : Chain H} {l : Label}

theorem Step.counter_le (hstep : Step c l c') (hs : c.world.ledger.Sound) :
    c.world.ledger.settlementCounter ≤ c'.world.ledger.settlementCounter := by
  cases hstep with
  | committed _ hx =>
    have hs : c.world.fresh.ledger.Sound := hs
    exact (exec_effects hs.keyed hx).counter_le hs
  | reverted => exact le_rfl
  | outside => exact le_rfl

/-- A step adds settlements, and makes the transfer of each as often as it adds
such a settlement. -/
theorem Step.appends (hstep : Step c l c') (hs : c.world.ledger.Sound)
    (hlt : c'.world.ledger.settlementCounter < u64Max) :
    ∃ now ds, c.world.ledger.Appends c'.world.ledger now ds ∧
      ∀ d ∈ ds, (transfersOf l.trace).count d.triple = (ds.map (·.triple)).count d.triple := by
  cases hstep with
  | @committed call env w' ha hx =>
    have hs : c.world.fresh.ledger.Sound := hs
    rcases (exec_effects hs.keyed hx).idle_or_posted hs with ⟨-, -, hidle⟩ | ⟨p, hp⟩
    · exact ⟨env.timestamp, [], hidle.appends _, by simp⟩
    · refine ⟨env.timestamp, _, hp.appends hlt, fun d hd => ?_⟩
      change (transfersOf w'.trace).count d.triple = _
      rw [hp.transfersOf_eq]
      exact hp.rule.settles ha.self hd
  | @reverted call env => exact ⟨env.timestamp, [], .refl _ _, by simp⟩
  | @outside token now => exact ⟨now, [], ⟨rfl, fun _ _ => rfl, (fun _ _ h => by cases h),
      fun _ _ => rfl, id⟩, by simp⟩

/-! ### Whole runs -/

/-- The settlements are numbered without gaps, and all of them are completed. -/
structure Ledger.Settled {Token : Type} (l : Ledger Token) : Prop where
  stored : ∀ n, (l.settlement n).isSome = true ↔ 1 ≤ n ∧ n ≤ l.settlementCounter
  completed : ∀ n r, l.settlement n = some r →
    r.settlementId = n ∧ r.state = .completed ∧ r.completedAt.isSome = true
  inactive : ∀ id, l.activeSettlement id = none

namespace Ledger

variable {Token : Type} {l l' : Ledger Token} {now : ℕ} {ds : List Draft}

/-- The record of a number that was given out. -/
theorem Appends.exists_draft (h : l.Appends l' now ds) {n : ℕ} (hn : l.settlementCounter < n)
    (hn' : n ≤ l'.settlementCounter) : ∃ d ∈ ds, l'.settlement n = some (d.record n now) := by
  have hc := h.counter
  have hi : n - l.settlementCounter - 1 < ds.length := by omega
  have hnew := h.new _ _ (List.getElem?_eq_getElem hi)
  rw [show l.settlementCounter + 1 + (n - l.settlementCounter - 1) = n by omega] at hnew
  exact ⟨_, List.getElem_mem hi, hnew⟩

theorem Appends.settled (h : l.Appends l' now ds) (hl : l.Settled) : l'.Settled := by
  have hc := h.counter
  refine ⟨fun n => ?_, fun n r hr => ?_, h.inactive hl.inactive⟩
  · by_cases hle : n ≤ l.settlementCounter
    · rw [h.old n hle, hl.stored n]
      omega
    · by_cases hle' : n ≤ l'.settlementCounter
      · obtain ⟨d, -, hd⟩ := h.exists_draft (by omega) hle'
        rw [hd]
        simp
        omega
      · rw [h.beyond n (by omega), hl.stored n]
        omega
  · by_cases hle : n ≤ l.settlementCounter
    · rw [h.old n hle] at hr
      exact hl.completed n r hr
    · by_cases hle' : n ≤ l'.settlementCounter
      · obtain ⟨d, -, hd⟩ := h.exists_draft (by omega) hle'
        rw [hd] at hr
        obtain rfl := Option.some.inj hr
        exact ⟨rfl, rfl, rfl⟩
      · rw [h.beyond n (by omega)] at hr
        exact hl.completed n r hr

/-- The new numbers carry the drafts in order. -/
theorem Appends.map_settlement {β : Type} (h : l.Appends l' now ds) (f : SettlementRecord → β)
    (g : Draft → β) (hfg : ∀ d n, f (d.record n now) = g d) :
    (List.range' (l.settlementCounter + 1) ds.length).map (fun n => (l'.settlement n).map f) =
      ds.map fun d => some (g d) := by
  refine List.ext_getElem (by simp) fun i hi hi' => ?_
  have hi : i < ds.length := by simpa using hi'
  rw [List.getElem_map, List.getElem_map, List.getElem_range', Nat.one_mul,
    h.new i _ (List.getElem?_eq_getElem hi), Option.map_some, hfg]

/-- So a settlement is found among them as often as among the drafts. -/
theorem Appends.countP_settlement (h : l.Appends l' now ds) (t : Address × Address × ℤ) :
    (List.range' (l.settlementCounter + 1) (l'.settlementCounter - l.settlementCounter)).countP
      (fun n => (l'.settlement n).map (·.triple) = some t) = (ds.map (·.triple)).count t := by
  have hc := h.counter
  rw [show l'.settlementCounter - l.settlementCounter = ds.length by omega, List.count,
    List.countP_map]
  have := congrArg (List.countP fun o => decide (o = some t))
    (h.map_settlement (·.triple) (·.triple) fun _ _ => rfl)
  rw [List.countP_map, List.countP_map] at this
  rw [show (fun n => decide ((l'.settlement n).map (·.triple) = some t)) =
    (fun o => decide (o = some t)) ∘ fun n => (l'.settlement n).map (·.triple) from rfl, this]
  refine List.countP_congr fun d _ => ?_
  simp

end Ledger

/-- Numbers are given out and never taken back. -/
theorem Run.counter_le {ls : List Label} (hr : Run Step c ls c') (hs : c.world.ledger.Sound) :
    c.world.ledger.settlementCounter ≤ c'.world.ledger.settlementCounter := by
  have key : c'.world.ledger.Sound ∧
      c.world.ledger.settlementCounter ≤ c'.world.ledger.settlementCounter :=
    hr.inv (I := fun x => x.world.ledger.Sound ∧
      c.world.ledger.settlementCounter ≤ x.world.ledger.settlementCounter) ⟨hs, le_rfl⟩
      fun _ _ _ ⟨hx, hle⟩ hstep => ⟨hstep.sound hx, hle.trans (hstep.counter_le hx)⟩
  exact key.2

/-- A settlement is not written again. -/
theorem Run.settlement_eq {ls : List Label} (hr : Run Step c ls c') (hs : c.world.ledger.Sound)
    (hlt : c'.world.ledger.settlementCounter < u64Max) {n : ℕ}
    (hn : n ≤ c.world.ledger.settlementCounter) :
    c'.world.ledger.settlement n = c.world.ledger.settlement n := by
  induction hr with
  | nil => rfl
  | snoc hr hstep ih =>
    -- the counter was below the bound before the last step as well
    have hsound := hr.inv hs fun _ _ _ h hs => hs.sound h
    have hle := hstep.counter_le hsound
    obtain ⟨now, ds, happ, -⟩ := hstep.appends hsound hlt
    rw [happ.old n (hn.trans (hr.counter_le hs)), ih (lt_of_le_of_lt hle hlt)]

theorem Deployed.settled (h : Deployed c) : c.world.ledger.Settled := by
  cases h with
  | mk =>
    refine ⟨fun n => ?_, fun n r hr => (by cases hr), fun _ => rfl⟩
    change false = true ↔ 1 ≤ n ∧ n ≤ 0
    simp
    omega

theorem Run.settled {ls : List Label} (hr : Run Step c ls c') (hd : Deployed c)
    (hlt : c'.world.ledger.settlementCounter < u64Max) : c'.world.ledger.Settled := by
  induction hr with
  | nil => exact hd.settled
  | snoc hr hstep ih =>
    have hsound := hr.sound hd
    obtain ⟨now, ds, happ, -⟩ := hstep.appends hsound hlt
    exact happ.settled (ih (lt_of_le_of_lt (hstep.counter_le hsound) hlt))

/-- In every state a run reaches, the stored settlements are numbered from 1 to the
counter, each is completed and has its time, and none is active; and the step that
made a settlement made the transfer it tells of, as many times as it made such
settlements. -/
theorem settlements_sound {ls : List Label} (hd : Deployed c) (hr : Run Step c ls c')
    (hlt : c'.world.ledger.settlementCounter < u64Max) :
    (∀ n, (c'.world.ledger.settlement n).isSome = true ↔
      1 ≤ n ∧ n ≤ c'.world.ledger.settlementCounter) ∧
    (∀ n r, c'.world.ledger.settlement n = some r →
      r.settlementId = n ∧ r.state = .completed ∧ r.completedAt.isSome = true) ∧
    (∀ id, c'.world.ledger.activeSettlement id = none) ∧
    ∀ n r, c'.world.ledger.settlement n = some r →
      ∃ ks l ks' a b, ls = ks ++ l :: ks' ∧ Run Step c ks a ∧ Step a l b ∧ Run Step b ks' c' ∧
        a.world.ledger.settlementCounter < n ∧ n ≤ b.world.ledger.settlementCounter ∧
        (transfersOf l.trace).count r.triple =
          (List.range' (a.world.ledger.settlementCounter + 1)
            (b.world.ledger.settlementCounter - a.world.ledger.settlementCounter)).countP
            fun m => (c'.world.ledger.settlement m).map (·.triple) = some r.triple := by
  have hsettled := hr.settled hd hlt
  refine ⟨hsettled.stored, hsettled.completed, hsettled.inactive, fun n r hn => ?_⟩
  obtain ⟨hpos, hle⟩ := (hsettled.stored n).mp (by rw [hn]; rfl)
  have h₀ : c.world.ledger.settlementCounter = 0 := by cases hd; rfl
  -- the step that gave out the number
  obtain ⟨ks, l, ks', a, b, rfl, hks, hstep, hks', ha, hb⟩ :=
    hr.exists_step (P := fun x => n ≤ x.world.ledger.settlementCounter) (by omega) hle
  have hsa := hks.sound hd
  have hsb := hstep.sound hsa
  have hltb := lt_of_le_of_lt (hks'.counter_le hsb) hlt
  obtain ⟨now, ds, happ, hds⟩ := hstep.appends hsa hltb
  obtain ⟨d, hd, hrec⟩ := happ.exists_draft (by omega) hb
  refine ⟨ks, l, ks', a, b, rfl, hks, hstep, hks', by omega, hb, ?_⟩
  -- what it stored is still there
  have hstill : ∀ m ≤ b.world.ledger.settlementCounter,
      c'.world.ledger.settlement m = b.world.ledger.settlement m :=
    fun m hm => hks'.settlement_eq hsb hlt hm
  have htriple : r.triple = d.triple := by
    rw [hstill n hb, hrec] at hn
    rw [← Option.some.inj hn]
    rfl
  rw [htriple, hds d hd, ← happ.countP_settlement]
  refine List.countP_congr fun m hm => ?_
  rw [List.mem_range'_1] at hm
  rw [hstill m (by have := hstep.counter_le hsa; omega)]

/-- A deposit and a milestone: the second settlement is the carrier's, and was
transferred once. -/
theorem settlements_sound_after_milestone : ∃ (ls : List Label) (c : Chain Deployment.host),
    Run Step Deployment.chain ls c ∧ c.world.ledger.settlementCounter = 2 ∧
    (c.world.ledger.settlement 2).map (·.triple) =
      some (Deployment.self, Deployment.carrier, 400) ∧
    ∃ l ∈ ls, (transfersOf l.trace).count (Deployment.self, Deployment.carrier, 400) = 1 := by
  obtain ⟨ls, c, hr, -, hcount, hfirst, hsecond⟩ := exists_play Deployment.chain
    (Deployment.opening ++ [
      Deployment.signed Deployment.company 5 (.depositEscrow Deployment.company 1 1000),
      Deployment.signed Deployment.carrier 6 (.updateStatus Deployment.carrier 1 .inTransit 2),
      Deployment.signed Deployment.carrier 7
        (.recordMilestone Deployment.carrier 1 Deployment.pickup 3)])
    (fun r => r.2.world.ledger.settlementCounter = 2 ∧
      (r.2.world.ledger.settlement 1).map (·.triple) =
        some (Deployment.company, Deployment.self, 1000) ∧
      (r.2.world.ledger.settlement 2).map (·.triple) =
        some (Deployment.self, Deployment.carrier, 400))
    (by decide +kernel)
  dsimp only at hcount hfirst hsecond
  obtain ⟨s, hs, htriple⟩ := Option.map_eq_some_iff.mp hsecond
  obtain ⟨-, -, -, hmade⟩ := settlements_sound Deployment.deployed hr (by rw [hcount]; decide)
  obtain ⟨ks, l, ks', a, b, rfl, hks, hstep, hks', ha, hb, htimes⟩ := hmade 2 s hs
  have hle := hks'.counter_le (hstep.sound (hks.sound Deployment.deployed))
  have hb : b.world.ledger.settlementCounter = 2 := by omega
  refine ⟨_, c, hr, hcount, hsecond, l, by simp, ?_⟩
  rw [← htriple, htimes, hb]
  -- whether or not it also made the first one, the first one is another
  have ha : a.world.ledger.settlementCounter = 0 ∨ a.world.ledger.settlementCounter = 1 := by omega
  rcases ha with ha | ha
  · rw [ha, htriple]
    simp only [List.range', List.countP_cons, List.countP_nil, hfirst, hsecond]
    decide
  · rw [ha, htriple]
    simp only [List.range', List.countP_cons, List.countP_nil, hsecond]
    decide

end Navin
