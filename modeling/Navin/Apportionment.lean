/-
# Payouts by recording

`record_milestone` pays a scheduled milestone its percentage of the deposit, rounded down,
and the one that completes the schedule all that is left. The recorded milestones stand in
the record in the order they came, so what they were paid depends on that order only in
who comes last: the milestones together are paid the deposit, to the unit. An empty
schedule has no last milestone, and nothing is paid by recording.

Key definitions:
- `recordings`: the checkpoints a run records for a shipment, with what their carriers get;
- `Steady`: steps that leave the account of the shipment alone, recordings apart;
- `Shipment.Paying`: the account after some recordings.

Key theorems:
- `Step.recorded`: a recording pays what its milestone is due;
- `Run.paying`;
- `recording_pays_exactly`.
-/
import Navin.Lib.Shares
import Navin.Checkpoints
import Navin.Stranding

namespace Navin

variable {H : Host} {env : Env} {w w' : World H} {call : Call} {p : Posting} {id : ℕ}

/-! ### What a trace pays -/

/-- What a trace pays to an address out of the contract. -/
def paidTo (self a : Address) (trace : List Effect) : ℤ :=
  total ((transfersOut self trace).filter fun o => o.1 = a)

namespace Shipment

variable (s : Shipment)

theorem paid_milestoneMoves (name : Symbol) (x : ℤ) :
    total (((s.milestoneMoves name x).filterMap (·.out?)).filter fun o => o.1 = s.carrier) =
      s.payable x := by
  show total (((s.payMoves x).filterMap (·.out?)).filter _) = _
  have hnn := s.payable_nonneg x
  unfold payMoves
  by_cases hpos : 0 < s.payable x
  · rw [if_pos hpos]
    simp [Movement.out?]
  · rw [if_neg hpos]
    show 0 = _
    omega

end Shipment

/-! ### Recordings -/

/-- The checkpoint that a label records for the shipment, and what its carrier gets. -/
def Label.recording? (self : Address) (id : ℕ) : Label → Option (Symbol × ℤ)
  | .committed (.recordMilestone carrier i name _) _ trace =>
    if i = id then some (name, paidTo self carrier trace) else none
  | _ => none

/-- The checkpoints that a run records for the shipment, in order. -/
def recordings (self : Address) (id : ℕ) (ls : List Label) : List (Symbol × ℤ) :=
  ls.filterMap (·.recording? self id)

/-- Those of them that are in the schedule. -/
def Shipment.scheduledOf (s : Shipment) (rs : List (Symbol × ℤ)) : List (Symbol × ℤ) :=
  rs.filter fun r => r.1 ∈ s.paymentMilestones.map (·.1)

/-- The escrow of a record, its deposit, and the milestones it has paid. -/
def Shipment.account (s : Shipment) : ℤ × ℤ × List Symbol :=
  (s.escrowAmount, s.totalEscrow, s.paidMilestones)

/-- A step that leaves the account of the shipment alone, unless it is a recording. -/
def Steady (id : ℕ) (c : Chain H) (l : Label) (c' : Chain H) : Prop :=
  Step c l c' ∧ (l.recording? H.currentContractAddress id = none →
    (c'.world.getShipment id).map (·.account) = (c.world.getShipment id).map (·.account))

variable {c c' : Chain H} {l : Label} {ls : List Label} {s : Shipment}

/-- A record keeps its schedule. -/
theorem Step.schedule_eq (hstep : Step c l c') (h : c.world.ledger.Sound)
    (hs : c.world.getShipment id = some s) :
    ∃ s', c'.world.getShipment id = some s' ∧ s'.paymentMilestones = s.paymentMilestones := by
  cases hstep with
  | @committed call env w' _ hx =>
    have hsound : c.world.fresh.ledger.Sound := h
    obtain ⟨s', hs', heq⟩ := (exec_effects hsound.keyed hx).record hsound hs
    refine ⟨s', hs', ?_⟩
    rcases heq with rfl | ⟨p, hp, rfl, rfl⟩
    · rfl
    · exact hp.rule.keeps.schedule_eq
  | reverted => exact ⟨s, hs, rfl⟩
  | outside => exact ⟨s, hs, rfl⟩

/-- A recording leaves the account as `recorded` says, and pays what it loses. -/
theorem Rule.recording {carrier : Address} {name : Symbol} {hash : BytesN32}
    (hr : Rule env w (.recordMilestone carrier id name hash) p) :
    p.old.id = id ∧ p.new.account = (p.old.recorded name env.timestamp).account ∧
    total ((p.moves.filterMap (·.out?)).filter fun o => o.1 = carrier) =
      p.old.escrowAmount - (p.old.recorded name env.timestamp).escrowAmount ∧
    ∀ m, p.old.findMilestone name = some m → name ∉ p.old.paidMilestones := by
  cases hr with
  | @recordOther s _ _ _ _ hm =>
    rw [Shipment.recorded_none hm, hm, sub_self]
    exact ⟨rfl, rfl, rfl, fun _ h => by cases h⟩
  | @recordMilestone s _ _ m x _ _ hm hnew hx =>
    rw [Shipment.recorded_some hm, ← hx]
    refine ⟨rfl, rfl, ?_, fun _ _ => hnew⟩
    rw [s.paid_milestoneMoves]
    show s.payable x = s.escrowAmount - (s.escrowAmount - s.payable x)
    omega
  | forceRelease he => cases he
  | forceRefund he => cases he

theorem Step.recorded {carrier : Address} {name : Symbol} {hash : BytesN32} {trace : List Effect}
    (hstep : Step c (.committed (.recordMilestone carrier id name hash) env trace) c')
    (h : c.world.ledger.Sound) (hs : c.world.getShipment id = some s) :
    (∃ s', c'.world.getShipment id = some s' ∧
      s'.account = (s.recorded name env.timestamp).account) ∧
    paidTo H.currentContractAddress carrier trace =
      s.escrowAmount - (s.recorded name env.timestamp).escrowAmount ∧
    ∀ m, s.findMilestone name = some m → name ∉ s.paidMilestones := by
  cases hstep with
  | @committed _ _ w' ha hx =>
    have hsound : c.world.fresh.ledger.Sound := h
    obtain ⟨p, hp⟩ := (exec_effects hsound.keyed hx).exists_posting rfl
    obtain ⟨hid, haccount, hpays, hunpaid⟩ := hp.rule.recording
    obtain rfl : p.old = s := by
      have hstored := hp.stored
      rw [hid] at hstored
      exact Option.some.inj (hstored.symm.trans hs)
    refine ⟨⟨p.new, ?_, haccount⟩, ?_, hunpaid⟩
    · rw [← hid]
      exact hp.stored_new
    · unfold paidTo
      rw [hp.transfersOut_eq ha.2 (hp.bounds hsound).1]
      exact hpays

/-! ### The account after some recordings -/

/-- The scheduled milestones `done` were recorded, in order, and paid for as `rs` says;
recording anything else paid nothing. -/
structure Shipment.Paying (s : Shipment) (done : List (Symbol × ℕ)) (rs : List (Symbol × ℤ)) : Prop where
  entries : ∀ m ∈ done, m ∈ s.paymentMilestones
  paid_eq : s.paidMilestones = done.map (·.1)
  share_eq : scheduledShare s.paymentMilestones s.paidMilestones = parts done
  apportioned : Apportioned s.totalEscrow 100 done (s.scheduledOf rs) s.escrowAmount
  total_eq : total rs = total (s.scheduledOf rs)

namespace Shipment.Paying

variable {s t : Shipment} {done : List (Symbol × ℕ)} {rs : List (Symbol × ℤ)} {name : Symbol}

/-- It depends on the account and the schedule only. -/
theorem congr (h : s.Paying done rs) (ha : t.account = s.account)
    (hL : t.paymentMilestones = s.paymentMilestones) : t.Paying done rs := by
  have he : t.escrowAmount = s.escrowAmount := congrArg (·.1) ha
  have ht : t.totalEscrow = s.totalEscrow := congrArg (·.2.1) ha
  have hp : t.paidMilestones = s.paidMilestones := congrArg (·.2.2) ha
  have hrs : t.scheduledOf rs = s.scheduledOf rs := by
    unfold scheduledOf
    rw [hL]
  refine ⟨?_, ?_, ?_, ?_, ?_⟩
  · rw [hL]
    exact h.entries
  · rw [hp]
    exact h.paid_eq
  · rw [hL, hp]
    exact h.share_eq
  · rw [ht, he, hrs]
    exact h.apportioned
  · rw [hrs]
    exact h.total_eq

theorem scheduledOf_snoc (s : Shipment) (rs : List (Symbol × ℤ)) (r : Symbol × ℤ) :
    s.scheduledOf (rs ++ [r]) =
      s.scheduledOf rs ++ if r.1 ∈ s.paymentMilestones.map (·.1) then [r] else [] := by
  unfold scheduledOf
  rw [List.filter_append]
  by_cases hr : r.1 ∈ s.paymentMilestones.map (·.1)
  · rw [if_pos hr, List.filter_cons_of_pos (by simpa using hr), List.filter_nil]
  · rw [if_neg hr, List.filter_cons_of_neg (by simpa using hr), List.filter_nil]

/-- One more recording. -/
theorem recorded (h : s.Paying done rs) (hr : s.Regular) (now : ℕ)
    (hnew : ∀ m, s.findMilestone name = some m → name ∉ s.paidMilestones) :
    ∃ done', (s.recorded name now).Paying done'
      (rs ++ [(name, s.escrowAmount - (s.recorded name now).escrowAmount)]) := by
  cases hm : s.findMilestone name with
  | none =>
    have hother : name ∉ s.paymentMilestones.map (·.1) := Shipment.findMilestone_eq_none.mp hm
    rw [recorded_none hm, sub_self]
    have hrs : s.scheduledOf (rs ++ [(name, 0)]) = s.scheduledOf rs := by
      rw [scheduledOf_snoc, if_neg hother, List.append_nil]
    refine ⟨done, h.entries, h.paid_eq, h.share_eq, hrs ▸ h.apportioned, ?_⟩
    rw [hrs, total_append, total_singleton, add_zero, h.total_eq]
  | some m =>
    obtain ⟨hin, rfl⟩ := mem_of_findMilestone hm
    have hunpaid := hnew m hm
    have hsnoc := hr.scheduled.scheduledShare_snoc hin hunpaid
    have hle : scheduledShare s.paymentMilestones (s.paidMilestones ++ [m.1]) ≤ 100 :=
      hr.scheduled.scheduledShare_le
    rw [hsnoc, h.share_eq] at hle
    have hT : 0 ≤ s.totalEscrow := hr.escrow_nonneg.trans hr.escrow_le_total
    have hpaid : (s.recorded m.1 now).paidMilestones = s.paidMilestones ++ [m.1] :=
      recorded_paidMilestones hm hunpaid
    have hshare : s.share m.2 = s.totalEscrow * m.2 / 100 :=
      Int.tdiv_eq_ediv_of_nonneg (Int.mul_nonneg hT (Int.natCast_nonneg m.2))
    -- what the recording pays
    have hx : s.escrowAmount - (s.recorded m.1 now).escrowAmount =
        max 0 (min (if parts done + m.2 = 100 then s.escrowAmount else s.totalEscrow * m.2 / 100)
          s.escrowAmount) := by
      rw [recorded_some hm]
      unfold milestoneDue
      rw [hsnoc, h.share_eq, hshare]
      show s.escrowAmount - (s.escrowAmount - s.payable _) = _
      rw [sub_sub_cancel]
      rfl
    have hpay := h.apportioned.pay hT (by decide) (hr.scheduled.share_pos hin) hle hx
    rw [sub_sub_cancel] at hpay
    have hrs : (s.recorded m.1 now).scheduledOf (rs ++ [(m.1, s.escrowAmount -
        (s.recorded m.1 now).escrowAmount)]) = s.scheduledOf rs ++ [(m.1, s.escrowAmount -
        (s.recorded m.1 now).escrowAmount)] := by
      have hsame : ∀ qs, (s.recorded m.1 now).scheduledOf qs = s.scheduledOf qs := fun qs => by
        unfold scheduledOf
        rw [recorded_paymentMilestones]
      rw [hsame, scheduledOf_snoc, if_pos (List.mem_map_of_mem hin)]
    refine ⟨done ++ [m], ?_, ?_, ?_, ?_, ?_⟩
    · rw [recorded_paymentMilestones]
      intro a ha
      rcases List.mem_append.mp ha with ha | ha
      · exact h.entries a ha
      · exact List.mem_singleton.mp ha ▸ hin
    · rw [hpaid, h.paid_eq, List.map_append]
      rfl
    · rw [recorded_paymentMilestones, hpaid, hsnoc, h.share_eq, parts_append, parts_singleton]
    · rw [recorded_totalEscrow, hrs]
      exact hpay
    · rw [hrs, total_append, total_append, h.total_eq]

end Shipment.Paying

/-! ### A run -/

theorem Reachable.regular (hc : Reachable c) (hs : c.world.getShipment id = some s) : s.Regular :=
  ⟨hc.tidy.scheduled id s hs, hc.sound.escrow_nonneg id s hs, hc.sound.escrow_le_total id s hs⟩

theorem recordings_snoc (self : Address) (id : ℕ) (ls : List Label) (l : Label) :
    recordings self id (ls ++ [l]) = recordings self id ls ++ (l.recording? self id).toList := by
  unfold recordings
  rw [List.filterMap_append]
  cases hl : l.recording? self id with
  | none => simp [hl]
  | some r => simp [hl]

/-- A steady step. -/
theorem Steady.paying {rs : List (Symbol × ℤ)} {done : List (Symbol × ℕ)} (h : Steady id c l c')
    (hc : Reachable c) (hs : c.world.getShipment id = some s) (hp : s.Paying done rs) :
    ∃ s' done', c'.world.getShipment id = some s' ∧ s'.paymentMilestones = s.paymentMilestones ∧
      s'.totalEscrow = s.totalEscrow ∧
      s'.Paying done' (rs ++ (l.recording? H.currentContractAddress id).toList) := by
  obtain ⟨hstep, hother⟩ := h
  obtain ⟨s', hs', hL⟩ := hstep.schedule_eq hc.sound hs
  cases hl : l.recording? H.currentContractAddress id with
  | none =>
    have ha := hother hl
    rw [hs, hs'] at ha
    have ha : s'.account = s.account := Option.some.inj ha
    refine ⟨s', done, hs', hL, congrArg (·.2.1) ha, ?_⟩
    rw [Option.toList_none, List.append_nil]
    exact hp.congr ha hL
  | some r =>
    rw [Option.toList_some]
    unfold Label.recording? at hl
    split at hl
    · rename_i carrier i name hash env trace
      split at hl
      · rename_i hi
        subst hi
        cases hl
        obtain ⟨⟨t, ht, ha⟩, hpays, hunpaid⟩ := hstep.recorded hc.sound hs
        obtain rfl : s' = t := Option.some.inj (hs'.symm.trans ht)
        obtain ⟨done', hp'⟩ := hp.recorded (hc.regular hs) env.timestamp hunpaid
        refine ⟨s', done', hs', hL, ?_, ?_⟩
        · exact (congrArg (·.2.1) ha).trans Shipment.recorded_totalEscrow
        · rw [hpays]
          exact hp'.congr ha (hL.trans Shipment.recorded_paymentMilestones.symm)
      · cases hl
    · cases hl

/-- The account after a steady run. -/
theorem Run.paying (hr : Run (Steady id) c ls c') (hc : Reachable c)
    (hs : c.world.getShipment id = some s) (hpaid : s.paidMilestones = [])
    (hfull : s.escrowAmount = s.totalEscrow) :
    Reachable c' ∧ ∃ s' done, c'.world.getShipment id = some s' ∧
      s'.paymentMilestones = s.paymentMilestones ∧ s'.totalEscrow = s.totalEscrow ∧
      s'.Paying done (recordings H.currentContractAddress id ls) := by
  refine hr.inv_hist (I := fun ls c' => Reachable c' ∧ ∃ s' done, c'.world.getShipment id = some s' ∧
    s'.paymentMilestones = s.paymentMilestones ∧ s'.totalEscrow = s.totalEscrow ∧
      s'.Paying done (recordings H.currentContractAddress id ls)) ?_ ?_
  · refine ⟨hc, s, [], hs, rfl, rfl, by simp, hpaid, ?_, ?_, rfl⟩
    · rw [hpaid]
      simp [scheduledShare, parts]
    · rw [hfull]
      exact .nil (by decide)
  · rintro ls a l b - ⟨ha, t, done, ht, hL, hT, hp⟩ hstep
    obtain ⟨t', done', ht', hL', hT', hp'⟩ := hstep.paying ha ht hp
    refine ⟨ha.step hstep.1, t', done', ht', hL'.trans hL, hT'.trans hT, ?_⟩
    rw [recordings_snoc]
    exact hp'

/-! ### The payouts -/

/-- Entries of a schedule are told apart by their names. -/
theorem Scheduled.eq_of_names {L xs ys : List (Symbol × ℕ)} (hL : Scheduled L)
    (hxs : ∀ m ∈ xs, m ∈ L) (hys : ∀ m ∈ ys, m ∈ L) (h : xs.map (·.1) = ys.map (·.1)) : xs = ys := by
  have hinj := List.inj_on_of_nodup_map hL.nodup_names
  induction xs generalizing ys with
  | nil => simpa using h.symm
  | cons x xs ih =>
    cases ys with
    | nil => cases h
    | cons y ys =>
      obtain ⟨hxy, hrest⟩ := List.cons.inj h
      rw [hinj (hxs x List.mem_cons_self) (hys y List.mem_cons_self) hxy,
        ih (fun m hm => hxs m (List.mem_cons_of_mem _ hm))
          (fun m hm => hys m (List.mem_cons_of_mem _ hm)) hrest]

/-- When a run that changes the account of a shipment by recording only, from a state in
which nothing is paid yet, has recorded all milestones of its schedule, in whatever order,
each of them but the last was paid its percentage of the deposit, rounded down, and the
last one what was left; with all other checkpoints they were paid the deposit, and the
escrow is empty. -/
theorem recording_pays_exactly (hc : Reachable c) (hs : c.world.getShipment id = some s)
    (hpaid : s.paidMilestones = []) (hfull : s.escrowAmount = s.totalEscrow)
    {init : List (Symbol × ℕ)} {last : Symbol × ℕ} (hperm : (init ++ [last]).Perm s.paymentMilestones)
    (hr : Run (Steady id) c ls c')
    (hall : (s.scheduledOf (recordings H.currentContractAddress id ls)).map (·.1) =
      (init ++ [last]).map (·.1)) :
    s.scheduledOf (recordings H.currentContractAddress id ls) =
      init.map (fun m => (m.1, s.totalEscrow * m.2 / 100)) ++
        [(last.1, s.totalEscrow - (init.map fun m => s.totalEscrow * m.2 / 100).sum)] ∧
    ((recordings H.currentContractAddress id ls).map (·.2)).sum = s.totalEscrow ∧
    ∃ s', c'.world.getShipment id = some s' ∧ s'.escrowAmount = 0 := by
  obtain ⟨-, s', done, hs', hL, hT, hp⟩ := hr.paying hc hs hpaid hfull
  have hsame : s'.scheduledOf (recordings H.currentContractAddress id ls) =
      s.scheduledOf (recordings H.currentContractAddress id ls) := by
    unfold Shipment.scheduledOf
    rw [hL]
  have happ := hp.apportioned
  rw [hsame, hT] at happ
  have hscheduled := (hc.regular hs).scheduled
  obtain rfl : done = init ++ [last] := by
    refine hscheduled.eq_of_names (hL ▸ hp.entries) (fun m hm => hperm.mem_iff.mp hm) ?_
    rw [← happ.names]
    exact hall
  have hparts : parts (init ++ [last]) = 100 := by
    rcases hscheduled with hnil | ⟨-, -, hsum⟩
    · rw [hnil] at hperm
      exact absurd hperm.eq_nil (by simp)
    · rw [← hsum]
      exact (hperm.map (·.2)).sum_eq
  obtain ⟨hpays, htotal, hzero⟩ := happ.exact hparts
  have hinit : total (shares s.totalEscrow 100 init) =
      (init.map fun m => s.totalEscrow * m.2 / 100).sum := total_shares ..
  refine ⟨?_, ?_, s', hs', hzero⟩
  · rw [← hinit]
    exact hpays
  · have hall := hp.total_eq
    rw [hsame, htotal] at hall
    exact hall

theorem Run.steady (hr : Run Step c ls c')
    (hls : ∀ l ∈ ls, l.recording? H.currentContractAddress id ≠ none) : Run (Steady id) c ls c' := by
  induction hr with
  | nil => exact .nil
  | @snoc ls l a b _ hl ih =>
    exact .snoc (ih fun k hk => hls k (by simp [hk])) ⟨hl, fun hn => absurd hn (hls l (by simp))⟩

/-- Of a deposit of 1001, 60 percent are paid first and what is left of it second, with
another checkpoint in between. -/
theorem recording_pays_exactly_reversed : ∃ (c c' : Chain Deployment.host) (ls : List Label),
    Reachable c ∧ Run (Steady 1) c ls c' ∧
      (recordings Deployment.self 1 ls).map (·.2) = [600, 0, 401] ∧
      ∃ s', c'.world.getShipment 1 = some s' ∧ s'.escrowAmount = 0 := by
  let dock : Symbol := ⟨[100, 111, 99, 107], by decide, by decide⟩
  obtain ⟨ks, c, ls, c', hr, hls, -, hsome, hopen, hrecs, hnone⟩ := exists_play₂ Deployment.chain
    (Deployment.opening ++ [
      Deployment.signed Deployment.company 5 (.depositEscrow Deployment.company 1 1001),
      Deployment.signed Deployment.carrier 6 (.updateStatus Deployment.carrier 1 .inTransit 2)])
    [Deployment.signed Deployment.carrier 7 (.recordMilestone Deployment.carrier 1 Deployment.port 3),
      Deployment.signed Deployment.carrier 8 (.recordMilestone Deployment.carrier 1 dock 4),
      Deployment.signed Deployment.carrier 9
        (.recordMilestone Deployment.carrier 1 Deployment.pickup 5)]
    (fun a r => (a.world.getShipment 1).isSome = true ∧
      (a.world.getShipment 1).all (fun s => s.paidMilestones = [] ∧ s.escrowAmount = s.totalEscrow ∧
        s.paymentMilestones = [(Deployment.pickup, 40), (Deployment.port, 60)]) = true ∧
      recordings Deployment.self 1 r.1 = [(Deployment.port, 600), (dock, 0), (Deployment.pickup, 401)] ∧
      ∀ l ∈ r.1, l.recording? Deployment.self 1 ≠ none)
    (by decide +kernel)
  obtain ⟨s, hs⟩ := Option.isSome_iff_exists.mp hsome
  rw [hs] at hopen
  obtain ⟨hpaid, hfull, hL⟩ := of_decide_eq_true hopen
  have hc : Reachable c := ⟨_, ks, Deployment.deployed, hr⟩
  have hsteady : Run (Steady 1) c ls c' := hls.steady hnone
  have hperm : ([(Deployment.port, 60)] ++ [(Deployment.pickup, 40)]).Perm s.paymentMilestones :=
    hL ▸ List.Perm.swap _ _ _
  have hall : (s.scheduledOf (recordings Deployment.self 1 ls)).map (·.1) =
      ([(Deployment.port, 60)] ++ [(Deployment.pickup, 40)] : List (Symbol × ℕ)).map (·.1) := by
    unfold Shipment.scheduledOf
    rw [hrecs, hL]
    decide
  obtain ⟨-, -, hempty⟩ := recording_pays_exactly hc hs hpaid hfull hperm hsteady hall
  refine ⟨c, c', ls, hc, hsteady, ?_, hempty⟩
  rw [hrecs]
  rfl

/-- With an empty schedule all of its milestones are recorded when none is, and the
deposit is not paid. -/
theorem recording_pays_nothing_unscheduled : ¬∀ (c c' : Chain Deployment.host) (ls : List Label)
    (id : ℕ) (s : Shipment) (ms : List (Symbol × ℕ)), Reachable c →
      c.world.getShipment id = some s → s.status = .inTransit → s.paidMilestones = [] →
      s.escrowAmount = s.totalEscrow → ms.Perm s.paymentMilestones → Run (Steady id) c ls c' →
      (s.scheduledOf (recordings Deployment.self id ls)).map (·.1) = ms.map (·.1) →
      ((recordings Deployment.self id ls).map (·.2)).sum = s.totalEscrow := by
  intro hall
  let plain : ShipmentInput := ⟨Deployment.receiver, Deployment.carrier, 1, [], 10000⟩
  obtain ⟨ks, c, hr, -, hsome, hopen⟩ := exists_play Deployment.chain [
      Deployment.signed Deployment.admin 1
        (.initializeContract Deployment.admin Deployment.tokenContract),
      Deployment.signed Deployment.admin 2 (.addCompany Deployment.admin Deployment.company),
      Deployment.signed Deployment.admin 3 (.addCarrier Deployment.admin Deployment.carrier),
      Deployment.signed Deployment.company 4 (.createShipment Deployment.company plain),
      Deployment.signed Deployment.company 5 (.depositEscrow Deployment.company 1 1000),
      Deployment.signed Deployment.carrier 6 (.updateStatus Deployment.carrier 1 .inTransit 2)]
    (fun r => (r.2.world.getShipment 1).isSome = true ∧ (r.2.world.getShipment 1).all (fun s =>
      s.status = .inTransit ∧ s.paidMilestones = [] ∧ s.escrowAmount = s.totalEscrow ∧
        s.paymentMilestones = [] ∧ s.totalEscrow = 1000) = true)
    (by decide +kernel)
  obtain ⟨s, hs⟩ := Option.isSome_iff_exists.mp hsome
  rw [hs] at hopen
  obtain ⟨hstatus, hpaid, hfull, hL, hT⟩ := of_decide_eq_true hopen
  have hsum := hall c c [] 1 s [] ⟨_, ks, Deployment.deployed, hr⟩ hs hstatus hpaid hfull
    (hL ▸ .nil) .nil rfl
  rw [hT] at hsum
  exact absurd hsum (by decide)

end Navin
