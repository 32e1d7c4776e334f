/-
# Milestones in the order of the schedule

A release is let through when at least as many milestones are completed as stand before
it in the schedule. The completed ones are the first of the schedule as long as only
releases complete them. The two recordings complete any milestone, and after one out of
order the count stands for others than those before the milestone that is released.

Key definitions:
- `Call.marks`: the milestones a call completes, if it completes any;
- `Label.Sequential`: what a recording completes comes next in the schedule.

Key theorems:
- `Rule.announced_cases`: what a posting announces;
- `prefix_snoc_of_findIdx`: the count finds the next milestone;
- `release_sequential`.
-/
import Navin.Milestones
import Navin.Stranding

namespace Navin

variable {H : Host} {env : Env} {w w' : World H} {call : Call} {p : Posting} {id : ℕ}

/-! ### What a call completes -/

/-- The names that are in the schedule and not done, each once and in order. -/
def newlyDone (schedule done : List Symbol) : List Symbol → List Symbol
  | [] => []
  | name :: names =>
    if name ∈ schedule ∧ name ∉ done then name :: newlyDone schedule (done ++ [name]) names
    else newlyDone schedule done names

namespace Shipment

variable (s : Shipment)

/-- The names of the schedule. -/
def scheduleNames : List Symbol := s.paymentMilestones.map (·.1)

/-- The milestones that a recording of the names completes. -/
def recordable (names : List Symbol) : List Symbol :=
  newlyDone s.scheduleNames s.paidMilestones names

/-- They come next in the schedule. -/
def Continues (names : List Symbol) : Prop :=
  s.milestonesCompleted ++ s.recordable names <+: s.scheduleNames

instance (names : List Symbol) : Decidable (s.Continues names) := inferInstanceAs (Decidable (_ <+: _))

end Shipment

/-- The names a call records. -/
def Call.recorded : Call → List Symbol
  | .recordMilestone _ _ name _ => [name]
  | .recordMilestonesBatch _ _ items => items.map (·.1)
  | _ => []

theorem Call.recorded_eq_nil (call : Call) (h : call.target? = none) : call.recorded = [] := by
  cases call <;> first | rfl | cases h

/-- The milestones a call completes, if it completes any. -/
def Call.marks (s : Shipment) : Call → List Symbol
  | .releaseMilestonePayment _ _ name => [name]
  | call => s.recordable call.recorded

theorem Call.marks_eq (call : Call) (s : Shipment) :
    (∃ caller id name, call = .releaseMilestonePayment caller id name) ∨
      call.marks s = s.recordable call.recorded := by
  cases call with
  | releaseMilestonePayment caller id name => exact .inl ⟨caller, id, name, rfl⟩
  | _ => exact .inr rfl

theorem announced_payBatch (now : ℕ) (s : Shipment) (names : List Symbol) :
    announced (s.payBatch now names).2 = s.recordable names := by
  induction names generalizing s with
  | nil => rfl
  | cons name names ih =>
    rw [Shipment.payBatch]
    unfold Shipment.recordable
    rw [newlyDone]
    cases hm : s.findMilestone name with
    | none =>
      have hno : name ∉ s.scheduleNames := fun hn => by
        obtain ⟨m, hin, he⟩ := List.mem_map.mp hn
        have hnone := List.find?_eq_none.mp hm m hin
        simp [he] at hnone
      rw [if_neg fun h => hno h.1]
      exact ih s
    | some m =>
      have hin : name ∈ s.scheduleNames := s.mem_schedule hm
      dsimp only
      by_cases hpaid : name ∈ s.paidMilestones
      · rw [if_pos hpaid, if_neg fun h => h.2 hpaid]
        exact ih s
      · rw [if_neg hpaid, if_pos ⟨hin, hpaid⟩, announced_append, announced_milestoneMoves, ih]
        show name :: newlyDone s.scheduleNames (if name ∈ s.paidMilestones then s.paidMilestones
          else s.paidMilestones ++ [name]) names = _
        rw [if_neg hpaid]

/-- A posting announces what its call completes, or nothing. -/
theorem Rule.announced_cases (hr : Rule env w call p) :
    announced p.moves = [] ∨ announced p.moves = call.marks p.old := by
  cases hr with
  | confirmDelivery => exact .inl (announced_payMoves ..)
  | confirmPartialDelivery => exact .inl (announced_payMoves ..)
  | releaseEscrow => exact .inl (announced_payMoves ..)
  | @recordMilestone s name _ m x _ _ hm hnew =>
    right
    have hin : name ∈ s.scheduleNames := s.mem_schedule hm
    rw [announced_milestoneMoves]
    show [name] = if name ∈ s.scheduleNames ∧ name ∉ s.paidMilestones then [name] else []
    rw [if_pos ⟨hin, hnew⟩]
  | @recordMilestonesBatch s items => exact .inr (announced_payBatch ..)
  | releaseMilestonePayment => exact .inr (announced_milestoneMoves ..)
  | depositEscrow => exact .inl (announced_feeMoves ..)
  | cancelShipment => exact .inl (announced_payAll (fun _ _ => rfl) ..)
  | forceCancelShipment => exact .inl (announced_payAll (fun _ _ => rfl) ..)
  | checkDeadline => exact .inl (announced_payAll (fun _ _ => rfl) ..)
  | forceRelease => exact .inl (announced_payAll (fun _ _ => rfl) ..)
  | forceRefund => exact .inl (announced_payAll (fun _ _ => rfl) ..)
  | _ => exact .inl rfl

/-! ### The count and the place in the schedule -/

section

variable {α : Type} [DecidableEq α] {l L : List α} {x : α}

/-- What stands no later than the length of a prefix, and not in it, comes next. -/
theorem prefix_snoc_of_findIdx (h : l <+: L) (hx : x ∈ L) (hnew : x ∉ l)
    (hidx : L.findIdx (· = x) ≤ l.length) : l ++ [x] <+: L := by
  obtain ⟨rest, rfl⟩ := h
  have hno : ¬l.findIdx (· = x) < l.length := fun hlt => by
    obtain ⟨y, hy, he⟩ := List.findIdx_lt_length.mp hlt
    exact hnew (of_decide_eq_true he ▸ hy)
  rw [List.findIdx_append, if_neg hno] at hidx
  cases rest with
  | nil => exact absurd ((List.append_nil l) ▸ hx) hnew
  | cons y rest =>
    by_cases hy : y = x
    · exact ⟨rest, by rw [hy, List.append_assoc]; rfl⟩
    · rw [List.findIdx_cons, decide_eq_false hy, cond_false] at hidx
      omega

end

/-- A milestone that is released comes next in the schedule. -/
theorem Shipment.prefix_release {s : Shipment} {name : Symbol}
    (h : s.milestonesCompleted <+: s.scheduleNames) (hx : name ∈ s.scheduleNames)
    (hnew : name ∉ s.milestonesCompleted) (hidx : s.indexOf name ≤ s.milestonesCompleted.length) :
    s.milestonesCompleted ++ [name] <+: s.scheduleNames := by
  refine prefix_snoc_of_findIdx h hx hnew ?_
  show (s.paymentMilestones.map (·.1)).findIdx (· = name) ≤ _
  rw [List.findIdx_map]
  exact hidx

/-! ### Runs -/

/-- What the call of the label records comes next in the schedule. -/
def Label.Sequential (c : Chain H) : Label → Prop
  | .committed call _ _ => call.recorded ≠ [] →
    ∀ id ∈ call.target?, ∀ s ∈ c.world.getShipment id, s.Continues call.recorded
  | _ => True

instance (c : Chain H) : ∀ l : Label, Decidable (l.Sequential c)
  | .committed call _ _ => inferInstanceAs (Decidable (call.recorded ≠ [] →
    ∀ id ∈ call.target?, ∀ s ∈ c.world.getShipment id, s.Continues call.recorded))
  | .reverted _ _ => isTrue trivial
  | .outside => isTrue trivial

/-- The completed milestones of every record are the first of its schedule. -/
def World.Sequential (w : World H) : Prop :=
  ∀ id s, w.getShipment id = some s → s.milestonesCompleted <+: s.scheduleNames

variable {c c' c₀ : Chain H} {l : Label} {ls : List Label} {s : Shipment}

theorem Reachable.listed (hc : Reachable c) (hs : c.world.getShipment id = some s) : s.Listed := by
  obtain ⟨c₀, ls, hd, hr⟩ := hc
  exact (Run.announces hd hr).listed id s hs

/-- What a posting announces comes next in the schedule. -/
theorem Step.announced_prefix {trace : List Effect}
    (hstep : Step c (.committed call env trace) c')
    (hl : (Label.committed call env trace).Sequential c) (hs : c.world.getShipment p.old.id = some p.old)
    (hr : Rule env c.world.fresh call p) (hold : p.old.milestonesCompleted <+: p.old.scheduleNames)
    (hm : p.old.Marked p.new (announced p.moves)) :
    p.old.milestonesCompleted ++ announced p.moves <+: p.old.scheduleNames := by
  by_cases hnil : announced p.moves = []
  · rw [hnil, List.append_nil]
    exact hold
  have hmarks := hr.announced_cases.resolve_left hnil
  rcases call.marks_eq p.old with ⟨caller, id, name, rfl⟩ | hrec
  · have hid : p.old.id = id := hr.concerns.eq_of_target rfl
    obtain ⟨hnew, hidx⟩ := hstep.release_new (hid ▸ hs)
    rw [hmarks] at hm ⊢
    exact Shipment.prefix_release hold (hm.scheduled name (List.mem_singleton.mpr rfl)) hnew hidx
  · have hcall : call.recorded ≠ [] := fun he => by
      rw [hmarks, hrec, he] at hnil
      exact hnil rfl
    rw [hmarks, hrec]
    rcases hr.concerns with ht | hx | hx
    · exact hl hcall _ ht _ hs
    · exact absurd (call.recorded_eq_nil (target?_of_executing hx)) hcall
    · exact absurd (call.recorded_eq_nil (target?_of_executing hx)) hcall

theorem Step.sequential (hstep : Step c l c') (hc : Reachable c) (hl : l.Sequential c)
    (h : c.world.Sequential) : c'.world.Sequential := by
  have hmarked : ∀ call env trace (p : Posting), l = .committed call env trace →
      c.world.getShipment p.old.id = some p.old → Rule env c.world.fresh call p →
      p.old.Marked p.new (announced p.moves) := by
    rintro call env trace p rfl hs hr
    refine hr.marked (hc.listed hs) ?_
    rintro caller name rfl
    exact (hstep.release_new hs).1
  cases id hstep with
  | @committed call env w' _ hx =>
    have hsound : c.world.fresh.ledger.Sound := hc.sound
    intro id s hs
    rcases (exec_effects hsound.keyed hx).kept_or_posted hsound with ⟨-, hrec⟩ | ⟨p, hp⟩
    · rcases hrec id with heq | ⟨-, sender, input, hnew⟩
      · exact h id s (heq.symm.trans hs)
      · obtain rfl := Option.some.inj (hnew.symm.trans hs)
        exact List.nil_prefix
    · have hm := hmarked call env w'.trace p rfl hp.stored hp.rule
      have hs : w'.book.ledger.getShipment id = some s := hs
      rw [hp.getShipment] at hs
      split at hs
      · obtain rfl := Option.some.inj hs
        have hnext := hstep.announced_prefix hl hp.stored hp.rule (h _ _ hp.stored) hm
        unfold Shipment.scheduleNames
        rw [hm.completed, hm.schedule]
        exact hnext
      · exact h id s hs
  | reverted => exact h
  | outside => exact h

theorem Run.sequential (hd : Deployed c₀) (hr : Run (Under Step fun c l => l.Sequential c) c₀ ls c) :
    Reachable c ∧ c.world.Sequential := by
  refine hr.inv (I := fun c => Reachable c ∧ c.world.Sequential) ⟨⟨c₀, [], hd, .nil⟩, ?_⟩ ?_
  · cases hd
    intro id s hs
    cases hs
  · rintro a l b ⟨hc, h⟩ ⟨hstep, hl⟩
    exact ⟨hc.step hstep, hstep.sequential hc hl h⟩

/-- After every run in which recordings complete the milestones of a schedule in its
order, a release goes through only when all milestones before its own are completed. -/
theorem release_sequential (hd : Deployed c₀)
    (hr : Run (Under Step fun c l => l.Sequential c) c₀ ls c) {caller : Address} {name : Symbol}
    {trace : List Effect}
    (hstep : Step c (.committed (.releaseMilestonePayment caller id name) env trace) c')
    (hs : c.world.getShipment id = some s) :
    ∀ m ∈ s.paymentMilestones.take (s.indexOf name), m.1 ∈ s.milestonesCompleted := by
  obtain ⟨-, h⟩ := Run.sequential hd hr
  obtain ⟨-, hidx⟩ := hstep.release_new hs
  obtain ⟨rest, hrest⟩ := h id s hs
  intro m hm
  have hin : m.1 ∈ (s.paymentMilestones.map (·.1)).take (s.indexOf name) := by
    rw [← List.map_take]
    exact List.mem_map_of_mem hm
  have hsplit : s.paymentMilestones.map (·.1) = s.milestonesCompleted ++ rest := hrest.symm
  rw [hsplit, List.take_append_of_le_length hidx] at hin
  exact List.mem_of_mem_take hin

namespace Deployment

/-- A shipment with three milestones of 30, 30 and 40 percent, under way with a deposit of
1000. -/
def dock : Symbol := ⟨[100, 111, 99, 107], by decide, by decide⟩

def threeLegs : List (Call × Env) := [
  signed admin 1 (.initializeContract admin tokenContract),
  signed admin 2 (.addCompany admin company),
  signed admin 3 (.addCarrier admin carrier),
  signed company 4 (.createShipment company
    ⟨receiver, carrier, 1, [(pickup, 30), (port, 30), (dock, 40)], 10000⟩),
  signed company 5 (.depositEscrow company 1 1000),
  signed carrier 6 (.updateStatus carrier 1 .inTransit 2)]

end Deployment

/-- The first milestone is recorded, and the second released. -/
theorem release_sequential_second : ∃ (c c' : Chain Deployment.host) (s : Shipment)
    (trace : List Effect) (env : Env), Reachable c ∧
      Step c (.committed (.releaseMilestonePayment Deployment.carrier 1 Deployment.port) env trace) c' ∧
      transfersOut Deployment.self trace = [(Deployment.carrier, 300)] ∧
      c.world.getShipment 1 = some s ∧
      ∀ m ∈ s.paymentMilestones.take (s.indexOf Deployment.port), m.1 ∈ s.milestonesCompleted := by
  obtain ⟨ls, c, trace, c', hr, hstep, hsome, hpaid⟩ := exists_commit_under Deployment.chain
    (Deployment.threeLegs ++ [Deployment.signed Deployment.carrier 7
      (.recordMilestone Deployment.carrier 1 Deployment.pickup 3)])
    (.releaseMilestonePayment Deployment.carrier 1 Deployment.port)
    (Deployment.signed Deployment.carrier 8 (.extendTtl 1)).2 (fun c l => l.Sequential c)
    (fun a trace _ => (a.world.getShipment 1).isSome = true ∧
      transfersOut Deployment.self trace = [(Deployment.carrier, 300)])
    (by decide +kernel) (by decide +kernel)
  obtain ⟨s, hs⟩ := Option.isSome_iff_exists.mp hsome
  exact ⟨c, c', s, trace, _, ⟨_, ls, Deployment.deployed, hr.of_under⟩, hstep, hpaid, hs,
    release_sequential Deployment.deployed hr hstep hs⟩

/-- The third milestone is recorded first, and counts for the first when the second is
released and paid. -/
theorem release_out_of_sequence : ¬∀ (c c' : Chain Deployment.host) (env : Env) (caller : Address)
    (id : ℕ) (name : Symbol) (trace : List Effect) (s : Shipment), Reachable c →
      Step c (.committed (.releaseMilestonePayment caller id name) env trace) c' →
      c.world.getShipment id = some s → 0 < ((transfersOut Deployment.self trace).map (·.2)).sum →
      ∀ m ∈ s.paymentMilestones.take (s.indexOf name), m.1 ∈ s.milestonesCompleted := by
  intro hall
  obtain ⟨ls, c, trace, c', hr, hstep, hopen, hpaid⟩ := exists_commit Deployment.chain
    (Deployment.threeLegs ++ [Deployment.signed Deployment.carrier 7
      (.recordMilestone Deployment.carrier 1 Deployment.dock 3)])
    (.releaseMilestonePayment Deployment.carrier 1 Deployment.port)
    (Deployment.signed Deployment.carrier 8 (.extendTtl 1)).2
    (fun r trace _ => (∃ s ∈ r.2.world.getShipment 1,
        ¬∀ m ∈ s.paymentMilestones.take (s.indexOf Deployment.port), m.1 ∈ s.milestonesCompleted) ∧
      0 < ((transfersOut Deployment.self trace).map (·.2)).sum)
    (by decide +kernel)
  obtain ⟨s, hs, hno⟩ := hopen
  exact hno (hall c c' _ _ _ _ trace s ⟨_, ls, Deployment.deployed, hr⟩ hstep hs hpaid)

end Navin
