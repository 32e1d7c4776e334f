/-
# Succession

The admin leaves the office in two ways: the admin proposes a successor who then
accepts, or a multi-signature proposal names one. The second way leaves a pending
hand-over in place, so that whom the former admin proposed can still accept.

Key definitions:
- `Nominates`: the admin proposes a successor;
- `Label.Yields`: no proposal replaces the admin while a hand-over is pending.

Key theorems:
- `succession_consented`.
-/
import Navin.Proposals

namespace Navin

open Tx

variable {H : Host} {c c' c₀ : Chain H} {l : Label} {ls : List Label}

/-! ### What a step does to the office -/

/-- The admin and the pending hand-over after a step. -/
inductive Turn (w : World H) (l : Label) (w' : World H) : Prop
  | kept : w'.ledger.admin = w.ledger.admin →
      w'.governance.proposedAdmin = w.governance.proposedAdmin → Turn w l w'
  | opened : w.ledger.admin = none →
      w'.governance.proposedAdmin = w.governance.proposedAdmin → Turn w l w'
  | nominated {a b : Address} {env : Env} {trace : List Effect} :
      l = .committed (.transferAdmin a b) env trace → signersOf trace = [a] →
      w.ledger.admin = some a → w'.ledger.admin = w.ledger.admin →
      w'.governance.proposedAdmin = some b → Turn w l w'
  | accepted {b : Address} {env : Env} {trace : List Effect} :
      l = .committed (.acceptAdminTransfer b) env trace → w.governance.proposedAdmin = some b →
      w'.ledger.admin = some b → w'.governance.proposedAdmin = none → Turn w l w'
  | enacted {call : Call} {env : Env} {trace : List Effect} {n : ℕ} {p : Proposal} :
      l = .committed call env trace → l.enacts n = true → w.governance.proposal n = some p →
      w.executing call = some p.action → w'.ledger.admin = p.action.successor?.or w.ledger.admin →
      w'.governance.proposedAdmin = w.governance.proposedAdmin → Turn w l w'

theorem Motion.turn {w w' : World H} {env : Env} {call : Call} {trace : List Effect} {o' : Offices}
    (hm : Motion env w.offices call trace o') (ho : w'.offices = o') :
    Turn w (.committed call env trace) w' := by
  have hadm : w'.ledger.admin = o'.admin := congrArg Offices.admin ho
  have hprop : w'.governance.proposedAdmin = o'.council.proposedAdmin :=
    congrArg (fun o => o.council.proposedAdmin) ho
  cases hm with
  | kept => exact .kept hadm hprop
  | initialized hnone => exact .opened hnone hprop
  | nominated ha hs => exact .nominated rfl hs ha hadm hprop
  | succeeded hb => exact .accepted rfl hb hadm hprop
  | constituted => exact .kept hadm hprop
  | tabled => exact .kept hadm hprop
  | seconded => exact .kept hadm hprop
  | @enacted x n p trace hpend hx hnew hthr hs hev =>
    have hp : w.governance.proposal n = some p := hpend.stored
    have hthr : w.governance.multisigThreshold.getD 2 ≤ p.approvals.length + 1 := hthr
    refine .enacted rfl (Label.enacts_of_mem (.inr ⟨x, rfl⟩) hev) hp ?_ hadm hprop
    simp [World.executing, hp, hthr]
  | @executed n p trace hpend hthr hev =>
    have hp : w.governance.proposal n = some p := hpend.stored
    refine .enacted rfl (Label.enacts_of_mem (.inl rfl) hev) hp ?_ hadm hprop
    simp [World.executing, hp]

theorem Step.turn (hstep : Step c l c') (ho : c.world.offices.Filed) : Turn c.world l c'.world := by
  rcases hstep.motion ho with ⟨call, env, trace, rfl, hm⟩ | ⟨-, heq⟩
  · exact hm.turn rfl
  · exact .kept (congrArg Offices.admin heq) (congrArg (fun o => o.council.proposedAdmin) heq)

/-! ### Who was proposed, and by whom -/

/-- The step is a `transfer_admin` from `a` to `b`, signed by `a`, the admin. -/
structure Nominates (a b : Address) (before : Chain H) (k : Label) : Prop where
  call : ∃ env trace, k = .committed (.transferAdmin a b) env trace
  signed : a ∈ k.signers
  admin : before.world.ledger.admin = some a

/-- The step executes no proposal that names another admin while a hand-over is
pending. -/
def Label.Yields (w : World H) : Label → Prop
  | .committed call _ _ => w.governance.proposedAdmin ≠ none → ∀ b ∈ (w.executing call).bind
      AdminAction.successor?, w.ledger.admin = some b
  | _ => True

instance (w : World H) : (l : Label) → Decidable (l.Yields w)
  | .committed .. => inferInstanceAs (Decidable (_ → _))
  | .reverted .. => inferInstanceAs (Decidable True)
  | .outside => inferInstanceAs (Decidable True)

/-- Who is proposed was proposed by who is admin. -/
def Nominated (c₀ : Chain H) (ls : List Label) (c : Chain H) : Prop :=
  ∀ b, c.world.governance.proposedAdmin = some b → ∃ a, c.world.ledger.admin = some a ∧
    Past Step (fun before k _ => Nominates a b before k) c₀ ls c

theorem Step.nominated (hstep : Step c l c') (ho : c.world.offices.Filed) (hr : Run Step c₀ ls c)
    (hl : l.Yields c.world) (h : Nominated c₀ ls c) : Nominated c₀ (ls ++ [l]) c' := by
  intro b hb
  -- while the hand-over stays, so does the admin
  have old : c.world.governance.proposedAdmin = some b →
      (∀ a, c.world.ledger.admin = some a → c'.world.ledger.admin = some a) →
      ∃ a, c'.world.ledger.admin = some a ∧
        Past Step (fun before k _ => Nominates a b before k) c₀ (ls ++ [l]) c' := by
    intro hb hadm
    obtain ⟨a, ha, hpast⟩ := h b hb
    exact ⟨a, hadm a ha, hpast.snoc hstep fun _ _ _ hk => hk⟩
  cases hstep.turn ho with
  | kept hadm hprop => exact old (hprop.symm.trans hb) fun a ha => hadm.trans ha
  | opened hnone hprop =>
    refine old (hprop.symm.trans hb) fun a ha => ?_
    rw [hnone] at ha
    cases ha
  | @nominated a b' env trace hlab hs ha hadm hprop =>
    obtain rfl : b' = b := Option.some.inj (hprop.symm.trans hb)
    refine ⟨a, hadm.trans ha, .last hr hstep ⟨⟨env, trace, hlab⟩, ?_, ha⟩⟩
    rw [hlab]
    change a ∈ signersOf trace
    rw [hs]
    exact List.mem_singleton_self a
  | accepted _ _ _ hprop =>
    rw [hprop] at hb
    cases hb
  | @enacted call env trace n p hlab _ _ hx hadm hprop =>
    have hpend := hprop.symm.trans hb
    subst hlab
    refine old hpend fun a ha => hadm.trans ?_
    cases hsucc : p.action.successor? with
    | none => exact ha
    | some x =>
      have hmem : x ∈ (c.world.executing call).bind AdminAction.successor? := by
        rw [hx]
        exact hsucc
      have hne : c.world.governance.proposedAdmin ≠ none := by
        rw [hpend]
        exact Option.some_ne_none b
      exact (hl hne x hmem).symm.trans ha

theorem Run.nominated (hd : Deployed c₀)
    (hr : Run (Under Step fun c l => l.Yields c.world) c₀ ls c) : Nominated c₀ ls c := by
  refine hr.inv_hist (I := fun ls c => Nominated c₀ ls c) ?_ fun ks a l b hra h hstep => ?_
  · cases hd
    intro b hb
    cases hb
  · exact hstep.1.nominated (Run.filed hd hra.of_under) hra.of_under hstep.2 h

/-- In every run in which no proposal replaces the admin while a hand-over is
pending, a change of the admin is the effect of a proposal that names the new one,
or the new one accepts what the old one signed as admin. -/
theorem succession_consented (hd : Deployed c₀)
    (hr : Run (Under Step fun c l => l.Yields c.world) c₀ ls c) (hstep : Step c l c') {a b : Address}
    (ha : c.world.ledger.admin = some a) (hb : c'.world.ledger.admin = some b) (hne : a ≠ b) :
    (∃ n p, l.enacts n = true ∧ c.world.governance.proposal n = some p ∧
      p.action = .transferAdmin b) ∨
    (∃ env trace, l = .committed (.acceptAdminTransfer b) env trace) ∧
      Past Step (fun before k _ => Nominates a b before k) c₀ ls c := by
  have same : c'.world.ledger.admin ≠ c.world.ledger.admin := by
    rw [ha, hb]
    exact fun h => hne (Option.some.inj h).symm
  cases hstep.turn (Run.filed hd hr.of_under) with
  | kept hadm => exact absurd hadm same
  | opened hnone =>
    rw [ha] at hnone
    cases hnone
  | nominated _ _ _ hadm => exact absurd hadm same
  | @accepted b' env trace hlab hprop hadm =>
    obtain rfl : b' = b := Option.some.inj (hadm.symm.trans hb)
    obtain ⟨a', ha', hpast⟩ := Run.nominated hd hr b' hprop
    obtain rfl : a' = a := Option.some.inj (ha'.symm.trans ha)
    exact .inr ⟨⟨env, trace, hlab⟩, hpast⟩
  | @enacted call env trace n p _ hen hp _ hadm =>
    refine .inl ⟨n, p, hen, hp, ?_⟩
    unfold AdminAction.successor? at hadm
    split at hadm
    · rename_i x hact
      rw [hact, show x = b from Option.some.inj (hadm.symm.trans hb)]
    · exact absurd hadm same

/-- The admin proposes the company, which accepts. -/
theorem succession_accepted : ∃ (ls : List Label) (c c' : Chain Deployment.host) (l : Label),
    Run Step Deployment.chain ls c ∧ Step c l c' ∧
      c.world.ledger.admin = some Deployment.admin ∧
      c'.world.ledger.admin = some Deployment.company ∧
      Past Step (fun before k _ => Nominates Deployment.admin Deployment.company before k)
        Deployment.chain ls c := by
  obtain ⟨ls, c, trace, c', hr, hstep, ha, hb⟩ := exists_commit_under Deployment.chain [
      Deployment.signed Deployment.admin 1
        (.initializeContract Deployment.admin Deployment.tokenContract),
      Deployment.signed Deployment.admin 2 (.transferAdmin Deployment.admin Deployment.company)]
    (.acceptAdminTransfer Deployment.company)
    ⟨3, 3, fun a => a = Deployment.company, fun _ => true⟩ (fun c l => l.Yields c.world)
    (fun c _ c' => c.world.ledger.admin = some Deployment.admin ∧
      c'.world.ledger.admin = some Deployment.company)
    (by decide +kernel) (by decide +kernel)
  refine ⟨ls, c, c', _, hr.of_under, hstep, ha, hb, ?_⟩
  rcases succession_consented Deployment.deployed hr hstep ha hb (by decide) with
    ⟨n, p, hen, -⟩ | ⟨-, hpast⟩
  · cases hen
  · exact hpast

/-- Who asks to hand the administration over, if the step does. -/
def Label.nominator? : Label → Option Address
  | .committed (.transferAdmin a _) _ _ => some a
  | _ => none

/-- The admin proposes the receiver, a multi-signature proposal makes the treasury
admin, and the receiver accepts what the treasury never signed. -/
theorem succession_unconsented : ∃ (ls : List Label) (c c' : Chain Deployment.host) (env : Env)
    (trace : List Effect), Run Step Deployment.chain ls c ∧
      Step c (.committed (.acceptAdminTransfer Deployment.receiver) env trace) c' ∧
      c.world.ledger.admin = some Deployment.treasury ∧
      c'.world.ledger.admin = some Deployment.receiver ∧
      ¬Past Step (fun before k _ => Nominates Deployment.treasury Deployment.receiver before k)
        Deployment.chain ls c := by
  obtain ⟨ls, c, trace, c', hr, hstep, ha, hb, hls⟩ := exists_commit Deployment.chain [
      Deployment.signed Deployment.admin 1
        (.initializeContract Deployment.admin Deployment.tokenContract),
      Deployment.signed Deployment.admin 2
        (.initMultisig Deployment.admin [Deployment.company, Deployment.carrier] 2),
      Deployment.signed Deployment.admin 3 (.transferAdmin Deployment.admin Deployment.receiver),
      Deployment.signed Deployment.company 4
        (.proposeAction Deployment.company (.transferAdmin Deployment.treasury)),
      Deployment.signed Deployment.carrier 5 (.approveAction Deployment.carrier 1)]
    (.acceptAdminTransfer Deployment.receiver)
    ⟨6, 6, fun a => a = Deployment.receiver, fun _ => true⟩
    (fun r _ c' => r.2.world.ledger.admin = some Deployment.treasury ∧
      c'.world.ledger.admin = some Deployment.receiver ∧
      ∀ k ∈ r.1, k.nominator? ≠ some Deployment.treasury)
    (by decide +kernel)
  refine ⟨ls, c, c', _, trace, hr, hstep, ha, hb, ?_⟩
  rintro ⟨ks, k, ks', before, after, rfl, -, -, -, ⟨env, trace', rfl⟩, -, -⟩
  exact hls (.committed (.transferAdmin Deployment.treasury Deployment.receiver) env trace')
    (List.mem_append_right _ (List.mem_cons_self ..)) rfl

end Navin
