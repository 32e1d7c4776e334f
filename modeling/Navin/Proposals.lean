/-
# Proposals

What happens to the proposal under one number: it is left, it is tabled, or an
approval or an execution acts on it. From this, over whole runs: every approval of
a stored proposal was given by a member of the list of that time who signed, a
proposal takes effect once after it was tabled, and numbers are used once as long
as the numbering is not started over.

Key definitions:
- `Fate`: what a step does to the proposal under a number;
- `Endorses`: the step by which an approval came about;
- `Authorized`: an execution with all it must have;
- `Label.Continues`: the step does not start the numbering over.

Key theorems:
- `Step.fate`;
- `enacted_authorized_once`, `enacted_by_members`, `proposals_never_reused`.
-/
import Navin.Council
import Navin.Lib.Returns

namespace Navin

open Tx

variable {H : Host}

/-! ### The proposal under one number -/

/-- The approvals of a proposal after a call: as before, or with that of a member
who signed. -/
inductive Offices.Joined (o : Offices) (n : ℕ) (p : Proposal) (call : Call) (trace : List Effect) :
    List Address → Prop
  | same : Joined o n p call trace p.approvals
  | new {x : Address} : call = .approveAction x n → x ∈ o.members → x ∉ p.approvals →
      signersOf trace = [x] → Joined o n p call trace (p.approvals ++ [x])

/-- What a step does to the proposal under the number `n`. -/
inductive Fate (o : Offices) (n : ℕ) : Label → Offices → Prop
  | kept {l : Label} {o' : Offices} : l.tables n = false → l.enacts n = false →
      o'.council.proposal n = o.council.proposal n →
      o'.council.proposalDigest n = o.council.proposalDigest n → Fate o n l o'
  | tabled {x : Address} {action : AdminAction} {call : Call} {env : Env} {trace : List Effect}
      {p : Proposal} {o' : Offices} : call.proposes? = some (x, action) → signersOf trace = [x] →
      x ∈ o.members → n = o.council.proposalCounter + 1 → o'.council.proposalCounter = n →
      p.id = n → p.approvals = [x] → o'.council.proposal n = some p →
      (Label.committed call env trace).tables n = true → Fate o n (.committed call env trace) o'
  | acted {call : Call} {env : Env} {trace : List Effect} {p : Proposal} {approvals : List Address}
      {o' : Offices} : Pending env o n p → o.Joined n p call trace approvals →
      o'.council.proposal n = some { p with
        approvals := approvals, executed := (Label.committed call env trace).enacts n } →
      o'.council.proposalDigest n = o.council.proposalDigest n →
      ((Label.committed call env trace).enacts n = true → o.threshold ≤ approvals.length ∧
        .event (.proposalExecuted n p.action) ∈ trace) →
      (Label.committed call env trace).tables n = false → Fate o n (.committed call env trace) o'

/-- A call that proposes nothing tables nothing. -/
theorem Label.tables_of_proposes {call : Call} (h : call.proposes? = none) (env : Env)
    (trace : List Effect) (n : ℕ) : (Label.committed call env trace).tables n = false := by
  simp only [Label.tables, h, Option.isSome_none, Bool.false_and]

theorem Label.enacts_of_mem {call : Call} {env : Env} {trace : List Effect} {n : ℕ}
    {action : AdminAction} (hc : call = .executeProposal n ∨ ∃ x, call = .approveAction x n)
    (h : .event (.proposalExecuted n action) ∈ trace) :
    (Label.committed call env trace).enacts n = true := by
  have hany : trace.any (·.isExecution n) = true :=
    List.any_eq_true.mpr ⟨_, h, decide_eq_true rfl⟩
  rcases hc with rfl | ⟨x, rfl⟩
  · simp only [Label.enacts, decide_true, hany, Bool.and_self]
  · simp only [Label.enacts, decide_true, hany, Bool.and_self]

/-- A call that is not about the proposal does not execute it. -/
theorem Label.enacts_of_ne {call : Call} {n : ℕ} (h₁ : call ≠ .executeProposal n)
    (h₂ : ∀ x, call ≠ .approveAction x n) (env : Env) (trace : List Effect) :
    (Label.committed call env trace).enacts n = false := by
  unfold Label.enacts
  split
  · rename_i x i e t heq
    cases heq
    have hi : i ≠ n := fun he => h₂ x (by rw [he])
    simp [hi]
  · rename_i i e t heq
    cases heq
    have hi : i ≠ n := fun he => h₁ (by rw [he])
    simp [hi]
  · rfl

section

variable {env : Env} {o o' : Offices} {call : Call} {trace : List Effect} {n : ℕ}

/-- A call that is not about proposals. -/
theorem Fate.of_aside (h : call.proposes? = none) (h₁ : call ≠ .executeProposal n)
    (h₂ : ∀ x, call ≠ .approveAction x n)
    (hprop : o'.council.proposal n = o.council.proposal n)
    (hdig : o'.council.proposalDigest n = o.council.proposalDigest n) :
    Fate o n (.committed call env trace) o' :=
  .kept (Label.tables_of_proposes h env trace n) (Label.enacts_of_ne h₁ h₂ env trace) hprop hdig

/-- A call that approves or executes the proposal `m`. -/
theorem Fate.of_pending {m : ℕ} {p : Proposal} {approvals : List Address}
    (hc : call = .executeProposal m ∨ ∃ x, call = .approveAction x m) (hpend : Pending env o m p)
    (hj : o.Joined m p call trace approvals)
    (hprop : o'.council.proposal = Function.update o.council.proposal m (some { p with
      approvals := approvals, executed := (Label.committed call env trace).enacts m }))
    (hdig : o'.council.proposalDigest = o.council.proposalDigest)
    (hthr : (Label.committed call env trace).enacts m = true → o.threshold ≤ approvals.length ∧
      .event (.proposalExecuted m p.action) ∈ trace) (n : ℕ) :
    Fate o n (.committed call env trace) o' := by
  have hnone : call.proposes? = none := by
    rcases hc with rfl | ⟨x, rfl⟩ <;> rfl
  by_cases hn : n = m
  · subst hn
    refine .acted hpend hj ?_ (congrFun hdig n) hthr (Label.tables_of_proposes hnone ..)
    rw [hprop]
    exact Function.update_self ..
  · refine .of_aside hnone ?_ ?_ ?_ (congrFun hdig n)
    · rintro rfl
      rcases hc with hc | ⟨x, hc⟩ <;> cases hc
      exact hn rfl
    · rintro y rfl
      rcases hc with hc | ⟨x, hc⟩ <;> cases hc
      exact hn rfl
    · rw [hprop]
      exact Function.update_of_ne hn ..

theorem Motion.fate (hm : Motion env o call trace o') (ho : o.Filed) (n : ℕ) :
    Fate o n (.committed call env trace) o' := by
  cases hm with
  | kept hg =>
    refine .of_aside ?_ ?_ ?_ rfl rfl
    · cases call <;> first | rfl | cases hg
    · rintro rfl
      cases hg
    · rintro x rfl
      cases hg
  | initialized => exact .of_aside rfl (fun h => by cases h) (fun x h => by cases h) rfl rfl
  | nominated => exact .of_aside rfl (fun h => by cases h) (fun x h => by cases h) rfl rfl
  | succeeded => exact .of_aside rfl (fun h => by cases h) (fun x h => by cases h) rfl rfl
  | constituted => exact .of_aside rfl (fun h => by cases h) (fun x h => by cases h) rfl rfl
  | @tabled _ x action m expiresAt digest hp hm hx =>
    by_cases hn : n = m
    · subst hn
      refine .tabled hp rfl hx hm rfl rfl rfl (Function.update_self ..) ?_
      simp [Label.tables, Effect.isDigest, hp]
    · refine .kept ?_ ?_ (Function.update_of_ne hn ..) (Function.update_of_ne hn ..)
      · simp [Label.tables, Effect.isDigest, Ne.symm hn]
      · refine Label.enacts_of_ne ?_ ?_ env _
        · rintro rfl
          cases hp
        · rintro y rfl
          cases hp
  | @seconded x m p hpend hx hnew =>
    have hno : (Label.committed (.approveAction x m) env
        [.auth x, .event (.actionApproved m x (p.approvals.length + 1))]).enacts m = false := by
      simp [Label.enacts, Effect.isExecution]
    refine .of_pending (.inr ⟨x, rfl⟩) hpend (.new rfl hx hnew ?_) ?_ ?_ (fun h => ?_) n
    · rfl
    · rw [hno, ← hpend.unexecuted, ← ho m p hpend.stored]
      rfl
    · rfl
    · rw [hno] at h
      cases h
  | @enacted x m p trace hpend hx hnew hthr hs hev =>
    have hyes : (Label.committed (.approveAction x m) env trace).enacts m = true :=
      Label.enacts_of_mem (.inr ⟨x, rfl⟩) hev
    have hthr : o.threshold ≤ (p.approvals ++ [x]).length := by
      rw [List.length_append]
      exact hthr
    refine .of_pending (.inr ⟨x, rfl⟩) hpend (.new rfl hx hnew hs) ?_ ?_ (fun _ => ⟨hthr, hev⟩) n
    · rw [hyes, ← ho m p hpend.stored]
      rfl
    · rfl
  | @executed m p trace hpend hthr hev =>
    have hyes : (Label.committed (.executeProposal m) env trace).enacts m = true :=
      Label.enacts_of_mem (.inl rfl) hev
    refine .of_pending (.inl rfl) hpend .same ?_ ?_ (fun _ => ⟨hthr, hev⟩) n
    · rw [hyes, ← ho m p hpend.stored]
      rfl
    · rfl

end

variable {c c' c₀ c₁ c₂ : Chain H} {l l' : Label} {ls ks : List Label} {n : ℕ}

theorem Step.fate (hstep : Step c l c') (ho : c.world.offices.Filed) (n : ℕ) :
    Fate c.world.offices n l c'.world.offices := by
  cases hstep with
  | @committed call env w' _ hx =>
    exact (motion_exec (w := c.world.fresh) ho rfl () w' hx).fate ho n
  | reverted => exact .kept rfl rfl rfl rfl
  | outside => exact .kept rfl rfl rfl rfl

/-! ### Where the approvals come from -/

/-- The addresses whose signature the step demanded. -/
def Label.signers : Label → List Address
  | .committed _ _ trace => signersOf trace
  | _ => []

/-- The step gives the proposal the approval of `x`: `x` approves it, or proposed it. -/
def Label.endorses (x : Address) (n : ℕ) : Label → Prop
  | .committed call env trace => call = .approveAction x n ∨
      (∃ action, call.proposes? = some (x, action)) ∧ (Label.committed call env trace).tables n = true
  | _ => False

/-- `x` approved the proposal as a member of the list and signed for it, and the
number was not given to another proposal since. -/
structure Endorses (x : Address) (n : ℕ) (a : Chain H) (k : Label) (ks : List Label) : Prop where
  endorses : k.endorses x n
  signed : x ∈ k.signers
  member : x ∈ a.world.offices.members
  since : ∀ k' ∈ ks, k'.tables n = false

/-- A stored proposal has its own number and no approval twice, and each approval
was given in an earlier step. -/
structure Recorded (c₀ : Chain H) (ls : List Label) (c : Chain H) (n : ℕ) (p : Proposal) : Prop where
  id_eq : p.id = n
  nodup : p.approvals.Nodup
  endorsed : ∀ x ∈ p.approvals, Past Step (Endorses x n) c₀ ls c

theorem Endorses.past_snoc {x : Address} (h : Past Step (Endorses x n) c₀ ls c) (hstep : Step c l c')
    (hl : l.tables n = false) : Past Step (Endorses x n) c₀ (ls ++ [l]) c' := by
  refine h.snoc hstep fun a k ks hk => ⟨hk.endorses, hk.signed, hk.member, fun k' hk' => ?_⟩
  rcases List.mem_append.mp hk' with hk' | hk'
  · exact hk.since k' hk'
  · rwa [List.mem_singleton.mp hk']

theorem Recorded.step (hr : Run Step c₀ ls c) (hstep : Step c l c')
    (h : ∀ n p, c.world.offices.council.proposal n = some p → Recorded c₀ ls c n p) :
    ∀ n p, c'.world.offices.council.proposal n = some p → Recorded c₀ (ls ++ [l]) c' n p := by
  intro n q hq
  have ho : c.world.offices.Filed := fun n p hp => (h n p hp).id_eq
  have hold : ∀ p, c.world.offices.council.proposal n = some p → l.tables n = false →
      ∀ x ∈ p.approvals, Past Step (Endorses x n) c₀ (ls ++ [l]) c' := fun p hp hl x hx =>
    Endorses.past_snoc ((h n p hp).endorsed x hx) hstep hl
  cases hstep.fate ho n with
  | kept hl _ heq _ =>
    rw [heq] at hq
    exact ⟨(h n q hq).id_eq, (h n q hq).nodup, hold q hq hl⟩
  | @tabled x action call env trace p _ hc hs hx _ _ hid hap hp hl =>
    obtain rfl : p = q := Option.some.inj (hp.symm.trans hq)
    refine ⟨hid, by simp [hap], fun y hy => ?_⟩
    rw [hap, List.mem_singleton] at hy
    subst hy
    refine .last hr hstep ⟨.inr ⟨⟨action, hc⟩, hl⟩, ?_, hx, fun k hk => by cases hk⟩
    simp [Label.signers, hs]
  | @acted call env trace p approvals _ hpend hj hp _ _ hl =>
    rw [hp] at hq
    obtain rfl := Option.some.inj hq
    have hrec := h n p hpend.stored
    cases hj with
    | same => exact ⟨hrec.id_eq, hrec.nodup, hold p hpend.stored hl⟩
    | @new x hc hx hnew hs =>
      refine ⟨hrec.id_eq, List.nodup_append.mpr ⟨hrec.nodup, List.nodup_singleton x, ?_⟩, fun y hy => ?_⟩
      · rintro a ha b hb rfl
        rw [List.mem_singleton.mp hb] at ha
        exact hnew ha
      · rcases List.mem_append.mp hy with hy | hy
        · exact hold p hpend.stored hl y hy
        · obtain rfl := List.mem_singleton.mp hy
          refine .last hr hstep ⟨.inl hc, ?_, hx, fun k hk => by cases hk⟩
          simp [Label.signers, hs]

theorem Run.recorded (hd : Deployed c₀) (hr : Run Step c₀ ls c) :
    ∀ n p, c.world.offices.council.proposal n = some p → Recorded c₀ ls c n p := by
  refine hr.inv_hist (I := fun ls c => ∀ n p, c.world.offices.council.proposal n = some p →
    Recorded c₀ ls c n p) ?_ fun ks a l b hr h hstep => Recorded.step hr hstep h
  cases hd
  intro n p hp
  cases hp

theorem Run.filed (hd : Deployed c₀) (hr : Run Step c₀ ls c) : c.world.offices.Filed :=
  fun n p hp => (Run.recorded hd hr n p hp).id_eq

/-! ### Taking effect -/

/-- The stored proposal `p` takes effect in the step from `c` to `c'`, which leaves
it as `q`. -/
structure Authorized (c₀ : Chain H) (ls : List Label) (c : Chain H) (l : Label) (c' : Chain H)
    (n : ℕ) (p q : Proposal) : Prop where
  stored : c.world.governance.proposal n = some p
  unexecuted : p.executed = false
  time : ∃ call env trace, l = .committed call env trace ∧ env.timestamp ≤ p.expiresAt ∧
    .event (.proposalExecuted n p.action) ∈ trace
  after : c'.world.governance.proposal n = some q
  same : q = { p with approvals := q.approvals, executed := true }
  approvals : p.approvals <+: q.approvals
  nodup : q.approvals.Nodup
  enough : c.world.governance.multisigThreshold.getD 2 ≤ q.approvals.length
  endorsed : ∀ x ∈ q.approvals, Past Step (Endorses x n) c₀ (ls ++ [l]) c'

theorem Offices.Joined.isPrefix {o : Offices} {p : Proposal} {call : Call} {trace : List Effect}
    {approvals : List Address} (h : o.Joined n p call trace approvals) :
    p.approvals <+: approvals := by
  cases h with
  | same => exact List.prefix_refl _
  | new => exact List.prefix_append _ _

theorem Step.authorized (hd : Deployed c₀) (hr : Run Step c₀ ls c) (hstep : Step c l c')
    (hl : l.enacts n = true) : ∃ p q, Authorized c₀ ls c l c' n p q := by
  have hrec := Run.recorded hd (.snoc hr hstep) n
  cases hstep.fate (Run.filed hd hr) n with
  | kept _ hno => rw [hno] at hl; cases hl
  | @tabled x action call env trace p _ hc _ _ _ _ _ _ _ _ =>
    have hno : (Label.committed call env trace).enacts n = false := by
      refine Label.enacts_of_ne ?_ ?_ env trace
      · rintro rfl
        cases hc
      · rintro y rfl
        cases hc
    rw [hno] at hl
    cases hl
  | @acted call env trace p approvals _ hpend hj hp _ hthr _ =>
    obtain ⟨hle, hev⟩ := hthr hl
    rw [hl] at hp
    have hq := hrec _ hp
    exact ⟨p, _, hpend.stored, hpend.unexecuted, ⟨call, env, trace, rfl, hpend.time, hev⟩, hp, rfl,
      hj.isPrefix, hq.nodup, hle, hq.endorsed⟩

/-- A proposal that took effect stays executed until its number is tabled again. -/
theorem Run.executed (hd : Deployed c₀) (hr : Run Step c₀ ls c) {p : Proposal}
    (hp : c.world.offices.council.proposal n = some p) (hex : p.executed = true)
    (hr' : Run Step c ks c₁) (hks : ∀ k ∈ ks, k.tables n = false) :
    ∃ q, c₁.world.offices.council.proposal n = some q ∧ q.executed = true := by
  have key : (∀ k ∈ ks, k.tables n = false) →
      ∃ q, c₁.world.offices.council.proposal n = some q ∧ q.executed = true := by
    refine hr'.inv_hist (I := fun ks c₁ => (∀ k ∈ ks, k.tables n = false) →
      ∃ q, c₁.world.offices.council.proposal n = some q ∧ q.executed = true)
      (fun _ => ⟨p, hp, hex⟩) ?_
    intro ks a l b hra ih hstep hks
    obtain ⟨q, hq, hqe⟩ := ih fun k hk => hks k (by simp [hk])
    have hl : l.tables n = false := hks l (by simp)
    cases hstep.fate (Run.filed hd (hr.append hra)) n with
    | kept _ _ heq _ => exact ⟨q, heq.trans hq, hqe⟩
    | tabled _ _ _ _ _ _ _ _ htab => rw [htab] at hl; cases hl
    | acted hpend =>
      obtain rfl := Option.some.inj (hpend.stored.symm.trans hq)
      rw [hpend.unexecuted] at hqe
      cases hqe
  exact key hks

/-- A proposal takes effect only when it is unexecuted, in time and approved, without
repetition, by enough addresses that each signed as a member; after that it takes
no effect again unless the number is tabled anew; and it stays unexecuted in every
other step. -/
theorem enacted_authorized_once (hd : Deployed c₀) (hr : Run Step c₀ ls c) (hstep : Step c l c')
    (n : ℕ) :
    (l.enacts n = true → ∃ p q, Authorized c₀ ls c l c' n p q) ∧
    (l.enacts n = true → ∀ ks c₁ l' c₂, Run Step c' ks c₁ → Step c₁ l' c₂ → l'.enacts n = true →
      ∃ k ∈ ks, k.tables n = true) ∧
    (∀ p, c.world.governance.proposal n = some p → p.executed = false → l.enacts n = false →
      l.tables n = false → ∃ q, c'.world.governance.proposal n = some q ∧
        q = { p with approvals := q.approvals } ∧ p.approvals <+: q.approvals) := by
  refine ⟨hstep.authorized hd hr, fun hl ks c₁ l' c₂ hr' hstep' hl' => ?_, fun p hp hex hl htab => ?_⟩
  · obtain ⟨p, q, hq⟩ := hstep.authorized hd hr hl
    by_contra hno
    have hks : ∀ k ∈ ks, k.tables n = false := fun k hk =>
      Bool.eq_false_iff.mpr fun h => hno ⟨k, hk, h⟩
    have hqe : q.executed = true := by rw [hq.same]
    obtain ⟨q₁, hq₁, hqe₁⟩ := Run.executed hd (.snoc hr hstep) hq.after hqe hr' hks
    obtain ⟨p₂, q₂, h₂⟩ := hstep'.authorized hd ((Run.snoc hr hstep).append hr') hl'
    obtain rfl : p₂ = q₁ := Option.some.inj (h₂.stored.symm.trans hq₁)
    rw [h₂.unexecuted] at hqe₁
    cases hqe₁
  · cases hstep.fate (Run.filed hd hr) n with
    | kept _ _ heq _ => exact ⟨p, heq.trans hp, rfl, List.prefix_refl _⟩
    | tabled _ _ _ _ _ _ _ _ hyes => rw [hyes] at htab; cases htab
    | @acted call env trace p' approvals _ hpend hj hq _ _ _ =>
      obtain rfl : p' = p := Option.some.inj (hpend.stored.symm.trans hp)
      rw [hl, ← hex] at hq
      exact ⟨_, hq, rfl, hj.isPrefix⟩

/-- The admin and the company form the list, and the admin proposes the carrier as
its successor. -/
def Deployment.proposal : List (Call × Env) := [
  signed admin 1 (.initializeContract admin tokenContract),
  signed admin 2 (.initMultisig admin [admin, company] 2),
  signed admin 3 (.proposeAction admin (.transferAdmin carrier))]

/-- The second of two members approves, and the admin changes. -/
theorem enacted_by_second_approval : ∃ (ls : List Label) (c c' : Chain Deployment.host) (l : Label)
    (p q : Proposal), Run Step Deployment.chain ls c ∧ Step c l c' ∧ l.enacts 1 = true ∧
      Authorized Deployment.chain ls c l c' 1 p q ∧ c'.world.ledger.admin = some Deployment.carrier := by
  obtain ⟨ls, c, trace, c', hr, hstep, hl, hadm⟩ := exists_commit Deployment.chain
    Deployment.proposal (.approveAction Deployment.company 1) ⟨4, 4, fun a => a = Deployment.company, fun _ => true⟩
    (fun _ trace c' => (Label.committed (.approveAction Deployment.company 1)
        ⟨4, 4, fun a => a = Deployment.company, fun _ => true⟩ trace).enacts 1 = true ∧
      c'.world.ledger.admin = some Deployment.carrier)
    (by decide +kernel)
  obtain ⟨p, q, hq⟩ := (enacted_authorized_once Deployment.deployed hr hstep 1).1 hl
  exact ⟨ls, c, c', _, p, q, hr, hstep, hl, hq, hadm⟩

/-! ### Members, then and now -/

/-- The step installs a list without `x`. -/
def Label.drops (x : Address) : Label → Bool
  | .committed (.initMultisig _ admins _) _ _ => decide (x ∉ admins)
  | _ => false

/-- A member stays one until a list without it is installed. -/
theorem Motion.members {env : Env} {o o' : Offices} {call : Call} {trace : List Effect} {x : Address}
    (hm : Motion env o call trace o') (hx : x ∈ o.members) :
    x ∈ o'.members ∨ (Label.committed call env trace).drops x = true := by
  cases hm with
  | @constituted _ admins =>
    by_cases hmem : x ∈ admins
    · exact .inl hmem
    · exact .inr (decide_eq_true hmem)
  | _ => exact .inl hx

theorem Run.members (hd : Deployed c₀) (hr : Run Step c₀ ls c) {x : Address}
    (hx : x ∈ c.world.offices.members) (hr' : Run Step c ks c₁) :
    x ∈ c₁.world.offices.members ∨ ∃ k ∈ ks, k.drops x = true := by
  refine hr'.inv_hist (I := fun ks c₁ => x ∈ c₁.world.offices.members ∨ ∃ k ∈ ks, k.drops x = true)
    (.inl hx) ?_
  rintro ks a l b hra (hx | ⟨k, hk, hdrop⟩) hstep
  · rcases hstep.motion (Run.filed hd (hr.append hra)) with ⟨call, env, trace, rfl, hm⟩ | ⟨-, heq⟩
    · exact (hm.members hx).imp_right fun h => ⟨_, by simp, h⟩
    · exact .inl (heq ▸ hx)
  · exact .inr ⟨k, by simp [hk], hdrop⟩

/-- When a proposal takes effect, at least as many addresses approved it as the
threshold asks for, and each of them is in the list at that moment, or was when it
approved and was dropped by an `init_multisig` since. -/
theorem enacted_by_members (hd : Deployed c₀) (hr : Run Step c₀ ls c) (hstep : Step c l c')
    (hl : l.enacts n = true) :
    ∃ q, c'.world.governance.proposal n = some q ∧ q.approvals.Nodup ∧
      c.world.governance.multisigThreshold.getD 2 ≤ q.approvals.length ∧
      ∀ x ∈ q.approvals, x ∈ c'.world.governance.adminList.getD [] ∨
        Past Step (fun a k ks => Endorses x n a k ks ∧ ∃ k' ∈ ks, k'.drops x = true) c₀
          (ls ++ [l]) c' := by
  obtain ⟨p, q, hq⟩ := hstep.authorized hd hr hl
  refine ⟨q, hq.after, hq.nodup, hq.enough, fun x hx => ?_⟩
  obtain ⟨ks, k, ks', a, b, heq, hra, hk, hrb, he⟩ := hq.endorsed x hx
  have hb : x ∈ b.world.offices.members := by
    rcases hk.motion (Run.filed hd hra) with ⟨call, env, trace, rfl, hm⟩ | ⟨-, heq⟩
    · refine (hm.members he.member).resolve_right fun hdrop => ?_
      -- an approval is no `init_multisig`
      rcases he.endorses with rfl | ⟨⟨action, hc⟩, -⟩
      · cases hdrop
      · cases call <;> first | cases hdrop | cases hc
    · exact heq ▸ he.member
  rcases Run.members hd (.snoc hra hk) hb hrb with hmem | hdrop
  · exact .inl hmem
  · exact .inr ⟨ks, k, ks', a, b, heq, hra, hk, hrb, he, hdrop⟩

/-- Both approvals are those of members when the list stays. -/
theorem enacted_by_two_members : ∃ (ls : List Label) (c c' : Chain Deployment.host) (l : Label)
    (q : Proposal), Run Step Deployment.chain ls c ∧ Step c l c' ∧
      c'.world.governance.proposal 1 = some q ∧ 2 ≤ q.approvals.length ∧
      ∀ x ∈ q.approvals, x ∈ c'.world.governance.adminList.getD [] := by
  obtain ⟨ls, c, trace, c', hr, hstep, hl, hthr, hls⟩ := exists_commit Deployment.chain
    Deployment.proposal (.approveAction Deployment.company 1) ⟨4, 4, fun a => a = Deployment.company, fun _ => true⟩
    (fun r trace c' => (Label.committed (.approveAction Deployment.company 1)
        ⟨4, 4, fun a => a = Deployment.company, fun _ => true⟩ trace).enacts 1 = true ∧
      r.2.world.governance.multisigThreshold = some 2 ∧
      (c'.world.governance.proposal 1).any fun q =>
        q.approvals.all fun x => (c'.world.governance.adminList.getD []).contains x)
    (by decide +kernel)
  obtain ⟨q, hq, -, hle, -⟩ := enacted_by_members Deployment.deployed hr hstep hl
  rw [hthr] at hle
  rw [hq] at hls
  refine ⟨ls, c, c', _, q, hr, hstep, hq, hle, fun x hx => ?_⟩
  have hall : (q.approvals.all fun x => (c'.world.governance.adminList.getD []).contains x) = true := hls
  exact List.contains_iff_mem.mp (List.all_eq_true.mp hall x hx)

/-- Two of three members approve, the list is replaced by two others with a
threshold of two, and the proposal takes effect with the approval of neither. -/
theorem enacted_without_members : ∃ (ls : List Label) (c c' : Chain Deployment.host) (l : Label)
    (q : Proposal), Run Step Deployment.chain ls c ∧ Step c l c' ∧ l.enacts 1 = true ∧
      c'.world.governance.proposal 1 = some q ∧ c.world.governance.multisigThreshold = some 2 ∧
      ∀ x ∈ q.approvals, x ∉ c.world.governance.adminList.getD [] := by
  obtain ⟨ls, c, trace, c', hr, hstep, hl, hq, hthr, hlist⟩ := exists_commit Deployment.chain [
      Deployment.signed Deployment.admin 1
        (.initializeContract Deployment.admin Deployment.tokenContract),
      Deployment.signed Deployment.admin 2 (.initMultisig Deployment.admin
        [Deployment.company, Deployment.carrier, Deployment.receiver] 3),
      Deployment.signed Deployment.company 3
        (.proposeAction Deployment.company (.transferAdmin Deployment.company)),
      Deployment.signed Deployment.carrier 4 (.approveAction Deployment.carrier 1),
      Deployment.signed Deployment.admin 5 (.initMultisig Deployment.admin
        [Deployment.admin, Deployment.treasury] 2)]
    (.executeProposal 1) ⟨6, 6, fun _ => false, fun _ => true⟩
    (fun r trace c' => (Label.committed (.executeProposal 1)
        ⟨6, 6, fun _ => false, fun _ => true⟩ trace).enacts 1 = true ∧
      (c'.world.governance.proposal 1).map (·.approvals) =
        some [Deployment.company, Deployment.carrier] ∧
      r.2.world.governance.multisigThreshold = some 2 ∧
      r.2.world.governance.adminList = some [Deployment.admin, Deployment.treasury])
    (by decide +kernel)
  obtain ⟨q, hq, hap⟩ := Option.map_eq_some_iff.mp hq
  refine ⟨ls, c, c', _, q, hr, hstep, hl, hq, hthr, ?_⟩
  rw [hap, hlist]
  decide

/-! ### Numbers -/

def Call.isInitMultisig : Call → Bool
  | .initMultisig .. => true
  | _ => false

/-- The step does not start the numbering over. -/
def Label.Continues (w : World H) : Label → Prop
  | .committed call _ _ => call.isInitMultisig = true → w.governance.proposalCounter = 0
  | _ => True

instance (w : World H) : (l : Label) → Decidable (l.Continues w)
  | .committed .. => inferInstanceAs (Decidable (_ → _))
  | .reverted .. => inferInstanceAs (Decidable True)
  | .outside => inferInstanceAs (Decidable True)

/-- No number above the counter is in use. -/
def Offices.Numbered (o : Offices) : Prop :=
  ∀ n p, o.council.proposal n = some p → n ≤ o.council.proposalCounter

theorem Motion.counter_le {env : Env} {o o' : Offices} {call : Call} {trace : List Effect}
    (hm : Motion env o call trace o')
    (h : call.isInitMultisig = true → o.council.proposalCounter = 0) :
    o.council.proposalCounter ≤ o'.council.proposalCounter := by
  cases hm with
  | constituted => exact (h rfl).le
  | tabled _ hn => exact hn ▸ Nat.le_succ _
  | _ => exact le_rfl

theorem Step.numbered (hstep : Step c l c') (ho : c.world.offices.Filed) (hl : l.Continues c.world)
    (h : c.world.offices.Numbered) : c'.world.offices.Numbered := by
  have hle : c.world.offices.council.proposalCounter ≤ c'.world.offices.council.proposalCounter := by
    rcases hstep.motion ho with ⟨call, env, trace, rfl, hm⟩ | ⟨-, heq⟩
    · exact hm.counter_le hl
    · rw [heq]
  intro n p hp
  cases hstep.fate ho n with
  | kept _ _ heq _ => exact (h n p (heq.symm.trans hp)).trans hle
  | tabled _ _ _ _ hn => exact hn.ge
  | acted hpend => exact (h n _ hpend.stored).trans hle

theorem Run.numbered (hd : Deployed c₀)
    (hr : Run (Under Step fun c l => l.Continues c.world) c₀ ls c) : c.world.offices.Numbered := by
  refine hr.inv_hist (I := fun _ c => c.world.offices.Numbered) ?_ ?_
  · cases hd
    intro n p hp
    cases hp
  · intro ks a l b hra h hstep
    exact hstep.1.numbered (Run.filed hd hra.of_under) hstep.2 h

/-- What a step that does not table the number leaves of the proposal. -/
theorem Fate.terms {o o' : Offices} {l : Label} (hf : Fate o n l o') (hn : o.Numbered)
    {p : Proposal} (hp : o.council.proposal n = some p) :
    ∃ q, o'.council.proposal n = some q ∧ q.action = p.action ∧ q.proposer = p.proposer ∧
      q.createdAt = p.createdAt ∧ o'.council.proposalDigest n = o.council.proposalDigest n := by
  cases hf with
  | kept _ _ heq hdig => exact ⟨p, heq.trans hp, rfl, rfl, rfl, hdig⟩
  | tabled _ _ _ hnew =>
    have hle := hn n p hp
    omega
  | acted hpend _ hq hdig =>
    obtain rfl := Option.some.inj (hpend.stored.symm.trans hp)
    exact ⟨_, hq, rfl, rfl, rfl, hdig⟩

/-- In every run without an `init_multisig` at a positive proposal counter, a new
proposal gets a number under which none is stored, and no step changes the action,
the proposer, the time or the digest of a stored one. -/
theorem proposals_never_reused (hd : Deployed c₀)
    (hr : Run (Under Step fun c l => l.Continues c.world) c₀ ls c) :
    (∀ x action env n w', proposeAction x action env c.world.fresh = .ok n w' →
      c.world.governance.proposal n = none) ∧
    (∀ x action salt env n w', proposeActionWithSalt x action salt env c.world.fresh = .ok n w' →
      c.world.governance.proposal n = none) ∧
    (∀ l c', Step c l c' → ∀ n p, c.world.governance.proposal n = some p →
      ∃ q, c'.world.governance.proposal n = some q ∧ q.action = p.action ∧ q.proposer = p.proposer ∧
        q.createdAt = p.createdAt ∧
        c'.world.governance.proposalDigest n = c.world.governance.proposalDigest n) := by
  have hnum := Run.numbered hd hr
  have fresh : ∀ n, n = c.world.governance.proposalCounter + 1 →
      c.world.governance.proposal n = none := by
    rintro n rfl
    by_contra hne
    obtain ⟨p, hp⟩ := Option.ne_none_iff_exists'.mp hne
    exact absurd (hnum _ p hp) (Nat.not_succ_le_self _)
  refine ⟨fun x action env n w' hx => ?_, fun x action salt env n w' hx => ?_,
    fun l c' hstep n p hp => ?_⟩
  · have hm : n = c.world.governance.proposalCounter + 1 ∧
        Motion env c.world.fresh.offices (.proposeAction x action) w'.trace w'.offices :=
      motion_proposeAction (w := c.world.fresh) rfl rfl n w' hx
    exact fresh n hm.1
  · exact fresh n (motion_proposeActionWithSalt (w := c.world.fresh) rfl n w' hx).1
  · exact (hstep.fate (Run.filed hd hr.of_under) n).terms hnum hp

/-- The second proposal gets the number two, and the first one stays. -/
theorem proposals_numbered_on : ∃ (ls : List Label) (c c' : Chain Deployment.host) (l : Label)
    (p q : Proposal), Run Step Deployment.chain ls c ∧ Step c l c' ∧
      c.world.governance.proposal 1 = some p ∧ c'.world.governance.proposal 1 = some q ∧
      q.action = p.action ∧ c.world.governance.proposal 2 = none := by
  obtain ⟨ls, c, trace, c', hr, hstep, hsome, htwo⟩ := exists_commit_under Deployment.chain
    Deployment.proposal (.proposeAction Deployment.company (.transferAdmin Deployment.carrier))
    ⟨4, 4, fun a => a = Deployment.company, fun _ => true⟩ (fun c l => l.Continues c.world)
    (fun c _ _ => (c.world.governance.proposal 1).isSome = true ∧
      ((proposeAction Deployment.company (.transferAdmin Deployment.carrier)).result?
        ⟨4, 4, fun a => a = Deployment.company, fun _ => true⟩ c.world.fresh).any (·.1 = 2) = true)
    (by decide +kernel) (by decide +kernel)
  obtain ⟨p, hp⟩ := Option.isSome_iff_exists.mp hsome
  obtain ⟨hfresh, -, hkeep⟩ := proposals_never_reused Deployment.deployed hr
  obtain ⟨q, hq, hact, -⟩ := hkeep _ c' hstep 1 p hp
  obtain ⟨⟨n, w'⟩, hx, hn⟩ := (Option.any_eq_true _ _).mp htwo
  obtain rfl : n = 2 := of_decide_eq_true hn
  exact ⟨ls, c, c', _, p, q, hr.of_under, hstep, hp, hq, hact,
    hfresh _ _ _ 2 w' (result?_eq_some.mp hx)⟩

/-- `init_multisig` is called again, and the next proposal takes the number of the
one there is. -/
theorem initMultisig_reuses_number : ∃ (ls : List Label) (c c' : Chain Deployment.host) (l : Label)
    (p q : Proposal), Run Step Deployment.chain ls c ∧ Step c l c' ∧ l.tables 1 = true ∧
      c.world.governance.proposal 1 = some p ∧ c'.world.governance.proposal 1 = some q ∧
      p.action = .transferAdmin Deployment.carrier ∧ q.action = .transferAdmin Deployment.company ∧
      c'.world.governance.proposalDigest 1 ≠ c.world.governance.proposalDigest 1 := by
  obtain ⟨ls, c, trace, c', hr, hstep, hl, hp, hq, hdig⟩ := exists_commit Deployment.chain
    (Deployment.proposal ++ [Deployment.signed Deployment.admin 4
      (.initMultisig Deployment.admin [Deployment.admin, Deployment.company] 2)])
    (.proposeAction Deployment.company (.transferAdmin Deployment.company))
    ⟨5, 5, fun a => a = Deployment.company, fun _ => true⟩
    (fun r trace c' => (Label.committed
        (.proposeAction Deployment.company (.transferAdmin Deployment.company))
        ⟨5, 5, fun a => a = Deployment.company, fun _ => true⟩ trace).tables 1 = true ∧
      (r.2.world.governance.proposal 1).map (·.action) =
        some (.transferAdmin Deployment.carrier) ∧
      (c'.world.governance.proposal 1).map (·.action) = some (.transferAdmin Deployment.company) ∧
      c'.world.governance.proposalDigest 1 ≠ r.2.world.governance.proposalDigest 1)
    (by decide +kernel)
  obtain ⟨p, hp, hpa⟩ := Option.map_eq_some_iff.mp hp
  obtain ⟨q, hq, hqa⟩ := Option.map_eq_some_iff.mp hq
  exact ⟨ls, c, c', _, p, q, hr, hstep, hl, hp, hq, hpa, hqa, hdig⟩

end Navin
