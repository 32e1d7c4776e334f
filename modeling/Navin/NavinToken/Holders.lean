/-
# What a holder has

A call brings a holder something or takes something from it, and from what it takes one
sees who wanted it so: the holder itself, a spender whom the holder gave an allowance, or
the admin, who burns what is not his. A holder who signs nothing loses tokens in the last
two ways only, and to a spender no more than the allowance that it had given before.

Key definitions:
- `Call.credit`, `Call.debit`: what a call brings and takes;
- `Call.drawn`, `Call.clawed`: what spenders draw, and what the admin burns.

Key theorems:
- `Step.balance`: a call changes a balance by what it brings and takes;
- `holder_protected`: whole runs.
-/
import Navin.NavinToken.Allowances
import Navin.NavinToken.Supply

namespace Navin

namespace NavinToken

open Tx

variable {s s' : State} {env : Env} {a b : Address} {h g : Holdings Address ℤ}

/-! ### One call -/

/-- What a call brings `a`. -/
def Call.credit (a : Address) : Call → ℤ
  | .initializeToken admin _ _ supply => if admin = a then supply else 0
  | .transfer _ target amount => if target = a then amount else 0
  | .transferFrom _ _ target amount => if target = a then amount else 0
  | .mint _ target amount => if target = a then amount else 0
  | .batchTransfer _ recipients =>
    (recipients.map fun leg => if leg.1 = a then (leg.2 : ℤ) else 0).sum
  | _ => 0

/-- What a spender draws on an allowance of `a`. -/
def Call.drawn (a : Address) : Call → ℤ
  | .transferFrom _ source _ amount => if source = a then amount else 0
  | .burnFrom _ source amount => if source = a then amount else 0
  | _ => 0

/-- What the admin burns of what `a` has. -/
def Call.clawed (a : Address) : Call → ℤ
  | .adminBurn _ source amount => if source = a then amount else 0
  | _ => 0

/-- What a call takes from `a` as its own order. -/
def Call.ordered (a : Address) : Call → ℤ
  | .transfer source _ amount => if source = a then amount else 0
  | .burn source amount => if source = a then amount else 0
  | .batchTransfer source recipients => if source = a then legSum recipients else 0
  | _ => 0

/-- What a call takes from `a`. -/
def Call.debit (a : Address) (call : Call) : ℤ := call.ordered a + call.drawn a + call.clawed a

theorem single_apply (b a : Address) (x : ℤ) : Finsupp.single b x a = if b = a then x else 0 := by
  classical
  exact Finsupp.single_apply

/-- What is moved in several legs, for one holder. -/
theorem sum_single_apply (l : List (Address × I128)) (a : Address) :
    ((amounts l).map fun p => Finsupp.single p.1 p.2).sum a =
      (l.map fun leg => if leg.1 = a then (leg.2 : ℤ) else 0).sum := by
  induction l with
  | nil => rfl
  | cons leg l ih =>
    rw [amounts_cons, List.map_cons, List.sum_cons, Finsupp.add_apply, ih, List.map_cons,
      List.sum_cons, single_apply]

/-- What a call does to holdings, for one holder. -/
theorem Call.onHoldings_apply {call : Call} (hg : call.onHoldings h = some g)
    (hinit : ∀ admin name symbol supply, call ≠ .initializeToken admin name symbol supply)
    (a : Address) : g a = h a + call.credit a - call.debit a := by
  have hsum : ∀ l : List (Address × I128), ((amounts l).map Prod.snd).sum = legSum l := fun l => by
    simp [amounts, legSum, Function.comp_def]
  cases call with
  | initializeToken admin name symbol supply => exact absurd rfl (hinit admin name symbol supply)
  | transfer source target amount =>
    have hof := (Holdings.move?_eq_some.mp hg).2.2.2
    simp [hof, credit, debit, ordered, drawn, clawed, single_apply]
    omega
  | transferFrom spender source target amount =>
    have hof := (Holdings.move?_eq_some.mp hg).2.2.2
    simp [hof, credit, debit, ordered, drawn, clawed, single_apply]
    omega
  | mint admin target amount =>
    have hof := (Holdings.issue?_eq_some.mp hg).2
    simp [hof, credit, debit, ordered, drawn, clawed, single_apply]
  | adminBurn admin source amount =>
    have hof := (Holdings.retire?_eq_some.mp hg).2.2
    simp [hof, credit, debit, ordered, drawn, clawed, single_apply]
  | burn source amount =>
    have hof := (Holdings.retire?_eq_some.mp hg).2.2
    simp [hof, credit, debit, ordered, drawn, clawed, single_apply]
  | burnFrom spender source amount =>
    have hof := (Holdings.retire?_eq_some.mp hg).2.2
    simp [hof, credit, debit, ordered, drawn, clawed, single_apply]
  | batchTransfer source recipients =>
    have hof := (Holdings.moves?_eq_some.mp hg).2.2
    rw [hsum] at hof
    simp only [hof, Finsupp.add_apply, Finsupp.sub_apply, single_apply, sum_single_apply, credit,
      debit, ordered, drawn, clawed]
    omega
  | approve | increaseAllowance | decreaseAllowance | transferAdmin | pause | unpause =>
    obtain rfl := Option.some.inj hg
    simp [credit, debit, ordered, drawn, clawed]

/-- Nobody is brought less than nothing. -/
theorem Call.credit_nonneg {call : Call} (hg : call.onHoldings h = some g)
    (hinit : ∀ admin name symbol supply, call ≠ .initializeToken admin name symbol supply)
    (a : Address) : 0 ≤ call.credit a := by
  have hite : ∀ {x : ℤ} {b : Address}, 0 ≤ x → 0 ≤ if b = a then x else 0 := fun hx => by
    split <;> omega
  cases call with
  | initializeToken admin name symbol supply => exact absurd rfl (hinit admin name symbol supply)
  | transfer source target amount => exact hite (Holdings.move?_eq_some.mp hg).2.1
  | transferFrom spender source target amount => exact hite (Holdings.move?_eq_some.mp hg).2.1
  | mint admin target amount => exact hite (Holdings.issue?_eq_some.mp hg).1
  | batchTransfer source recipients =>
    refine List.sum_nonneg fun x hx => ?_
    obtain ⟨leg, hleg, rfl⟩ := List.mem_map.mp hx
    exact hite ((Holdings.moves?_eq_some.mp hg).1 _ (List.mem_map.mpr ⟨leg, hleg, rfl⟩)).2
  | _ => exact le_rfl

/-- A contract that is initialised is not initialised again. -/
theorem Step.ne_initializeToken {l : Call × Env} (hs : Sound s h) (hstep : Step s l s')
    (admin : Address) (name symbol : List UInt8) (supply : I128) :
    l.1 ≠ .initializeToken admin name symbol supply := by
  intro he
  rw [Step, he] at hstep
  exact (settles_initializeToken hs).returns hstep

/-- A call that commits changes a balance by what it brings and takes. -/
theorem Step.balance {l : Call × Env} (hs : Sound s h) (hstep : Step s l s') (a : Address) :
    (s'.balance a : ℤ) = s.balance a + l.1.credit a - l.1.debit a := by
  obtain ⟨g, hg, hs'⟩ := hs.step hstep
  rw [hs'.backs a, hs.backs a]
  exact Call.onHoldings_apply hg (hstep.ne_initializeToken hs) a

theorem Step.credit_nonneg {l : Call × Env} (hs : Sound s h) (hstep : Step s l s') (a : Address) :
    0 ≤ l.1.credit a := by
  obtain ⟨g, hg, -⟩ := hs.step hstep
  exact Call.credit_nonneg hg (hstep.ne_initializeToken hs) a

/-! ### Who signed -/

theorem auth_of_guardedActive {k : Unit → TokenTx Unit} {u : Unit}
    (h : (guardedActive a >>= k).Returns env s u s') : env.auth a = true := by
  rw [returns_unit_bind fun _ _ => returns_guardedActive] at h
  exact h.1.2.2

theorem auth_of_guarded {k : Unit → TokenTx Unit} {u : Unit}
    (h : (guarded a >>= k).Returns env s u s') : env.auth a = true := by
  simp only [guarded, requireInitialized, requireAuth, bind_assoc, returns_gets_bind,
    returns_rejectIf_bind, returns_ask_bind, returns_trapIf_bind] at h
  simpa using h.2.1

/-- A call that commits was signed. -/
theorem Step.signed {l : Call × Env} (hstep : Step s l s') : ∀ b ∈ l.1.signer, l.2.auth b = true := by
  obtain ⟨call, env⟩ := l
  intro b hb
  cases call with
  | initializeToken => cases hb
  | transfer | transferFrom | approve | mint | adminBurn | burn | burnFrom | batchTransfer =>
    obtain rfl := Option.some.inj hb
    exact auth_of_guardedActive hstep
  | increaseAllowance | decreaseAllowance | transferAdmin | pause | unpause =>
    obtain rfl := Option.some.inj hb
    exact auth_of_guarded hstep

/-- Who has not signed gives no order. -/
theorem Step.debit_eq {l : Call × Env} (hstep : Step s l s') (ha : l.2.auth a = false) :
    l.1.debit a = l.1.drawn a + l.1.clawed a := by
  have hne : ∀ b ∈ l.1.signer, b ≠ a := by
    rintro b hb rfl
    rw [hstep.signed b hb] at ha
    cases ha
  have hord : l.1.ordered a = 0 := by
    obtain ⟨call, env⟩ := l
    cases call with
    | transfer source target amount => exact if_neg (hne source rfl)
    | burn source amount => exact if_neg (hne source rfl)
    | batchTransfer source recipients => exact if_neg (hne source rfl)
    | _ => rfl
  rw [Call.debit, hord]
  omega

/-- Who has not signed gives no allowance. -/
theorem Step.not_renews {l : Call × Env} (hstep : Step s l s') (ha : l.2.auth a = false)
    (p : Address) : ¬l.1.renews a p := by
  have hsigned := hstep.signed
  obtain ⟨call, env⟩ := l
  intro hr
  cases call with
  | approve source spender amount expiration =>
    rw [hr.1, hsigned source rfl] at ha
    cases ha
  | increaseAllowance owner spender delta =>
    rw [hr.1, hsigned owner rfl] at ha
    cases ha
  | _ => exact hr

/-! ### Runs -/

/-- The amount put down for `p` by `a`, whether it has expired or not. -/
def State.granted (s : State) (a p : Address) : ℤ :=
  ((s.allowance a p).map fun v => (v.amount : ℤ)).getD 0

/-- What is left of an allowance that is not put anew, and what was spent of it. -/
structure Dwindles (s : State) (a p : Address) (ls : List (Call × Env)) (s' : State) : Prop where
  spent_le : spent a p ls + max (s'.granted a p) 0 ≤ max (s.granted a p) 0
  expiry : (s'.allowance a p).map AllowanceValue.expirationLedger =
    (s.allowance a p).map AllowanceValue.expirationLedger
  timely : ∀ l ∈ ls, ∀ x, l.1.draws a p = some x →
    ∃ v, s.allowance a p = some v ∧ l.2.sequence ≤ v.expirationLedger

theorem Dwindles.snoc {p : Address} {ls : List (Call × Env)} {l : Call × Env} {t : State}
    (hd : Dwindles s a p ls t) (hstep : Step t l s') (ha : l.2.auth a = false) :
    Dwindles s a p (ls ++ [l]) s' := by
  rcases hstep.allowance (hstep.not_renews ha p) with ⟨x, hcut, hx⟩ | ⟨hnone, hsame⟩
  · -- an entry that is cut is there
    obtain ⟨v, hv⟩ : ∃ v, t.allowance a p = some v := by
      refine Option.ne_none_iff_exists'.mp fun hn => ?_
      have hpos : 0 < (x : ℤ) := hcut.1
      have hle : (x : ℤ) ≤ t.getAllowance l.2.sequence a p := hcut.2.1
      rw [State.getAllowance, hn] at hle
      exact absurd (hle.trans_lt hpos) (by simp)
    obtain ⟨hseq, rest, hrest, hnonneg, hs'⟩ := hcut.entry hv
    have hpos : 0 < (x : ℤ) := hcut.1
    have hgt : t.granted a p = v.amount := by rw [State.granted, hv]; rfl
    have hgs : s'.granted a p = rest := by rw [State.granted, hs']; rfl
    have hspent : spent a p [l] ≤ x := by
      cases hdraw : l.1.draws a p with
      | none => rw [spent_of_none hdraw]; exact hpos.le
      | some y => rw [spent_of_draws hdraw, hx y hdraw]
    have hexp : (t.allowance a p).map AllowanceValue.expirationLedger =
        (s.allowance a p).map AllowanceValue.expirationLedger := hd.expiry
    rw [hv] at hexp
    obtain ⟨u, hu, hue⟩ := Option.map_eq_some_iff.mp hexp.symm
    refine ⟨?_, ?_, ?_⟩
    · have hle := hd.spent_le
      rw [hgt] at hle
      rw [spent_append, hgs]
      omega
    · rw [hs', hu]
      exact congrArg some hue.symm
    · intro k hk y hy
      rcases List.mem_append.mp hk with hk | hk
      · exact hd.timely k hk y hy
      · obtain rfl := List.mem_singleton.mp hk
        exact ⟨u, hu, hue ▸ hseq⟩
  · refine ⟨?_, by rw [hsame]; exact hd.expiry, ?_⟩
    · have hle := hd.spent_le
      have hgs : s'.granted a p = t.granted a p := by rw [State.granted, hsame]; rfl
      rw [spent_append, spent_of_none hnone, hgs]
      omega
    · intro k hk y hy
      rcases List.mem_append.mp hk with hk | hk
      · exact hd.timely k hk y hy
      · rw [List.mem_singleton.mp hk, hnone] at hy
        cases hy

/-- Over a run in which `a` signs nothing, what it has changes by what it is sent, by what
spenders draw and by what the admin burns; and a spender draws no more than it had been
granted before the run, and nothing after the last ledger of that allowance. -/
theorem holder_protected (hr : Reachable s) {ls : List (Call × Env)} (hrun : Run Step s ls s')
    (a : Address) (hsign : ∀ l ∈ ls, l.2.auth a = false) :
    (s'.balance a : ℤ) + (ls.map fun l => l.1.drawn a).sum + (ls.map fun l => l.1.clawed a).sum =
        s.balance a + (ls.map fun l => l.1.credit a).sum ∧
      ∀ p, spent a p ls ≤ max (s.granted a p) 0 ∧ ∀ l ∈ ls, ∀ x, l.1.draws a p = some x →
        ∃ v, s.allowance a p = some v ∧ l.2.sequence ≤ v.expirationLedger := by
  have key : (∃ h, Sound s' h) ∧ ((∀ l ∈ ls, l.2.auth a = false) →
      (s'.balance a : ℤ) + (ls.map fun l => l.1.drawn a).sum + (ls.map fun l => l.1.clawed a).sum =
        s.balance a + (ls.map fun l => l.1.credit a).sum ∧ ∀ p, Dwindles s a p ls s') := by
    refine hrun.inv_hist (I := fun ks x => (∃ h, Sound x h) ∧ ((∀ l ∈ ks, l.2.auth a = false) →
      (x.balance a : ℤ) + (ks.map fun l => l.1.drawn a).sum + (ks.map fun l => l.1.clawed a).sum =
        s.balance a + (ks.map fun l => l.1.credit a).sum ∧ ∀ p, Dwindles s a p ks x)) ?_ ?_
    · refine ⟨hr.sound, fun _ => ⟨by simp, fun p => ⟨by simp [spent], rfl, ?_⟩⟩⟩
      intro l hl
      cases hl
    · intro ks x l y _ ih hstep
      obtain ⟨⟨h, hs⟩, ih⟩ := ih
      obtain ⟨g, -, hg⟩ := hs.step hstep
      refine ⟨⟨g, hg⟩, fun hks => ?_⟩
      obtain ⟨hbal, hd⟩ := ih fun k hk => hks k (by simp [hk])
      have hl : l.2.auth a = false := hks l (by simp)
      refine ⟨?_, fun p => (hd p).snoc hstep hl⟩
      have hb := hstep.balance hs a
      have hdeb := hstep.debit_eq hl
      simp only [List.map_append, List.sum_append, List.map_cons, List.map_nil, List.sum_cons,
        List.sum_nil]
      omega
  obtain ⟨hbal, hd⟩ := key.2 hsign
  refine ⟨hbal, fun p => ⟨?_, (hd p).timely⟩⟩
  have hle := (hd p).spent_le
  omega

open Deployment in
/-- The company has an allowance of 200 out and signs nothing: it is sent 40, a spender
draws 50 of the 200, and the admin burns 10. -/
theorem holder_protected_company : ∃ s s' ls, Reachable s ∧ Run Step s ls s' ∧
    (∀ l ∈ ls, l.2.auth company = false) ∧ (s.balance company : ℤ) = 300 ∧
    (s'.balance company : ℤ) + 50 + 10 = 300 + 40 ∧ spent company carrier ls ≤ 200 := by
  obtain ⟨ls, hls⟩ : ∃ ls : List (Call × Env), ls = [
      (.transfer admin company ⟨40, by decide, by decide⟩, signedBy admin 4),
      (.transferFrom carrier company receiver ⟨50, by decide, by decide⟩, signedBy carrier 5),
      (.adminBurn admin company ⟨10, by decide, by decide⟩, signedBy admin 6)] := ⟨_, rfl⟩
  have hplay : (playFrom admin ⟨1000, by decide, by decide⟩ (signedBy admin 1) [
      (.transfer admin company ⟨300, by decide, by decide⟩, signedBy admin 2),
      (.approve company carrier ⟨200, by decide, by decide⟩ 9, signedBy company 3)]).any (fun s =>
        decide ((s.balance company : ℤ) = 300 ∧ s.granted company carrier = 200) &&
        (play s ls).isSome) = true := by
    rw [hls]
    decide +kernel
  obtain ⟨s, hs, h⟩ := (Option.any_eq_true _ _).mp hplay
  simp only [Bool.and_eq_true, decide_eq_true_eq, Option.isSome_iff_exists] at h
  obtain ⟨⟨hbal, hgranted⟩, s', hs'⟩ := h
  have hquiet : ∀ l ∈ ls, l.2.auth company = false := by
    rw [hls]
    decide
  obtain ⟨hsum, hspent⟩ :=
    holder_protected (reachable_of_playFrom hs) (run_of_play hs') company hquiet
  refine ⟨s, s', ls, reachable_of_playFrom hs, run_of_play hs', hquiet, hbal, ?_, ?_⟩
  · rw [hbal, hls] at hsum
    exact hsum
  · have hle := (hspent carrier).1
    rw [hgranted] at hle
    exact hle

end NavinToken

end Navin
