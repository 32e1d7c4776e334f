/-
# Spending on an allowance

An approval puts down an amount and a last ledger. Until the allowance is put anew, what is
left of it and what has been taken on it add up to no more than that amount: a spender
takes off the entry what it moves or burns, a decrease takes off and moves nothing, and no
other call touches the entry. The last ledger stays with it, and once it has passed the
allowance reads as zero, so that nothing is taken any more, not even by a decrease.

Key definitions:
- `Cuts`: what spending and decreasing do to the entry of a pair;
- `Call.renews`, `Call.draws`: the calls that put an allowance anew, and those that spend on it;
- `spent`: what the calls of a run take on an allowance, by their arguments;
- `Booked`: the steps, with what they take from the balance of the owner.

Key theorems:
- `Step.allowance`: what a call does to the entry of a pair;
- `Step.loss_eq`: what a call spends leaves the balance of the owner;
- `allowance_bounds_spending`: after an approval no more than the amount is spent, and
  nothing after the last ledger.
-/
import Navin.NavinToken.Contract

namespace Navin

namespace NavinToken

open Tx

variable {s s' : State} {env : Env} {a b c o p : Address} {x : I128}

/-! ### A table with two keys -/

section

variable {α β γ : Type} [DecidableEq α] [DecidableEq β] {f : α → β → γ} {i i' : α} {j j' : β} {v : γ}

theorem update₂_self : update₂ f i j v i j = v := by simp [update₂]

theorem update₂_of_ne (hne : ¬(i' = i ∧ j' = j)) : update₂ f i j v i' j' = f i' j' := by
  unfold update₂
  by_cases hi : i' = i
  · subst hi
    rw [Function.update_self, Function.update_of_ne fun hj => hne ⟨rfl, hj⟩]
  · rw [Function.update_of_ne hi]

end

/-! ### Calls that touch no allowance -/

section Frames

instance : Preserves State.allowance (setAdmin a) := .modify fun _ => rfl

instance {name : List UInt8} : Preserves State.allowance (setName name) := .modify fun _ => rfl

instance {symbol : List UInt8} : Preserves State.allowance (setSymbol symbol) :=
  .modify fun _ => rfl

instance : Preserves State.allowance (setTotalSupply x) := .modify fun _ => rfl

instance : Preserves State.allowance (setBalance a x) := .modify fun _ => rfl

instance {paused : Bool} : Preserves State.allowance (setPaused paused) := .modify fun _ => rfl

instance {event : TokenEvent} : Preserves State.allowance (publish event) := .modify fun _ => rfl

instance : Preserves State.allowance getAdmin := by unfold getAdmin; infer_instance

instance : Preserves State.allowance getTotalSupply := by unfold getTotalSupply; infer_instance

instance : Preserves State.allowance (getBalance a) := by unfold getBalance; infer_instance

instance : Preserves State.allowance requireInitialized := by
  unfold requireInitialized; infer_instance

instance : Preserves State.allowance requireNotPaused := by unfold requireNotPaused; infer_instance

instance : Preserves State.allowance (requireAuth a) := by unfold requireAuth; infer_instance

instance : Preserves State.allowance (requireAdmin a) := by unfold requireAdmin; infer_instance

instance : Preserves State.allowance (guarded a) := by unfold guarded; infer_instance

instance : Preserves State.allowance (guardedActive a) := by unfold guardedActive; infer_instance

instance {name symbol : List UInt8} :
    Preserves State.allowance (initializeToken a name symbol x) := by
  unfold initializeToken; infer_instance

instance : Preserves State.allowance (transfer a b x) := by unfold transfer; infer_instance

instance : Preserves State.allowance (transferAdmin a b) := by unfold transferAdmin; infer_instance

instance : Preserves State.allowance (mint c b x) := by unfold mint; infer_instance

instance : Preserves State.allowance (adminBurn c a x) := by unfold adminBurn; infer_instance

instance : Preserves State.allowance (burn a x) := by unfold burn; infer_instance

instance {paused : Bool} {event : TokenEvent} :
    Preserves State.allowance (switchPause a paused event) := by
  unfold switchPause; infer_instance

instance {total : I128} {leg : Address × I128} : Preserves State.allowance (checkLeg a total leg) := by
  unfold checkLeg; infer_instance

instance {leg : Address × I128} : Preserves State.allowance (creditLeg leg) := by
  unfold creditLeg; infer_instance

instance {recipients : List (Address × I128)} :
    Preserves State.allowance (batchTransfer a recipients) := by
  unfold batchTransfer; infer_instance

/-- A call that touches no allowance leaves all of them. -/
theorem allowance_eq {m : TokenTx Unit} [Preserves State.allowance m]
    (h : m.Returns env s () s') : s'.allowance = s.allowance :=
  (Preserves.wp (m := m) State.allowance (Q := fun _ s' => s'.allowance = s.allowance)
    fun _ _ h' => h').of_returns h

end Frames

/-! ### Calls that cut an allowance -/

/-- The allowance of `p` on `o` covers the amount and loses it; the last ledger stays. -/
def Cuts (sequence : ℕ) (o p : Address) (x : I128) (s s' : State) : Prop :=
  0 < x ∧ x ≤ s.getAllowance sequence o p ∧
    ∃ rest : I128, (rest : ℤ) = s.getAllowance sequence o p - x ∧
      s'.allowance = update₂ s.allowance o p (some ⟨rest, s.getExpirationLedger o p⟩)

/-- The amount is cut from the allowance and taken from the balance. -/
theorem takes_transferFrom (h : (transferFrom p o b x).Returns env s () s') :
    Cuts env.sequence o p x s s' ∧ (s'.balance o : ℤ) = s.balance o - x := by
  rw [transferFrom, returns_unit_bind fun _ _ => returns_guardedActive] at h
  simp only [getAllowance, getBalance, getExpirationLedger, setBalance, setAllowance, publish,
    bind_assoc, returns_rejectIf_bind, returns_gets_bind, returns_ask_bind, returns_unwrap_bind,
    returns_modify_bind, returns_modify, I128.not_le, I128.not_lt, I128.checkedSub_eq_some] at h
  obtain ⟨-, hx, hne, hallow, -, y, hy, -, -, rest, hrest, rfl⟩ := h
  refine ⟨⟨hx, hallow, rest, hrest, rfl⟩, ?_⟩
  show (Function.update (Function.update s.balance o y) b _ o : ℤ) = _
  rw [Function.update_of_ne hne, Function.update_self, hy]

theorem takes_burnFrom (h : (burnFrom p o x).Returns env s () s') :
    Cuts env.sequence o p x s s' ∧ (s'.balance o : ℤ) = s.balance o - x := by
  rw [burnFrom, returns_unit_bind fun _ _ => returns_guardedActive] at h
  simp only [getAllowance, getBalance, getExpirationLedger, getTotalSupply, setTotalSupply,
    setBalance, setAllowance, publish, bind_assoc, returns_rejectIf_bind, returns_gets_bind,
    returns_ask_bind, returns_unwrap_bind, returns_modify_bind, returns_modify, I128.not_le,
    I128.not_lt, I128.checkedSub_eq_some] at h
  obtain ⟨-, hx, hallow, -, -, -, -, -, y, hy, rest, hrest, rfl⟩ := h
  refine ⟨⟨hx, hallow, rest, hrest, rfl⟩, ?_⟩
  show (Function.update s.balance o y o : ℤ) = _
  rw [Function.update_self, hy]

theorem cuts_decreaseAllowance (h : (decreaseAllowance o p x).Returns env s () s') :
    Cuts env.sequence o p x s s' := by
  simp only [decreaseAllowance, guarded, requireInitialized, requireAuth, getAllowance,
    getExpirationLedger, setAllowance, publish, bind_assoc, returns_rejectIf_bind,
    returns_gets_bind, returns_ask_bind, returns_trapIf_bind, returns_okOr_bind,
    returns_modify_bind, returns_modify, I128.not_le, I128.not_lt, I128.checkedSub_eq_some] at h
  obtain ⟨-, -, hx, -, hallow, rest, hrest, rfl⟩ := h
  exact ⟨hx, hallow, rest, hrest, rfl⟩

/-- What an entry is cut to. An expired entry is not cut. -/
theorem Cuts.entry {sequence : ℕ} {v : AllowanceValue} (h : Cuts sequence o p x s s')
    (hv : s.allowance o p = some v) : sequence ≤ v.expirationLedger ∧
      ∃ rest : I128, (rest : ℤ) = v.amount - x ∧ 0 ≤ (rest : ℤ) ∧
        s'.allowance o p = some ⟨rest, v.expirationLedger⟩ := by
  obtain ⟨hx, hallow, rest, hrest, hs'⟩ := h
  have hpos : 0 < (x : ℤ) := hx
  have hle : (x : ℤ) ≤ s.getAllowance sequence o p := hallow
  have hread : s.getAllowance sequence o p =
      if sequence ≤ v.expirationLedger then v.amount else 0 := by
    simp only [State.getAllowance, hv]
  by_cases he : sequence ≤ v.expirationLedger
  · rw [if_pos he] at hread
    rw [hread] at hrest hle
    refine ⟨he, rest, hrest, by omega, ?_⟩
    rw [hs', update₂_self, State.getExpirationLedger, hv]
    rfl
  · rw [if_neg he] at hread
    rw [hread] at hle
    exact absurd (hle.trans_lt hpos) (by simp)

/-- The entries of the other pairs stay. -/
theorem Cuts.other {sequence : ℕ} {o' p' : Address} (h : Cuts sequence o p x s s')
    (hne : ¬(o' = o ∧ p' = p)) : s'.allowance o' p' = s.allowance o' p' := by
  obtain ⟨-, -, rest, -, hs'⟩ := h
  rw [hs', update₂_of_ne hne]

/-! ### Calls that put an allowance anew -/

theorem returns_approve {e : ℕ} (h : (approve o p x e).Returns env s () s') :
    0 ≤ (x : ℤ) ∧ s'.allowance = update₂ s.allowance o p (some ⟨x, e⟩) := by
  rw [approve, returns_unit_bind fun _ _ => returns_guardedActive] at h
  simp only [setAllowance, publish, returns_rejectIf_bind, returns_ask_bind, returns_modify_bind,
    returns_modify, I128.not_lt] at h
  obtain ⟨-, hx, -, -, rfl⟩ := h
  exact ⟨hx, rfl⟩

/-- The amount is added to what is read as the allowance of `p` on `o`; the last ledger
stays. -/
def Adds (sequence : ℕ) (o p : Address) (x : I128) (s s' : State) : Prop :=
  0 < x ∧ ∃ sum : I128, (sum : ℤ) = s.getAllowance sequence o p + x ∧
    s'.allowance = update₂ s.allowance o p (some ⟨sum, s.getExpirationLedger o p⟩)

theorem adds_increaseAllowance (h : (increaseAllowance o p x).Returns env s () s') :
    Adds env.sequence o p x s s' := by
  simp only [increaseAllowance, guarded, requireInitialized, requireAuth, getAllowance,
    getExpirationLedger, setAllowance, publish, bind_assoc, returns_rejectIf_bind,
    returns_gets_bind, returns_ask_bind, returns_trapIf_bind, returns_okOr_bind,
    returns_modify_bind, returns_modify, I128.not_le, I128.checkedAdd_eq_some] at h
  obtain ⟨-, -, hx, -, sum, hsum, rfl⟩ := h
  exact ⟨hx, sum, hsum, rfl⟩

/-! ### Every call -/

/-- The call puts the allowance of `p` on `o` anew. -/
def Call.renews (o p : Address) : Call → Prop
  | .approve source spender .. => o = source ∧ p = spender
  | .increaseAllowance owner spender _ => o = owner ∧ p = spender
  | _ => False

/-- What the call takes from `o` on the allowance of `p`. -/
def Call.draws (o p : Address) : Call → Option I128
  | .transferFrom spender source _ amount => if o = source ∧ p = spender then some amount else none
  | .burnFrom spender source amount => if o = source ∧ p = spender then some amount else none
  | _ => none

/-- What all the calls of a run take from `o` on the allowance of `p`. -/
def spent (o p : Address) (ls : List (Call × Env)) : ℤ :=
  ((ls.filterMap fun l => l.1.draws o p).map I128.val).sum

/-- What the balance of `o` loses in a step in which `p` spends on its allowance. -/
def loss (o p : Address) (s : State) (l : Call × Env) (s' : State) : ℤ :=
  if l.1.draws o p = none then 0 else s.balance o - s'.balance o

/-- The state, and what was taken so far from the balance of an owner on an allowance. -/
structure Account where
  state : State
  taken : ℤ

/-- A step whose loss is booked. -/
inductive Booked (o p : Address) : Account → Call × Env → Account → Prop
  | mk {d : Account} {l : Call × Env} {s : State} : Step d.state l s →
      Booked o p d l ⟨s, d.taken + loss o p d.state l s⟩

/-- A call that does not put the allowance anew either cuts it, by what it spends if it
spends on it, or spends nothing on it and leaves it. -/
theorem Step.allowance {l : Call × Env} (h : Step s l s') (hr : ¬l.1.renews o p) :
    (∃ x, Cuts l.2.sequence o p x s s' ∧ ∀ y, l.1.draws o p = some y → y = x) ∨
      l.1.draws o p = none ∧ s'.allowance o p = s.allowance o p := by
  obtain ⟨call, env⟩ := l
  cases call with
  | transferFrom spender source target amount =>
    have hc := (takes_transferFrom h).1
    by_cases hpair : o = source ∧ p = spender
    · obtain ⟨rfl, rfl⟩ := hpair
      exact .inl ⟨amount, hc, fun y hy => by simpa [Call.draws] using hy.symm⟩
    · exact .inr ⟨if_neg hpair, hc.other hpair⟩
  | burnFrom spender source amount =>
    have hc := (takes_burnFrom h).1
    by_cases hpair : o = source ∧ p = spender
    · obtain ⟨rfl, rfl⟩ := hpair
      exact .inl ⟨amount, hc, fun y hy => by simpa [Call.draws] using hy.symm⟩
    · exact .inr ⟨if_neg hpair, hc.other hpair⟩
  | decreaseAllowance owner spender delta =>
    have hc := cuts_decreaseAllowance h
    by_cases hpair : o = owner ∧ p = spender
    · obtain ⟨rfl, rfl⟩ := hpair
      exact .inl ⟨delta, hc, fun y hy => absurd hy (by simp [Call.draws])⟩
    · exact .inr ⟨rfl, hc.other hpair⟩
  | approve source spender amount expiration =>
    obtain ⟨-, hs'⟩ := returns_approve h
    exact .inr ⟨rfl, by rw [hs', update₂_of_ne hr]⟩
  | increaseAllowance owner spender delta =>
    obtain ⟨-, sum, -, hs'⟩ := adds_increaseAllowance h
    exact .inr ⟨rfl, by rw [hs', update₂_of_ne hr]⟩
  | initializeToken admin name symbol supply =>
    exact .inr ⟨rfl, by rw [allowance_eq (m := initializeToken admin name symbol supply) h]⟩
  | transfer source target amount =>
    exact .inr ⟨rfl, by rw [allowance_eq (m := transfer source target amount) h]⟩
  | transferAdmin currentAdmin newAdmin =>
    exact .inr ⟨rfl, by rw [allowance_eq (m := transferAdmin currentAdmin newAdmin) h]⟩
  | mint admin target amount =>
    exact .inr ⟨rfl, by rw [allowance_eq (m := mint admin target amount) h]⟩
  | adminBurn admin source amount =>
    exact .inr ⟨rfl, by rw [allowance_eq (m := adminBurn admin source amount) h]⟩
  | burn source amount =>
    exact .inr ⟨rfl, by rw [allowance_eq (m := burn source amount) h]⟩
  | pause admin =>
    exact .inr ⟨rfl, by rw [allowance_eq (m := switchPause admin true _) h]⟩
  | unpause admin =>
    exact .inr ⟨rfl, by rw [allowance_eq (m := switchPause admin false _) h]⟩
  | batchTransfer source recipients =>
    exact .inr ⟨rfl, by rw [allowance_eq (m := batchTransfer source recipients) h]⟩

/-- What a call spends leaves the balance of the owner. -/
theorem Step.loss_eq {l : Call × Env} (h : Step s l s') : loss o p s l s' = spent o p [l] := by
  obtain ⟨call, env⟩ := l
  unfold loss
  split
  · rename_i hnone
    simp [spent, hnone]
  · rename_i hdraws
    have hsome : ∃ x, call.draws o p = some x ∧ (s'.balance o : ℤ) = s.balance o - x := by
      cases call with
      | transferFrom spender source target amount =>
        by_cases hpair : o = source ∧ p = spender
        · obtain ⟨rfl, rfl⟩ := hpair
          exact ⟨amount, if_pos ⟨rfl, rfl⟩, (takes_transferFrom h).2⟩
        · exact absurd (if_neg hpair) hdraws
      | burnFrom spender source amount =>
        by_cases hpair : o = source ∧ p = spender
        · obtain ⟨rfl, rfl⟩ := hpair
          exact ⟨amount, if_pos ⟨rfl, rfl⟩, (takes_burnFrom h).2⟩
        · exact absurd (if_neg hpair) hdraws
      | _ => exact absurd rfl hdraws
    obtain ⟨x, hx, hbal⟩ := hsome
    simp [spent, hx, hbal]

/-! ### Every run -/

theorem spent_append (ks ls : List (Call × Env)) :
    spent o p (ks ++ ls) = spent o p ks + spent o p ls := by
  simp [spent]

theorem spent_of_draws {l : Call × Env} (h : l.1.draws o p = some x) : spent o p [l] = x := by
  simp [spent, h]

theorem spent_of_none {l : Call × Env} (h : l.1.draws o p = none) : spent o p [l] = 0 := by
  simp [spent, h]

/-- What is booked is what the calls say. -/
theorem Booked.taken_eq {d d' : Account} {ls : List (Call × Env)} (h : Run (Booked o p) d ls d') :
    Run Step d.state ls d'.state ∧ d'.taken = d.taken + spent o p ls := by
  refine h.inv_hist (I := fun ks x => Run Step d.state ks x.state ∧
    x.taken = d.taken + spent o p ks) ⟨.nil, by simp [spent]⟩ ?_
  rintro ks x l - - ⟨hrun, htaken⟩ ⟨hstep⟩
  refine ⟨.snoc hrun hstep, ?_⟩
  rw [htaken, spent_append, hstep.loss_eq, add_assoc]

/-- Every run is booked. -/
theorem exists_booked {ls : List (Call × Env)} (h : Run Step s ls s') (o p : Address) (x : ℤ) :
    ∃ y, Run (Booked o p) ⟨s, x⟩ ls ⟨s', y⟩ := by
  induction h with
  | nil => exact ⟨x, .nil⟩
  | snoc _ hl ih =>
    obtain ⟨y, hy⟩ := ih
    exact ⟨_, .snoc hy (.mk hl)⟩

/-- What is left of an approval and what was spent on it are no more than the amount, and
nothing is spent after the last ledger. -/
theorem spent_le {owner spender : Address} {a : I128} {e : ℕ} {s₀ s₁ : State}
    {ls : List (Call × Env)} (happrove : Step s₀ (.approve owner spender a e, env) s₁)
    (hrun : Run Step s₁ ls s) (hls : ∀ l ∈ ls, ¬l.1.renews owner spender) :
    spent owner spender ls ≤ a ∧
      ∀ l ∈ ls, l.1.draws owner spender ≠ none → l.2.sequence ≤ e := by
  -- what is left and what is spent stay below the amount, and the last ledger stays
  have hinv : (∀ l ∈ ls, ¬l.1.renews owner spender) →
      ∃ rest : I128, s.allowance owner spender = some ⟨rest, e⟩ ∧ 0 ≤ (rest : ℤ) ∧
        rest + spent owner spender ls ≤ a ∧
        ∀ l ∈ ls, l.1.draws owner spender ≠ none → l.2.sequence ≤ e := by
    refine hrun.inv_hist (I := fun ls s => (∀ l ∈ ls, ¬l.1.renews owner spender) →
      ∃ rest : I128, s.allowance owner spender = some ⟨rest, e⟩ ∧ 0 ≤ (rest : ℤ) ∧
        rest + spent owner spender ls ≤ a ∧
        ∀ l ∈ ls, l.1.draws owner spender ≠ none → l.2.sequence ≤ e) ?_ ?_
    · intro _
      obtain ⟨ha, hs₁⟩ := returns_approve happrove
      refine ⟨a, by rw [hs₁, update₂_self], ha, ?_, by simp⟩
      simp [spent]
    · intro ks t l t' _ ih hstep hks
      rw [List.forall_mem_append] at hks
      obtain ⟨rest, hrest, hnonneg, hsum, hdue⟩ := ih hks.1
      rcases hstep.allowance (hks.2 l (by simp)) with ⟨x, hcut, hdraw⟩ | ⟨hdraw, hsame⟩
      · obtain ⟨hseq, rest', hrest', hnonneg', ht'⟩ := hcut.entry hrest
        have hleft : (rest' : ℤ) = rest - x := hrest'
        have hpos : 0 < (x : ℤ) := hcut.1
        have hone : spent owner spender [l] ≤ x := by
          cases hd : l.1.draws owner spender with
          | none => rw [spent_of_none hd]; omega
          | some y => rw [spent_of_draws hd, hdraw y hd]
        refine ⟨rest', ht', hnonneg', ?_, ?_⟩
        · rw [spent_append]
          omega
        · rw [List.forall_mem_append]
          refine ⟨hdue, ?_⟩
          simpa using fun _ => hseq
      · refine ⟨rest, hsame.trans hrest, hnonneg, ?_, ?_⟩
        · rw [spent_append, spent_of_none hdraw]
          omega
        · rw [List.forall_mem_append]
          exact ⟨hdue, by simp [hdraw]⟩
  obtain ⟨rest, -, hnonneg, hsum, hdue⟩ := hinv hls
  exact ⟨by omega, hdue⟩

/-- After an approval of `a` up to the ledger `e`, and until the next approval or increase
for the pair, the calls that spend on it take from the balance of the owner what they name,
and together no more than `a`; and none of them goes through after `e`. -/
theorem allowance_bounds_spending {owner spender : Address} {a : I128} {e : ℕ} {s₀ s₁ : State} {x : ℤ}
    {ls : List (Call × Env)} (happrove : Step s₀ (.approve owner spender a e, env) s₁)
    (hrun : Run (Booked owner spender) ⟨s₁, 0⟩ ls ⟨s, x⟩)
    (hls : ∀ l ∈ ls, ¬l.1.renews owner spender) :
    x = spent owner spender ls ∧ x ≤ a ∧
      ∀ l ∈ ls, l.1.draws owner spender ≠ none → l.2.sequence ≤ e := by
  obtain ⟨hrun, htaken⟩ := Booked.taken_eq hrun
  have hx : x = spent owner spender ls := htaken.trans (zero_add _)
  obtain ⟨hle, hdue⟩ := spent_le happrove hrun hls
  exact ⟨hx, hx.trans_le hle, hdue⟩

open Deployment in
/-- The opening's allowance of 200: 80 are spent, 40 taken off, 70 more are spent. -/
theorem allowance_bounds_spending_opening : ∃ s₀ s₁ s ls x,
    Step s₀ (.approve company carrier ⟨200, by decide, by decide⟩ 9, signedBy company 3) s₁ ∧
    Run (Booked company carrier) ⟨s₁, 0⟩ ls ⟨s, x⟩ ∧ ls.length = 4 ∧ x = 150 ∧ x ≤ 200 ∧
    ∀ l ∈ ls, l.1.draws company carrier ≠ none → l.2.sequence ≤ 9 := by
  obtain ⟨ls, hls⟩ : ∃ ls : List (Call × Env), ls = [
      (.transferFrom carrier company receiver ⟨50, by decide, by decide⟩, signedBy carrier 4),
      (.burnFrom carrier company ⟨30, by decide, by decide⟩, signedBy carrier 6),
      (.decreaseAllowance company carrier ⟨40, by decide, by decide⟩, signedBy company 7),
      (.transferFrom carrier company receiver ⟨70, by decide, by decide⟩, signedBy carrier 9)] :=
    ⟨_, rfl⟩
  obtain ⟨s, hs⟩ : ∃ s, playFrom admin ⟨1000, by decide, by decide⟩ (signedBy admin 1)
      ((.transfer admin company ⟨300, by decide, by decide⟩, signedBy admin 2) ::
        (.approve company carrier ⟨200, by decide, by decide⟩ 9, signedBy company 3) :: ls) =
      some s := by
    rw [hls]
    exact Option.isSome_iff_exists.mp (by decide +kernel)
  obtain ⟨_, -, hrun⟩ := (run_of_play hs).uncons
  obtain ⟨s₀, -, hrun⟩ := hrun.uncons
  obtain ⟨s₁, happrove, hrun⟩ := hrun.uncons
  obtain ⟨x, hx⟩ := exists_booked hrun company carrier 0
  have hquiet : ∀ l ∈ ls, ¬l.1.renews company carrier := by
    rw [hls]
    simp [Call.renews]
  obtain ⟨hspent, hle, hdue⟩ := allowance_bounds_spending happrove hx hquiet
  refine ⟨s₀, s₁, s, ls, x, happrove, hx, by rw [hls]; rfl, ?_, hle, hdue⟩
  rw [hspent, hls]
  rfl

end NavinToken

end Navin
