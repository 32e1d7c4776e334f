/-
# The supply of the token

A state of the token stands for holdings: what each address has, none of it below zero,
with the stored supply as the total. Every call does to the holdings what its name says,
and since no balance is above the supply, which is an `i128`, none of the plain sums and
differences overflows.

Key definitions:
- `Sound s h`: the state `s` stands for the holdings `h`;
- `Call.onHoldings`: what a call does to holdings.

Key theorems:
- `Call.settles`: a call does that and nothing else to the amounts, and traps only for
  want of the signature;
- `supply_conserved`: in every reachable state the balances add up to the supply, none
  is negative, and no arithmetic of any call overflows.
-/
import Navin.Lib.Holdings
import Navin.NavinToken.Contract

namespace Navin

namespace NavinToken

open Tx

/-! ### States and holdings -/

/-- The balances are the holdings. -/
def Backs (balance : Address → I128) (h : Holdings Address ℤ) : Prop := ∀ a, (balance a : ℤ) = h a

/-- The state, once initialised, stands for these holdings, and its supply is their total. -/
structure Sound (s : State) (h : Holdings Address ℤ) : Prop where
  initialized : s.isInitialized = true
  backs : Backs s.balance h
  supply : ∃ t : I128, s.totalSupply = some t ∧ (t : ℤ) = h.total

variable {balance : Address → I128} {h g : Holdings Address ℤ} {a b : Address} {p x : I128}

/-- One balance changes by an amount. -/
theorem Backs.shift (hb : Backs balance h) {d : ℤ} (hp : (p : ℤ) = balance a + d)
    (hg : g.of = h.of + Finsupp.single a d) : Backs (Function.update balance a p) g := by
  intro c
  rw [hg, Finsupp.add_apply]
  by_cases hc : c = a
  · subst hc
    rw [Function.update_self, Finsupp.single_eq_same, hp, hb c]
  · rw [Function.update_of_ne hc, Finsupp.single_eq_of_ne hc, add_zero, hb c]

/-- A credit issues. -/
theorem Backs.credit (hb : Backs balance h) (hx : 0 ≤ (x : ℤ)) (hp : (p : ℤ) = balance a + x) :
    ∃ g, h.issue? a x = some g ∧ Backs (Function.update balance a p) g :=
  ⟨_, dif_pos hx, hb.shift hp rfl⟩

/-- A debit that is covered retires. -/
theorem Backs.debit (hb : Backs balance h) (hx : 0 ≤ (x : ℤ)) (hle : x ≤ balance a)
    (hp : (p : ℤ) = balance a - x) :
    ∃ g, h.retire? a x = some g ∧ Backs (Function.update balance a p) g := by
  have hle' : (x : ℤ) ≤ h a := (hb a).symm ▸ hle
  refine ⟨_, dif_pos ⟨hx, hle'⟩, hb.shift (d := -x) hp ?_⟩
  rw [Finsupp.single_neg, ← sub_eq_add_neg]

/-- A debit and a credit of someone else move. -/
theorem Backs.move {q : I128} (hb : Backs balance h) (hab : a ≠ b) (hx : 0 ≤ (x : ℤ))
    (hle : x ≤ balance a) (hp : (p : ℤ) = balance a - x) (hq : (q : ℤ) = balance b + x) :
    ∃ g, h.move? a b x = some g ∧ Backs (Function.update (Function.update balance a p) b q) g := by
  obtain ⟨k, hk, hbk⟩ := hb.debit hx hle hp
  rw [← Function.update_of_ne hab.symm p balance] at hq
  obtain ⟨g, hg, hbg⟩ := hbk.credit hx hq
  refine ⟨g, ?_, hbg⟩
  rw [Holdings.move?_of_ne hab, hk]
  exact hg

theorem Backs.nonneg (hb : Backs balance h) (a : Address) : 0 ≤ (balance a : ℤ) := by
  rw [hb a]
  exact h.zero_le a

/-- Burning: the balance and the supply go down by the same amount. -/
theorem Sound.burn {s : State} {t n : I128} (hs : Sound s h) (ht : s.totalSupply = some t)
    (hx : 0 < x) (hle : x ≤ s.balance a) (hp : (p : ℤ) = s.balance a - x) (hn : (n : ℤ) = t - x) :
    ∃ g, h.retire? a x = some g ∧ Backs (Function.update s.balance a p) g ∧ (n : ℤ) = g.total := by
  obtain ⟨t', ht', hsum⟩ := hs.supply
  cases ht.symm.trans ht'
  obtain ⟨g, hg, hbg⟩ := hs.backs.debit (I128.nonneg_of_pos hx) hle hp
  exact ⟨g, hg, hbg, by rw [hn, hsum, Holdings.total_of_retire? hg]⟩

/-- Nobody has more than the supply. -/
theorem Sound.le_supply {s : State} {t : I128} (hs : Sound s h) (ht : s.totalSupply = some t)
    (a : Address) : (s.balance a : ℤ) ≤ t := by
  obtain ⟨t', ht', hsum⟩ := hs.supply
  cases ht.symm.trans ht'
  rw [hs.backs a, hsum]
  exact h.le_total a

/-! ### What each call does to the holdings -/

variable {s : State} {env : Env} {c : Address}

theorem settles_transfer (hb : Backs s.balance h) : (transfer a b x).Settles env s
    (fun _ s' => s.Admits env a ∧ 0 < x ∧ ∃ g, h.move? a b x = some g ∧ Backs s'.balance g ∧
      s' = { s with balance := s'.balance, events := s.events ++ [.transfer a b x] })
    (env.auth a = false) := by
  simp only [transfer, settles_bind, settles_guardedActive, settles_rejectIf, settles_getBalance,
    settles_okOr_sub, settles_okOr_add, settles_setBalance, settles_publish, I128.not_le,
    I128.not_lt]
  intro hadm hx hab hle p hp q hq
  obtain ⟨g, hg, hbg⟩ := hb.move hab (I128.nonneg_of_pos hx) hle hp hq
  exact ⟨hadm, hx, g, hg, hbg, trivial⟩

theorem settles_transferFrom (hs : Sound s h) : (transferFrom c a b x).Settles env s
    (fun _ s' => ∃ g, h.move? a b x = some g ∧ Sound s' g) (env.auth c = false) := by
  simp only [transferFrom, settles_bind, settles_guardedActive, settles_rejectIf,
    settles_getBalance, settles_getAllowance, settles_getExpirationLedger, settles_setBalance,
    settles_setAllowance, settles_publish, I128.not_le, I128.not_lt]
  intro hadm hx hab hallow hle
  have hx' : 0 ≤ (x : ℤ) := I128.nonneg_of_pos hx
  obtain ⟨t, ht, hsum⟩ := hs.supply
  rw [settles_unwrap_sub hx' hle]
  intro p hp
  -- what the source has lost is room for the target
  obtain ⟨k, hk, hbk⟩ := hs.backs.debit (I128.nonneg_of_pos hx) hle hp
  have hroom := Holdings.add_le_total hk b
  rw [← hbk b, ← hsum] at hroom
  rw [settles_unwrap_add (hbk.nonneg b) hroom]
  intro q hq
  rw [Function.update_of_ne (Ne.symm hab)] at hq
  rw [settles_unwrap_sub hx' hallow]
  intro r hr
  obtain ⟨g, hg, hbg⟩ := hs.backs.move hab (I128.nonneg_of_pos hx) hle hp hq
  exact ⟨g, hg, hs.initialized, hbg, t, ht, by rw [hsum, Holdings.total_of_move? hg]⟩

theorem settles_mint (hs : Sound s h) : (mint c b x).Settles env s
    (fun _ s' => ∃ g, h.issue? b x = some g ∧ Sound s' g) (env.auth c = false) := by
  obtain ⟨t, ht, hsum⟩ := hs.supply
  simp only [mint, settles_bind, settles_guardedActive, settles_requireAdmin hs.initialized,
    settles_rejectIf, settles_getTotalSupply ht, settles_getBalance, settles_okOr_add,
    settles_setBalance, settles_setTotalSupply, settles_publish, I128.not_le]
  intro hadm hadmin hx n hn p hp
  obtain ⟨g, hg, hbg⟩ := hs.backs.credit (I128.nonneg_of_pos hx) hp
  exact ⟨g, hg, hs.initialized, hbg, n, rfl, by rw [hn, hsum, Holdings.total_of_issue? hg]⟩

theorem settles_adminBurn (hs : Sound s h) : (adminBurn c a x).Settles env s
    (fun _ s' => ∃ g, h.retire? a x = some g ∧ Sound s' g) (env.auth c = false) := by
  obtain ⟨t, ht, -⟩ := hs.supply
  simp only [adminBurn, settles_bind, settles_guardedActive, settles_requireAdmin hs.initialized,
    settles_rejectIf, settles_getTotalSupply ht, settles_getBalance, settles_okOr_sub,
    settles_setBalance, settles_setTotalSupply, settles_publish, I128.not_le, I128.not_lt]
  intro hadm hadmin hx hle n hn p hp
  obtain ⟨g, hg, hbg, hsum⟩ := hs.burn ht hx hle hp hn
  exact ⟨g, hg, hs.initialized, hbg, n, rfl, hsum⟩

theorem settles_burn (hs : Sound s h) : (burn a x).Settles env s
    (fun _ s' => ∃ g, h.retire? a x = some g ∧ Sound s' g) (env.auth a = false) := by
  obtain ⟨t, ht, -⟩ := hs.supply
  simp only [burn, settles_bind, settles_guardedActive, settles_rejectIf, settles_getTotalSupply ht,
    settles_getBalance, settles_setBalance, settles_setTotalSupply, settles_publish, I128.not_le,
    I128.not_lt]
  intro hadm hx hle
  have hx' : 0 ≤ (x : ℤ) := I128.nonneg_of_pos hx
  rw [settles_unwrap_sub hx' (Int.le_trans hle (hs.le_supply ht a))]
  intro n hn
  rw [settles_unwrap_sub hx' hle]
  intro p hp
  obtain ⟨g, hg, hbg, hsum⟩ := hs.burn ht hx hle hp hn
  exact ⟨g, hg, hs.initialized, hbg, n, rfl, hsum⟩

theorem settles_burnFrom (hs : Sound s h) : (burnFrom c a x).Settles env s
    (fun _ s' => ∃ g, h.retire? a x = some g ∧ Sound s' g) (env.auth c = false) := by
  obtain ⟨t, ht, -⟩ := hs.supply
  simp only [burnFrom, settles_bind, settles_guardedActive, settles_rejectIf,
    settles_getAllowance, settles_getBalance, settles_getExpirationLedger,
    settles_getTotalSupply ht, settles_setBalance, settles_setTotalSupply, settles_setAllowance,
    settles_publish, I128.not_le, I128.not_lt]
  intro hadm hx hallow hle
  have hx' : 0 ≤ (x : ℤ) := I128.nonneg_of_pos hx
  rw [settles_unwrap_sub hx' (Int.le_trans hle (hs.le_supply ht a))]
  intro n hn
  rw [settles_unwrap_sub hx' hle]
  intro p hp
  rw [settles_unwrap_sub hx' hallow]
  intro q hq
  obtain ⟨g, hg, hbg, hsum⟩ := hs.burn ht hx hle hp hn
  exact ⟨g, hg, hs.initialized, hbg, n, rfl, hsum⟩

/-! ### The two loops of a batch -/

/-- The legs of a batch as amounts. -/
def amounts (l : List (Address × I128)) : List (Address × ℤ) := l.map fun leg => (leg.1, (leg.2 : ℤ))

/-- What the legs add up to. -/
def legSum (l : List (Address × I128)) : ℤ := ((amounts l).map Prod.snd).sum

variable {l : List (Address × I128)} {leg : Address × I128} {s' : State}

theorem legSum_cons : legSum (leg :: l) = leg.2 + legSum l := rfl

theorem amounts_cons : amounts (leg :: l) = (leg.1, (leg.2 : ℤ)) :: amounts l := rfl

theorem amounts_nonneg (hl : ∀ leg ∈ l, 0 < leg.2) : ∀ q ∈ amounts l, 0 ≤ q.2 := by
  intro q hq
  obtain ⟨leg, hleg, rfl⟩ := List.mem_map.mp hq
  exact I128.nonneg_of_pos (hl leg hleg)

theorem legSum_nonneg (hl : ∀ leg ∈ l, 0 < leg.2) : 0 ≤ legSum l :=
  Holdings.sum_nonneg (amounts_nonneg hl)

theorem returns_checkLeg {start total : I128} : (checkLeg a start leg).Returns env s total s' ↔
    0 < leg.2 ∧ leg.1 ≠ a ∧ (total : ℤ) = start + leg.2 ∧ s' = s := by
  simp only [checkLeg, returns_rejectIf_bind, returns_okOr, I128.checkedAdd_eq_some, I128.not_le,
    ne_eq]

theorem not_traps_checkLeg {total : I128} : ¬(checkLeg a total leg).Traps env s := by
  simp [checkLeg, traps_bind]

/-- The first loop passes on legs that are positive and for others, and adds them up. -/
theorem returns_checkLegs {start total : I128} (hstart : 0 ≤ (start : ℤ)) :
    (l.foldlM (checkLeg a) start).Returns env s total s' ↔
      (∀ leg ∈ l, 0 < leg.2 ∧ leg.1 ≠ a) ∧ (total : ℤ) = start + legSum l ∧ s' = s := by
  induction l generalizing start with
  | nil => simp [legSum, amounts, I128.ext_iff]
  | cons leg l ih =>
    rw [List.foldlM_cons, returns_bind]
    simp only [returns_checkLeg, List.forall_mem_cons, legSum_cons]
    constructor
    · rintro ⟨next, _, ⟨hx, hne, hnext, rfl⟩, hrest⟩
      have hx' : 0 ≤ (leg.2 : ℤ) := I128.nonneg_of_pos hx
      obtain ⟨hl, htotal, rfl⟩ := (ih (by omega)).mp hrest
      exact ⟨⟨⟨hx, hne⟩, hl⟩, by omega, rfl⟩
    · rintro ⟨⟨⟨hx, hne⟩, hl⟩, htotal, rfl⟩
      have hx' : 0 ≤ (leg.2 : ℤ) := I128.nonneg_of_pos hx
      have hpos := legSum_nonneg fun leg hleg => (hl leg hleg).1
      -- no partial sum is above the whole one
      have hle : (start : ℤ) + leg.2 ≤ total := by omega
      obtain ⟨next, hnext⟩ := Option.ne_none_iff_exists'.mp (I128.checkedAdd_ne_none hstart hle)
      rw [I128.checkedAdd_eq_some] at hnext
      exact ⟨next, s', ⟨hx, hne, hnext, rfl⟩, (ih (by omega)).mpr ⟨hl, by omega, rfl⟩⟩

/-- The second loop goes through when all the amounts fit in an `i128` on top of what
there is, and issues each of them. -/
theorem returns_creditLegs (env : Env) {t : I128} (hb : Backs s.balance h) (hl : ∀ leg ∈ l, 0 < leg.2)
    (hroom : h.total + legSum l ≤ t) :
    ∃ s' g, (l.foldlM (fun _ leg => creditLeg leg) ()).Returns env s () s' ∧
      h.issues? (amounts l) = some g ∧ Backs s'.balance g ∧
      s' = { s with balance := s'.balance } := by
  induction l generalizing s h with
  | nil => exact ⟨s, h, rfl, rfl, hb, rfl⟩
  | cons leg l ih =>
    rw [List.forall_mem_cons] at hl
    rw [legSum_cons] at hroom
    have hpos := legSum_nonneg hl.2
    have hle : (s.balance leg.1 : ℤ) + leg.2 ≤ t := by
      have := h.le_total leg.1
      rw [← hb leg.1] at this
      omega
    obtain ⟨p, hp⟩ := Option.ne_none_iff_exists'.mp (I128.checkedAdd_ne_none (hb.nonneg _) hle)
    obtain ⟨k, hk, hbk⟩ := hb.credit (I128.nonneg_of_pos hl.1) (I128.checkedAdd_eq_some.mp hp)
    obtain ⟨s', g, hret, hg, hbg, hs'⟩ := ih (s := { s with balance := _ }) hbk hl.2
      (by rw [Holdings.total_of_issue? hk]; omega)
    refine ⟨s', g, ?_, ?_, hbg, hs'⟩
    · refine Returns.bind ?_ hret
      simp only [creditLeg, getBalance, setBalance, returns_gets_bind, returns_unwrap_bind,
        returns_modify]
      exact ⟨p, hp, rfl⟩
    · rw [amounts_cons, Holdings.issues?_cons, hk]
      exact hg

/-- The legs that pass the first loop can be moved from the sender. -/
theorem amounts_movable (hl : ∀ leg ∈ l, 0 < leg.2 ∧ leg.1 ≠ a) :
    ∀ q ∈ amounts l, a ≠ q.1 ∧ 0 ≤ q.2 := by
  intro q hq
  obtain ⟨leg, hleg, rfl⟩ := List.mem_map.mp hq
  exact ⟨(hl leg hleg).2.symm, I128.nonneg_of_pos (hl leg hleg).1⟩

theorem settles_batchTransfer (hs : Sound s h) : (batchTransfer a l).Settles env s
    (fun _ s' => s.Admits env a ∧ l ≠ [] ∧ (∀ leg ∈ l, 0 < leg.2) ∧
      ∃ g, h.moves? a (amounts l) = some g ∧ Backs s'.balance g ∧
        s' = { s with balance := s'.balance, events := s.events ++ [.batchTr a l.length] })
    (env.auth a = false) := by
  simp only [batchTransfer, settles_bind, settles_guardedActive, settles_rejectIf]
  intro hadm hne
  refine settles_of_not_traps (not_traps_foldlM (fun _ _ _ => not_traps_checkLeg) l 0 s) ?_
  intro total s₁ hret
  obtain ⟨hl, htotal, rfl⟩ := (returns_checkLegs (Int.le_refl 0)).mp hret
  rw [I128.val_zero, zero_add] at htotal
  have hl' : ∀ leg ∈ l, 0 < leg.2 := fun leg hleg => (hl leg hleg).1
  have hpos : 0 ≤ (total : ℤ) := htotal ▸ legSum_nonneg hl'
  simp only [settles_getBalance, settles_setBalance, I128.not_lt]
  intro hle
  rw [settles_unwrap_sub hpos hle]
  intro p hp
  obtain ⟨t, -, hsum⟩ := hs.supply
  obtain ⟨k, hk, hbk⟩ := hs.backs.debit hpos hle hp
  -- what the sender has lost is room for all the legs
  obtain ⟨s', g, hret', hg, hbg, hs'⟩ := returns_creditLegs env (t := t)
    (s := { s₁ with balance := Function.update s₁.balance a p }) hbk hl'
    (by rw [Holdings.total_of_retire? hk]; omega)
  rw [hret'.settles, settles_publish]
  refine ⟨hadm, hne, hl', g, ?_, hbg, ?_⟩
  · rw [Holdings.moves?_eq (amounts_movable hl), ← legSum, ← htotal, hk]
    exact hg
  · rw [hs']

/-! ### The calls that move nothing -/

/-- There is no second start. -/
theorem settles_initializeToken {name symbol : List UInt8} (hs : Sound s h) :
    (initializeToken a name symbol x).Settles env s (fun _ _ => False) False := by
  simp only [initializeToken, settles_bind, settles_gets, settles_rejectIf]
  exact fun hnot => absurd hs.initialized hnot

theorem settles_approve {e : ℕ} (hs : Sound s h) : (approve a c x e).Settles env s
    (fun _ s' => Sound s' h) (env.auth a = false) := by
  simp only [approve, settles_bind, settles_guardedActive, settles_rejectIf, settles_ask,
    settles_setAllowance, settles_publish]
  intros
  exact ⟨hs.initialized, hs.backs, hs.supply⟩

theorem settles_increaseAllowance (hs : Sound s h) : (increaseAllowance a c x).Settles env s
    (fun _ s' => Sound s' h) (env.auth a = false) := by
  simp only [increaseAllowance, settles_bind, settles_guarded, settles_rejectIf,
    settles_getAllowance, settles_okOr_add, settles_getExpirationLedger, settles_setAllowance,
    settles_publish]
  intros
  exact ⟨hs.initialized, hs.backs, hs.supply⟩

theorem settles_decreaseAllowance (hs : Sound s h) : (decreaseAllowance a c x).Settles env s
    (fun _ s' => Sound s' h) (env.auth a = false) := by
  simp only [decreaseAllowance, settles_bind, settles_guarded, settles_rejectIf,
    settles_getAllowance, settles_okOr_sub, settles_getExpirationLedger, settles_setAllowance,
    settles_publish]
  intros
  exact ⟨hs.initialized, hs.backs, hs.supply⟩

theorem settles_transferAdmin (hs : Sound s h) : (transferAdmin a c).Settles env s
    (fun _ s' => Sound s' h) (env.auth a = false) := by
  simp only [transferAdmin, settles_bind, settles_guarded, settles_requireAdmin hs.initialized,
    settles_setAdmin, settles_publish]
  intros
  exact ⟨rfl, hs.backs, hs.supply⟩

theorem settles_switchPause {flag : Bool} {event : TokenEvent} (hs : Sound s h) :
    (switchPause a flag event).Settles env s (fun _ s' => Sound s' h) (env.auth a = false) := by
  simp only [switchPause, settles_bind, settles_guarded, settles_requireAdmin hs.initialized,
    settles_setPaused, settles_publish]
  intros
  exact ⟨hs.initialized, hs.backs, hs.supply⟩

/-! ### Every call -/

/-- What a call does to holdings; `none` where they do not allow it. -/
noncomputable def Call.onHoldings (h : Holdings Address ℤ) : Call → Option (Holdings Address ℤ)
  | .transfer source target amount => h.move? source target amount
  | .transferFrom _ source target amount => h.move? source target amount
  | .mint _ target amount => h.issue? target amount
  | .adminBurn _ source amount => h.retire? source amount
  | .burn source amount => h.retire? source amount
  | .burnFrom _ source amount => h.retire? source amount
  | .batchTransfer source recipients => h.moves? source (amounts recipients)
  | .initializeToken .. | .approve .. | .increaseAllowance .. | .decreaseAllowance ..
  | .transferAdmin .. | .pause _ | .unpause _ => some h

/-- Balances that move leave the rest of the storage as it was. -/
theorem Sound.moved {es : List TokenEvent} (hs : Sound s h) (hb : Backs s'.balance g)
    (hg : g.total = h.total) (hs' : s' = { s with balance := s'.balance, events := es }) :
    Sound s' g := by
  obtain ⟨t, ht, hsum⟩ := hs.supply
  rw [hs']
  exact ⟨hs.initialized, hb, t, ht, by rw [hsum, hg]⟩

/-- A call does to the holdings what it should, and traps only for want of the
signature. -/
theorem Call.settles (hs : Sound s h) (call : Call) : call.exec.Settles env s
    (fun _ s' => ∃ g, call.onHoldings h = some g ∧ Sound s' g)
    (∃ a ∈ call.signer, env.auth a = false) := by
  have hunsigned : ∀ {a}, env.auth a = false → ∃ b ∈ some a, env.auth b = false :=
    fun ha => ⟨_, rfl, ha⟩
  cases call with
  | initializeToken admin name symbol supply =>
    exact (settles_initializeToken hs).mono (fun _ _ => False.elim) False.elim
  | transfer source target amount =>
    refine (settles_transfer hs.backs).mono (fun _ s' h' => ?_) hunsigned
    obtain ⟨-, -, g, hg, hbg, hs'⟩ := h'
    exact ⟨g, hg, hs.moved hbg (Holdings.total_of_move? hg) hs'⟩
  | transferFrom spender source target amount =>
    exact (settles_transferFrom hs).mono (fun _ _ => id) hunsigned
  | approve source spender amount expiration =>
    exact (settles_approve hs).mono (fun _ _ h' => ⟨h, rfl, h'⟩) hunsigned
  | increaseAllowance owner spender delta =>
    exact (settles_increaseAllowance hs).mono (fun _ _ h' => ⟨h, rfl, h'⟩) hunsigned
  | decreaseAllowance owner spender delta =>
    exact (settles_decreaseAllowance hs).mono (fun _ _ h' => ⟨h, rfl, h'⟩) hunsigned
  | transferAdmin currentAdmin newAdmin =>
    exact (settles_transferAdmin hs).mono (fun _ _ h' => ⟨h, rfl, h'⟩) hunsigned
  | mint admin target amount => exact (settles_mint hs).mono (fun _ _ => id) hunsigned
  | adminBurn admin source amount => exact (settles_adminBurn hs).mono (fun _ _ => id) hunsigned
  | burn source amount => exact (settles_burn hs).mono (fun _ _ => id) hunsigned
  | burnFrom spender source amount => exact (settles_burnFrom hs).mono (fun _ _ => id) hunsigned
  | pause admin => exact (settles_switchPause hs).mono (fun _ _ h' => ⟨h, rfl, h'⟩) hunsigned
  | unpause admin => exact (settles_switchPause hs).mono (fun _ _ h' => ⟨h, rfl, h'⟩) hunsigned
  | batchTransfer source recipients =>
    refine (settles_batchTransfer hs).mono (fun _ s' h' => ?_) hunsigned
    obtain ⟨-, -, -, g, hg, hbg, hs'⟩ := h'
    exact ⟨g, hg, hs.moved hbg (Holdings.total_of_moves? hg) hs'⟩

/-! ### Every run -/

/-- The first call hands the whole supply to the admin. -/
theorem sound_initializeToken {admin : Address} {name symbol : List UInt8} {supply : I128}
    (hret : (initializeToken admin name symbol supply).Returns env State.deployed () s) :
    ∃ h, Holdings.empty.issue? admin (supply : ℤ) = some h ∧ Sound s h := by
  simp only [initializeToken, setAdmin, setName, setSymbol, setTotalSupply, setBalance, publish,
    returns_gets_bind, returns_rejectIf_bind, returns_modify_bind, returns_modify,
    I128.not_le] at hret
  obtain ⟨-, hpos, rfl⟩ := hret
  have hb : Backs State.deployed.balance Holdings.empty := fun _ => rfl
  obtain ⟨g, hg, hbg⟩ := hb.credit (a := admin) (p := supply) (I128.nonneg_of_pos hpos) (zero_add _).symm
  refine ⟨g, hg, rfl, hbg, supply, rfl, ?_⟩
  rw [Holdings.total_of_issue? hg, Holdings.total_empty, zero_add]

theorem Sound.step {l : Call × Env} (hs : Sound s h) (hstep : Step s l s') :
    ∃ g, l.1.onHoldings h = some g ∧ Sound s' g := (l.1.settles hs).returns hstep

/-- Every reachable state stands for holdings. -/
theorem Reachable.sound (hr : Reachable s) : ∃ h, Sound s h := by
  obtain ⟨admin, name, symbol, supply, env, s₀, ls, h₀, hrun⟩ := hr
  obtain ⟨h, -, hs⟩ := sound_initializeToken h₀
  refine hrun.inv (I := fun s => ∃ h, Sound s h) ⟨h, hs⟩ fun x l y hx hl => ?_
  obtain ⟨h, hx⟩ := hx
  obtain ⟨g, -, hy⟩ := hx.step hl
  exact ⟨g, hy⟩

/-- In every state that is reached, finitely many addresses hold tokens, the balances add
up to the stored supply, none of them is negative, and no arithmetic of a call overflows:
what traps was not signed. -/
theorem supply_conserved (hr : Reachable s) :
    (Function.support fun a => (s.balance a : ℤ)).Finite ∧
      (∃ t, s.totalSupply = some t ∧ ∑ᶠ a, (s.balance a : ℤ) = t) ∧
      (∀ a, 0 ≤ (s.balance a : ℤ)) ∧
      ∀ (call : Call) (env : Env), call.exec.Traps env s →
        ∃ a ∈ call.signer, env.auth a = false := by
  obtain ⟨h, hs⟩ := hr.sound
  obtain ⟨t, ht, hsum⟩ := hs.supply
  have hfun : (fun a => (s.balance a : ℤ)) = h := funext hs.backs
  refine ⟨?_, ⟨t, ht, ?_⟩, hs.backs.nonneg, fun call env htrap => (call.settles hs).traps htrap⟩
  · rw [hfun]
    exact h.of.hasFiniteSupport
  · rw [hfun, h.finsum_eq_total, hsum]

/-- After the opening the holders have 990 together. -/
theorem supply_conserved_opening : ∃ s, Reachable s ∧ (s.balance Deployment.company : ℤ) = 220 ∧
    ∑ᶠ a, (s.balance a : ℤ) = 990 := by
  obtain ⟨s, hr, hcompany, hsupply⟩ := exists_opening
    (fun s => (s.balance Deployment.company : ℤ) = 220 ∧
      s.totalSupply.map I128.val = some 990) (by decide +kernel)
  obtain ⟨-, ⟨t, ht, hsum⟩, -, -⟩ := supply_conserved hr
  rw [ht] at hsupply
  exact ⟨s, hr, hcompany, hsum.trans (Option.some.inj hsupply)⟩

end NavinToken

end Navin
