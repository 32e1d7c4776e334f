/-
# What the events of the token tell

Whoever keeps a statement of the token and enters each event into it has, at the end of
every run without batch transfers, all there is: the admin, the pause, the supply, every
balance and every allowance with its expiration. A batch transfer announces how many legs
it had and nothing of where they went, so after one the events no longer determine the
balances.

Key definitions:
- `Statement`, `Statement.enter`: what is kept, and how an event is entered;
- `State.statement`: what there is;
- `Tells`: a call announces one event, which tells what it did.

Key theorems:
- `Step.tells`: every call but a batch transfer;
- `statement_retold`: over every run without batch transfers;
- `batch_untold`: two runs with the same events and different balances.
-/
import Navin.NavinToken.Allowances

namespace Navin

namespace NavinToken

open Tx

variable {env : Env} {s s' : State} {a b o p : Address} {x : I128}

/-! ### Statements -/

/-- What somebody who only hears the events can keep. -/
structure Statement where
  admin : Option Address
  paused : Bool
  supply : ℤ
  balance : Address → ℤ
  allowance : Address → Address → ℤ
  expiration : Address → Address → ℕ

namespace Statement

/-- Before the first event. -/
def blank : Statement := ⟨none, false, 0, fun _ => 0, fun _ _ => 0, fun _ _ => 0⟩

variable (t : Statement)

/-- A credit, or a debit when the amount is negative. -/
def shift (a : Address) (x : ℤ) : Statement :=
  { t with balance := Function.update t.balance a (t.balance a + x) }

def issue (x : ℤ) : Statement := { t with supply := t.supply + x }

/-- What is left of an allowance. -/
def leave (o p : Address) (x : ℤ) : Statement := { t with allowance := update₂ t.allowance o p x }

/-- Entering an event. -/
def enter : TokenEvent → Statement
  | .init admin supply => { t with
      admin := some admin
      supply := supply
      balance := Function.update t.balance admin supply }
  | .transfer source target amount => (t.shift source (-amount)).shift target amount
  | .trFrom source target spender amount =>
    ((t.shift source (-amount)).shift target amount).leave source spender
      (t.allowance source spender - amount)
  | .approve source spender amount expirationLedger => { t.leave source spender amount with
      expiration := update₂ t.expiration source spender expirationLedger }
  | .incAlw owner spender _ newAllowance | .decAlw owner spender _ newAllowance =>
    t.leave owner spender newAllowance
  | .adminTr _ newAdmin => { t with admin := some newAdmin }
  | .mint target amount => (t.issue amount).shift target amount
  | .admBurn source amount | .burn source amount => (t.issue (-amount)).shift source (-amount)
  | .burnFrom source spender amount =>
    ((t.issue (-amount)).shift source (-amount)).leave source spender
      (t.allowance source spender - amount)
  | .paused _ => { t with paused := true }
  | .unpaused _ => { t with paused := false }
  -- the legs are not told
  | .batchTr _ _ => t

end Statement

/-- What there is. -/
def State.statement (s : State) : Statement where
  admin := s.admin
  paused := s.paused
  supply := (s.totalSupply.map I128.val).getD 0
  balance a := s.balance a
  allowance o p := ((s.allowance o p).map fun v => v.amount.val).getD 0
  expiration := s.getExpirationLedger

/-! ### What is written -/

section

variable {q : I128} {n : ℕ} {t : I128}

theorem statement_balance {d : ℤ} (hq : (q : ℤ) = s.balance a + d) :
    { s with balance := Function.update s.balance a q }.statement = s.statement.shift a d := by
  unfold State.statement Statement.shift
  congr 1
  rw [val_update, hq]

theorem statement_supply {d : ℤ} (ht : s.totalSupply = some t) (hq : (q : ℤ) = t + d) :
    { s with totalSupply := some q }.statement = s.statement.issue d := by
  unfold State.statement Statement.issue
  rw [ht]
  congr 1

theorem update₂_map {e : ℕ} {γ : Type} (f : AllowanceValue → γ) (d : γ) :
    (fun i j => ((update₂ s.allowance o p (some ⟨q, e⟩) i j).map f).getD d) =
      update₂ (fun i j => ((s.allowance i j).map f).getD d) o p (f ⟨q, e⟩) := by
  funext i j
  by_cases hij : i = o ∧ j = p
  · obtain ⟨rfl, rfl⟩ := hij
    rw [update₂_self, update₂_self]
    rfl
  · rw [update₂_of_ne hij, update₂_of_ne hij]

theorem update₂_same {f : Address → Address → ℕ} : update₂ f o p (f o p) = f := by
  unfold update₂
  rw [Function.update_eq_self, Function.update_eq_self]

theorem statement_approval {e : ℕ} :
    { s with allowance := update₂ s.allowance o p (some ⟨q, e⟩) }.statement =
      { s.statement.leave o p q with expiration := update₂ s.statement.expiration o p e } := by
  have hamount := update₂_map (s := s) (o := o) (p := p) (q := q) (e := e) (fun v => v.amount.val) 0
  have hexpiration := update₂_map (s := s) (o := o) (p := p) (q := q) (e := e) (·.expirationLedger) 0
  unfold State.statement Statement.leave State.getExpirationLedger
  congr 1

/-- The expiration of an allowance that is drawn on, raised or lowered stays. -/
theorem statement_allowance :
    { s with allowance := update₂ s.allowance o p (some ⟨q, s.getExpirationLedger o p⟩) }.statement =
      s.statement.leave o p q := by
  rw [statement_approval]
  show { s.statement.leave o p q with
    expiration := update₂ s.statement.expiration o p (s.statement.expiration o p) } = _
  rw [update₂_same]
  rfl

/-- An allowance that can be drawn on has not expired. -/
theorem getAllowance_told (h : 0 < (s.getAllowance n o p : ℤ)) :
    (s.getAllowance n o p : ℤ) = s.statement.allowance o p := by
  unfold State.statement
  unfold State.getAllowance at h ⊢
  cases hv : s.allowance o p with
  | none =>
    rw [hv] at h
    cases h
  | some v =>
    rw [hv] at h
    by_cases hn : n ≤ v.expirationLedger
    · simp [hn, hv]
    · simp [hn] at h

end

/-! ### The guards -/

section

variable {u : Unit}

theorem returns_guarded : (guarded a).Returns env s u s' ↔
    (s.isInitialized = true ∧ env.auth a = true) ∧ s' = s := by
  simp only [guarded, requireInitialized, requireAuth, bind_assoc, returns_gets_bind,
    returns_rejectIf_bind, returns_ask_bind, returns_trapIf, Bool.not_eq_false, and_assoc]

theorem returns_requireAdmin : (requireAdmin a).Returns env s u s' ↔ s.admin = some a ∧ s' = s := by
  simp only [requireAdmin, getAdmin, bind_assoc, returns_gets_bind, returns_unwrap_bind, returns_rejectIf,
    ne_eq, not_not]
  constructor
  · intro h
    obtain ⟨b, hb, rfl, hs⟩ := h
    exact ⟨hb, hs⟩
  · intro h
    exact ⟨a, h.1, rfl, h.2⟩

end

/-! ### What is told -/

/-- One event is announced, and tells what was done. -/
def Tells (s s' : State) : Prop := ∃ e, s'.events = s.events ++ [e] ∧ s'.statement = s.statement.enter e

theorem tells_initializeToken {name symbol : List UInt8}
    (h : (initializeToken a name symbol x).Returns env s () s') : Tells s s' := by
  simp only [initializeToken, setAdmin, setName, setSymbol, setTotalSupply, setBalance, publish,
    returns_gets_bind, returns_rejectIf_bind, returns_modify_bind, returns_modify] at h
  obtain ⟨-, -, rfl⟩ := h
  refine ⟨_, rfl, ?_⟩
  unfold State.statement Statement.enter
  congr 1
  exact val_update s.balance a x

/-- The two balances of a transfer, one after the other. -/
theorem statement_move {q r : I128} (hq : (q : ℤ) = s.balance a - x)
    (hr : (r : ℤ) = Function.update s.balance a q b + x) :
    { s with balance := Function.update (Function.update s.balance a q) b r }.statement =
      (s.statement.shift a (-x)).shift b x := by
  rw [← statement_balance (q := q) (by rw [hq]; rfl)]
  exact statement_balance (s := { s with balance := Function.update s.balance a q }) hr

theorem tells_transfer (h : (transfer a b x).Returns env s () s') : Tells s s' := by
  obtain ⟨-, -, hab, -, q, hq, r, hr, rfl⟩ := returns_transfer.mp h
  rw [I128.checkedSub_eq_some] at hq
  rw [I128.checkedAdd_eq_some, ← Function.update_of_ne hab.symm q s.balance] at hr
  exact ⟨_, rfl, statement_move hq hr⟩

theorem tells_transferFrom (h : (transferFrom p a b x).Returns env s () s') : Tells s s' := by
  rw [transferFrom, returns_unit_bind fun _ _ => returns_guardedActive] at h
  simp only [getBalance, getAllowance, getExpirationLedger, setBalance, setAllowance, publish, bind_assoc,
    returns_gets_bind, returns_rejectIf_bind, returns_ask_bind, returns_unwrap_bind, returns_modify_bind,
    returns_modify, I128.checkedSub_eq_some, I128.checkedAdd_eq_some, I128.not_le, I128.not_lt] at h
  obtain ⟨-, hx, -, hallow, -, q, hq, r, hr, n, hn, rfl⟩ := h
  have hpos : 0 < (s.getAllowance env.sequence a p : ℤ) := lt_of_lt_of_le hx hallow
  rw [getAllowance_told hpos] at hn
  refine ⟨_, rfl, ?_⟩
  have hmove := statement_move (b := b) hq hr
  refine (statement_allowance (s := { s with
    balance := Function.update (Function.update s.balance a q) b r })).trans ?_
  rw [hmove, hn]
  rfl

theorem tells_approve {e : ℕ} (h : (approve o p x e).Returns env s () s') : Tells s s' := by
  rw [approve, returns_unit_bind fun _ _ => returns_guardedActive] at h
  simp only [setAllowance, publish, returns_rejectIf_bind, returns_ask_bind, returns_modify_bind,
    returns_modify] at h
  obtain ⟨-, -, -, -, rfl⟩ := h
  exact ⟨_, rfl, statement_approval⟩

theorem tells_increaseAllowance (h : (increaseAllowance o p x).Returns env s () s') : Tells s s' := by
  rw [increaseAllowance, returns_unit_bind fun _ _ => returns_guarded] at h
  simp only [getAllowance, getExpirationLedger, setAllowance, publish, bind_assoc, returns_gets_bind,
    returns_rejectIf_bind, returns_ask_bind, returns_okOr_bind, returns_modify_bind, returns_modify] at h
  obtain ⟨-, -, -, q, -, rfl⟩ := h
  exact ⟨_, rfl, statement_allowance⟩

theorem tells_decreaseAllowance (h : (decreaseAllowance o p x).Returns env s () s') : Tells s s' := by
  rw [decreaseAllowance, returns_unit_bind fun _ _ => returns_guarded] at h
  simp only [getAllowance, getExpirationLedger, setAllowance, publish, bind_assoc, returns_gets_bind,
    returns_rejectIf_bind, returns_ask_bind, returns_okOr_bind, returns_modify_bind, returns_modify] at h
  obtain ⟨-, -, -, -, q, -, rfl⟩ := h
  exact ⟨_, rfl, statement_allowance⟩

theorem tells_transferAdmin (h : (transferAdmin a b).Returns env s () s') : Tells s s' := by
  rw [transferAdmin, returns_unit_bind fun _ _ => returns_guarded,
    returns_unit_bind fun _ _ => returns_requireAdmin] at h
  simp only [setAdmin, publish, returns_modify_bind, returns_modify] at h
  obtain ⟨-, -, rfl⟩ := h
  exact ⟨_, rfl, rfl⟩

theorem tells_mint (h : (mint a b x).Returns env s () s') : Tells s s' := by
  rw [mint, returns_unit_bind fun _ _ => returns_guardedActive,
    returns_unit_bind fun _ _ => returns_requireAdmin] at h
  simp only [getTotalSupply, getBalance, setTotalSupply, setBalance, publish, bind_assoc, returns_gets_bind,
    returns_rejectIf_bind, returns_unwrap_bind, returns_okOr_bind, returns_modify_bind, returns_modify,
    I128.checkedAdd_eq_some] at h
  obtain ⟨-, -, -, t, ht, n, hn, q, hq, rfl⟩ := h
  refine ⟨_, rfl, (statement_balance (s := { s with totalSupply := some n }) hq).trans ?_⟩
  rw [statement_supply ht hn]
  rfl

/-- The supply and a balance go down by the same amount. -/
theorem statement_retire {t q r : I128} (ht : s.totalSupply = some t) (hq : (q : ℤ) = t - x)
    (hr : (r : ℤ) = s.balance a - x) :
    { s with totalSupply := some q, balance := Function.update s.balance a r }.statement =
      (s.statement.issue (-x)).shift a (-x) := by
  rw [← statement_supply ht (q := q) (by rw [hq]; rfl)]
  exact statement_balance (s := { s with totalSupply := some q }) (by rw [hr]; rfl)

theorem tells_adminBurn (h : (adminBurn a b x).Returns env s () s') : Tells s s' := by
  rw [adminBurn, returns_unit_bind fun _ _ => returns_guardedActive,
    returns_unit_bind fun _ _ => returns_requireAdmin] at h
  simp only [getTotalSupply, getBalance, setTotalSupply, setBalance, publish, bind_assoc, returns_gets_bind,
    returns_rejectIf_bind, returns_unwrap_bind, returns_okOr_bind, returns_modify_bind, returns_modify,
    I128.checkedSub_eq_some] at h
  obtain ⟨-, -, -, -, t, ht, q, hq, r, hr, rfl⟩ := h
  exact ⟨_, rfl, statement_retire ht hq hr⟩

theorem tells_burn (h : (burn a x).Returns env s () s') : Tells s s' := by
  rw [burn, returns_unit_bind fun _ _ => returns_guardedActive] at h
  simp only [getTotalSupply, getBalance, setTotalSupply, setBalance, publish, bind_assoc, returns_gets_bind,
    returns_rejectIf_bind, returns_unwrap_bind, returns_modify_bind, returns_modify,
    I128.checkedSub_eq_some] at h
  obtain ⟨-, -, -, t, ht, q, hq, r, hr, rfl⟩ := h
  exact ⟨_, rfl, statement_retire ht hq hr⟩

theorem tells_burnFrom (h : (burnFrom p a x).Returns env s () s') : Tells s s' := by
  rw [burnFrom, returns_unit_bind fun _ _ => returns_guardedActive] at h
  simp only [getTotalSupply, getBalance, getAllowance, getExpirationLedger, setTotalSupply, setBalance,
    setAllowance, publish, bind_assoc, returns_gets_bind, returns_rejectIf_bind, returns_ask_bind,
    returns_unwrap_bind, returns_modify_bind, returns_modify, I128.checkedSub_eq_some, I128.not_le,
    I128.not_lt] at h
  obtain ⟨-, hx, hallow, -, t, ht, q, hq, r, hr, n, hn, rfl⟩ := h
  have hpos : 0 < (s.getAllowance env.sequence a p : ℤ) := lt_of_lt_of_le hx hallow
  rw [getAllowance_told hpos] at hn
  refine ⟨_, rfl, ?_⟩
  have hretire := statement_retire ht hq hr
  refine (statement_allowance (s := { s with
    totalSupply := some q, balance := Function.update s.balance a r })).trans ?_
  rw [hretire, hn]
  rfl

theorem tells_switchPause {flag : Bool} {e : TokenEvent}
    (he : ∀ t : Statement, t.enter e = { t with paused := flag })
    (h : (switchPause a flag e).Returns env s () s') : Tells s s' := by
  rw [switchPause, returns_unit_bind fun _ _ => returns_guarded,
    returns_unit_bind fun _ _ => returns_requireAdmin] at h
  simp only [setPaused, publish, returns_modify_bind, returns_modify] at h
  obtain ⟨-, -, rfl⟩ := h
  refine ⟨e, rfl, ?_⟩
  rw [he]
  rfl

/-! ### Runs -/

def Call.isBatch : Call → Bool
  | .batchTransfer .. => true
  | _ => false

/-- Every call but a batch transfer announces one event, which tells what it did. -/
theorem Step.tells {l : Call × Env} (hstep : Step s l s') (hl : l.1.isBatch = false) : Tells s s' := by
  obtain ⟨call, env⟩ := l
  cases call with
  | initializeToken => exact tells_initializeToken hstep
  | transfer => exact tells_transfer hstep
  | transferFrom => exact tells_transferFrom hstep
  | approve => exact tells_approve hstep
  | increaseAllowance => exact tells_increaseAllowance hstep
  | decreaseAllowance => exact tells_decreaseAllowance hstep
  | transferAdmin => exact tells_transferAdmin hstep
  | mint => exact tells_mint hstep
  | adminBurn => exact tells_adminBurn hstep
  | burn => exact tells_burn hstep
  | burnFrom => exact tells_burnFrom hstep
  | pause => exact tells_switchPause (fun _ => rfl) hstep
  | unpause => exact tells_switchPause (fun _ => rfl) hstep
  | batchTransfer => cases hl

/-- Whoever enters every event of a run without batch transfers into a blank statement has all there is:
the admin, the pause, the supply, the balances, and the allowances with their expirations. -/
theorem statement_retold {ls : List (Call × Env)} (hr : Run Step State.deployed ls s)
    (hls : ∀ l ∈ ls, l.1.isBatch = false) : s.events.foldl Statement.enter .blank = s.statement := by
  refine hr.inv_of (P := fun l => l.1.isBatch = false)
    (I := fun s => s.events.foldl Statement.enter .blank = s.statement) hls rfl ?_
  intro a l b hl ih hstep
  obtain ⟨e, hev, hst⟩ := hstep.tells hl
  rw [hev, List.foldl_append, ih, hst]
  rfl

/-- The opening: an allowance is put, drawn on twice, and the supply goes up and down. -/
theorem statement_retold_opening : ∃ (ls : List (Call × Env)) (s : State), Run Step State.deployed ls s ∧
    s.events.length = 6 ∧ (s.balance Deployment.company : ℤ) = 220 ∧
      s.events.foldl Statement.enter .blank = s.statement := by
  have hplay : opening.any (fun s => s.events.length = 6 ∧ (s.balance Deployment.company : ℤ) = 220) = true := by
    decide +kernel
  obtain ⟨s, hs, hP⟩ := (Option.any_eq_true _ _).mp hplay
  obtain ⟨hlength, hbalance⟩ := of_decide_eq_true hP
  have hr : Run Step State.deployed _ s := run_of_play hs
  exact ⟨_, s, hr, hlength, hbalance, statement_retold hr (by decide)⟩

/-- Two batch transfers of one leg, to different recipients, look the same from outside. -/
theorem batch_untold : ∃ s s' : State, Reachable s ∧ Reachable s' ∧ s.events = s'.events ∧
    s.balance Deployment.company ≠ s'.balance Deployment.company := by
  have hplay : (playFrom Deployment.admin ⟨1000, by decide, by decide⟩ (signedBy Deployment.admin 1)
      [(.batchTransfer Deployment.admin [(Deployment.company, ⟨5, by decide, by decide⟩)],
        signedBy Deployment.admin 2)]).any (fun s =>
      (playFrom Deployment.admin ⟨1000, by decide, by decide⟩ (signedBy Deployment.admin 1)
        [(.batchTransfer Deployment.admin [(Deployment.carrier, ⟨5, by decide, by decide⟩)],
          signedBy Deployment.admin 2)]).any fun s' => s.events = s'.events ∧
            s.balance Deployment.company ≠ s'.balance Deployment.company) = true := by
    decide +kernel
  obtain ⟨s, hs, h⟩ := (Option.any_eq_true _ _).mp hplay
  obtain ⟨s', hs', h⟩ := (Option.any_eq_true _ _).mp h
  exact ⟨s, s', reachable_of_playFrom hs, reachable_of_playFrom hs', of_decide_eq_true h⟩

end NavinToken

end Navin
