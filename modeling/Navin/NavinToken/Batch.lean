/-
# A batch and its transfers

`batch_transfer` adds the amounts up, debits the sender once and credits in a loop without
overflow checks; `transfer` checks everything, leg by leg. From a reachable state they do
the same: both go through exactly when the holdings allow the moves one after the other,
which is when the sender covers the sum (`Holdings.moves?_eq`), and both leave the balances
that the moves lead to.

Key definitions:
- `transferCalls`: the legs of a batch as single transfers.

Key theorems:
- `run_transferCalls`, `transferCalls_go_through`: what the transfers lead to, and when;
- `batchTransfer_goes_through`: when the batch returns;
- `batch_iff_transfers`: the two go through together, to the same amounts.
-/
import Navin.NavinToken.Supply

namespace Navin

namespace NavinToken

open Tx

variable {s s' : State} {env : Env} {h g : Holdings Address ℤ} {a b : Address} {x : I128}
  {l : List (Address × I128)}

/-! ### When the calls return -/

/-- A transfer that is signed, not paused, positive and allowed by the holdings goes
through: what the source loses is room for the target. -/
theorem transfer_goes_through (hs : Sound s h) (hadm : s.Admits env a) (hx : 0 < x)
    (hg : h.move? a b x = some g) : ∃ s', (transfer a b x).Returns env s () s' := by
  obtain ⟨hab, -, hle, -⟩ := Holdings.move?_eq_some.mp hg
  rw [← hs.backs a] at hle
  obtain ⟨p, hp⟩ := Option.ne_none_iff_exists'.mp (I128.checkedSub_ne_none (I128.nonneg_of_pos hx) hle)
  obtain ⟨t, -, hsum⟩ := hs.supply
  obtain ⟨k, hk, hbk⟩ := hs.backs.debit (I128.nonneg_of_pos hx) hle (I128.checkedSub_eq_some.mp hp)
  have hroom := Holdings.add_le_total hk b
  rw [← hbk b, ← hsum, Function.update_of_ne hab.symm] at hroom
  obtain ⟨q, hq⟩ := Option.ne_none_iff_exists'.mp
    (I128.checkedAdd_ne_none (hs.backs.nonneg b) hroom)
  exact ⟨_, returns_transfer.mpr ⟨hadm, hx, hab, hle, p, hp, q, hq, rfl⟩⟩

/-- A batch that is signed, not paused, not empty, positive and allowed by the holdings
goes through. -/
theorem batchTransfer_goes_through (hs : Sound s h) (hadm : s.Admits env a) (hne : l ≠ [])
    (hl : ∀ leg ∈ l, 0 < leg.2) (hg : h.moves? a (amounts l) = some g) :
    ∃ s', (batchTransfer a l).Returns env s () s' := by
  obtain ⟨hne', hle, -⟩ := Holdings.moves?_eq_some.mp hg
  have hothers : ∀ leg ∈ l, 0 < leg.2 ∧ leg.1 ≠ a := fun leg hleg =>
    ⟨hl leg hleg, (hne' (leg.1, (leg.2 : ℤ)) (List.mem_map.mpr ⟨leg, hleg, rfl⟩)).1.symm⟩
  rw [← hs.backs a, ← legSum] at hle
  have hpos := legSum_nonneg hl
  have hmax := (s.balance a).le
  have hmin : i128Min ≤ 0 := by decide
  obtain ⟨total, htotal⟩ : ∃ total : I128, (total : ℤ) = legSum l :=
    ⟨⟨legSum l, by omega, by omega⟩, rfl⟩
  have hloop : (l.foldlM (checkLeg a) 0).Returns env s total s :=
    (returns_checkLegs (Int.le_refl 0)).mpr ⟨hothers, by rw [htotal, I128.val_zero, zero_add], rfl⟩
  rw [← htotal] at hle hpos
  obtain ⟨p, hp⟩ := Option.ne_none_iff_exists'.mp (I128.checkedSub_ne_none hpos hle)
  obtain ⟨k, hk, hbk⟩ := hs.backs.debit hpos hle (I128.checkedSub_eq_some.mp hp)
  obtain ⟨t, -, hsum⟩ := hs.supply
  obtain ⟨s₁, g', hcredits, -⟩ := returns_creditLegs env (t := t)
    (s := { s with balance := Function.update s.balance a p }) hbk hl
    (by rw [Holdings.total_of_retire? hk]; omega)
  refine ⟨{ s₁ with events := s₁.events ++ [.batchTr a l.length] }, ?_⟩
  rw [batchTransfer, returns_unit_bind fun _ _ => returns_guardedActive, returns_rejectIf_bind,
    hloop.bind_iff]
  simp only [getBalance, setBalance, publish, returns_gets_bind, returns_rejectIf_bind,
    returns_unwrap_bind, returns_modify_bind, I128.not_lt]
  exact ⟨hadm, hne, hle, p, hp, hcredits.bind (returns_modify.mpr rfl)⟩

/-! ### The legs as single transfers -/

/-- The transfers of the legs, in order. -/
def transferCalls (env : Env) (a : Address) (l : List (Address × I128)) : List (Call × Env) :=
  l.map fun leg => (.transfer a leg.1 leg.2, env)

theorem State.Admits.of_moved {es : List TokenEvent} (hadm : s.Admits env a)
    (hs' : s' = { s with balance := s'.balance, events := es }) : s'.Admits env a := by
  rw [hs']
  exact hadm

/-- What the transfers lead to: the moves, one after the other. -/
theorem run_transferCalls (hs : Sound s h) (hrun : Run Step s (transferCalls env a l) s') :
    (l ≠ [] → s.Admits env a) ∧ (∀ leg ∈ l, 0 < leg.2) ∧
      ∃ g, h.moves? a (amounts l) = some g ∧ Backs s'.balance g ∧
        ∃ es, s' = { s with balance := s'.balance, events := es } := by
  induction l generalizing s h with
  | nil =>
    obtain rfl := hrun.eq_of_nil
    exact ⟨fun hne => absurd rfl hne, by simp, h, rfl, hs.backs, s'.events, rfl⟩
  | cons leg l ih =>
    obtain ⟨s₁, hstep, hrun⟩ := hrun.uncons
    obtain ⟨hadm, hx, k, hk, hbk, hs₁⟩ := (settles_transfer hs.backs).returns hstep
    obtain ⟨-, hl, g, hg, hbg, es, hs'⟩ := ih (hs.moved hbk (Holdings.total_of_move? hk) hs₁) hrun
    refine ⟨fun _ => hadm, List.forall_mem_cons.mpr ⟨hx, hl⟩, g, ?_, hbg, es, ?_⟩
    · rw [amounts_cons, Holdings.moves?_cons, hk]
      exact hg
    · rw [hs', hs₁]

/-- Where the holdings allow the moves, the transfers go through one after the other. -/
theorem transferCalls_go_through (hs : Sound s h) (hadm : s.Admits env a)
    (hl : ∀ leg ∈ l, 0 < leg.2) (hg : h.moves? a (amounts l) = some g) :
    ∃ s', Run Step s (transferCalls env a l) s' := by
  induction l generalizing s h with
  | nil => exact ⟨s, .nil⟩
  | cons leg l ih =>
    rw [amounts_cons, Holdings.moves?_cons] at hg
    obtain ⟨k, hk, hg⟩ := Option.bind_eq_some_iff.mp hg
    rw [List.forall_mem_cons] at hl
    obtain ⟨s₁, hstep⟩ := transfer_goes_through hs hadm hl.1 hk
    obtain ⟨-, -, k', hk', hbk, hs₁⟩ := (settles_transfer hs.backs).returns hstep
    cases hk.symm.trans hk'
    obtain ⟨s', hrun⟩ := ih (hs.moved hbk (Holdings.total_of_move? hk) hs₁) (hadm.of_moved hs₁)
      hl.2 hg
    exact ⟨s', .cons hstep hrun⟩

/-- From a reachable state a batch goes through if and only if its transfers do, one after
the other, and they lead to the same balances, supply and allowances. -/
theorem batch_iff_transfers (hr : Reachable s) (env : Env) (source : Address)
    {recipients : List (Address × I128)} (hne : recipients ≠ []) :
    ((∃ s', Step s (.batchTransfer source recipients, env) s') ↔
      ∃ s', Run Step s (transferCalls env source recipients) s') ∧
    ∀ s₁ s₂, Step s (.batchTransfer source recipients, env) s₁ →
      Run Step s (transferCalls env source recipients) s₂ →
      s₁.balance = s₂.balance ∧ s₁.totalSupply = s₂.totalSupply ∧ s₁.allowance = s₂.allowance := by
  obtain ⟨h, hs⟩ := hr.sound
  refine ⟨⟨?_, ?_⟩, ?_⟩
  · rintro ⟨s', hstep⟩
    obtain ⟨hadm, -, hl, g, hg, -, -⟩ := (settles_batchTransfer hs).returns hstep
    exact transferCalls_go_through hs hadm hl hg
  · rintro ⟨s', hrun⟩
    obtain ⟨hadm, hl, g, hg, -, -⟩ := run_transferCalls hs hrun
    exact batchTransfer_goes_through hs (hadm hne) hne hl hg
  · intro s₁ s₂ hstep hrun
    obtain ⟨-, -, -, g, hg, hb₁, hs₁⟩ := (settles_batchTransfer hs).returns hstep
    obtain ⟨-, -, g', hg', hb₂, es, hs₂⟩ := run_transferCalls hs hrun
    cases hg.symm.trans hg'
    refine ⟨funext fun a => I128.ext ((hb₁ a).trans (hb₂ a).symm), ?_, ?_⟩
    · rw [hs₁, hs₂]
    · rw [hs₁, hs₂]

open Deployment in
/-- Three legs, two of them to one recipient, at once and one by one. -/
theorem batch_iff_transfers_opening : ∃ s s₁ s₂ recipients, Reachable s ∧ recipients.length = 3 ∧
    Step s (.batchTransfer company recipients, signedBy company 7) s₁ ∧
    Run Step s (transferCalls (signedBy company 7) company recipients) s₂ ∧
    s₁.balance = s₂.balance ∧ (s₂.balance receiver : ℤ) = 65 := by
  obtain ⟨recipients, hdef⟩ : ∃ recipients : List (Address × I128), recipients =
    [(receiver, ⟨10, by decide, by decide⟩), (treasury, ⟨20, by decide, by decide⟩),
      (receiver, ⟨5, by decide, by decide⟩)] := ⟨_, rfl⟩
  obtain ⟨s, hr, hplay⟩ := exists_opening
    (fun s => (play s [(.batchTransfer company recipients, signedBy company 7)]).any (fun s₁ =>
      (s₁.balance receiver : ℤ) = 65) = true) (by rw [hdef]; decide +kernel)
  obtain ⟨s₁, h₁, hreceiver⟩ := (Option.any_eq_true _ _).mp hplay
  obtain ⟨_, hstep, hnil⟩ := (run_of_play h₁).uncons
  cases hnil.eq_of_nil
  have hne : recipients ≠ [] := by
    rw [hdef]
    simp
  obtain ⟨hiff, hsame⟩ := batch_iff_transfers hr (signedBy company 7) company hne
  obtain ⟨s₂, hrun⟩ := hiff.mp ⟨s₁, hstep⟩
  have hbal := (hsame s₁ s₂ hstep hrun).1
  refine ⟨s, s₁, s₂, recipients, hr, by rw [hdef]; rfl, hstep, hrun, hbal, ?_⟩
  rw [← hbal]
  exact of_decide_eq_true hreceiver

end NavinToken

end Navin
