/-
# The two contracts together

The shipment contract on the token contract of the repository, at one address each. Calls
of the two come in any order: a call of the shipment contract may transfer tokens on the
way, which are transfers of the token contract, and whoever holds tokens calls the token
contract by itself. What the token contract does in between is for the shipment contract a
change from outside, unless the admin of the token burns what the contract holds.

What the contract holds and does not owe has three sources: what it was sent, what a call
dropped from an escrow without paying it, and what was burnt.

Key definitions:
- `Joint.host`: the host whose token is the token contract;
- `Joint.Step`: a step of the two contracts;
- `Joint.surplus`: what a step adds to what the contract holds beyond the escrows.

Key theorems:
- `Joint.simulates`: the steps that burn nothing of the contract's are steps of the chain;
- `balance_accounted`: the balance of the contract to the last token, and the supply;
- `joint_solvent`: the contract covers its escrows as long as nothing is burnt.
-/
import Navin.Lib.Simulation
import Navin.NavinToken.Holders
import Navin.Solvency

namespace Navin

open Tx

/-! ### The host -/

namespace NavinToken

variable {s s' : State} {auth : Address → Bool} {a b : Address} {x : ℤ}

/-- `transfer` for a contract that calls it; `none` when the call does not go through. It
reads neither the time nor the ledger. -/
def State.transfer? (s : State) (auth : Address → Bool) (source target : Address) (amount : ℤ) :
    Option State :=
  (I128.ofInt? amount).bind fun amount =>
    ((transfer source target amount).result? ⟨0, 0, auth, fun _ => false⟩ s).map Prod.snd

theorem State.transfer?_eq_some : s.transfer? auth a b x = some s' ↔
    ∃ amount : I128, (amount : ℤ) = x ∧
      (transfer a b amount).Returns ⟨0, 0, auth, fun _ => false⟩ s () s' := by
  simp only [transfer?, Option.bind_eq_some_iff, I128.ofInt?_eq_some, Option.map_eq_some_iff,
    Prod.exists, result?_eq_some]
  constructor
  · rintro ⟨amount, hx, u, s₁, hret, rfl⟩
    exact ⟨amount, hx, hret⟩
  · rintro ⟨amount, hx, hret⟩
    exact ⟨amount, hx, (), s', hret, rfl⟩

/-- The two balances change, and nothing else. -/
theorem State.balance_transfer? (h : s.transfer? auth a b x = some s') : a ≠ b ∧
    s.isInitialized = true ∧ s'.allowance = s.allowance ∧ ∀ c, (s'.balance c : ℤ) =
      s.balance c - (if c = a then x else 0) + (if c = b then x else 0) := by
  obtain ⟨amount, rfl, hret⟩ := State.transfer?_eq_some.mp h
  obtain ⟨hadm, -, hab, -, p, hp, q, hq, rfl⟩ := returns_transfer.mp hret
  have hp := I128.checkedSub_eq_some.mp hp
  have hq := I128.checkedAdd_eq_some.mp hq
  refine ⟨hab, hadm.1, rfl, fun c => ?_⟩
  by_cases hcb : c = b
  · subst hcb
    simp [hq, hab.symm]
  · by_cases hca : c = a
    · subst hca
      simp [hcb, hp]
    · simp [hca, hcb]

end NavinToken

namespace Joint

open NavinToken

variable (contract tokenContract : Address) (sha256 : List UInt8 → BytesN32)

/-- The shipment contract at `contract`, the token contract at `tokenContract`. -/
abbrev host : Host where
  currentContractAddress := contract
  sha256 := sha256
  Token := NavinToken.State
  balance s t holder := if t = tokenContract then s.balance holder else 0
  transfer s auth t source target amount :=
    if t = tokenContract then s.transfer? auth source target amount else none
  decimals _ t := if t = tokenContract then some 7 else none

theorem host_movesExactly : (host contract tokenContract sha256).MovesExactly := by
  intro s auth t source target amount s' h t' holder
  by_cases ht : t = tokenContract
  · have hb := (State.balance_transfer? ((if_pos ht).symm.trans h)).2.2.2 holder
    by_cases ht' : t' = tokenContract
    · simpa [ht', ht] using hb
    · simp [ht', ht]
  · cases (if_neg ht).symm.trans h

/-! ### Steps of the two contracts -/

/-- What happened in a step. -/
inductive Deed where
  | shipment (call : Navin.Call) (env : Env) (trace : List Effect)
  | token (call : NavinToken.Call) (env : Env)
  /-- Time went by; a call of either contract may have failed. -/
  | idle

variable {contract tokenContract sha256}

abbrev Both (contract tokenContract : Address) (sha256 : List UInt8 → BytesN32) : Type :=
  Chain (host contract tokenContract sha256)

/-- The token contract's state. -/
abbrev tokenState (c : Both contract tokenContract sha256) : NavinToken.State := c.world.ledger.token

/-- The chain with another state of the token contract, at a later time. -/
def withToken (c : Both contract tokenContract sha256) (s : NavinToken.State) (now : ℕ) :
    Both contract tokenContract sha256 :=
  ⟨{ c.world with ledger := { c.world.ledger with token := s } }, now⟩

/-- A call of the shipment contract commits, or one of the token contract does, or none. -/
inductive Step : Both contract tokenContract sha256 → Deed → Both contract tokenContract sha256 → Prop
  | shipment {c c' : Both contract tokenContract sha256} {call : Navin.Call} {env : Env}
      {trace : List Effect} : Navin.Step c (.committed call env trace) c' →
      Step c (.shipment call env trace) c'
  | token {c : Both contract tokenContract sha256} {call : NavinToken.Call} {env : Env}
      {s : NavinToken.State} : env.Admissible c → NavinToken.Step (tokenState c) (call, env) s →
      Step c (.token call env) (withToken c s env.timestamp)
  | idle {c : Both contract tokenContract sha256} {now : ℕ} : c.now ≤ now →
      Step c .idle (withToken c (tokenState c) now)

/-- Both contracts deployed, and nothing called. -/
def start (now : ℕ) : Both contract tokenContract sha256 := ⟨World.deployed State.deployed, now⟩

theorem deployed_start (now : ℕ) :
    Deployed (start now : Both contract tokenContract sha256) := by
  refine .mk fun t => ?_
  change 0 ≤ if t = tokenContract then ((State.deployed.balance contract : I128) : ℤ) else 0
  split <;> exact le_rfl

/-! ### The token contract under calls the shipment contract does not sign -/

/-- The state of the token contract: not initialised, or backed by holdings; and the
holder has given no allowance. -/
structure Fit (holder : Address) (s : NavinToken.State) : Prop where
  accounts : s = State.deployed ∨ ∃ h, Sound s h
  unspendable : ∀ p, s.allowance holder p = none

theorem fit_deployed : Fit contract State.deployed := ⟨.inl rfl, fun _ => rfl⟩

/-- What is not initialised takes no call but the first. -/
theorem exists_initializeToken {s : NavinToken.State} {l : NavinToken.Call × Env}
    (hstep : NavinToken.Step State.deployed l s) :
    ∃ admin name symbol supply, l.1 = .initializeToken admin name symbol supply := by
  obtain ⟨call, env⟩ := l
  have hactive : ∀ {a : Address} {k : Unit → TokenTx Unit},
      ¬(guardedActive a >>= k).Returns env State.deployed () s := by
    intro a k h
    rw [returns_unit_bind fun _ _ => returns_guardedActive] at h
    cases h.1.1
  have hguarded : ∀ {a : Address} {k : Unit → TokenTx Unit},
      ¬(guarded a >>= k).Returns env State.deployed () s := by
    intro a k h
    simp only [guarded, NavinToken.requireInitialized, bind_assoc, returns_gets_bind,
      returns_rejectIf_bind] at h
    exact h.1 rfl
  cases call with
  | initializeToken admin name symbol supply => exact ⟨_, _, _, _, rfl⟩
  | transfer | transferFrom | approve | mint | adminBurn | burn | burnFrom | batchTransfer =>
    exact absurd hstep hactive
  | increaseAllowance | decreaseAllowance | transferAdmin | pause | unpause =>
    exact absurd hstep hguarded

/-- Nothing is drawn from who gave no allowance. -/
theorem Fit.drawn_eq_zero {s s' : NavinToken.State} {l : NavinToken.Call × Env}
    (hf : Fit contract s) (hstep : NavinToken.Step s l s') (hself : l.2.auth contract = false) :
    l.1.drawn contract = 0 ∧ ∀ p, s'.allowance contract p = none := by
  have hnone : ∀ p, l.1.draws contract p = none ∧ s'.allowance contract p = none := by
    intro p
    rcases hstep.allowance (hstep.not_renews hself p) with ⟨x, hcut, -⟩ | ⟨hdraw, hsame⟩
    · have hpos : 0 < (x : ℤ) := hcut.1
      have hle : (x : ℤ) ≤ s.getAllowance l.2.sequence contract p := hcut.2.1
      rw [State.getAllowance, hf.unspendable p] at hle
      exact absurd (hle.trans_lt hpos) (by simp)
    · exact ⟨hdraw, hsame.trans (hf.unspendable p)⟩
  refine ⟨?_, fun p => (hnone p).2⟩
  obtain ⟨call, env⟩ := l
  cases call with
  | transferFrom spender source target amount =>
    refine if_neg fun he => ?_
    have hd := (hnone spender).1
    simp [Call.draws, he] at hd
  | burnFrom spender source amount =>
    refine if_neg fun he => ?_
    have hd := (hnone spender).1
    simp [Call.draws, he] at hd
  | _ => rfl

/-- A call of the token contract that `contract` did not sign: it brings, or it burns. -/
theorem Fit.step {s s' : NavinToken.State} {l : NavinToken.Call × Env} (hf : Fit contract s)
    (hstep : NavinToken.Step s l s') (hself : l.2.auth contract = false) :
    Fit contract s' ∧ 0 ≤ l.1.credit contract ∧
      (s'.balance contract : ℤ) =
        s.balance contract + l.1.credit contract - l.1.clawed contract := by
  obtain ⟨hdrawn, hunspendable⟩ := hf.drawn_eq_zero hstep hself
  rcases hf.accounts with rfl | ⟨h, hs⟩
  · obtain ⟨admin, name, symbol, supply, hcall⟩ := exists_initializeToken hstep
    rw [NavinToken.Step, hcall] at hstep
    obtain ⟨h, hissue, hs'⟩ := sound_initializeToken hstep
    obtain ⟨hpos, hof⟩ := Holdings.issue?_eq_some.mp hissue
    refine ⟨⟨.inr ⟨h, hs'⟩, hunspendable⟩, ?_, ?_⟩
    · rw [hcall, Call.credit]
      split <;> omega
    · rw [hs'.backs contract, hof, hcall, Finsupp.add_apply, single_apply]
      simp [Call.credit, Call.clawed, State.deployed, Holdings.empty]
  · obtain ⟨g, -, hg⟩ := hs.step hstep
    refine ⟨⟨.inr ⟨g, hg⟩, hunspendable⟩, hstep.credit_nonneg hs contract, ?_⟩
    rw [hstep.balance hs contract, hstep.debit_eq hself, hdrawn]
    omega

/-- A transfer of the shipment contract. -/
theorem Fit.transfer? {s s' : NavinToken.State} {auth : Address → Bool} {a b : Address} {x : ℤ}
    (hf : Fit contract s) (h : s.transfer? auth a b x = some s') : Fit contract s' := by
  obtain ⟨-, hinit, hallow, -⟩ := State.balance_transfer? h
  refine ⟨.inr ?_, fun p => by rw [hallow]; exact hf.unspendable p⟩
  rcases hf.accounts with rfl | ⟨h₀, hs⟩
  · cases hinit
  · obtain ⟨amount, -, hret⟩ := State.transfer?_eq_some.mp h
    obtain ⟨g, -, hg⟩ := hs.step (l := (.transfer a b amount, _)) hret
    exact ⟨g, hg⟩

end Joint

/-! ### The token along a call of the shipment contract -/

section Along

variable {H : Host} {env : Env} {w : World H} {call : Call} {b : Book H.Token}

/-- What the transfers keep holds after a list of payments. -/
theorem Host.follow_inv {P : H.Token → Prop} {auth : Address → Bool}
    (hP : ∀ token t source target amount token', P token →
      H.transfer token auth t source target amount = some token' → P token')
    {tokenContract : Option Address} {ps : List Payment} {token token' : H.Token}
    (h : H.follow auth tokenContract token ps = some token') (h₀ : P token) : P token' := by
  induction ps generalizing token with
  | nil =>
    cases h
    exact h₀
  | cons p ps ih =>
    cases p with
    | moved t source target amount =>
      simp only [Host.follow] at h
      split at h
      · obtain ⟨token₁, h₁, h₂⟩ := Option.bind_eq_some_iff.mp h
        exact ih h₂ (hP _ _ _ _ _ _ h₀ h₁)
      · cases h
    | released => exact ih h h₀
    | refunded => exact ih h h₀
    | milestone => exact ih h h₀
    | fee => exact ih h h₀

/-- Every transfer of the list went through. -/
theorem Host.transfer_of_follow {auth : Address → Bool} {tokenContract : Option Address}
    {ps : List Payment} {token token' : H.Token} {t source target : Address} {amount : ℤ}
    (h : H.follow auth tokenContract token ps = some token')
    (hp : .moved t source target amount ∈ ps) :
    ∃ token₁ token₂, H.transfer token₁ auth t source target amount = some token₂ := by
  induction ps generalizing token with
  | nil => cases hp
  | cons p ps ih =>
    rcases List.mem_cons.mp hp with rfl | htail
    · simp only [Host.follow] at h
      split at h
      · obtain ⟨token₂, h₁, -⟩ := Option.bind_eq_some_iff.mp h
        exact ⟨token, token₂, h₁⟩
      · cases h
    · cases p with
      | moved t' a b x =>
        simp only [Host.follow] at h
        split at h
        · obtain ⟨token₁, -, h₂⟩ := Option.bind_eq_some_iff.mp h
          exact ih h₂ htail
        · cases h
      | released => exact ih h htail
      | refunded => exact ih h htail
      | milestone => exact ih h htail
      | fee => exact ih h htail

/-- A committed call changes the token by transfers alone. -/
theorem Effects.token_inv {P : H.Token → Prop} (he : Effects env w call b)
    (hP : ∀ token t source target amount token', P token →
      H.transfer token (env.tokenAuth H) t source target amount = some token' → P token')
    (h₀ : P w.ledger.token) : P b.ledger.token := by
  cases he with
  | quiet => exact h₀
  | initialized => exact h₀
  | handedOver => exact h₀
  | enrolled _ _ _ hl => rw [(w.ledger.escrowTotal_enrolled hl).2.2]; exact h₀
  | archived => exact h₀
  | posted _ _ _ hp =>
    obtain ⟨t, token, -, hf, rfl⟩ := hp
    exact Host.follow_inv hP hf h₀

/-- What a call takes out of an escrow and pays to nobody. -/
def Call.stranded {Token : Type} (l : Ledger Token) : Call → ℤ
  | .cancelShipment _ id _ => l.escrowOf id
  | .unlockEscrow _ id _ => l.escrowOf id
  | _ => 0

theorem Rule.stranded_eq {p : Posting} (hr : Rule env w call p)
    (hs : w.ledger.getShipment p.old.id = some p.old) :
    call.stranded w.ledger = if call.drops = true then p.old.escrowAmount else 0 := by
  have hold : w.ledger.escrowOf p.old.id = p.old.escrowAmount := w.ledger.escrowOf_of_some hs
  cases hr with
  | cancelShipment => simpa [Call.stranded, Call.drops] using hold
  | unlockEscrow => simpa [Call.stranded, Call.drops] using hold
  | forceRelease hx =>
    rw [drops_of_executing hx]
    cases call <;> first | rfl | cases hx
  | forceRefund hx =>
    rw [drops_of_executing hx]
    cases call <;> first | rfl | cases hx
  | _ => rfl

/-- A call that cannot drop an escrow has nothing stranded. -/
theorem Call.stranded_of_posts (l : Ledger H.Token) (h : call.posts = false) :
    call.stranded l = 0 := by
  cases call <;> first | rfl | cases h

end Along

namespace Joint

open NavinToken

variable {contract tokenContract : Address} {sha256 : List UInt8 → BytesN32} {env : Env}
  {w : World (host contract tokenContract sha256)} {call : Navin.Call}
  {b : Book (host contract tokenContract sha256).Token}

/-- What a movement brings the contract, when its transfers are between two addresses at
the token contract. -/
theorem gain_eq {s : Shipment} {m : Movement} {t : Address} {id : ℕ} (hm : MoveOf env s m)
    (hself : env.auth contract = false)
    (hp : ∀ t' a b x, .moved t' a b x ∈ m.pays contract t id → t' = tokenContract ∧ a ≠ b) :
    ((m.pays contract t id).map (·.gain tokenContract contract)).sum = m.inflow - m.outflow := by
  cases hm with
  | @release x _ =>
    obtain ⟨rfl, hne⟩ := hp t contract s.carrier x (by simp [Movement.pays])
    simp [Movement.pays, Notice.payment, Payment.gain, hne]
  | @refund x _ =>
    obtain ⟨rfl, hne⟩ := hp t contract s.sender x (by simp [Movement.pays])
    simp [Movement.pays, Notice.payment, Payment.gain, hne]
  | @bareRelease x _ =>
    obtain ⟨rfl, hne⟩ := hp t contract s.carrier x (by simp [Movement.pays])
    simp [Movement.pays, Notice.payment, Payment.gain, hne]
  | @bareRefund x _ =>
    obtain ⟨rfl, hne⟩ := hp t contract s.sender x (by simp [Movement.pays])
    simp [Movement.pays, Notice.payment, Payment.gain, hne]
  | announced => simp [Movement.pays, Payment.gain]
  | milestone => simp [Movement.pays, Payment.gain]
  | @deposit source x _ ha =>
    obtain ⟨rfl, -⟩ := hp t source contract x (by simp [Movement.pays])
    have hne : contract ≠ source := fun he => by rw [← he, hself] at ha; cases ha
    simp [Movement.pays, Payment.gain, hne]
  | @fee treasury x _ =>
    obtain ⟨rfl, hne⟩ := hp t contract treasury x (by simp [Movement.pays])
    simp [Movement.pays, Payment.gain, hne]

theorem gain_of_moves {s : Shipment} {ms : List Movement} {t : Address} {id : ℕ}
    (hms : ∀ m ∈ ms, MoveOf env s m) (hself : env.auth contract = false)
    (hp : ∀ t' a b x, .moved t' a b x ∈ ms.flatMap (·.pays contract t id) →
      t' = tokenContract ∧ a ≠ b) :
    ((ms.flatMap (·.pays contract t id)).map (·.gain tokenContract contract)).sum =
      inflow ms - outflow ms := by
  induction ms with
  | nil => rfl
  | cons m ms ih =>
    have h₁ := gain_eq (hms m (by simp)) hself fun t' a b x hx =>
      hp t' a b x (List.mem_flatMap.mpr ⟨m, by simp, hx⟩)
    have h₂ := ih (fun n hn => hms n (by simp [hn])) fun t' a b x hx => by
      obtain ⟨n, hn, hx⟩ := List.mem_flatMap.mp hx
      exact hp t' a b x (List.mem_flatMap.mpr ⟨n, by simp [hn], hx⟩)
    rw [List.flatMap_cons, List.map_append, List.sum_append, h₁, h₂, inflow_cons, outflow_cons]
    omega

/-- What a call of the shipment contract adds to the balance of the contract beyond the
escrows is what it drops. -/
theorem accounted_of_effects (hself : env.auth contract = false) (he : Effects env w call b)
    (h : w.ledger.Sound) : (b.ledger.token.balance contract : ℤ) + w.ledger.escrowTotal =
      w.ledger.token.balance contract + b.ledger.escrowTotal + call.stranded w.ledger := by
  cases he with
  | quiet hn => rw [Call.stranded_of_posts _ hn]; simp
  | initialized hcall hn =>
    -- there is no shipment yet
    have hzero : w.ledger.escrowTotal = 0 := by
      refine Finset.sum_eq_zero fun id _ => ?_
      rw [Ledger.escrowOf, h.unset hn id]
      rfl
    rw [hcall, hzero]
    exact (add_zero _).symm
  | handedOver hn => rw [Call.stranded_of_posts _ hn]; exact (add_zero _).symm
  | @enrolled sender l hn _ _ hl =>
    obtain ⟨htot, -, htok⟩ := w.ledger.escrowTotal_enrolled hl
    rw [Call.stranded_of_posts _ hn, htot, htok, add_zero]
  | archived hcall hl =>
    have htot := w.ledger.escrowTotal_putAway hl
    change (w.ledger.token.balance contract : ℤ) + _ = _ + (w.ledger.putAway _ _).escrowTotal + _
    rw [hcall, htot]
    exact (add_zero _).symm
  | @posted p b hg hv hr hp =>
    obtain ⟨t, token, -, hf, rfl⟩ := hp
    have h₀ := h.escrow_nonneg _ _ hg
    have hmoved : ∀ t' a b x, .moved t' a b x ∈ p.pays contract t → t' = tokenContract ∧ a ≠ b := by
      intro t' a b x hx
      obtain ⟨s₁, s₂, htr⟩ := Host.transfer_of_follow hf hx
      by_cases ht : t' = tokenContract
      · exact ⟨ht, (State.balance_transfer? ((if_pos ht).symm.trans htr)).1⟩
      · cases (if_neg ht).symm.trans htr
    have hbal := Host.follow_balance (host_movesExactly contract tokenContract sha256) hf tokenContract
      contract
    have hgain := gain_of_moves (fun m hm => hr.moveOf h₀ hm) hself hmoved
    have htot := w.ledger.escrowTotal_post contract env.timestamp token h hg hr.keeps.id_eq
    have hacc := hr.balanced h₀
    rw [← hr.stranded_eq hg] at hacc
    simp only [if_true, book_ledger] at hbal
    rw [Posting.pays] at hbal
    rw [hgain] at hbal
    rw [book_ledger, htot, Ledger.post_token, hbal]
    omega

/-! ### Whole runs -/

/-- What the admin of the token burns of the contract's tokens. -/
def Deed.clawed (contract : Address) : Deed → ℤ
  | .token call _ => call.clawed contract
  | _ => 0

/-- What a step adds to what the contract holds beyond the escrows. -/
def surplus (c : Both contract tokenContract sha256) : Deed → ℤ
  | .shipment call _ _ => call.stranded c.world.ledger
  | .token call _ => call.credit contract - call.clawed contract
  | .idle => 0

/-- The shipment contract's ledger is sound, and the token contract is fit. -/
structure Good (c : Both contract tokenContract sha256) : Prop where
  sound : c.world.ledger.Sound
  fit : Fit contract (tokenState c)

/-- What the contract holds beyond the escrows. -/
def margin (c : Both contract tokenContract sha256) : ℤ :=
  (tokenState c).balance contract - c.world.ledger.escrowTotal

theorem good_start (now : ℕ) : Good (start now : Both contract tokenContract sha256) :=
  ⟨(deployed_start now).sound, fit_deployed⟩

/-- The ledger is as sound with another state of the token contract. -/
theorem sound_withToken {c : Both contract tokenContract sha256} (h : c.world.ledger.Sound)
    (s : NavinToken.State) (now : ℕ) : (withToken c s now).world.ledger.Sound :=
  h.congr rfl rfl rfl id

theorem Step.good {c c' : Both contract tokenContract sha256} {d : Deed} (hstep : Step c d c')
    (h : Good c) : Good c' ∧ margin c' = margin c + surplus c d := by
  cases hstep with
  | @shipment _ call env trace hstep =>
    have hsound := hstep.sound h.sound
    cases hstep with
    | @committed _ _ w hadm hx =>
      have he := exec_effects (w := c.world.fresh) h.sound.keyed hx
      refine ⟨⟨hsound, ?_⟩, ?_⟩
      · refine he.token_inv (P := Fit contract) (fun s t a b x s' hs htr => ?_) h.fit
        by_cases ht : t = tokenContract
        · exact hs.transfer? ((if_pos ht).symm.trans htr)
        · cases (if_neg ht).symm.trans htr
      · have hacc := accounted_of_effects hadm.self he h.sound
        change ((w.ledger.token.balance contract : I128) : ℤ) + c.world.ledger.escrowTotal =
          (tokenState c).balance contract + w.ledger.escrowTotal + call.stranded c.world.ledger at hacc
        change ((w.ledger.token.balance contract : I128) : ℤ) - w.ledger.escrowTotal =
          (tokenState c).balance contract - c.world.ledger.escrowTotal + call.stranded c.world.ledger
        omega
  | @token call env s hadm hstep =>
    obtain ⟨hfit, -, hbal⟩ := h.fit.step hstep hadm.self
    refine ⟨⟨sound_withToken h.sound _ _, hfit⟩, ?_⟩
    change (s.balance contract : ℤ) - c.world.ledger.escrowTotal = margin c + _
    dsimp only at hbal
    rw [hbal, margin, surplus]
    omega
  | idle => exact ⟨⟨sound_withToken h.sound _ _, h.fit⟩, (add_zero _).symm⟩

/-- Whatever is called of the two contracts, and in whatever order: the balance of the
shipment contract is what it owes, and what it was sent and what was dropped, less what
the admin of the token burnt; and the balances of all holders add up to the supply. -/
theorem balance_accounted {now : ℕ} {ds : List Deed} {c : Both contract tokenContract sha256}
    {xs : List ℤ} (hr : Gathers Step (fun c d => [surplus c d]) (start now) ds c xs) :
    ((tokenState c).balance contract : ℤ) = c.world.ledger.escrowTotal + xs.sum ∧
      (tokenState c = State.deployed ∨
        (Function.support fun a => ((tokenState c).balance a : ℤ)).Finite ∧
          (∃ t, (tokenState c).totalSupply = some t ∧ ∑ᶠ a, ((tokenState c).balance a : ℤ) = t) ∧
          ∀ a, 0 ≤ ((tokenState c).balance a : ℤ)) := by
  obtain ⟨hgood, hmargin⟩ := hr.sum_eq (φ := margin) (good_start now) fun a d b ha hstep => by
    obtain ⟨hb, hm⟩ := hstep.good ha
    exact ⟨hb, by simpa using hm⟩
  refine ⟨?_, hgood.fit.accounts.imp_right fun ⟨h, hs⟩ => ?_⟩
  · have hzero : margin (start now : Both contract tokenContract sha256) = 0 := rfl
    rw [hzero, zero_add] at hmargin
    rw [margin] at hmargin
    omega
  · obtain ⟨t, ht, hsum⟩ := hs.supply
    have hfun : (fun a => ((tokenState c).balance a : ℤ)) = h := funext hs.backs
    rw [hfun]
    exact ⟨h.of.hasFiniteSupport, ⟨t, ht, h.finsum_eq_total.trans hsum.symm⟩, hs.backs.nonneg⟩

/-- A step that burns nothing of the contract's is a step of the chain. -/
theorem simulates : Simulates (Under Step fun (_ : Both contract tokenContract sha256) d =>
    d.clawed contract = 0) Navin.Step fun c c' => c = c' ∧ Good c := by
  rintro c d c' _ ⟨rfl, hc⟩ ⟨hstep, hd⟩
  have hgood := (hstep.good hc).1
  cases hstep with
  | shipment hstep => exact ⟨_, _, .snoc .nil hstep, rfl, hgood⟩
  | @token call env s hadm hstep =>
    refine ⟨_, _, .snoc .nil (.outside hadm.time fun t => ?_), rfl, hgood⟩
    obtain ⟨-, hcredit, hbal⟩ := hc.fit.step hstep hadm.self
    dsimp only at hcredit hbal
    have hclaw : call.clawed contract = 0 := hd
    by_cases ht : t = tokenContract
    · simp only [if_pos ht]
      change ((tokenState c).balance contract : ℤ) ≤ s.balance contract
      omega
    · simp only [if_neg ht, le_refl]
  | idle hnow => exact ⟨_, _, .snoc .nil (.outside hnow fun _ => le_rfl), rfl, hgood⟩

/-- Only the admin of the token takes from what the contract does not owe. -/
theorem Step.surplus_nonneg {c c' : Both contract tokenContract sha256} {d : Deed}
    (hstep : Step c d c') (h : Good c) (hd : d.clawed contract = 0) : 0 ≤ surplus c d := by
  cases hstep with
  | @shipment _ call env trace hstep =>
    have hnonneg : ∀ id, 0 ≤ c.world.ledger.escrowOf id := by
      intro id
      rw [Ledger.escrowOf]
      cases hs : c.world.ledger.getShipment id with
      | none => exact le_rfl
      | some s => exact h.sound.escrow_nonneg id s hs
    cases call with
    | cancelShipment caller id hash => exact hnonneg id
    | unlockEscrow admin id hash => exact hnonneg id
    | _ => exact le_rfl
  | @token call env s hadm hstep =>
    obtain ⟨-, hcredit, -⟩ := h.fit.step hstep hadm.self
    have hclaw : call.clawed contract = 0 := hd
    dsimp only at hcredit
    rw [surplus, hclaw]
    omega
  | idle => exact le_rfl

/-- As long as the admin of the token burns nothing of the contract's, the two contracts go
through a run of the chain, and the contract covers its escrows. -/
theorem joint_solvent {now : ℕ} {ds : List Deed} {c : Both contract tokenContract sha256}
    (hr : Run Step (start now) ds c) (hclaw : ∀ d ∈ ds, d.clawed contract = 0) :
    Reachable c ∧ c.world.ledger.escrowTotal ≤ (tokenState c).balance contract := by
  have hunder := hr.under (P := fun _ d => d.clawed contract = 0) hclaw fun _ _ => id
  obtain ⟨ls, c', hrun, rfl, -⟩ := simulates.run ⟨rfl, good_start now⟩ hunder
  refine ⟨⟨_, ls, deployed_start now, hrun⟩, ?_⟩
  have hinv : Good c ∧ 0 ≤ margin c := by
    refine hr.inv_of (I := fun c => Good c ∧ 0 ≤ margin c) hclaw ⟨good_start now, le_rfl⟩ ?_
    intro a d b hd ha hstep
    obtain ⟨hb, hmargin⟩ := hstep.good ha.1
    have hsurplus := hstep.surplus_nonneg ha.1 hd
    have := ha.2
    exact ⟨hb, by omega⟩
  have hle := hinv.2
  rw [margin] at hle
  omega

/-! ### Playing calls of both -/

/-- A call of one of the two contracts. -/
inductive Order where
  | shipment (call : Navin.Call)
  | token (call : NavinToken.Call)

/-- The deeds and the state after a list of calls that all commit. -/
def play (c : Both contract tokenContract sha256) :
    List (Order × Env) → Option (List Deed × Both contract tokenContract sha256)
  | [] => some ([], c)
  | (.shipment call, env) :: rest =>
    (commit c call env).bind fun r =>
      (play r.2 rest).map fun q => (.shipment call env r.1 :: q.1, q.2)
  | (.token call, env) :: rest =>
    if c.now ≤ env.timestamp ∧ env.auth contract = false then
      (call.exec.result? env (tokenState c)).bind fun r =>
        (play (withToken c r.2 env.timestamp) rest).map fun q => (.token call env :: q.1, q.2)
    else none

/-- What is played is a run of the two contracts. -/
theorem run_of_play {c c' : Both contract tokenContract sha256} {os : List (Order × Env)}
    {ds : List Deed} (h : play c os = some (ds, c')) : Run Step c ds c' := by
  induction os generalizing c ds with
  | nil =>
    cases h
    exact .nil
  | cons oe os ih =>
    obtain ⟨order, env⟩ := oe
    cases order with
    | shipment call =>
      obtain ⟨r, hr, h⟩ := Option.bind_eq_some_iff.mp h
      obtain ⟨q, hq, hk⟩ := Option.map_eq_some_iff.mp h
      cases hk
      exact .cons (.shipment (step_of_commit hr)) (ih hq)
    | token call =>
      unfold play at h
      split at h
      · rename_i hadm
        obtain ⟨r, hr, h⟩ := Option.bind_eq_some_iff.mp h
        obtain ⟨q, hq, hk⟩ := Option.map_eq_some_iff.mp h
        cases hk
        exact .cons (.token ⟨hadm.1, hadm.2⟩ (result?_eq_some.mp hr)) (ih hq)
      · cases h

namespace Sample

open Deployment

def pair : Both Deployment.self Deployment.tokenContract Deployment.host.sha256 := start 0

def bySigner (a : Address) (now : ℕ) (order : Order) : Order × Env := (order, signedBy a now)

/-- Both contracts are set up, the company gets 5000 and pays 1000 into its shipment; the
shipment contract is sent 70 besides. -/
def orders : List (Order × Env) := [
  bySigner admin 1 (.token (.initializeToken admin [78] [78] ⟨9000, by decide, by decide⟩)),
  bySigner admin 1 (.token (.transfer admin company ⟨5000, by decide, by decide⟩)),
  bySigner admin 1 (.shipment (.initializeContract admin Deployment.tokenContract)),
  bySigner admin 2 (.shipment (.addCompany admin company)),
  bySigner admin 3 (.shipment (.addCarrier admin carrier)),
  bySigner company 4 (.shipment (.createShipment company shipment)),
  bySigner company 5 (.shipment (.depositEscrow company 1 1000)),
  bySigner company 6 (.token (.transfer company Deployment.self ⟨70, by decide, by decide⟩))]

end Sample

open Deployment Sample in
/-- The company cancels a shipment with 1000 in escrow, after the admin burnt 30 of the
contract's tokens: of the 1040 it has, the contract owes nothing. -/
theorem balance_accounted_cancelled : ∃ ds c xs,
    Gathers Step (fun c d => [surplus c d]) pair ds c xs ∧ c.world.ledger.escrowTotal = 0 ∧
    ((tokenState c).balance Deployment.self : ℤ) = 1040 ∧ xs.sum = 1040 := by
  have hplay : (play pair (orders ++ [
      bySigner admin 7 (.token (.adminBurn admin Deployment.self ⟨30, by decide, by decide⟩)),
      bySigner company 8 (.shipment (.cancelShipment company 1 3))])).any (fun r =>
        decide (r.2.world.ledger.escrowTotal = 0 ∧
          ((tokenState r.2).balance Deployment.self : ℤ) = 1040)) = true := by decide +kernel
  obtain ⟨⟨ds, c⟩, hr, h⟩ := (Option.any_eq_true _ _).mp hplay
  obtain ⟨htotal, hbal⟩ := of_decide_eq_true h
  obtain ⟨xs, hxs⟩ := (run_of_play hr).gathers fun c d => [surplus c d]
  refine ⟨ds, c, xs, hxs, htotal, hbal, ?_⟩
  have hacc := (balance_accounted hxs).1
  dsimp only at htotal hbal
  rw [htotal, hbal, zero_add] at hacc
  exact hacc.symm

open Deployment Sample in
/-- With 1000 in escrow and 70 besides. -/
theorem joint_solvent_funded : ∃ ds c, Run Step pair ds c ∧ Reachable c ∧
    c.world.ledger.escrowTotal = 1000 ∧
    c.world.ledger.escrowTotal ≤ (tokenState c).balance Deployment.self := by
  have hplay : (play pair orders).any (fun r =>
      decide (r.2.world.ledger.escrowTotal = 1000) &&
        r.1.all fun d => decide (d.clawed Deployment.self = 0)) = true := by decide +kernel
  obtain ⟨⟨ds, c⟩, hr, h⟩ := (Option.any_eq_true _ _).mp hplay
  simp only [Bool.and_eq_true, decide_eq_true_eq, List.all_eq_true] at h
  have hrun := run_of_play hr
  obtain ⟨hc, hle⟩ := joint_solvent hrun h.2
  exact ⟨ds, c, hrun, hc, h.1, hle⟩

end Joint

end Navin
