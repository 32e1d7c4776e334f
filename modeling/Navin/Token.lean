/-
# The Navin token

The `transfer` of the repository's own token contract (`contracts/token`), and
the host that runs the shipment contract over it. It moves exactly the amount it
is asked to move, which is what the results about escrow assume of a token.

Key definitions:
- `TokenLedger.transfer`;
- `tokenHost`: a host whose only token is this one;
- `play`: a list of calls, evaluated; `Deployment`: a small one to play on;
- `playMeets`: the calls meet a condition where they are made.

Key theorems:
- `tokenHost_movesExactly`;
- `run_of_play`, `run_under_of_play`: what is played is a run.
-/
import Navin.Contract

namespace Navin

/-- The stored state `transfer` reads: the token is initialised once it has an
admin. -/
structure TokenLedger where
  admin : Option Address
  paused : Bool
  balance : Address → ℤ

namespace TokenLedger

/-- `NavinToken::transfer`; `none` is a refusal. -/
def transfer (l : TokenLedger) (auth : Address → Bool) (source target : Address) (amount : ℤ) :
    Option TokenLedger :=
  if l.admin = none ∨ l.paused = true ∨ auth source = false ∨ amount ≤ 0 ∨ source = target ∨
      l.balance source < amount then none
  else do
    let newSource ← checkedI128 (l.balance source - amount)
    let newTarget ← checkedI128 (l.balance target + amount)
    return { l with
      balance := Function.update (Function.update l.balance source newSource) target newTarget }

/-- A transfer that goes through moves the amount from one side to the other. -/
theorem balance_transfer {l l' : TokenLedger} {auth : Address → Bool} {source target : Address}
    {amount : ℤ} (h : l.transfer auth source target amount = some l') (holder : Address) :
    l'.balance holder = l.balance holder - (if holder = source then amount else 0) +
      (if holder = target then amount else 0) := by
  unfold transfer at h
  split at h
  · cases h
  rename_i hg
  have hne : source ≠ target := fun he => hg (by simp [he])
  cases hs : checkedI128 (l.balance source - amount) with
  | none => simp [hs] at h
  | some newSource =>
    cases ht : checkedI128 (l.balance target + amount) with
    | none => simp [hs, ht] at h
    | some newTarget =>
      simp only [hs, ht, Option.bind_eq_bind, Option.bind_some, Option.pure_def,
        Option.some.injEq] at h
      subst h
      rw [checkedI128_eq_some hs, checkedI128_eq_some ht]
      by_cases h₁ : holder = target
      · subst h₁
        simp [hne.symm]
      · by_cases h₂ : holder = source
        · subst h₂
          simp [h₁]
        · simp [h₁, h₂]

end TokenLedger

/-- A host with one token contract. The hash is a stand-in: nothing below
depends on which function it is. -/
def tokenHost (self tokenContract : Address) : Host where
  currentContractAddress := self
  sha256 bytes := BitVec.ofNat 256 (bytes.foldl (fun acc b => (acc * 257 + b.toNat + 1) % 2 ^ 255) 1)
  Token := TokenLedger
  balance l t holder := if t = tokenContract then l.balance holder else 0
  transfer l auth t source target amount :=
    if t = tokenContract then l.transfer auth source target amount else none
  decimals _ t := if t = tokenContract then some 7 else none

/-- The Navin token moves exactly. -/
theorem tokenHost_movesExactly (self tokenContract : Address) :
    (tokenHost self tokenContract).MovesExactly := by
  intro l auth t source target amount l' h t' holder
  simp only [tokenHost] at h ⊢
  split at h
  · rename_i ht
    have hb := TokenLedger.balance_transfer h holder
    by_cases ht' : t' = tokenContract
    · simpa [ht', ht] using hb
    · simp [ht', ht]
  · cases h

/-! ### Running a chain of calls -/

variable {H : Host}

/-- The trace and the chain after a call that commits. -/
def commit (c : Chain H) (call : Call) (env : Env) : Option (List Effect × Chain H) :=
  if c.now ≤ env.timestamp ∧ env.auth H.currentContractAddress = false then
    match call.exec env c.world.fresh with
    | .ok _ w => some (w.trace, ⟨w.fresh, env.timestamp⟩)
    | _ => none
  else none

theorem step_of_commit {c c' : Chain H} {call : Call} {env : Env} {trace : List Effect}
    (h : commit c call env = some (trace, c')) : Step c (.committed call env trace) c' := by
  unfold commit at h
  split at h
  · rename_i hadm
    cases hx : call.exec env c.world.fresh with
    | ok u w =>
      rw [hx] at h
      cases h
      exact .committed ⟨hadm.1, hadm.2⟩ hx
    | err e w => rw [hx] at h; cases h
    | trap => rw [hx] at h; cases h
  · cases h

/-- The labels and the chain after a list of calls that all commit. -/
def play (c : Chain H) : List (Call × Env) → Option (List Label × Chain H)
  | [] => some ([], c)
  | (call, env) :: rest =>
    (commit c call env).bind fun r =>
      (play r.2 rest).map fun q => (.committed call env r.1 :: q.1, q.2)

/-- What is played is a run of the chain. -/
theorem run_of_play {c : Chain H} {calls : List (Call × Env)} {ls : List Label} {c' : Chain H}
    (h : play c calls = some (ls, c')) : Run Step c ls c' := by
  induction calls generalizing c ls with
  | nil =>
    cases h
    exact .nil
  | cons ce calls ih =>
    obtain ⟨r, hr, h⟩ := Option.bind_eq_some_iff.mp h
    obtain ⟨q, hq, hk⟩ := Option.map_eq_some_iff.mp h
    cases hk
    exact .cons (step_of_commit hr) (ih hq)

/-- A property of what is played, found by evaluation. -/
theorem exists_play (c : Chain H) (calls : List (Call × Env)) (P : List Label × Chain H → Prop)
    [DecidablePred P] (h : (play c calls).any (fun r => P r) = true) :
    ∃ ls c', Run Step c ls c' ∧ play c calls = some (ls, c') ∧ P (ls, c') := by
  cases hp : play c calls with
  | none =>
    rw [hp] at h
    cases h
  | some r =>
    rw [hp] at h
    exact ⟨r.1, r.2, run_of_play hp, rfl, by simpa using h⟩

/-- A property of one more call after what is played, found by evaluation. -/
theorem exists_commit (c : Chain H) (calls : List (Call × Env)) (call : Call) (env : Env)
    (P : List Label × Chain H → List Effect → Chain H → Prop) [∀ r trace c', Decidable (P r trace c')]
    (h : (play c calls).any (fun r => (commit r.2 call env).any fun q => P r q.1 q.2) = true) :
    ∃ ls c₁ trace c', Run Step c ls c₁ ∧ Step c₁ (.committed call env trace) c' ∧
      P (ls, c₁) trace c' := by
  obtain ⟨r, hr, h⟩ := (Option.any_eq_true _ _).mp h
  obtain ⟨q, hq, h⟩ := (Option.any_eq_true _ _).mp h
  exact ⟨r.1, r.2, q.1, q.2, run_of_play hr, step_of_commit hq, by simpa using h⟩

/-- The same for two more calls. -/
theorem exists_commit₂ (c : Chain H) (calls : List (Call × Env)) (call call' : Call) (env env' : Env)
    (P : List Label × Chain H → Chain H → Chain H → Prop) [∀ r a b, Decidable (P r a b)]
    (h : (play c calls).any (fun r => (commit r.2 call env).any fun q =>
      (commit q.2 call' env').any fun q' => P r q.2 q'.2) = true) :
    ∃ ls c₁ trace c₂ trace' c₃, Run Step c ls c₁ ∧ Step c₁ (.committed call env trace) c₂ ∧
      Step c₂ (.committed call' env' trace') c₃ ∧ P (ls, c₁) c₂ c₃ := by
  obtain ⟨r, hr, h⟩ := (Option.any_eq_true _ _).mp h
  obtain ⟨q, hq, h⟩ := (Option.any_eq_true _ _).mp h
  obtain ⟨q', hq', h⟩ := (Option.any_eq_true _ _).mp h
  exact ⟨r.1, r.2, q.1, q.2, q'.1, q'.2, run_of_play hr, step_of_commit hq, step_of_commit hq',
    by simpa using h⟩

/-- The calls, each committed, meet a condition where they are made. -/
def playMeets (P : Chain H → Label → Prop) [∀ c l, Decidable (P c l)] (c : Chain H) :
    List (Call × Env) → Bool
  | [] => true
  | (call, env) :: rest => (commit c call env).any fun r =>
      decide (P c (.committed call env r.1)) && playMeets P r.2 rest

theorem run_under_of_play {P : Chain H → Label → Prop} [∀ c l, Decidable (P c l)] {c : Chain H}
    {calls : List (Call × Env)} {ls : List Label} {c' : Chain H} (h : play c calls = some (ls, c'))
    (hP : playMeets P c calls = true) : Run (Under Step P) c ls c' := by
  induction calls generalizing c ls with
  | nil =>
    cases h
    exact .nil
  | cons ce calls ih =>
    obtain ⟨r, hr, h⟩ := Option.bind_eq_some_iff.mp h
    obtain ⟨q, hq, hk⟩ := Option.map_eq_some_iff.mp h
    obtain ⟨r', hr', hP⟩ := (Option.any_eq_true _ _).mp hP
    obtain rfl : r = r' := Option.some.inj (hr.symm.trans hr')
    obtain ⟨hP, hrest⟩ := (Bool.and_eq_true _ _).mp hP
    cases hk
    exact .cons ⟨step_of_commit hr, of_decide_eq_true hP⟩ (ih hq hrest)

/-- A property of one more call after what is played under a condition. -/
theorem exists_commit_under (c : Chain H) (calls : List (Call × Env)) (call : Call) (env : Env)
    (P : Chain H → Label → Prop) [∀ c l, Decidable (P c l)]
    (Q : Chain H → List Effect → Chain H → Prop) [∀ a trace b, Decidable (Q a trace b)]
    (hP : playMeets P c calls = true)
    (h : (play c calls).any (fun r => (commit r.2 call env).any fun q => Q r.2 q.1 q.2) = true) :
    ∃ ls c₁ trace c', Run (Under Step P) c ls c₁ ∧ Step c₁ (.committed call env trace) c' ∧
      Q c₁ trace c' := by
  obtain ⟨r, hr, h⟩ := (Option.any_eq_true _ _).mp h
  obtain ⟨q, hq, h⟩ := (Option.any_eq_true _ _).mp h
  exact ⟨r.1, r.2, q.1, q.2, run_under_of_play hr hP, step_of_commit hq, by simpa using h⟩

/-- A property of calls played under a condition after others. The condition may look at
the state they start from. -/
theorem exists_play_under (c : Chain H) (calls calls' : List (Call × Env))
    (P : Chain H → Chain H → Label → Prop) [∀ a c l, Decidable (P a c l)]
    (Q : List Label × Chain H → Prop) [DecidablePred Q]
    (h : (play c calls).any (fun r =>
      playMeets (P r.2) r.2 calls' && (play r.2 calls').any fun q => Q q) = true) :
    ∃ ls c₁ ls' c', Run Step c ls c₁ ∧ Run (Under Step (P c₁)) c₁ ls' c' ∧ Q (ls', c') := by
  obtain ⟨r, hr, h⟩ := (Option.any_eq_true _ _).mp h
  obtain ⟨hP, h⟩ := (Bool.and_eq_true _ _).mp h
  obtain ⟨q, hq, h⟩ := (Option.any_eq_true _ _).mp h
  exact ⟨r.1, r.2, q.1, q.2, run_of_play hr, run_under_of_play hq hP, by simpa using h⟩

/-- A property of what is played after other calls, and of the state it starts from. -/
theorem exists_play₂ (c : Chain H) (calls calls' : List (Call × Env))
    (Q : Chain H → List Label × Chain H → Prop) [∀ a r, Decidable (Q a r)]
    (h : (play c calls).any (fun r => (play r.2 calls').any fun q => Q r.2 q) = true) :
    ∃ ls c₁ ls' c', Run Step c ls c₁ ∧ Run Step c₁ ls' c' ∧ play c₁ calls' = some (ls', c') ∧
      Q c₁ (ls', c') := by
  obtain ⟨r, hr, h⟩ := (Option.any_eq_true _ _).mp h
  obtain ⟨q, hq, h⟩ := (Option.any_eq_true _ _).mp h
  exact ⟨r.1, r.2, q.1, q.2, run_of_play hr, run_of_play hq, hq, of_decide_eq_true h⟩

/-! ### A small deployment -/

namespace Deployment

/-- The shipment contract, its token, and the parties. -/
def self : Address := .contract 1

def tokenContract : Address := .contract 2

def admin : Address := .account 10

def company : Address := .account 11

def carrier : Address := .account 12

def receiver : Address := .account 13

def treasury : Address := .account 14

/-- The company and the admin hold tokens; the contract holds none. -/
def tokens : TokenLedger where
  admin := some admin
  paused := false
  balance a := if a = company then 1000000 else if a = admin then 1000000 else 0

abbrev host : Host := tokenHost self tokenContract

/-- The contract as deployed at time zero. -/
def chain : Chain host := ⟨World.deployed tokens, 0⟩

theorem deployed : Deployed chain := by
  refine .mk fun t => ?_
  change 0 ≤ if t = tokenContract then tokens.balance self else 0
  split
  · decide
  · exact le_rfl

/-- A call at a time, signed by one address. -/
def signed (a : Address) (now : ℕ) (call : Call) : Call × Env :=
  (call, ⟨now, now, fun b => b = a, fun _ => true⟩)

/-- A shipment with two milestones of 40 and 60 percent. -/
def pickup : Symbol := ⟨[112, 105, 99, 107, 117, 112], by decide, by decide⟩

def port : Symbol := ⟨[112, 111, 114, 116], by decide, by decide⟩

def shipment : ShipmentInput := ⟨receiver, carrier, 1, [(pickup, 40), (port, 60)], 10000⟩

/-- Set-up, roles, and one shipment. -/
def opening : List (Call × Env) := [
  signed admin 1 (.initializeContract admin tokenContract),
  signed admin 2 (.addCompany admin company),
  signed admin 3 (.addCarrier admin carrier),
  signed company 4 (.createShipment company shipment)]

end Deployment

end Navin
