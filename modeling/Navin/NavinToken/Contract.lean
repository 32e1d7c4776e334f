/-
# The token contract

The token contract of the repository (`contracts/token`): its storage, its calls with
the errors and the overflow checks of the source, and the runs of it. Amounts are 128-bit
integers, so that no stored amount is out of range. `checked_add` and `checked_sub` fail
with an error of the contract; a plain `+` or `-` traps on overflow, as the release
profile of the repository has it. The metadata of the token, which no amount depends on,
has a module of its own.

Key definitions:
- `I128`, with `I128.checkedAdd` and `I128.checkedSub`;
- `NavinToken.State`, and `initializeToken`, `transfer`, `transferFrom`, ..., `batchTransfer`;
- `NavinToken.Call`, `NavinToken.Step` and `NavinToken.Reachable`.

Key theorems:
- `transfer_ledger`: the transfer the shipment contract is run over is this one.
-/
import Navin.Lib.Triples
import Navin.Token

namespace Navin

/-! ### Amounts -/

/-- An `i128`. -/
@[ext]
structure I128 where
  val : ℤ
  ge : i128Min ≤ val
  le : val ≤ i128Max
  deriving DecidableEq

namespace I128

instance : Coe I128 ℤ := ⟨I128.val⟩

instance : Zero I128 := ⟨⟨0, by decide, by decide⟩⟩

instance : LE I128 := ⟨fun a b => a.val ≤ b.val⟩

instance : LT I128 := ⟨fun a b => a.val < b.val⟩

instance (a b : I128) : Decidable (a ≤ b) := inferInstanceAs (Decidable (a.val ≤ b.val))

instance (a b : I128) : Decidable (a < b) := inferInstanceAs (Decidable (a.val < b.val))

/-- The `i128` with this value, if there is one. -/
def ofInt? (x : ℤ) : Option I128 :=
  if h : i128Min ≤ x ∧ x ≤ i128Max then some ⟨x, h.1, h.2⟩ else none

/-- `i128::checked_add`. -/
def checkedAdd (a b : I128) : Option I128 := ofInt? (a + b)

/-- `i128::checked_sub`. -/
def checkedSub (a b : I128) : Option I128 := ofInt? (a - b)

variable {a b c : I128}

@[simp] theorem val_zero : ((0 : I128) : ℤ) = 0 := rfl

theorem not_le : ¬a ≤ b ↔ b < a := Int.not_le

theorem not_lt : ¬a < b ↔ b ≤ a := Int.not_lt

/-- A positive amount is not negative. -/
theorem nonneg_of_pos (ha : 0 < a) : 0 ≤ (a : ℤ) := Int.le_of_lt ha

theorem ofInt?_eq_some {x : ℤ} : ofInt? x = some c ↔ (c : ℤ) = x := by
  unfold ofInt?
  split
  · simp only [Option.some.injEq, I128.ext_iff]
    exact eq_comm
  · rename_i h
    simp only [reduceCtorEq, false_iff]
    rintro rfl
    exact h ⟨c.ge, c.le⟩

theorem ofInt?_eq_none {x : ℤ} : ofInt? x = none ↔ x < i128Min ∨ i128Max < x := by
  unfold ofInt?
  split <;> simp <;> omega

/-- The same check on bare integers. -/
theorem checkedI128_eq (x : ℤ) : checkedI128 x = (ofInt? x).map I128.val := by
  unfold checkedI128 ofInt?
  split <;> rfl

theorem checkedAdd_eq_some : a.checkedAdd b = some c ↔ (c : ℤ) = a + b := ofInt?_eq_some

theorem checkedSub_eq_some : a.checkedSub b = some c ↔ (c : ℤ) = a - b := ofInt?_eq_some

theorem checkedAdd_eq_none : a.checkedAdd b = none ↔ (a + b : ℤ) < i128Min ∨ i128Max < (a + b : ℤ) :=
  ofInt?_eq_none

/-- A difference of amounts that is covered does not overflow. -/
theorem checkedSub_ne_none (hb : 0 ≤ (b : ℤ)) (hba : (b : ℤ) ≤ a) : a.checkedSub b ≠ none := by
  have hmin : i128Min ≤ 0 := by decide
  rw [checkedSub, ne_eq, ofInt?_eq_none]
  have ha := a.le
  omega

/-- A sum below one that is representable does not overflow. -/
theorem checkedAdd_ne_none (ha : 0 ≤ (a : ℤ)) (hc : (a : ℤ) + b ≤ c) : a.checkedAdd b ≠ none := by
  rw [ne_eq, checkedAdd_eq_none]
  have hmin : i128Min ≤ a := a.ge
  have hb := b.ge
  have hmax := c.le
  omega

end I128

/-! ### The storage -/

/-- `errors.rs` of the token, in the order of the codes. -/
inductive TokenError where
  | alreadyInitialized | notInitialized | unauthorized | invalidAmount | insufficientBalance
  | insufficientAllowance | sameAccount | invalidExpirationLedger | contractPaused | overflow
  deriving DecidableEq, Repr

/-- What the token publishes, one constructor for each topic. -/
inductive TokenEvent where
  | init (admin : Address) (totalSupply : I128)
  | transfer (source target : Address) (amount : I128)
  | trFrom (source target spender : Address) (amount : I128)
  | approve (source spender : Address) (amount : I128) (expirationLedger : ℕ)
  | incAlw (owner spender : Address) (delta newAllowance : I128)
  | decAlw (owner spender : Address) (delta newAllowance : I128)
  | adminTr (currentAdmin newAdmin : Address)
  | mint (target : Address) (amount : I128)
  | admBurn (source : Address) (amount : I128)
  | burn (source : Address) (amount : I128)
  | burnFrom (source spender : Address) (amount : I128)
  | paused (admin : Address)
  | unpaused (admin : Address)
  | batchTr (source : Address) (count : ℕ)
  deriving DecidableEq

/-- An allowance and the ledger it expires on. -/
structure AllowanceValue where
  amount : I128
  expirationLedger : ℕ
  deriving DecidableEq

namespace NavinToken

/-- What the contract stores, by key, and what it has published. A balance that is not
stored is zero, and the flag is off until it is set. -/
structure State where
  admin : Option Address
  name : Option (List UInt8)
  symbol : Option (List UInt8)
  totalSupply : Option I128
  balance : Address → I128
  allowance : Address → Address → Option AllowanceValue
  paused : Bool
  events : List TokenEvent

namespace State

/-- Nothing is stored. -/
def deployed : State where
  admin := none
  name := none
  symbol := none
  totalSupply := none
  balance _ := 0
  allowance _ _ := none
  paused := false
  events := []

variable (s : State)

def isInitialized : Bool := s.admin.isSome

/-- `storage::get_allowance`: zero once the expiration ledger has passed. -/
def getAllowance (sequence : ℕ) (owner spender : Address) : I128 :=
  match s.allowance owner spender with
  | some value => if sequence ≤ value.expirationLedger then value.amount else 0
  | none => 0

/-- The stored expiration ledger, whether it has passed or not. -/
def getExpirationLedger (owner spender : Address) : ℕ :=
  ((s.allowance owner spender).map AllowanceValue.expirationLedger).getD 0

end State

end NavinToken

/-- A call of the token, or a part of one. -/
abbrev TokenTx := Tx Env NavinToken.State TokenError

namespace NavinToken

open Tx

/-! ### Storage access -/

def getAdmin : TokenTx Address := do unwrap (← gets State.admin)

def getTotalSupply : TokenTx I128 := do unwrap (← gets State.totalSupply)

def getBalance (address : Address) : TokenTx I128 := gets fun s => s.balance address

def getAllowance (owner spender : Address) : TokenTx I128 := do
  let env ← ask
  gets fun s => s.getAllowance env.sequence owner spender

def getExpirationLedger (owner spender : Address) : TokenTx ℕ :=
  gets fun s => s.getExpirationLedger owner spender

def setAdmin (admin : Address) : TokenTx Unit := modify fun s => { s with admin := some admin }

def setName (name : List UInt8) : TokenTx Unit := modify fun s => { s with name := some name }

def setSymbol (symbol : List UInt8) : TokenTx Unit :=
  modify fun s => { s with symbol := some symbol }

def setTotalSupply (supply : I128) : TokenTx Unit :=
  modify fun s => { s with totalSupply := some supply }

def setBalance (address : Address) (balance : I128) : TokenTx Unit :=
  modify fun s => { s with balance := Function.update s.balance address balance }

def setAllowance (owner spender : Address) (amount : I128) (expirationLedger : ℕ) : TokenTx Unit :=
  modify fun s => { s with
    allowance := update₂ s.allowance owner spender (some ⟨amount, expirationLedger⟩) }

def setPaused (paused : Bool) : TokenTx Unit := modify fun s => { s with paused := paused }

def publish (event : TokenEvent) : TokenTx Unit :=
  modify fun s => { s with events := s.events ++ [event] }

/-! ### Guards -/

def requireInitialized : TokenTx Unit := do
  rejectIf ((← gets State.isInitialized) = false) .notInitialized

def requireNotPaused : TokenTx Unit := do
  rejectIf ((← gets State.paused) = true) .contractPaused

/-- `address.require_auth()`. -/
def requireAuth (address : Address) : TokenTx Unit := do
  let env ← ask
  trapIf (env.auth address = false)

/-- `if storage::get_admin(&env) != admin { return Err(Unauthorized) }`. -/
def requireAdmin (admin : Address) : TokenTx Unit := do
  rejectIf ((← getAdmin) ≠ admin) .unauthorized

/-- The guards of a call that the pause does not stop. -/
def guarded (signer : Address) : TokenTx Unit := do
  requireInitialized
  requireAuth signer

/-- The guards of a call that the pause stops. -/
def guardedActive (signer : Address) : TokenTx Unit := do
  requireInitialized
  requireNotPaused
  requireAuth signer

/-! ### What the reads, the writes and the guards do -/

/-- The guards of a call that the pause stops let it pass. -/
def State.Admits (s : State) (env : Env) (signer : Address) : Prop :=
  s.isInitialized = true ∧ s.paused = false ∧ env.auth signer = true

section

variable {env : Env} {s : State} {T : Prop} {a b : Address} {Q : Unit → State → Prop}

theorem settles_getTotalSupply {t : I128} (ht : s.totalSupply = some t) {Q : I128 → State → Prop} :
    getTotalSupply.Settles env s Q T ↔ Q t s := by
  rw [getTotalSupply, settles_bind, settles_gets, ht]
  exact (returns_unwrap.mpr ⟨rfl, rfl⟩).settles

theorem settles_getBalance {Q : I128 → State → Prop} :
    (getBalance a).Settles env s Q T ↔ Q (s.balance a) s := Iff.rfl

theorem settles_getAllowance {Q : I128 → State → Prop} :
    (getAllowance a b).Settles env s Q T ↔ Q (s.getAllowance env.sequence a b) s := Iff.rfl

theorem settles_getExpirationLedger {Q : ℕ → State → Prop} :
    (getExpirationLedger a b).Settles env s Q T ↔ Q (s.getExpirationLedger a b) s := Iff.rfl

theorem settles_setAdmin :
    (setAdmin a).Settles env s Q T ↔ Q () { s with admin := some a } := Iff.rfl

theorem settles_setTotalSupply {t : I128} :
    (setTotalSupply t).Settles env s Q T ↔ Q () { s with totalSupply := some t } := Iff.rfl

theorem settles_setBalance {x : I128} : (setBalance a x).Settles env s Q T ↔
    Q () { s with balance := Function.update s.balance a x } := Iff.rfl

theorem settles_setAllowance {x : I128} {e : ℕ} : (setAllowance a b x e).Settles env s Q T ↔
    Q () { s with allowance := update₂ s.allowance a b (some ⟨x, e⟩) } := Iff.rfl

theorem settles_setPaused {flag : Bool} :
    (setPaused flag).Settles env s Q T ↔ Q () { s with paused := flag } := Iff.rfl

theorem settles_publish {event : TokenEvent} : (publish event).Settles env s Q T ↔
    Q () { s with events := s.events ++ [event] } := Iff.rfl

theorem settles_okOr_add {x y : I128} {e : TokenError} {Q : I128 → State → Prop} :
    (okOr (x.checkedAdd y) e : TokenTx I128).Settles env s Q T ↔
      ∀ p : I128, (p : ℤ) = x + y → Q p s := by
  simp only [settles_okOr, I128.checkedAdd_eq_some]

theorem settles_okOr_sub {x y : I128} {e : TokenError} {Q : I128 → State → Prop} :
    (okOr (x.checkedSub y) e : TokenTx I128).Settles env s Q T ↔
      ∀ p : I128, (p : ℤ) = x - y → Q p s := by
  simp only [settles_okOr, I128.checkedSub_eq_some]

/-- A plain sum that is below an `i128` does not trap. -/
theorem settles_unwrap_add {x y z : I128} {Q : I128 → State → Prop} (hx : 0 ≤ (x : ℤ))
    (hz : (x : ℤ) + y ≤ z) : (unwrap (x.checkedAdd y) : TokenTx I128).Settles env s Q T ↔
      ∀ p : I128, (p : ℤ) = x + y → Q p s := by
  simp only [settles_unwrap, I128.checkedAdd_ne_none hx hz, false_imp_iff, true_and,
    I128.checkedAdd_eq_some]

/-- A plain difference that is covered does not trap. -/
theorem settles_unwrap_sub {x y : I128} {Q : I128 → State → Prop} (hy : 0 ≤ (y : ℤ))
    (hle : (y : ℤ) ≤ x) : (unwrap (x.checkedSub y) : TokenTx I128).Settles env s Q T ↔
      ∀ p : I128, (p : ℤ) = x - y → Q p s := by
  simp only [settles_unwrap, I128.checkedSub_ne_none hy hle, false_imp_iff, true_and,
    I128.checkedSub_eq_some]

/-- There is an admin once the contract is initialised, so that reading it does not trap. -/
theorem settles_requireAdmin (hi : s.isInitialized = true) :
    (requireAdmin a).Settles env s Q T ↔ (s.admin = some a → Q () s) := by
  obtain ⟨adm, hadm⟩ := Option.isSome_iff_exists.mp hi
  simp [requireAdmin, getAdmin, settles_bind, settles_gets, settles_unwrap, settles_rejectIf, hadm]

theorem settles_guarded : (guarded a).Settles env s Q (env.auth a = false) ↔
    (s.isInitialized = true → env.auth a = true → Q () s) := by
  simp [guarded, requireInitialized, requireAuth, settles_bind, settles_gets, settles_ask,
    settles_rejectIf, settles_trapIf]

theorem settles_guardedActive : (guardedActive a).Settles env s Q (env.auth a = false) ↔
    (s.Admits env a → Q () s) := by
  simp [guardedActive, requireInitialized, requireNotPaused, requireAuth, settles_bind,
    settles_gets, settles_ask, settles_rejectIf, settles_trapIf, State.Admits]

end

/-! ### The calls -/

/-- `NavinToken::initialize`: whoever comes first. -/
def initializeToken (admin : Address) (name symbol : List UInt8) (totalSupply : I128) :
    TokenTx Unit := do
  rejectIf ((← gets State.isInitialized) = true) .alreadyInitialized
  rejectIf (totalSupply ≤ 0) .invalidAmount
  setAdmin admin
  setName name
  setSymbol symbol
  setTotalSupply totalSupply
  setBalance admin totalSupply
  publish (.init admin totalSupply)

def transfer (source target : Address) (amount : I128) : TokenTx Unit := do
  guardedActive source
  rejectIf (amount ≤ 0) .invalidAmount
  rejectIf (source = target) .sameAccount
  let sourceBalance ← getBalance source
  rejectIf (sourceBalance < amount) .insufficientBalance
  let newSourceBalance ← okOr (sourceBalance.checkedSub amount) .overflow
  let targetBalance ← getBalance target
  let newTargetBalance ← okOr (targetBalance.checkedAdd amount) .overflow
  setBalance source newSourceBalance
  setBalance target newTargetBalance
  publish (.transfer source target amount)

/-- `transfer_from`: unchecked arithmetic, and the target's balance is read after the
source's is written. -/
def transferFrom (spender source target : Address) (amount : I128) : TokenTx Unit := do
  guardedActive spender
  rejectIf (amount ≤ 0) .invalidAmount
  rejectIf (source = target) .sameAccount
  let allowance ← getAllowance source spender
  rejectIf (allowance < amount) .insufficientAllowance
  let sourceBalance ← getBalance source
  rejectIf (sourceBalance < amount) .insufficientBalance
  let expirationLedger ← getExpirationLedger source spender
  setBalance source (← unwrap (sourceBalance.checkedSub amount))
  setBalance target (← unwrap ((← getBalance target).checkedAdd amount))
  setAllowance source spender (← unwrap (allowance.checkedSub amount)) expirationLedger
  publish (.trFrom source target spender amount)

def approve (source spender : Address) (amount : I128) (expirationLedger : ℕ) :
    TokenTx Unit := do
  guardedActive source
  rejectIf (amount < 0) .invalidAmount
  rejectIf (source = spender) .sameAccount
  let env ← ask
  rejectIf (0 < amount ∧ expirationLedger < env.sequence) .invalidExpirationLedger
  setAllowance source spender amount expirationLedger
  publish (.approve source spender amount expirationLedger)

/-- The view `allowance`. -/
def allowance (source spender : Address) : TokenTx I128 := do
  requireInitialized
  getAllowance source spender

def increaseAllowance (owner spender : Address) (delta : I128) : TokenTx Unit := do
  guarded owner
  rejectIf (delta ≤ 0) .invalidAmount
  rejectIf (owner = spender) .sameAccount
  let current ← getAllowance owner spender
  let newAllowance ← okOr (current.checkedAdd delta) .overflow
  let expirationLedger ← getExpirationLedger owner spender
  setAllowance owner spender newAllowance expirationLedger
  publish (.incAlw owner spender delta newAllowance)

def decreaseAllowance (owner spender : Address) (delta : I128) : TokenTx Unit := do
  guarded owner
  rejectIf (delta ≤ 0) .invalidAmount
  rejectIf (owner = spender) .sameAccount
  let current ← getAllowance owner spender
  rejectIf (current < delta) .insufficientAllowance
  let newAllowance ← okOr (current.checkedSub delta) .overflow
  let expirationLedger ← getExpirationLedger owner spender
  setAllowance owner spender newAllowance expirationLedger
  publish (.decAlw owner spender delta newAllowance)

def transferAdmin (currentAdmin newAdmin : Address) : TokenTx Unit := do
  guarded currentAdmin
  requireAdmin currentAdmin
  setAdmin newAdmin
  publish (.adminTr currentAdmin newAdmin)

def mint (admin target : Address) (amount : I128) : TokenTx Unit := do
  guardedActive admin
  requireAdmin admin
  rejectIf (amount ≤ 0) .invalidAmount
  let currentSupply ← getTotalSupply
  let newSupply ← okOr (currentSupply.checkedAdd amount) .overflow
  let targetBalance ← getBalance target
  let newTargetBalance ← okOr (targetBalance.checkedAdd amount) .overflow
  setTotalSupply newSupply
  setBalance target newTargetBalance
  publish (.mint target amount)

def adminBurn (admin source : Address) (amount : I128) : TokenTx Unit := do
  guardedActive admin
  requireAdmin admin
  rejectIf (amount ≤ 0) .invalidAmount
  let sourceBalance ← getBalance source
  rejectIf (sourceBalance < amount) .insufficientBalance
  let currentSupply ← getTotalSupply
  let newSupply ← okOr (currentSupply.checkedSub amount) .overflow
  let newSourceBalance ← okOr (sourceBalance.checkedSub amount) .overflow
  setTotalSupply newSupply
  setBalance source newSourceBalance
  publish (.admBurn source amount)

def burn (source : Address) (amount : I128) : TokenTx Unit := do
  guardedActive source
  rejectIf (amount ≤ 0) .invalidAmount
  let sourceBalance ← getBalance source
  rejectIf (sourceBalance < amount) .insufficientBalance
  let currentSupply ← getTotalSupply
  setTotalSupply (← unwrap (currentSupply.checkedSub amount))
  setBalance source (← unwrap (sourceBalance.checkedSub amount))
  publish (.burn source amount)

def burnFrom (spender source : Address) (amount : I128) : TokenTx Unit := do
  guardedActive spender
  rejectIf (amount ≤ 0) .invalidAmount
  let allowance ← getAllowance source spender
  rejectIf (allowance < amount) .insufficientAllowance
  let sourceBalance ← getBalance source
  rejectIf (sourceBalance < amount) .insufficientBalance
  let expirationLedger ← getExpirationLedger source spender
  let currentSupply ← getTotalSupply
  setTotalSupply (← unwrap (currentSupply.checkedSub amount))
  setBalance source (← unwrap (sourceBalance.checkedSub amount))
  setAllowance source spender (← unwrap (allowance.checkedSub amount)) expirationLedger
  publish (.burnFrom source spender amount)

/-- The flag and its event, by the admin. -/
def switchPause (admin : Address) (paused : Bool) (event : TokenEvent) : TokenTx Unit := do
  guarded admin
  requireAdmin admin
  setPaused paused
  publish event

def pause (admin : Address) : TokenTx Unit := switchPause admin true (.paused admin)

def unpause (admin : Address) : TokenTx Unit := switchPause admin false (.unpaused admin)

/-- One turn of the first loop of `batch_transfer`: a leg is checked and added. -/
def checkLeg (source : Address) (total : I128) (leg : Address × I128) : TokenTx I128 := do
  rejectIf (leg.2 ≤ 0) .invalidAmount
  rejectIf (leg.1 = source) .sameAccount
  okOr (total.checkedAdd leg.2) .invalidAmount

/-- One turn of the second loop: a recipient is credited. -/
def creditLeg (leg : Address × I128) : TokenTx Unit := do
  setBalance leg.1 (← unwrap ((← getBalance leg.1).checkedAdd leg.2))

def batchTransfer (source : Address) (recipients : List (Address × I128)) : TokenTx Unit := do
  guardedActive source
  rejectIf (recipients = []) .invalidAmount
  let total ← recipients.foldlM (checkLeg source) 0
  let sourceBalance ← getBalance source
  rejectIf (sourceBalance < total) .insufficientBalance
  setBalance source (← unwrap (sourceBalance.checkedSub total))
  recipients.foldlM (fun _ leg => creditLeg leg) ()
  publish (.batchTr source recipients.length)

/-! ### Runs -/

/-- The calls that may change what is modelled, with their arguments. -/
inductive Call where
  | initializeToken (admin : Address) (name symbol : List UInt8) (totalSupply : I128)
  | transfer (source target : Address) (amount : I128)
  | transferFrom (spender source target : Address) (amount : I128)
  | approve (source spender : Address) (amount : I128) (expirationLedger : ℕ)
  | increaseAllowance (owner spender : Address) (delta : I128)
  | decreaseAllowance (owner spender : Address) (delta : I128)
  | transferAdmin (currentAdmin newAdmin : Address)
  | mint (admin target : Address) (amount : I128)
  | adminBurn (admin source : Address) (amount : I128)
  | burn (source : Address) (amount : I128)
  | burnFrom (spender source : Address) (amount : I128)
  | pause (admin : Address)
  | unpause (admin : Address)
  | batchTransfer (source : Address) (recipients : List (Address × I128))

/-- What a call does. -/
def Call.exec : Call → TokenTx Unit
  | .initializeToken admin name symbol supply =>
    NavinToken.initializeToken admin name symbol supply
  | .transfer source target amount => NavinToken.transfer source target amount
  | .transferFrom spender source target amount =>
    NavinToken.transferFrom spender source target amount
  | .approve source spender amount expiration =>
    NavinToken.approve source spender amount expiration
  | .increaseAllowance owner spender delta => NavinToken.increaseAllowance owner spender delta
  | .decreaseAllowance owner spender delta => NavinToken.decreaseAllowance owner spender delta
  | .transferAdmin currentAdmin newAdmin => NavinToken.transferAdmin currentAdmin newAdmin
  | .mint admin target amount => NavinToken.mint admin target amount
  | .adminBurn admin source amount => NavinToken.adminBurn admin source amount
  | .burn source amount => NavinToken.burn source amount
  | .burnFrom spender source amount => NavinToken.burnFrom spender source amount
  | .pause admin => NavinToken.pause admin
  | .unpause admin => NavinToken.unpause admin
  | .batchTransfer source recipients => NavinToken.batchTransfer source recipients

/-- Whose signature a call asks for. -/
def Call.signer : Call → Option Address
  | .initializeToken .. => none
  | .transfer source .. => some source
  | .transferFrom spender .. => some spender
  | .approve source .. => some source
  | .increaseAllowance owner .. => some owner
  | .decreaseAllowance owner .. => some owner
  | .transferAdmin currentAdmin _ => some currentAdmin
  | .mint admin .. => some admin
  | .adminBurn admin .. => some admin
  | .burn source _ => some source
  | .burnFrom spender .. => some spender
  | .pause admin => some admin
  | .unpause admin => some admin
  | .batchTransfer source _ => some source

/-- A call that commits. One that fails or traps leaves the state as it was. -/
def Step (s : State) (l : Call × Env) (s' : State) : Prop := l.1.exec.Returns l.2 s () s'

/-- The states after `initialize` and any calls. -/
def Reachable (s : State) : Prop :=
  ∃ admin name symbol supply env s₀ ls,
    (initializeToken admin name symbol supply).Returns env State.deployed () s₀ ∧ Run Step s₀ ls s

/-! ### The token under the shipment contract -/

/-- What the shipment contract's token reads of the storage. -/
def State.ledger (s : State) : TokenLedger := ⟨s.admin, s.paused, fun a => s.balance a⟩

theorem returns_guardedActive {env : Env} {s s' : State} {a : Address} {u : Unit} :
    (guardedActive a).Returns env s u s' ↔ s.Admits env a ∧ s' = s := by
  simp only [guardedActive, requireInitialized, requireNotPaused, requireAuth, State.Admits,
    bind_assoc, returns_gets_bind, returns_rejectIf_bind, returns_ask_bind, returns_trapIf,
    Bool.not_eq_false, Bool.not_eq_true, and_assoc]

theorem returns_transfer {env : Env} {s s' : State} {a b : Address} {x : I128} {u : Unit} :
    (transfer a b x).Returns env s u s' ↔
      s.Admits env a ∧ 0 < x ∧ a ≠ b ∧ x ≤ s.balance a ∧
        ∃ p, (s.balance a).checkedSub x = some p ∧ ∃ q, (s.balance b).checkedAdd x = some q ∧
          s' = { s with
            balance := Function.update (Function.update s.balance a p) b q
            events := s.events ++ [.transfer a b x] } := by
  rw [transfer, returns_unit_bind fun _ _ => returns_guardedActive]
  simp only [getBalance, setBalance, publish, returns_rejectIf_bind, returns_gets_bind,
    returns_okOr_bind, returns_modify_bind, returns_modify, I128.not_le, I128.not_lt, ne_eq]

theorem val_update (f : Address → I128) (a : Address) (p : I128) :
    (fun b => (Function.update f a p b : ℤ)) = Function.update (fun b => (f b : ℤ)) a p :=
  Function.comp_update I128.val f a p

/-- The transfer that the shipment contract is run over is the one of this contract. -/
theorem transfer_ledger {env : Env} {s : State} {a b : Address} {x : I128} {l : TokenLedger} :
    s.ledger.transfer env.auth a b x = some l ↔
      ∃ s', (transfer a b x).Returns env s () s' ∧ s'.ledger = l := by
  simp only [returns_transfer, TokenLedger.transfer, State.ledger, State.Admits,
    State.isInitialized, I128.checkedI128_eq, Option.ite_none_left_eq_some, not_or, not_le, not_lt,
    Option.bind_eq_bind, Option.bind_eq_some_iff, Option.map_eq_some_iff, Option.pure_def,
    Option.some.injEq, Bool.not_eq_true, Bool.not_eq_false, ← ne_eq, ← Option.isSome_iff_ne_none]
  constructor
  · rintro ⟨⟨hi, hpaused, hauth, hx, hab, hle⟩, _, ⟨p, hp, rfl⟩, _, ⟨q, hq, rfl⟩, rfl⟩
    refine ⟨_, ⟨⟨hi, hpaused, hauth⟩, hx, hab, hle, p, hp, q, hq, rfl⟩, ?_⟩
    simp only [val_update]
  · rintro ⟨_, ⟨⟨hi, hpaused, hauth⟩, hx, hab, hle, p, hp, q, hq, rfl⟩, rfl⟩
    refine ⟨⟨hi, hpaused, hauth, hx, hab, hle⟩, p, ⟨p, hp, rfl⟩, q, ⟨q, hq, rfl⟩, ?_⟩
    simp only [val_update]

/-! ### Playing calls -/

/-- The state after a list of calls that all commit. -/
def play (s : State) : List (Call × Env) → Option State
  | [] => some s
  | (call, env) :: rest =>
    match call.exec env s with
    | .ok _ s' => play s' rest
    | _ => none

/-- What is played is a run. -/
theorem run_of_play {s s' : State} {calls : List (Call × Env)} (h : play s calls = some s') :
    Run Step s calls s' := by
  induction calls generalizing s with
  | nil =>
    cases h
    exact .nil
  | cons ce calls ih =>
    obtain ⟨call, env⟩ := ce
    unfold play at h
    cases hx : call.exec env s with
    | ok u s₁ =>
      rw [hx] at h
      exact .cons hx (ih h)
    | err e s₁ => rw [hx] at h; cases h
    | trap => rw [hx] at h; cases h

/-- A start by the admin, and calls after it. -/
def playFrom (admin : Address) (supply : I128) (env : Env) (calls : List (Call × Env)) :
    Option State :=
  play State.deployed ((.initializeToken admin [78] [78] supply, env) :: calls)

theorem reachable_of_playFrom {admin : Address} {supply : I128} {env : Env}
    {calls : List (Call × Env)} {s : State} (h : playFrom admin supply env calls = some s) :
    Reachable s := by
  obtain ⟨s₀, h₀, hrun⟩ := (run_of_play h).uncons
  exact ⟨admin, [78], [78], supply, env, s₀, calls, h₀, hrun⟩

/-- An environment in which one address signs. -/
def signedBy (a : Address) (sequence : ℕ) : Env := ⟨sequence, sequence, fun b => b = a, fun _ => true⟩

open Deployment in
/-- A supply of 1000, an allowance, and spending from it. -/
def opening : Option State := playFrom admin ⟨1000, by decide, by decide⟩ (signedBy admin 1) [
  (.transfer admin company ⟨300, by decide, by decide⟩, signedBy admin 2),
  (.approve company carrier ⟨200, by decide, by decide⟩ 9, signedBy company 3),
  (.transferFrom carrier company receiver ⟨50, by decide, by decide⟩, signedBy carrier 4),
  (.mint admin treasury ⟨20, by decide, by decide⟩, signedBy admin 5),
  (.burnFrom carrier company ⟨30, by decide, by decide⟩, signedBy carrier 6)]

/-- A property of the opening, found by evaluation. -/
theorem exists_opening (P : State → Prop) [DecidablePred P] (h : opening.any (fun s => P s) = true) :
    ∃ s, Reachable s ∧ P s := by
  obtain ⟨s, hs, hP⟩ := (Option.any_eq_true _ _).mp h
  exact ⟨s, reachable_of_playFrom hs, of_decide_eq_true hP⟩

end NavinToken

end Navin
