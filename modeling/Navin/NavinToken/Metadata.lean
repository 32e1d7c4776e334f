/-
# The metadata of the token

Beside the amounts the token keeps a directory: keys that the admin lists, and a value for
a key that is listed when it is set. Taking a key off the list leaves its value where it
is, until the admin removes that as well. The calls of the directory and the calls of the
token are run side by side: a run of both is a run of the token once the directory is left
out, and the directory is what the calls about it, in their order, make of an empty one.

Key definitions:
- `NavinToken.Described`: the storage with the directory;
- `addAllowedMetadataKey`, `removeAllowedMetadataKey`, `setMetadata`, `removeMetadata`, and
  the views `isMetadataKeyAllowed` and `getMetadata`;
- `Listing`, `Amendment.enter`, `listingOf`: what a run says about a key;
- `Puts`, `Lists`: the steps that set a value and list a key.

Key theorems:
- `returns_setMetadata` and its like: exactly when a call returns, and what it leaves;
- `DescribedStep.leads`: each step does to the directory what its call says;
- `metadata_exact`.
-/
import Navin.NavinToken.Joint
import Navin.Lib.Replay

namespace Navin

/-- `MetadataError` of the token, in the order of the codes. -/
inductive MetadataError where
  | notInitialized | unauthorized | keyNotAllowed | keyNotFound | keyAlreadyExists | invalidKey
  | invalidValue
  deriving DecidableEq, Repr

/-- What the calls of the directory publish, one constructor for each topic. -/
inductive MetadataEvent where
  | metaAdd (admin : Address) (key : Symbol)
  | metaRm (admin : Address) (key : Symbol)
  | metaSet (admin : Address) (key : Symbol) (value : List UInt8)
  | metaDel (admin : Address) (key : Symbol)
  deriving DecidableEq

namespace NavinToken

/-- The storage of the token with the directory, and what the calls of the directory have
published. -/
structure Described where
  token : State
  allowedMetadataKey : Symbol → Bool
  metadata : Symbol → Option (List UInt8)
  announced : List MetadataEvent

/-- Nothing is stored. -/
def Described.deployed : Described := ⟨State.deployed, fun _ => false, fun _ => none, []⟩

/-- A call of the directory, or a part of one. -/
abbrev MetadataTx := Tx Env Described MetadataError

open Tx

/-! ### The calls -/

def announce (event : MetadataEvent) : MetadataTx Unit :=
  modify fun s => { s with announced := s.announced ++ [event] }

/-- The views open with this. -/
def requireDescribed : MetadataTx Unit := do
  rejectIf ((← gets (·.token.isInitialized)) = false) .notInitialized

/-- The calls open with this. -/
def openedBy (admin : Address) : MetadataTx Unit := do
  requireDescribed
  let env ← ask
  trapIf (env.auth admin = false)
  rejectIf ((← unwrap (← gets (·.token.admin))) ≠ admin) .unauthorized

/-- `add_allowed_metadata_key`. -/
def addAllowedMetadataKey (admin : Address) (key : Symbol) : MetadataTx Unit := do
  openedBy admin
  rejectIf (key.bytes = []) .invalidKey
  rejectIf ((← gets (·.allowedMetadataKey key)) = true) .keyAlreadyExists
  modify fun s => { s with allowedMetadataKey := Function.update s.allowedMetadataKey key true }
  announce (.metaAdd admin key)

/-- `remove_allowed_metadata_key`: the value of the key stays. -/
def removeAllowedMetadataKey (admin : Address) (key : Symbol) : MetadataTx Unit := do
  openedBy admin
  rejectIf ((← gets (·.allowedMetadataKey key)) = false) .keyNotFound
  modify fun s => { s with allowedMetadataKey := Function.update s.allowedMetadataKey key false }
  announce (.metaRm admin key)

/-- `set_metadata`. -/
def setMetadata (admin : Address) (key : Symbol) (value : List UInt8) : MetadataTx Unit := do
  openedBy admin
  rejectIf ((← gets (·.allowedMetadataKey key)) = false) .keyNotAllowed
  rejectIf (value = []) .invalidValue
  modify fun s => { s with metadata := Function.update s.metadata key (some value) }
  announce (.metaSet admin key value)

/-- `remove_metadata`: whether the key is listed or not. -/
def removeMetadata (admin : Address) (key : Symbol) : MetadataTx Unit := do
  openedBy admin
  rejectIf ((← gets (·.metadata key)) = none) .keyNotFound
  modify fun s => { s with metadata := Function.update s.metadata key none }
  announce (.metaDel admin key)

/-- `is_metadata_key_allowed`. -/
def isMetadataKeyAllowed (key : Symbol) : MetadataTx Bool := do
  requireDescribed
  gets (·.allowedMetadataKey key)

/-- `get_metadata`. -/
def getMetadata (key : Symbol) : MetadataTx (Option (List UInt8)) := do
  requireDescribed
  gets (·.metadata key)

/-! ### What they do -/

/-- The admin signs. -/
def Described.SignedBy (s : Described) (env : Env) (admin : Address) : Prop :=
  s.token.admin = some admin ∧ env.auth admin = true

section

variable {env : Env} {s s' : Described} {a : Address} {key : Symbol} {value : List UInt8} {u : Unit}

theorem returns_requireDescribed :
    requireDescribed.Returns env s u s' ↔ s.token.isInitialized = true ∧ s' = s := by
  unfold requireDescribed
  rw [returns_gets_bind, returns_rejectIf, Bool.not_eq_false]

theorem returns_openedBy : (openedBy a).Returns env s u s' ↔ s.SignedBy env a ∧ s' = s := by
  unfold openedBy
  rw [returns_unit_bind fun _ _ => returns_requireDescribed, returns_ask_bind, returns_trapIf_bind,
    returns_gets_bind, returns_unwrap_bind]
  constructor
  · intro h
    obtain ⟨-, hauth, b, hb, hx⟩ := h
    obtain ⟨heq, hs⟩ := returns_rejectIf.mp hx
    obtain rfl : b = a := not_not.mp heq
    exact ⟨⟨hb, Bool.eq_true_of_not_eq_false hauth⟩, hs⟩
  · intro h
    obtain ⟨⟨hadmin, hauth⟩, hs⟩ := h
    have hinit : s.token.isInitialized = true := by
      unfold State.isInitialized
      rw [hadmin]
      rfl
    exact ⟨hinit, by simp [hauth], a, hadmin, returns_rejectIf.mpr ⟨not_not.mpr rfl, hs⟩⟩

theorem returns_addAllowedMetadataKey : (addAllowedMetadataKey a key).Returns env s u s' ↔
    s.SignedBy env a ∧ key.bytes ≠ [] ∧ s.allowedMetadataKey key = false ∧
      s' = { s with
        allowedMetadataKey := Function.update s.allowedMetadataKey key true
        announced := s.announced ++ [.metaAdd a key] } := by
  unfold addAllowedMetadataKey announce
  rw [returns_unit_bind fun _ _ => returns_openedBy, returns_rejectIf_bind, returns_gets_bind,
    returns_rejectIf_bind, returns_modify_bind, returns_modify, Bool.not_eq_true]

theorem returns_removeAllowedMetadataKey : (removeAllowedMetadataKey a key).Returns env s u s' ↔
    s.SignedBy env a ∧ s.allowedMetadataKey key = true ∧
      s' = { s with
        allowedMetadataKey := Function.update s.allowedMetadataKey key false
        announced := s.announced ++ [.metaRm a key] } := by
  unfold removeAllowedMetadataKey announce
  rw [returns_unit_bind fun _ _ => returns_openedBy, returns_gets_bind, returns_rejectIf_bind,
    returns_modify_bind, returns_modify, Bool.not_eq_false]

theorem returns_setMetadata : (setMetadata a key value).Returns env s u s' ↔
    s.SignedBy env a ∧ s.allowedMetadataKey key = true ∧ value ≠ [] ∧
      s' = { s with
        metadata := Function.update s.metadata key (some value)
        announced := s.announced ++ [.metaSet a key value] } := by
  unfold setMetadata announce
  rw [returns_unit_bind fun _ _ => returns_openedBy, returns_gets_bind, returns_rejectIf_bind,
    returns_rejectIf_bind, returns_modify_bind, returns_modify, Bool.not_eq_false]

theorem returns_removeMetadata : (removeMetadata a key).Returns env s u s' ↔
    s.SignedBy env a ∧ s.metadata key ≠ none ∧
      s' = { s with
        metadata := Function.update s.metadata key none
        announced := s.announced ++ [.metaDel a key] } := by
  unfold removeMetadata announce
  rw [returns_unit_bind fun _ _ => returns_openedBy, returns_gets_bind, returns_rejectIf_bind,
    returns_modify_bind, returns_modify]

theorem returns_isMetadataKeyAllowed {b : Bool} : (isMetadataKeyAllowed key).Returns env s b s' ↔
    s.token.isInitialized = true ∧ b = s.allowedMetadataKey key ∧ s' = s := by
  unfold isMetadataKeyAllowed
  rw [returns_unit_bind fun _ _ => returns_requireDescribed, returns_gets]

theorem returns_getMetadata {v : Option (List UInt8)} : (getMetadata key).Returns env s v s' ↔
    s.token.isInitialized = true ∧ v = s.metadata key ∧ s' = s := by
  unfold getMetadata
  rw [returns_unit_bind fun _ _ => returns_requireDescribed, returns_gets]

end

/-! ### Runs -/

/-- The calls of the directory, with their arguments. -/
inductive MetadataCall where
  | addAllowedMetadataKey (admin : Address) (key : Symbol)
  | removeAllowedMetadataKey (admin : Address) (key : Symbol)
  | setMetadata (admin : Address) (key : Symbol) (value : List UInt8)
  | removeMetadata (admin : Address) (key : Symbol)

/-- What a call of the directory does. -/
def MetadataCall.exec : MetadataCall → MetadataTx Unit
  | .addAllowedMetadataKey admin key => NavinToken.addAllowedMetadataKey admin key
  | .removeAllowedMetadataKey admin key => NavinToken.removeAllowedMetadataKey admin key
  | .setMetadata admin key value => NavinToken.setMetadata admin key value
  | .removeMetadata admin key => NavinToken.removeMetadata admin key

/-- A call of the token, or of the directory. -/
inductive DescribedCall where
  | token (call : Call)
  | metadata (call : MetadataCall)

/-- A call that commits. -/
inductive DescribedStep (s : Described) : DescribedCall × Env → Described → Prop
  | token {call : Call} {env : Env} {t : State} : Step s.token (call, env) t →
      DescribedStep s (.token call, env) { s with token := t }
  | metadata {call : MetadataCall} {env : Env} {s' : Described} : call.exec.Returns env s () s' →
      DescribedStep s (.metadata call, env) s'

/-- The call of the token, if it is one. -/
def tokenCall? (l : DescribedCall × Env) : Option (Call × Env) :=
  match l.1 with
  | .token call => some (call, l.2)
  | .metadata _ => none

variable {s s' s₀ : Described} {l : DescribedCall × Env} {ls ks : List (DescribedCall × Env)}
  {key : Symbol} {value : List UInt8}

/-- A call of the directory leaves the token. -/
theorem token_of_returns {call : MetadataCall} {env : Env} (h : call.exec.Returns env s () s') :
    s'.token = s.token := by
  cases call with
  | addAllowedMetadataKey =>
    obtain ⟨-, -, -, rfl⟩ := returns_addAllowedMetadataKey.mp h
    rfl
  | removeAllowedMetadataKey =>
    obtain ⟨-, -, rfl⟩ := returns_removeAllowedMetadataKey.mp h
    rfl
  | setMetadata =>
    obtain ⟨-, -, -, rfl⟩ := returns_setMetadata.mp h
    rfl
  | removeMetadata =>
    obtain ⟨-, -, rfl⟩ := returns_removeMetadata.mp h
    rfl

/-- Leaving the directory out, a run is one of the token. -/
theorem run_token (hr : Run DescribedStep s ls s') : Run Step s.token (ls.filterMap tokenCall?) s'.token := by
  induction hr with
  | nil => exact .nil
  | @snoc ls l a b _ hstep ih =>
    rw [List.filterMap_append]
    cases hstep with
    | token ht => exact .snoc ih ht
    | metadata hx =>
      rw [token_of_returns hx, show [_].filterMap tokenCall? = [] from rfl, List.append_nil]
      exact ih

/-- A run that sets the token up leaves it in a state it can reach by itself. -/
theorem reachable_token (hr : Run DescribedStep .deployed ls s) (hinit : s.token.isInitialized = true) :
    Reachable s.token := by
  have hrun : Run Step State.deployed (ls.filterMap tokenCall?) s.token := run_token hr
  cases hks : ls.filterMap tokenCall? with
  | nil =>
    rw [hks] at hrun
    rw [hrun.eq_of_nil] at hinit
    cases hinit
  | cons l ks =>
    rw [hks] at hrun
    obtain ⟨t, hstep, hrest⟩ := hrun.uncons
    obtain ⟨admin, name, symbol, supply, hcall⟩ := Joint.exists_initializeToken hstep
    rw [Step, hcall] at hstep
    exact ⟨admin, name, symbol, supply, l.2, t, ks, hstep, hrest⟩

/-! ### What the calls say -/

/-- What the directory has for a key. -/
structure Listing where
  allowed : Bool
  value : Option (List UInt8)
  deriving DecidableEq

/-- What a call says about a key. -/
inductive Amendment where
  | list
  | delist
  | put (value : List UInt8)
  | drop

def Amendment.enter : Amendment → Listing → Listing
  | .list, r => { r with allowed := true }
  | .delist, r => { r with allowed := false }
  | .put value, r => { r with value := some value }
  | .drop, r => { r with value := none }

def Described.listing (s : Described) (key : Symbol) : Listing := ⟨s.allowedMetadataKey key, s.metadata key⟩

def MetadataCall.amends : MetadataCall → Symbol × Amendment
  | .addAllowedMetadataKey _ key => (key, .list)
  | .removeAllowedMetadataKey _ key => (key, .delist)
  | .setMetadata _ key value => (key, .put value)
  | .removeMetadata _ key => (key, .drop)

def amendments (l : DescribedCall × Env) : List (Symbol × Amendment) :=
  match l.1 with
  | .token _ => []
  | .metadata call => [call.amends]

/-- What a run from deployment says about a key. -/
def listingOf (key : Symbol) (ls : List (DescribedCall × Env)) : Listing :=
  replayAt Amendment.enter key (ls.flatMap amendments) ⟨false, none⟩

/-- Each step does to the directory what its call says. -/
theorem DescribedStep.leads (hstep : DescribedStep s l s') :
    Leads Amendment.enter s.listing s'.listing (amendments l) := by
  cases hstep with
  | token => exact .refl _
  | @metadata call _ _ hx =>
    cases call with
    | addAllowedMetadataKey a key =>
      obtain ⟨-, -, -, rfl⟩ := returns_addAllowedMetadataKey.mp hx
      exact .single (by simp [Described.listing, Amendment.enter]) fun j hj => by simp [Described.listing, hj]
    | removeAllowedMetadataKey a key =>
      obtain ⟨-, -, rfl⟩ := returns_removeAllowedMetadataKey.mp hx
      exact .single (by simp [Described.listing, Amendment.enter]) fun j hj => by simp [Described.listing, hj]
    | setMetadata a key value =>
      obtain ⟨-, -, -, rfl⟩ := returns_setMetadata.mp hx
      exact .single (by simp [Described.listing, Amendment.enter]) fun j hj => by simp [Described.listing, hj]
    | removeMetadata a key =>
      obtain ⟨-, -, rfl⟩ := returns_removeMetadata.mp hx
      exact .single (by simp [Described.listing, Amendment.enter]) fun j hj => by simp [Described.listing, hj]

theorem listing_eq (hr : Run DescribedStep .deployed ls s) (key : Symbol) : s.listing key = listingOf key ls :=
  (Run.leads (I := fun _ => True) hr trivial (fun _ _ _ _ _ => trivial)
    (fun _ _ _ _ hstep => hstep.leads) key).symm

/-! ### Where a listing comes from -/

/-- The admin signs and lists the key, which is not empty. -/
def Lists (key : Symbol) (s : Described) (l : DescribedCall × Env) : Prop :=
  ∃ admin, l.1 = .metadata (.addAllowedMetadataKey admin key) ∧ s.SignedBy l.2 admin ∧ key.bytes ≠ []

/-- The admin signs and sets the value, which is not empty, of a key that is listed. -/
def Puts (key : Symbol) (value : List UInt8) (s : Described) (l : DescribedCall × Env) : Prop :=
  ∃ admin, l.1 = .metadata (.setMetadata admin key value) ∧ s.SignedBy l.2 admin ∧
    s.allowedMetadataKey key = true ∧ value ≠ []

/-- The key is taken off the list. -/
def Delists (key : Symbol) (l : DescribedCall × Env) : Prop := (key, .delist) ∈ amendments l

/-- The value of the key is set or removed. -/
def Rewrites (key : Symbol) (l : DescribedCall × Env) : Prop :=
  (key, .drop) ∈ amendments l ∨ ∃ value, (key, .put value) ∈ amendments l

theorem DescribedStep.lists (hstep : DescribedStep s l s') (hkey : s'.allowedMetadataKey key = true) :
    Lists key s l ∨ s.allowedMetadataKey key = true ∧ ¬Delists key l := by
  cases hstep with
  | token => exact .inr ⟨hkey, by simp [Delists, amendments]⟩
  | @metadata call _ _ hx =>
    cases call with
    | addAllowedMetadataKey a k =>
      obtain ⟨hsigned, hne, -, rfl⟩ := returns_addAllowedMetadataKey.mp hx
      by_cases hk : key = k
      · subst hk
        exact .inl ⟨a, rfl, hsigned, hne⟩
      · exact .inr ⟨by simpa [hk] using hkey, by simp [Delists, amendments, MetadataCall.amends]⟩
    | removeAllowedMetadataKey a k =>
      obtain ⟨-, -, rfl⟩ := returns_removeAllowedMetadataKey.mp hx
      by_cases hk : key = k
      · subst hk
        simp at hkey
      · exact .inr ⟨by simpa [hk] using hkey, by simp [Delists, amendments, MetadataCall.amends, hk]⟩
    | setMetadata =>
      obtain ⟨-, -, -, rfl⟩ := returns_setMetadata.mp hx
      exact .inr ⟨hkey, by simp [Delists, amendments, MetadataCall.amends]⟩
    | removeMetadata =>
      obtain ⟨-, -, rfl⟩ := returns_removeMetadata.mp hx
      exact .inr ⟨hkey, by simp [Delists, amendments, MetadataCall.amends]⟩

theorem DescribedStep.puts (hstep : DescribedStep s l s') (hv : s'.metadata key = some value) :
    Puts key value s l ∨ s.metadata key = some value ∧ ¬Rewrites key l := by
  cases hstep with
  | token => exact .inr ⟨hv, by simp [Rewrites, amendments]⟩
  | @metadata call _ _ hx =>
    cases call with
    | addAllowedMetadataKey =>
      obtain ⟨-, -, -, rfl⟩ := returns_addAllowedMetadataKey.mp hx
      exact .inr ⟨hv, by simp [Rewrites, amendments, MetadataCall.amends]⟩
    | removeAllowedMetadataKey =>
      obtain ⟨-, -, rfl⟩ := returns_removeAllowedMetadataKey.mp hx
      exact .inr ⟨hv, by simp [Rewrites, amendments, MetadataCall.amends]⟩
    | setMetadata a k v =>
      obtain ⟨hsigned, hlisted, hne, rfl⟩ := returns_setMetadata.mp hx
      by_cases hk : key = k
      · subst hk
        obtain rfl : v = value := by simpa using hv
        exact .inl ⟨a, rfl, hsigned, hlisted, hne⟩
      · exact .inr ⟨by simpa [hk] using hv, by simp [Rewrites, amendments, MetadataCall.amends, hk]⟩
    | removeMetadata a k =>
      obtain ⟨-, -, rfl⟩ := returns_removeMetadata.mp hx
      by_cases hk : key = k
      · subst hk
        simp at hv
      · exact .inr ⟨by simpa [hk] using hv, by simp [Rewrites, amendments, MetadataCall.amends, hk]⟩

/-- At the end of every run of the token with its directory, the token is where the calls of the token
alone would have left it, and once it is set up the views show what the calls of the directory say. A key
that is allowed was listed by the admin of the moment and not taken off the list since; a value was set by
the admin of the moment, while its key was listed, and neither set anew nor removed since. -/
theorem metadata_exact (hr : Run DescribedStep .deployed ls s) (key : Symbol) (env : Env) :
    Run Step State.deployed (ls.filterMap tokenCall?) s.token ∧
      (s.token.isInitialized = true → Reachable s.token ∧
        (isMetadataKeyAllowed key).Returns env s (listingOf key ls).allowed s ∧
          (getMetadata key).Returns env s (listingOf key ls).value s) ∧
      ((listingOf key ls).allowed = true → Past DescribedStep
        (fun a l ks => Lists key a l ∧ ∀ k ∈ ks, ¬Delists key k) .deployed ls s) ∧
      ∀ value, (listingOf key ls).value = some value → Past DescribedStep
        (fun a l ks => Puts key value a l ∧ ∀ k ∈ ks, ¬Rewrites key k) .deployed ls s := by
  have hlisting : s.listing key = listingOf key ls := listing_eq hr key
  have hallowed : s.allowedMetadataKey key = (listingOf key ls).allowed := congrArg Listing.allowed hlisting
  have hvalue : s.metadata key = (listingOf key ls).value := congrArg Listing.value hlisting
  rw [← hallowed, ← hvalue]
  refine ⟨run_token hr, fun hinit => ⟨reachable_token hr hinit, ?_, ?_⟩, ?_, fun value => ?_⟩
  · exact returns_isMetadataKeyAllowed.mpr ⟨hinit, rfl, rfl⟩
  · exact returns_getMetadata.mpr ⟨hinit, rfl, rfl⟩
  · exact hr.past_of_end (P := fun x => x.allowedMetadataKey key = true) (by simp [Described.deployed])
      fun _ _ _ hstep hkey => hstep.lists hkey
  · exact hr.past_of_end (P := fun x => x.metadata key = some value) (by simp [Described.deployed])
      fun _ _ _ hstep hv => hstep.puts hv

/-- The state after a call, if it commits. -/
def Described.next? (s : Described) (l : DescribedCall × Env) : Option Described :=
  match l.1 with
  | .token call => (call.exec.result? l.2 s.token).map fun r => { s with token := r.2 }
  | .metadata call => (call.exec.result? l.2 s).map (·.2)

theorem step_of_next? (h : s.next? l = some s') : DescribedStep s l s' := by
  obtain ⟨call, env⟩ := l
  cases call with
  | token call =>
    obtain ⟨r, hr, rfl⟩ := Option.map_eq_some_iff.mp h
    exact .token (result?_eq_some.mp hr)
  | metadata call =>
    obtain ⟨r, hr, rfl⟩ := Option.map_eq_some_iff.mp h
    exact .metadata (result?_eq_some.mp hr)

theorem run_of_next? (h : ls.foldlM Described.next? s = some s') : Run DescribedStep s ls s' := by
  induction ls generalizing s with
  | nil =>
    cases h
    exact .nil
  | cons l ls ih =>
    rw [List.foldlM_cons] at h
    obtain ⟨t, ht, hrest⟩ := Option.bind_eq_some_iff.mp h
    exact .cons (step_of_next? ht) (ih hrest)

/-- A key that is taken off the list keeps its value. -/
theorem metadata_exact_delisted : ∃ (ls : List (DescribedCall × Env)) (s : Described) (env : Env),
    Run DescribedStep .deployed ls s ∧
      (isMetadataKeyAllowed Deployment.port).Returns env s false s ∧
      (getMetadata Deployment.port).Returns env s (some [1]) s := by
  obtain ⟨ls, hls⟩ : ∃ ls : List (DescribedCall × Env), ls = [
      (.token (.initializeToken Deployment.admin [78] [78] ⟨1000, by decide, by decide⟩), signedBy Deployment.admin 1),
      (.metadata (.addAllowedMetadataKey Deployment.admin Deployment.port), signedBy Deployment.admin 2),
      (.metadata (.setMetadata Deployment.admin Deployment.port [1]), signedBy Deployment.admin 3),
      (.metadata (.removeAllowedMetadataKey Deployment.admin Deployment.port), signedBy Deployment.admin 4)] :=
    ⟨_, rfl⟩
  have hplay : (ls.foldlM Described.next? .deployed).any (fun s => s.token.isInitialized) = true := by
    rw [hls]
    decide +kernel
  obtain ⟨s, hs, hinit⟩ := (Option.any_eq_true _ _).mp hplay
  have hlisting : listingOf Deployment.port ls = ⟨false, some [1]⟩ := by
    rw [hls]
    decide +kernel
  obtain ⟨-, hviews, -⟩ := metadata_exact (run_of_next? hs) Deployment.port (signedBy Deployment.admin 5)
  obtain ⟨-, hallowed, hvalue⟩ := hviews hinit
  rw [hlisting] at hallowed hvalue
  exact ⟨ls, s, _, run_of_next? hs, hallowed, hvalue⟩

end NavinToken

end Navin
