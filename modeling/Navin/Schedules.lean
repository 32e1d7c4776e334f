/-
# Schedules

What `validate_milestones` accepts. The checks read a name out of its encoding: its
length class, a copy of it in a buffer of 32 bytes, and the encodings of the later names
one by one. They are stated here as the source has them, of names with any contents, and
shown to be the checks of `Navin/Validation` where the names are symbols.

Key definitions:
- `Raw.validateSymbol`, `Raw.validateSymbolChars`, `Raw.validateMilestoneSymbols`,
  `Raw.validateMilestones`: the source's checks, of names given by their bytes;
- `NameOf`, `Raw.Scheduled`: the names and the schedules that pass.

Key theorems:
- `validateMilestones_contents`: for symbols they are the model's checks;
- `Raw.validateMilestones_iff`: they pass exactly the valid schedules, and never trap.
-/
import Navin.Bytes
import Navin.Validation
import Navin.Token
import Navin.Lib.Triples
import Navin.Lib.Alike

namespace Navin

open Tx

variable {H : Host} {env : Env} {w w' : World H}

/-- A name of one to twelve characters, letters, digits and underscores. -/
def NameOf (name : List UInt8) : Prop :=
  1 ≤ name.length ∧ name.length ≤ 12 ∧ name.all isSymbolByte = true

namespace Raw

/-! ### The checks -/

/-- `validate_symbol`, whose error a caller may replace. -/
def validateSymbol (error : NavinError) (name : List UInt8) : Contract H Unit := do
  let len := (xdrSymbol name).length
  rejectIf (len = 8) error
  rejectIf (¬(12 ≤ len ∧ len ≤ 20)) error

/-- `validate_symbol_chars`. -/
def validateSymbolChars (name : List UInt8) : Contract H Unit := do
  let raw := xdrBuffer (xdrSymbol name)
  let charCount := fromBeBytes ((raw.drop 4).take 4)
  rejectIf (charCount = 0) .invalidSymbol
  -- the slice of the buffer
  trapIf (raw.length < 8 + charCount)
  ((raw.drop 8).take charCount).foldlM
    (fun _ byte => rejectIf (isSymbolByte byte = false) .invalidSymbol) ()

/-- The first loop of `validate_milestone_symbols`. -/
def validateMilestoneEntry (m : List UInt8 × ℕ) : Contract H Unit := do
  validateSymbol .invalidSymbol m.1
  validateSymbolChars m.1
  validateSymbol .invalidPaymentMilestoneName m.1
  rejectIf (m.2 = 0 ∨ 100 < m.2) .invalidPaymentMilestones

/-- The second loop: every name against each later one. -/
def rejectDuplicates : List (List UInt8) → Contract H Unit
  | [] => pure ()
  | current :: others => do
    others.foldlM (fun _ other =>
      rejectIf (xdrSymbol current = xdrSymbol other) .duplicatePaymentMilestone) ()
    rejectDuplicates others

/-- `validate_milestone_symbols`. -/
def validateMilestoneSymbols (milestones : List (List UInt8 × ℕ)) : Contract H Unit := do
  milestones.foldlM (fun _ m => validateMilestoneEntry m) ()
  rejectDuplicates (milestones.map (·.1))

/-- `validate_milestones`. -/
def validateMilestones (milestones : List (List UInt8 × ℕ)) : Contract H Unit :=
  if milestones.isEmpty then pure () else do
    validateMilestoneSymbols milestones
    let totalPercentage ← milestones.foldlM (fun total m => do
      rejectIf (100 < m.2) .invalidPaymentMilestones
      unwrap (checkedAddU32 total m.2)) 0
    rejectIf (totalPercentage ≠ 100) .milestoneSumInvalid

/-- A schedule that passes: none, or distinct names with shares that sum to 100. -/
def Scheduled (milestones : List (List UInt8 × ℕ)) : Prop :=
  milestones = [] ∨
    (∀ m ∈ milestones, NameOf m.1 ∧ 1 ≤ m.2 ∧ m.2 ≤ 100) ∧
      (milestones.map (·.1)).Nodup ∧ (milestones.map (·.2)).sum = 100

/-! ### One name -/

/-- The window of the encoded length is a window of the name's own. -/
theorem window_iff (name : List UInt8) :
    12 ≤ (xdrSymbol name).length ∧ (xdrSymbol name).length ≤ 20 ↔
      1 ≤ name.length ∧ name.length ≤ 12 := by
  rw [length_xdrSymbol]
  omega

theorem returns_validateSymbol {error : NavinError} {name : List UInt8} {u : Unit} :
    (validateSymbol error name).Returns env w u w' ↔
      (1 ≤ name.length ∧ name.length ≤ 12) ∧ w' = w := by
  unfold validateSymbol
  simp only [returns_rejectIf_bind, returns_rejectIf, not_not, window_iff]
  have hlen : 1 ≤ name.length → (xdrSymbol name).length ≠ 8 := by
    rw [length_xdrSymbol]
    omega
  constructor
  · exact And.right
  · exact fun h => ⟨hlen h.1.1, h⟩

/-- The characters are read from the buffer: up to 24 of them are there. -/
theorem validateSymbolChars_eq {name : List UInt8} (h : name.length < 2 ^ 32) :
    (validateSymbolChars name : Contract H Unit) =
      rejectIf (name.length = 0) .invalidSymbol >>= fun _ => trapIf (24 < name.length) >>= fun _ =>
        rejectIf (name.all isSymbolByte = false) .invalidSymbol := by
  obtain ⟨hlen, hcount, hname⟩ := xdrBuffer_xdrSymbol name
  unfold validateSymbolChars
  dsimp only
  rw [hlen, hcount, fromBeBytes_beBytes h]
  congr 1
  funext _
  by_cases hle : name.length ≤ 24
  · rw [hname hle, foldlM_rejectIf]
    rw [trapIf_of_not (by omega), trapIf_of_not (by omega)]
    congr 1
    funext _
    exact rejectIf_congr (by simp) _
  · funext env w
    change Tx.bind (trapIf (32 < 8 + name.length)) _ env w = Tx.bind (trapIf (24 < name.length)) _ env w
    unfold Tx.bind trapIf
    rw [if_pos (by omega), if_pos (by omega)]

theorem returns_validateSymbolChars {name : List UInt8} (h : 1 ≤ name.length)
    (hle : name.length ≤ 12) {u : Unit} : (validateSymbolChars name).Returns env w u w' ↔
      name.all isSymbolByte = true ∧ w' = w := by
  rw [validateSymbolChars_eq (by omega)]
  simp only [returns_rejectIf_bind, returns_trapIf_bind, returns_rejectIf, Bool.not_eq_false]
  constructor
  · exact fun h => h.2.2
  · exact fun h => ⟨by omega, by omega, h⟩

theorem returns_validateMilestoneEntry {m : List UInt8 × ℕ} {u : Unit} :
    (validateMilestoneEntry m).Returns env w u w' ↔
      (NameOf m.1 ∧ 1 ≤ m.2 ∧ m.2 ≤ 100) ∧ w' = w := by
  unfold validateMilestoneEntry NameOf
  rw [returns_unit_bind fun _ _ => returns_validateSymbol]
  constructor
  · rintro ⟨⟨hpos, hle⟩, hrest⟩
    rw [returns_unit_bind fun _ _ => returns_validateSymbolChars hpos hle,
      returns_unit_bind fun _ _ => returns_validateSymbol, returns_rejectIf] at hrest
    exact ⟨⟨⟨hpos, hle, hrest.1⟩, by omega⟩, hrest.2.2.2⟩
  · rintro ⟨⟨⟨hpos, hle, hall⟩, hshare⟩, rfl⟩
    rw [returns_unit_bind fun _ _ => returns_validateSymbolChars hpos hle,
      returns_unit_bind fun _ _ => returns_validateSymbol, returns_rejectIf]
    exact ⟨⟨hpos, hle⟩, hall, ⟨hpos, hle⟩, by omega, rfl⟩

/-! ### Schedules -/

/-- Every pair is compared. -/
theorem rejectDuplicates_eq (names : List (List UInt8)) :
    (rejectDuplicates names : Contract H Unit) =
      rejectIf (¬(names.map xdrSymbol).Nodup) .duplicatePaymentMilestone := by
  induction names with
  | nil => rfl
  | cons current others ih =>
    unfold rejectDuplicates
    rw [foldlM_rejectIf, ih, rejectIf_bind_rejectIf]
    apply rejectIf_congr
    rw [List.map_cons, List.nodup_cons, List.mem_map]
    constructor
    · rintro (⟨other, hmem, heq⟩ | hdup) ⟨hnew, hnd⟩
      · exact hnew ⟨other, hmem, heq.symm⟩
      · exact hdup hnd
    · intro h
      by_cases hnd : (others.map xdrSymbol).Nodup
      · have hmem := not_not.mp fun hnew => h ⟨hnew, hnd⟩
        obtain ⟨other, hother, heq⟩ := hmem
        exact .inl ⟨other, hother, heq.symm⟩
      · exact .inr hnd

/-- Different names have different encodings. -/
theorem nodup_xdrSymbol_iff {names : List (List UInt8)} (h : ∀ name ∈ names, NameOf name) :
    (names.map xdrSymbol).Nodup ↔ names.Nodup := by
  have hshort : ∀ name ∈ names, name.length < 256 ^ 4 := by
    intro name hmem
    have hle := (h name hmem).2.1
    omega
  constructor
  · exact List.Nodup.of_map _
  · intro hnd
    exact hnd.map_on fun a ha b hb heq => delimited_xdrSymbol.inj (hshort a ha) (hshort b hb) heq

end Raw

/-- The loop that adds up the shares. -/
theorem returns_totalPercentage {α : Type} {milestones : List (α × ℕ)}
    (hm : ∀ m ∈ milestones, m.2 ≤ 100) {t n : ℕ} (ht : t ≤ u32Max) :
    (milestones.foldlM (fun total m => do
      rejectIf (100 < m.2) NavinError.invalidPaymentMilestones
      unwrap (checkedAddU32 total m.2)) t : Contract H ℕ).Returns env w n w' ↔
      n = t + (milestones.map (·.2)).sum ∧ n ≤ u32Max ∧ w' = w := by
  induction milestones generalizing t w with
  | nil =>
    simp only [List.foldlM_nil, returns_pure, List.map_nil, List.sum_nil, add_zero]
    constructor
    · rintro ⟨rfl, rfl⟩
      exact ⟨rfl, ht, rfl⟩
    · rintro ⟨rfl, -, rfl⟩
      exact ⟨rfl, rfl⟩
  | cons m milestones ih =>
    rw [List.forall_mem_cons] at hm
    simp only [List.foldlM_cons, bind_assoc, returns_rejectIf_bind, returns_unwrap_bind,
      List.map_cons, List.sum_cons, checkedAddU32]
    constructor
    · rintro ⟨-, t', ht', hrest⟩
      split at ht'
      · rename_i hle
        obtain rfl := Option.some.inj ht'
        obtain ⟨rfl, hn, rfl⟩ := (ih hm.2 hle).mp hrest
        exact ⟨by omega, hn, rfl⟩
      · cases ht'
    · rintro ⟨rfl, hn, rfl⟩
      have hle : t + m.2 ≤ u32Max := by omega
      exact ⟨by omega, t + m.2, if_pos hle, (ih hm.2 hle).mpr ⟨by omega, hn, rfl⟩⟩

namespace Raw

variable {milestones : List (List UInt8 × ℕ)}

theorem returns_validateMilestoneSymbols {u : Unit} :
    (validateMilestoneSymbols milestones).Returns env w u w' ↔
      ((∀ m ∈ milestones, NameOf m.1 ∧ 1 ≤ m.2 ∧ m.2 ≤ 100) ∧ (milestones.map (·.1)).Nodup) ∧
        w' = w := by
  unfold validateMilestoneSymbols
  rw [returns_unit_bind fun _ _ => returns_checks (fun _ _ _ _ => returns_validateMilestoneEntry) _,
    rejectDuplicates_eq, returns_rejectIf, not_not, and_assoc]
  refine and_congr_right fun hm => and_congr_left fun _ => nodup_xdrSymbol_iff fun name hmem => ?_
  obtain ⟨m, hin, rfl⟩ := List.mem_map.mp hmem
  exact (hm m hin).1

theorem returns_validateMilestones {u : Unit} :
    (validateMilestones milestones).Returns env w u w' ↔ Scheduled milestones ∧ w' = w := by
  unfold validateMilestones Scheduled
  by_cases hnil : milestones = []
  · simp [hnil]
  rw [if_neg (by simpa using hnil), returns_unit_bind fun _ _ => returns_validateMilestoneSymbols]
  simp only [hnil, false_or, and_assoc]
  refine and_congr_right fun hm => and_congr_right fun _ => ?_
  have hle : ∀ m ∈ milestones, m.2 ≤ 100 := fun m hmem => (hm m hmem).2.2
  rw [returns_bind]
  simp only [returns_totalPercentage hle (Nat.zero_le _), zero_add, returns_rejectIf, ne_eq, not_not]
  constructor
  · rintro ⟨_, _, ⟨rfl, -, rfl⟩, hsum, rfl⟩
    exact ⟨hsum, rfl⟩
  · rintro ⟨hsum, rfl⟩
    exact ⟨100, w', ⟨hsum.symm, by decide, rfl⟩, rfl, rfl⟩

/-! ### No trap -/

theorem settles_validateSymbol {error : NavinError} {name : List UInt8} :
    (validateSymbol error name : Contract H Unit).Settles env w
      (fun _ _ => name.length ≤ 12) False := by
  unfold validateSymbol
  dsimp only
  rw [settles_bind, settles_rejectIf, settles_rejectIf, not_not, window_iff]
  exact fun _ h => h.2

/-- The slice of the buffer is in range, as the length was checked before. -/
theorem not_traps_validateMilestoneEntry (m : List UInt8 × ℕ) :
    ¬(validateMilestoneEntry m : Contract H Unit).Traps env w := by
  have key : (validateMilestoneEntry m : Contract H Unit).Settles env w (fun _ _ => True) False := by
    unfold validateMilestoneEntry
    rw [settles_bind]
    refine settles_validateSymbol.mono (fun _ _ hle => ?_) id
    rw [settles_bind, validateSymbolChars_eq (by omega), settles_bind, settles_rejectIf]
    intro _
    rw [settles_bind, settles_trapIf]
    refine ⟨fun h => by omega, fun _ => ?_⟩
    rw [settles_rejectIf]
    intro _
    rw [settles_bind]
    refine settles_validateSymbol.mono (fun _ _ _ => ?_) id
    rw [settles_rejectIf]
    exact fun _ => trivial
  exact key.traps

theorem not_traps_validateMilestoneSymbols :
    ¬(validateMilestoneSymbols milestones : Contract H Unit).Traps env w := by
  unfold validateMilestoneSymbols
  rw [traps_bind, rejectDuplicates_eq]
  rintro (h | ⟨_, _, _, h⟩)
  · exact not_traps_foldlM (fun _ m _ => not_traps_validateMilestoneEntry m) _ _ _ h
  · exact not_traps_rejectIf h

/-- The shares are at most 100 each, so that their sum is a `u32` if there are few. -/
theorem not_traps_totalPercentage {t : ℕ} (ht : t + milestones.length * 100 < 2 ^ 32) :
    ¬(milestones.foldlM (fun total m => do
      rejectIf (100 < m.2) NavinError.invalidPaymentMilestones
      unwrap (checkedAddU32 total m.2)) t : Contract H ℕ).Traps env w := by
  have key := settles_foldlM (r := env) (s := w) (T := False)
    (fun total (m : List UInt8 × ℕ) => (do
      rejectIf (100 < m.2) NavinError.invalidPaymentMilestones
      unwrap (checkedAddU32 total m.2) : Contract H ℕ))
    (fun l total _ => total + l.length * 100 < 2 ^ 32) ?_ milestones ht
  · exact key.traps
  · intro m l total s h
    rw [List.length_cons] at h
    rw [settles_bind, settles_rejectIf]
    intro hle
    have hmax : u32Max = 2 ^ 32 - 1 := rfl
    have hadd : checkedAddU32 total m.2 = some (total + m.2) := if_pos (by omega)
    rw [settles_unwrap, hadd]
    refine ⟨by simp, fun n hn => ?_⟩
    cases hn
    omega

/-- `validate_milestones` returns exactly for the schedules that are valid, and traps for
none, if there are fewer than `2 ^ 32 / 100` milestones. -/
theorem validateMilestones_iff (hlen : milestones.length * 100 < 2 ^ 32) (env : Env) (w : World H) :
    ¬(validateMilestones milestones).Traps env w ∧
    ∀ u w', (validateMilestones milestones).Returns env w u w' ↔
      (milestones = [] ∨
        (∀ m ∈ milestones, (1 ≤ m.1.length ∧ m.1.length ≤ 12 ∧ m.1.all isSymbolByte = true) ∧
          1 ≤ m.2 ∧ m.2 ≤ 100) ∧
        (milestones.map (·.1)).Nodup ∧ (milestones.map (·.2)).sum = 100) ∧ w' = w := by
  refine ⟨?_, fun u w' => returns_validateMilestones⟩
  unfold validateMilestones
  split
  · exact not_traps_pure
  · rw [traps_bind]
    rintro (h | ⟨_, w₁, -, h⟩)
    · exact not_traps_validateMilestoneSymbols h
    · rw [traps_bind] at h
      rcases h with h | ⟨_, _, _, h⟩
      · exact not_traps_totalPercentage (by omega) h
      · exact not_traps_rejectIf h

/-- Two names, of which one begins the other, at the two sides of a length class. -/
theorem validateMilestones_iff_two :
    (validateMilestones [([112, 111, 114, 116], 40), ([112, 111, 114, 116, 95], 60)]).Returns
      (Deployment.signed Deployment.company 4 (.extendTtl 1)).2 Deployment.chain.world ()
      Deployment.chain.world := by
  refine ((validateMilestones_iff (by decide) _ _).2 () _).mpr ⟨.inr ⟨?_, ?_, ?_⟩, rfl⟩
  · decide
  · decide
  · rfl

end Raw

/-! ### Symbols -/

/-- The contents of a schedule of symbols. -/
def contents (milestones : List (Symbol × ℕ)) : List (List UInt8 × ℕ) :=
  milestones.map fun m => (m.1.bytes, m.2)

theorem validateSymbolChars_symbol (s : Symbol) :
    (validateSymbolChars s : Contract H Unit) = Raw.validateSymbolChars s.bytes := by
  rw [Raw.validateSymbolChars_eq (lt_of_le_of_lt s.length_le (by decide))]
  rfl

theorem validateMilestoneEntry_symbol (m : Symbol × ℕ) :
    (validateMilestoneEntry m : Contract H Unit) = Raw.validateMilestoneEntry (m.1.bytes, m.2) := by
  unfold validateMilestoneEntry Raw.validateMilestoneEntry Raw.validateSymbol
  dsimp only
  rw [rejectIf_bind_rejectIf, rejectIf_bind_rejectIf, validateSymbolChars_symbol]
  unfold validateSymbol
  rw [rejectIf_bind_rejectIf]
  rfl

/-- The checks of the contract are the source's checks of the contents. -/
theorem validateMilestones_contents (milestones : List (Symbol × ℕ)) :
    (validateMilestones milestones : Contract H Unit) = Raw.validateMilestones (contents milestones) := by
  have hnames : (rejectIf (¬(milestones.map fun m => m.1.toXdr).Nodup) .duplicatePaymentMilestone :
      Contract H Unit) = Raw.rejectDuplicates ((contents milestones).map (·.1)) := by
    rw [Raw.rejectDuplicates_eq]
    apply rejectIf_congr
    unfold contents
    rw [List.map_map, List.map_map]
    rfl
  unfold validateMilestones Raw.validateMilestones validateMilestoneSymbols
    Raw.validateMilestoneSymbols
  rw [hnames]
  unfold contents
  simp only [List.isEmpty_map, List.foldlM_map, validateMilestoneEntry_symbol]

end Navin
