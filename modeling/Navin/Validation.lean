/-
# Validation

The checks of `validation.rs` and of the head of `lib.rs` on hashes, symbols,
amounts, schedules and records.

Key definitions:
- `validateShipmentInvariants`: what a record must satisfy to be persisted;
- `validateMilestones`: a schedule's names are distinct and its shares sum to 100;
- `checkedSubEscrow`, `checkedMulDiv`: the escrow arithmetic.
-/
import Navin.Storage

namespace Navin

open Tx

variable {H : Host}

/-! ### Hashes and symbols -/

/-- `validate_hash`: all zeros is no hash. (`validate_note_hash` adds a check of
the length, which is fixed by the type.) -/
def validateHash (hash : BytesN32) : Contract H Unit := rejectIf (hash = 0) .invalidHash

/-- `validate_symbol`: on the encoded length, as the source does it. -/
def validateSymbol (s : Symbol) : Contract H Unit := do
  rejectIf (s.toXdr.length = 8) .invalidSymbol
  rejectIf (¬(12 ≤ s.toXdr.length ∧ s.toXdr.length ≤ 20)) .invalidSymbol

/-- `validate_symbol_chars`: reads the characters out of a 32-byte buffer, so
that more than 24 of them are out of its range. -/
def validateSymbolChars (s : Symbol) : Contract H Unit := do
  rejectIf (s.bytes.length = 0) .invalidSymbol
  trapIf (24 < s.bytes.length)
  rejectIf (s.bytes.all isSymbolByte = false) .invalidSymbol

/-- `validate_checkpoint_symbol`. -/
def validateCheckpointSymbol (s : Symbol) : Contract H Unit := do
  rejectIf (s.toXdr.length ≤ 8) .invalidSymbol
  rejectIf (¬(12 ≤ s.toXdr.length ∧ s.toXdr.length ≤ 20)) .invalidSymbol
  validateSymbolChars s

/-- `validate_symbol_not_whitespace_only`. -/
def validateSymbolNotWhitespaceOnly (s : Symbol) : Contract H Unit := do
  rejectIf (s.toXdr.length ≤ 8) .invalidSymbol
  rejectIf (20 < s.toXdr.length) .invalidSymbol

/-- `validate_metadata_symbols`. -/
def validateMetadataSymbols (key value : Symbol) : Contract H Unit := do
  validateSymbol key
  validateSymbol value
  rejectIf (key.toXdr = value.toXdr) .metadataSymbolCollision

/-! ### Schedules -/

/-- One step of the first loop of `validate_milestone_symbols`. -/
def validateMilestoneEntry (m : Symbol × ℕ) : Contract H Unit := do
  validateSymbol m.1
  validateSymbolChars m.1
  -- The source repeats the check under another error; it cannot fail here.
  rejectIf (m.1.toXdr.length = 8 ∨ ¬(12 ≤ m.1.toXdr.length ∧ m.1.toXdr.length ≤ 20))
    .invalidPaymentMilestoneName
  rejectIf (m.2 = 0 ∨ 100 < m.2) .invalidPaymentMilestones

/-- `validate_milestone_symbols`: the second loop compares every pair of names. -/
def validateMilestoneSymbols (milestones : List (Symbol × ℕ)) : Contract H Unit := do
  milestones.foldlM (fun _ m => validateMilestoneEntry m) ()
  rejectIf (¬(milestones.map fun m => m.1.toXdr).Nodup) .duplicatePaymentMilestone

/-- `validate_milestones`. -/
def validateMilestones (milestones : List (Symbol × ℕ)) : Contract H Unit :=
  if milestones.isEmpty then pure () else do
    validateMilestoneSymbols milestones
    let totalPercentage ← milestones.foldlM (fun total m => do
      rejectIf (100 < m.2) .invalidPaymentMilestones
      unwrap (checkedAddU32 total m.2)) 0
    rejectIf (totalPercentage ≠ 100) .milestoneSumInvalid

/-! ### Amounts -/

def maxAmount : ℤ := 1000000000000000

/-- `validate_positive_amount`. -/
def validatePositiveAmount (amount : ℤ) : Contract H Unit := do
  rejectIf (amount ≤ 0) .insufficientFunds
  rejectIf (maxAmount < amount) .invalidAmount

/-- `checked_sub_escrow`: no escrow below zero. -/
def checkedSubEscrow (a b : ℤ) : Contract H ℤ := do
  let res ← okOr (checkedI128 (a - b)) .arithmeticError
  rejectIf (res < 0) .arithmeticError
  return res

/-- `checked_mul_div_i128`: the division rounds towards zero. -/
def checkedMulDiv (value multiplier divisor : ℤ) : Contract H ℤ := do
  rejectIf (divisor = 0) .arithmeticError
  let product ← okOr (checkedI128 (value * multiplier)) .arithmeticError
  return product.tdiv divisor

/-! ### Records -/

/-- The conditions of `validate_shipment_invariants`, in its order. -/
def validateShipmentInvariants (s : Shipment) : Except NavinError Unit :=
  if s.totalEscrow < 0 ∨ s.escrowAmount < 0 then .error .invalidStatus
  else if s.totalEscrow < s.escrowAmount then .error .invalidStatus
  else if s.finalized = true ∧
      (¬(s.status = .delivered ∨ s.status = .cancelled) ∨ s.escrowAmount ≠ 0) then
    .error .invalidStatus
  else if s.status = .disputed ∧ s.finalized = true then .error .invalidStatus
  else if s.status = .created ∧ s.paidMilestones.isEmpty = false then .error .invalidStatus
  else .ok ()

/-- A valid record, as a proposition. -/
structure Shipment.Valid (s : Shipment) : Prop where
  escrow_nonneg : 0 ≤ s.escrowAmount
  escrow_le_total : s.escrowAmount ≤ s.totalEscrow
  finalized_settled : s.finalized = true →
    (s.status = .delivered ∨ s.status = .cancelled) ∧ s.escrowAmount = 0
  created_unpaid : s.status = .created → s.paidMilestones = []

/-- The check accepts exactly the valid records. -/
theorem validateShipmentInvariants_eq_ok {s : Shipment} {u : Unit} :
    validateShipmentInvariants s = .ok u ↔ s.Valid := by
  unfold validateShipmentInvariants
  constructor
  · intro h
    split at h <;> try cases h
    split at h <;> try cases h
    split at h <;> try cases h
    split at h <;> try cases h
    split at h <;> try cases h
    rename_i h₁ h₂ h₃ _ h₅
    simp only [not_or, not_lt, not_and, List.isEmpty_eq_false_iff, ne_eq, not_not] at h₁ h₂ h₃ h₅
    exact ⟨h₁.2, h₂, fun hf => ⟨by simpa [or_iff_not_imp_left] using (h₃ hf).1, (h₃ hf).2⟩, h₅⟩
  · rintro ⟨h₁, h₂, h₃, h₄⟩
    have hf : ¬(s.status = .disputed ∧ s.finalized = true) := by
      rintro ⟨hd, hf⟩
      rcases (h₃ hf).1 with h | h <;> rw [hd] at h <;> cases h
    rw [if_neg (by omega), if_neg (by omega), if_neg, if_neg hf, if_neg]
    · rintro ⟨hc, hp⟩
      rw [h₄ hc] at hp
      cases hp
    · rintro ⟨hfin, h | h⟩
      · exact h (h₃ hfin).1
      · exact h (h₃ hfin).2

/-- `validate_shipment_transition`. -/
def validateShipmentTransition (source target : ShipmentStatus) : Contract H Unit :=
  rejectIf (source.isValidTransition target = false) .invalidStatus

/-- `is_zero_address`: the 32 bytes after the first eight of the encoding. -/
def isZeroAddress (a : Address) : Bool :=
  if a.toXdr.length < 40 then true else ((a.toXdr.drop 8).take 32).all (· = 0)

end Navin
