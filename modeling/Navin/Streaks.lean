/-
# Failures in a row

The tracker of the breaker counts failures and is meant to open on as many in a row as its
threshold says. A success that is recorded on a closed tracker leaves the count as it is,
so that the failures before it are still counted after it. Until then the count is the
number of failures in a row.

Key definitions:
- `Records`: a result is recorded on a tracker;
- `Verdict.Unbroken`: the result is no success on a closed tracker with failures counted;
- `InARow n rs`: the last `n` of the results are failures.

Key theorems:
- `Run.counts`: a closed tracker counts all failures;
- `opens_on_streak_iff`.
-/
import Navin.Timing
import Mathlib.Data.List.DropRight

namespace Navin

/-- A result, with the arguments of `record_failure`. -/
inductive Verdict where
  | success
  | failure (config : CircuitBreakerConfig) (time : ℕ)

def Verdict.isFailure : Verdict → Bool
  | success => false
  | failure .. => true

/-- A result is recorded; the threshold is a `u32`. -/
inductive Records (t : CircuitBreakerTracker) : Verdict → CircuitBreakerTracker → Prop
  | success : Records t .success t.recordSuccess
  | failure {config : CircuitBreakerConfig} {time : ℕ} {t' : CircuitBreakerTracker} :
      config.failureThreshold ≤ u32Max → t.recordFailure config time = some t' →
      Records t (.failure config time) t'

/-- The result is not a success between failures that are counted. -/
def Verdict.Unbroken (t : CircuitBreakerTracker) : Verdict → Prop
  | success => t.state = .closed → t.failureCount = 0
  | failure .. => True

/-- There are `n` results, and the last `n` of them are failures. -/
def InARow (n : ℕ) (rs : List Verdict) : Prop :=
  n ≤ rs.length ∧ ∀ r ∈ rs.rtake n, r.isFailure = true

/-- The failures at the end. -/
def streak (rs : List Verdict) : ℕ := (rs.rtakeWhile Verdict.isFailure).length

/-- All failures. -/
def failures (rs : List Verdict) : ℕ := rs.countP Verdict.isFailure

variable {rs : List Verdict} {t t' : CircuitBreakerTracker} {config : CircuitBreakerConfig}
  {r : Verdict} {time n : ℕ}

/-! ### Failures in a list of results -/

theorem streak_success : streak (rs ++ [.success]) = 0 := by simp [streak, Verdict.isFailure]

theorem streak_failure : streak (rs ++ [.failure config time]) = streak rs + 1 := by
  unfold streak
  rw [List.rtakeWhile_concat_pos _ _ _ rfl, List.length_append]
  rfl

theorem failures_success : failures (rs ++ [.success]) = failures rs := by
  simp [failures, Verdict.isFailure]

theorem failures_failure : failures (rs ++ [.failure config time]) = failures rs + 1 := by
  simp [failures, Verdict.isFailure]

theorem streak_le_failures (rs : List Verdict) : streak rs ≤ failures rs := by
  induction rs using List.reverseRecOn with
  | nil => simp [streak]
  | append_singleton rs r ih =>
    cases r with
    | success => simp [streak_success]
    | failure => simpa [streak_failure, failures_failure] using ih

theorem inARow_iff : InARow n rs ↔ n ≤ streak rs := by
  induction rs using List.reverseRecOn generalizing n with
  | nil => simp [InARow, streak]
  | append_singleton rs r ih =>
    cases n with
    | zero => simp [InARow]
    | succ n =>
      unfold InARow at ih ⊢
      rw [List.rtake_concat_succ]
      cases r with
      | success => simp [streak_success, Verdict.isFailure]
      | failure config time =>
        have hlast : (Verdict.failure config time).isFailure = true := rfl
        rw [streak_failure, Nat.succ_le_succ_iff, ← ih]
        simp [or_imp, forall_and, hlast]

/-! ### One result -/

theorem Records.opened (h : Records t r t') (ht : t.state = .opened) : t'.state = .opened := by
  cases h with
  | success =>
    rw [CircuitBreakerTracker.recordSuccess_of_ne (by simp [ht])]
    exact ht
  | failure _ hf =>
    rcases CircuitBreakerTracker.recordFailure_eq_some hf with ⟨-, rfl⟩ | ⟨hne, -⟩
    · exact ht
    · exact absurd ht hne

/-- A failure on a closed tracker is counted, and opens it from the threshold on. -/
theorem recordFailure_of_closed (h : t.state = .closed) (hcount : t.failureCount + 1 ≤ u32Max) :
    t.recordFailure config time = some (if config.failureThreshold ≤ t.failureCount + 1 then
      { t with failureCount := t.failureCount + 1, state := .opened, openedAt := time }
      else { t with failureCount := t.failureCount + 1 }) := by
  have hadd : checkedAddU32 t.failureCount 1 = some (t.failureCount + 1) := if_pos hcount
  unfold CircuitBreakerTracker.recordFailure
  rw [h, hadd]
  exact (apply_ite some _ _ _).symm

/-- The failure that opens a closed tracker brings the count to the threshold. -/
theorem Records.threshold_le (h : Records t (.failure config time) t') (ht : t.state = .closed)
    (ht' : t'.state = .opened) : config.failureThreshold ≤ t.failureCount + 1 := by
  cases h with
  | failure _ hf =>
    unfold CircuitBreakerTracker.recordFailure at hf
    rw [ht] at hf
    obtain ⟨n, hn, hf⟩ := Option.bind_eq_some_iff.mp hf
    obtain rfl := checkedAddU32_eq_some hn
    by_cases hle : config.failureThreshold ≤ t.failureCount + 1
    · exact hle
    · rw [if_neg hle] at hf
      cases hf
      exact absurd ht' (by simp)

/-! ### Runs -/

/-- As long as the tracker is closed it counts all failures, not only those in a row. -/
theorem Run.counts (hr : Run Records .new rs t) : t.state = .opened ∨
    t.state = .closed ∧ t.failureCount = failures rs ∧ t.failureCount + 1 ≤ u32Max := by
  induction hr with
  | nil => exact .inr ⟨rfl, rfl, by decide⟩
  | @snoc rs r a b _ hl ih =>
    rcases ih with ha | ⟨ha, hcount, hroom⟩
    · exact .inl (hl.opened ha)
    · cases hl with
      | success =>
        rw [CircuitBreakerTracker.recordSuccess_of_ne (by simp [ha]), failures_success]
        exact .inr ⟨ha, hcount, hroom⟩
      | @failure config _ _ hle hf =>
        rw [recordFailure_of_closed ha hroom] at hf
        cases hf
        by_cases hc : config.failureThreshold ≤ a.failureCount + 1
        · rw [if_pos hc]
          exact .inl rfl
        · rw [if_neg hc, failures_failure, ← hcount]
          have hlt : a.failureCount + 1 + 1 ≤ u32Max := by omega
          exact .inr ⟨ha, rfl, hlt⟩

theorem Run.counts_of_closed (hr : Run Records .new rs t) (ht : t.state = .closed) :
    t.failureCount = failures rs ∧ t.failureCount + 1 ≤ u32Max := by
  rcases Run.counts hr with hopen | ⟨-, h⟩
  · simp [ht] at hopen
  · exact h

/-- A tracker that is closed at the end was closed all along. -/
theorem Run.closed_of_snoc (hr : Run Records .new rs t) (hl : Records t r t')
    (ht' : t'.state = .closed) : t.state = .closed := by
  rcases Run.counts hr with ht | ⟨ht, -⟩
  · simp [hl.opened ht] at ht'
  · exact ht

/-- If no success comes between counted failures, the failures are in a row. -/
theorem Run.failures_eq_streak (hr : Run (Under Records fun t r => r.Unbroken t) .new rs t)
    (ht : t.state = .closed) : failures rs = streak rs := by
  induction hr with
  | nil => rfl
  | @snoc rs r a b hr hl ih =>
    obtain ⟨hl, hun⟩ := hl
    have ha : a.state = .closed := Run.closed_of_snoc hr.of_under hl ht
    obtain ⟨hcount, -⟩ := Run.counts_of_closed hr.of_under ha
    cases r with
    | success =>
      have hzero : failures rs = 0 := hcount ▸ hun ha
      rw [failures_success, streak_success, hzero]
    | failure config time =>
      rw [failures_failure, streak_failure, ih ha]

/-- And conversely. -/
theorem Run.unbroken (hr : Run Records .new rs t) (ht : t.state = .closed)
    (hrow : failures rs = streak rs) : Run (Under Records fun t r => r.Unbroken t) .new rs t := by
  induction hr with
  | nil => exact .nil
  | @snoc rs r a b hr hl ih =>
    have ha : a.state = .closed := Run.closed_of_snoc hr hl ht
    obtain ⟨hcount, -⟩ := Run.counts_of_closed hr ha
    cases r with
    | success =>
      rw [failures_success, streak_success] at hrow
      have hle := streak_le_failures rs
      refine .snoc (ih ha (by omega)) ⟨hl, fun _ => ?_⟩
      exact hcount.trans hrow
    | failure config time =>
      rw [failures_failure, streak_failure] at hrow
      exact .snoc (ih ha (by omega)) ⟨hl, trivial⟩

/-- In every sequence of results recorded on a new tracker, up to a state where it is
closed: whatever failure opens it next, with whatever threshold, there are as many in a row
as the threshold says, if and only if no success was recorded so far while failures were
counted. -/
theorem opens_on_streak_iff (hr : Run Records .new rs t) (ht : t.state = .closed) :
    (∀ config time t', Records t (.failure config time) t' → t'.state = .opened →
      InARow config.failureThreshold (rs ++ [.failure config time])) ↔
    Run (Under Records fun t r => r.Unbroken t) .new rs t := by
  obtain ⟨hcount, hroom⟩ := Run.counts_of_closed hr ht
  constructor
  · intro h
    -- the threshold that the next failure reaches
    let config : CircuitBreakerConfig := ⟨t.failureCount + 1, 0, 1⟩
    have hnext : t.recordFailure config 0 = _ := recordFailure_of_closed ht hroom
    rw [if_pos (le_refl (t.failureCount + 1))] at hnext
    have hrow := h _ _ _ (.failure hroom hnext) rfl
    rw [inARow_iff, streak_failure] at hrow
    have hle := streak_le_failures rs
    have hrow : t.failureCount + 1 ≤ streak rs + 1 := hrow
    apply Run.unbroken hr ht
    omega
  · intro h config time t' hl ht'
    rw [inARow_iff, streak_failure, ← Run.failures_eq_streak h ht, ← hcount]
    exact hl.threshold_le ht ht'

/-- Two failures in a row on the strict preset, and the third one that opens it. -/
theorem opens_on_streak_iff_strict : ∃ (rs : List Verdict) (t t' : CircuitBreakerTracker),
    Run Records .new rs t ∧ Records t (.failure .strict 12) t' ∧ t'.state = .opened ∧
    InARow CircuitBreakerConfig.strict.failureThreshold (rs ++ [.failure .strict 12]) := by
  have hstrict : CircuitBreakerConfig.strict.failureThreshold ≤ u32Max := by decide
  have h : Run (Under Records fun t r => r.Unbroken t) .new
      [.success, .failure .strict 10, .failure .strict 11] ⟨.closed, 2, 0, 0⟩ :=
    .snoc (.snoc (.snoc .nil ⟨.success, fun _ => rfl⟩) ⟨.failure hstrict rfl, trivial⟩)
      ⟨.failure hstrict rfl, trivial⟩
  have hl : Records ⟨.closed, 2, 0, 0⟩ (.failure .strict 12) ⟨.opened, 3, 12, 0⟩ :=
    .failure hstrict rfl
  exact ⟨_, _, _, h.of_under, hl, rfl, (opens_on_streak_iff h.of_under rfl).2 h _ _ _ hl rfl⟩

/-- With a success between the failures the third one still opens the strict preset, with
one failure in a row. -/
theorem opens_without_streak : ∃ (rs : List Verdict) (t t' : CircuitBreakerTracker),
    Run Records .new rs t ∧ t.state = .closed ∧ Records t (.failure .strict 14) t' ∧
    t'.state = .opened ∧
    ¬ InARow CircuitBreakerConfig.strict.failureThreshold (rs ++ [.failure .strict 14]) := by
  have hstrict : CircuitBreakerConfig.strict.failureThreshold ≤ u32Max := by decide
  have hr : Run Records .new [.failure .strict 10, .success, .failure .strict 12, .success]
      ⟨.closed, 2, 0, 0⟩ :=
    .snoc (.snoc (.snoc (.snoc .nil (.failure hstrict rfl)) .success) (.failure hstrict rfl)) .success
  refine ⟨_, _, ⟨.opened, 3, 14, 0⟩, hr, rfl, .failure hstrict rfl, rfl, ?_⟩
  rintro ⟨-, hrow⟩
  have hmem : Verdict.success ∈
      [.failure .strict 12, .success, Verdict.failure CircuitBreakerConfig.strict 14] := by simp
  exact absurd (hrow .success hmem) (by decide)

end Navin
