/-
# When the breaker opens and lets through

The tracker of the breaker by itself: three calls in any order, at times that do not go
back, with results that come late or never. While it is open nothing recorded changes when
it opened, and it opens up again only to a request that comes late enough. The request that
finds it so is the first trial, and is counted as one.

Key definitions:
- `Ticks config`: a call on the tracker at a time, with its outcome.

Key theorems:
- `Ticks.stays_open`, `Ticks.trial`: one call on an open and on a half-open tracker;
- `Run.failureCount_le`: the count of failures does not overflow before there are as many;
- `breaker_timing`.
-/
import Navin.Config
import Navin.Lib.Runs
import Mathlib.Data.List.Count

namespace Navin

/-- A tracker and the time of the last call on it. -/
structure Clocked where
  tracker : CircuitBreakerTracker
  now : ℕ

/-- A call on the tracker; a request is allowed or refused. -/
inductive PulseKind where
  | allowed | refused | success | failure
  deriving DecidableEq

structure Pulse where
  kind : PulseKind
  time : ℕ

/-- A request that ends with an error or a trap is refused, and leaves the tracker alone. -/
inductive Ticks (config : CircuitBreakerConfig) (s : Clocked) : Pulse → Clocked → Prop
  | allowed {t : ℕ} {tracker : CircuitBreakerTracker} : s.now ≤ t →
      s.tracker.shouldAllowRequest config t = some (.ok tracker) →
      Ticks config s ⟨.allowed, t⟩ ⟨tracker, t⟩
  | refused {t : ℕ} : s.now ≤ t →
      (∀ tracker, s.tracker.shouldAllowRequest config t ≠ some (.ok tracker)) →
      Ticks config s ⟨.refused, t⟩ ⟨s.tracker, t⟩
  | success {t : ℕ} : s.now ≤ t → Ticks config s ⟨.success, t⟩ ⟨s.tracker.recordSuccess, t⟩
  | failure {t : ℕ} {tracker : CircuitBreakerTracker} : s.now ≤ t →
      s.tracker.recordFailure config t = some tracker →
      Ticks config s ⟨.failure, t⟩ ⟨tracker, t⟩

variable {config : CircuitBreakerConfig} {t now : ℕ} {tracker tracker' : CircuitBreakerTracker}
  {a b c : Clocked} {l : Pulse} {ks ls : List Pulse}

/-! ### The three calls by state -/

namespace CircuitBreakerTracker

theorem recordSuccess_of_ne (h : tracker.state ≠ .halfOpen) : tracker.recordSuccess = tracker := by
  unfold recordSuccess
  cases hs : tracker.state with
  | halfOpen => exact absurd hs h
  | _ => rfl

/-- A success does not open the breaker, and does not half-open it. -/
theorem recordSuccess_state : tracker.recordSuccess.state = tracker.state ∨
    tracker.recordSuccess.state = .closed := by
  unfold recordSuccess
  cases hs : tracker.state with
  | halfOpen => exact .inr rfl
  | _ => exact .inl hs

/-- An open breaker lets a request through from `opened_at + recovery_timeout` on. -/
theorem shouldAllowRequest_of_opened (h : tracker.state = .opened)
    (ht : t < tracker.openedAt + config.recoveryTimeout) :
    tracker.shouldAllowRequest config t =
      (checkedAddU64 tracker.openedAt config.recoveryTimeout).map fun _ =>
        .error .circuitBreakerOpen := by
  unfold shouldAllowRequest
  rw [h]
  dsimp only
  cases hadd : checkedAddU64 tracker.openedAt config.recoveryTimeout with
  | none => rfl
  | some n =>
    obtain ⟨rfl, -⟩ := checkedAddU64_eq_some hadd
    exact if_neg (by omega)

/-- What lets a request through. -/
theorem shouldAllowRequest_eq_ok (h : tracker.shouldAllowRequest config t = some (.ok tracker')) :
    (tracker.state = .closed ∧ tracker' = tracker) ∨
    (tracker.state = .opened ∧ tracker.openedAt + config.recoveryTimeout ≤ t ∧
      tracker' = { tracker with state := .halfOpen, halfOpenRequests := 1 }) ∨
    (tracker.state = .halfOpen ∧ tracker.halfOpenRequests < config.halfOpenMaxRequests ∧
      tracker' = { tracker with halfOpenRequests := tracker.halfOpenRequests + 1 }) := by
  unfold shouldAllowRequest at h
  cases hs : tracker.state with
  | closed =>
    rw [hs] at h
    cases h
    exact .inl ⟨rfl, rfl⟩
  | opened =>
    rw [hs] at h
    obtain ⟨n, hn, h⟩ := Option.bind_eq_some_iff.mp h
    obtain ⟨rfl, -⟩ := checkedAddU64_eq_some hn
    split at h
    · rename_i hle
      cases h
      exact .inr (.inl ⟨rfl, hle, rfl⟩)
    · cases h
  | halfOpen =>
    rw [hs] at h
    dsimp only at h
    split at h
    · rename_i hlt
      cases h
      exact .inr (.inr ⟨rfl, hlt, rfl⟩)
    · cases h

/-- What a failure does. -/
theorem recordFailure_eq_some (h : tracker.recordFailure config t = some tracker') :
    (tracker.state = .opened ∧ tracker' = { tracker with failureCount := tracker.failureCount + 1 }) ∨
    (tracker.state ≠ .opened ∧ tracker'.failureCount ≤ tracker.failureCount + 1 ∧
      (tracker'.state = .opened ∧ tracker'.openedAt = t ∨ tracker'.state = .closed)) := by
  unfold recordFailure at h
  cases hs : tracker.state with
  | closed =>
    rw [hs] at h
    obtain ⟨n, hn, h⟩ := Option.bind_eq_some_iff.mp h
    obtain rfl := checkedAddU32_eq_some hn
    split at h
    · cases h
      exact .inr ⟨by simp, le_rfl, .inl ⟨rfl, rfl⟩⟩
    · cases h
      exact .inr ⟨by simp, le_rfl, .inr rfl⟩
  | opened =>
    rw [hs] at h
    obtain ⟨n, hn, h⟩ := Option.bind_eq_some_iff.mp h
    obtain rfl := checkedAddU32_eq_some hn
    cases h
    exact .inl ⟨rfl, rfl⟩
  | halfOpen =>
    rw [hs] at h
    cases h
    exact .inr ⟨by simp, Nat.le_succ _, .inl ⟨rfl, rfl⟩⟩

/-- A failure is recorded unless the count is at its end. -/
theorem exists_recordFailure (config : CircuitBreakerConfig) (t : ℕ)
    (h : tracker.failureCount + 1 ≤ u32Max) :
    ∃ tracker', tracker.recordFailure config t = some tracker' := by
  have hadd : checkedAddU32 tracker.failureCount 1 = some (tracker.failureCount + 1) := if_pos h
  unfold recordFailure
  rw [hadd]
  cases tracker.state with
  | closed =>
    by_cases hle : config.failureThreshold ≤ tracker.failureCount + 1
    · exact ⟨_, if_pos hle⟩
    · exact ⟨_, if_neg hle⟩
  | opened => exact ⟨_, rfl⟩
  | halfOpen => exact ⟨_, rfl⟩

end CircuitBreakerTracker

/-! ### One call -/

namespace Ticks

open CircuitBreakerTracker

/-- Before the time is out an open breaker stays open, and lets nothing through. -/
theorem stays_open (h : Ticks config a l b) (ha : a.tracker.state = .opened)
    (hl : l.time < a.tracker.openedAt + config.recoveryTimeout) :
    b.tracker.state = .opened ∧ b.tracker.openedAt = a.tracker.openedAt ∧ l.kind ≠ .allowed := by
  cases h with
  | @allowed t _ _ hok =>
    have hl : t < a.tracker.openedAt + config.recoveryTimeout := hl
    rcases shouldAllowRequest_eq_ok hok with ⟨hs, -⟩ | ⟨-, hle, -⟩ | ⟨hs, -⟩
    · rw [ha] at hs
      cases hs
    · omega
    · rw [ha] at hs
      cases hs
  | refused => exact ⟨ha, rfl, by simp⟩
  | success =>
    have hsame : a.tracker.recordSuccess = a.tracker := recordSuccess_of_ne (by simp [ha])
    exact ⟨(congrArg state hsame).trans ha, congrArg openedAt hsame, by simp⟩
  | failure _ hf =>
    rcases recordFailure_eq_some hf with ⟨-, rfl⟩ | ⟨hs, -⟩
    · exact ⟨ha, rfl, by simp⟩
    · exact absurd ha hs

/-- The breaker opens at the time of the call that opens it. -/
theorem openedAt_eq (h : Ticks config a l b) (ha : a.tracker.state ≠ .opened)
    (hb : b.tracker.state = .opened) : b.tracker.openedAt = l.time := by
  cases h with
  | allowed _ hok =>
    rcases shouldAllowRequest_eq_ok hok with ⟨-, rfl⟩ | ⟨hs, -⟩ | ⟨-, -, rfl⟩
    · exact absurd hb ha
    · exact absurd hs ha
    · exact absurd hb ha
  | refused => exact absurd hb ha
  | success =>
    rcases a.tracker.recordSuccess_state with hs | hs
    · exact absurd (hs.symm.trans hb) ha
    · rw [hb] at hs
      cases hs
  | failure _ hf =>
    rcases recordFailure_eq_some hf with ⟨hs, -⟩ | ⟨-, -, ⟨-, ht⟩ | hs⟩
    · exact absurd hs ha
    · exact ht
    · rw [hb] at hs
      cases hs

/-- The request that half-opens the breaker is the first trial. -/
theorem first_trial (h : Ticks config a l b) (ha : a.tracker.state ≠ .halfOpen)
    (hb : b.tracker.state = .halfOpen) : l.kind = .allowed ∧ b.tracker.halfOpenRequests = 1 := by
  cases h with
  | allowed _ hok =>
    rcases shouldAllowRequest_eq_ok hok with ⟨-, rfl⟩ | ⟨-, -, rfl⟩ | ⟨hs, -⟩
    · exact absurd hb ha
    · exact ⟨rfl, rfl⟩
    · exact absurd hs ha
  | refused => exact absurd hb ha
  | success =>
    rcases a.tracker.recordSuccess_state with hs | hs
    · exact absurd (hs.symm.trans hb) ha
    · rw [hb] at hs
      cases hs
  | failure _ hf =>
    rcases recordFailure_eq_some hf with ⟨hs, rfl⟩ | ⟨-, -, ⟨hs, -⟩ | hs⟩
    · exact absurd hb ha
    · rw [hb] at hs
      cases hs
    · rw [hb] at hs
      cases hs

/-- A request to a half-open breaker is one more trial, if there is room for one. -/
theorem trial (h : Ticks config a l b) (ha : a.tracker.state = .halfOpen)
    (hl : l.kind ≠ .success ∧ l.kind ≠ .failure)
    (hle : a.tracker.halfOpenRequests ≤ config.halfOpenMaxRequests) :
    b.tracker.state = .halfOpen ∧ b.tracker.halfOpenRequests ≤ config.halfOpenMaxRequests ∧
      b.tracker.halfOpenRequests =
        a.tracker.halfOpenRequests + [l].countP (fun k => k.kind = .allowed) := by
  cases h with
  | allowed _ hok =>
    rcases shouldAllowRequest_eq_ok hok with ⟨hs, -⟩ | ⟨hs, -⟩ | ⟨-, hlt, rfl⟩
    · rw [ha] at hs
      cases hs
    · rw [ha] at hs
      cases hs
    · exact ⟨ha, hlt, rfl⟩
  | refused => exact ⟨ha, hle, rfl⟩
  | success => exact absurd rfl hl.1
  | failure => exact absurd rfl hl.2

theorem failureCount_le (h : Ticks config a l b) : b.tracker.failureCount ≤
    a.tracker.failureCount + [l].countP (fun k => k.kind = .failure) := by
  cases h with
  | allowed _ hok =>
    rcases shouldAllowRequest_eq_ok hok with ⟨-, rfl⟩ | ⟨-, -, rfl⟩ | ⟨-, -, rfl⟩ <;> exact le_rfl
  | refused => exact le_rfl
  | success =>
    unfold recordSuccess
    cases a.tracker.state <;> simp
  | failure _ hf =>
    rcases recordFailure_eq_some hf with ⟨-, rfl⟩ | ⟨-, hle, -⟩
    · exact le_rfl
    · exact hle

end Ticks

/-! ### Runs -/

/-- Before the time is out an open breaker stays open, whatever is recorded. -/
theorem Run.stays_open (hr : Run (Ticks config) a ls b) (ha : a.tracker.state = .opened)
    (hls : ∀ l ∈ ls, l.time < a.tracker.openedAt + config.recoveryTimeout) :
    b.tracker.state = .opened ∧ b.tracker.openedAt = a.tracker.openedAt ∧
      ∀ l ∈ ls, l.kind ≠ .allowed := by
  induction hr with
  | nil => exact ⟨ha, rfl, by simp⟩
  | @snoc ls l b c _ hl ih =>
    obtain ⟨hb, hopened, hno⟩ := ih fun k hk => hls k (by simp [hk])
    obtain ⟨hc, hsame, hlast⟩ := hl.stays_open hb (hopened ▸ hls l (by simp))
    refine ⟨hc, hsame.trans hopened, fun k hk => ?_⟩
    rcases List.mem_append.mp hk with hk | hk
    · exact hno k hk
    · exact List.mem_singleton.mp hk ▸ hlast

/-- Without a result the trials are counted, and there is room for so many. -/
theorem Run.trials (hr : Run (Ticks config) a ls b) (ha : a.tracker.state = .halfOpen)
    (hls : ∀ l ∈ ls, l.kind ≠ .success ∧ l.kind ≠ .failure)
    (hle : a.tracker.halfOpenRequests ≤ config.halfOpenMaxRequests) :
    b.tracker.state = .halfOpen ∧ b.tracker.halfOpenRequests ≤ config.halfOpenMaxRequests ∧
      b.tracker.halfOpenRequests =
        a.tracker.halfOpenRequests + ls.countP (fun k => k.kind = .allowed) := by
  induction hr with
  | nil => exact ⟨ha, hle, rfl⟩
  | @snoc ls l b c _ hl ih =>
    obtain ⟨hb, hroom, hcount⟩ := ih fun k hk => hls k (by simp [hk])
    obtain ⟨hc, hroom', hcount'⟩ := hl.trial hb (hls l (by simp)) hroom
    refine ⟨hc, hroom', ?_⟩
    rw [hcount', hcount, List.countP_append, Nat.add_assoc]

theorem Run.failureCount_le (hr : Run (Ticks config) a ls b) : b.tracker.failureCount ≤
    a.tracker.failureCount + ls.countP (fun k => k.kind = .failure) := by
  induction hr with
  | nil => exact le_rfl
  | @snoc ls l b c _ hl ih =>
    have hle := hl.failureCount_le
    rw [List.countP_append]
    omega

/-- In every sequence of calls on a new tracker, at times that do not go back: each
failure is recorded, as long as there are fewer than `2 ^ 32`; once the tracker opens at
some time, it stays open and refuses every request before that time and the recovery
timeout are past, whatever is recorded; and from the request that half-opens it to the next
result it allows no more requests than configured, that one among them. -/
theorem breaker_timing (hmax : 1 ≤ config.halfOpenMaxRequests)
    (hks : Run (Ticks config) ⟨.new, now⟩ ks a) :
    (∀ t, a.now ≤ t → ks.countP (fun k => k.kind = .failure) + 1 < 2 ^ 32 →
      ∃ b, Ticks config a ⟨.failure, t⟩ b) ∧
    (∀ l b ls c, Ticks config a l b → a.tracker.state ≠ .opened → b.tracker.state = .opened →
      Run (Ticks config) b ls c → (∀ k ∈ ls, k.time < l.time + config.recoveryTimeout) →
      c.tracker.state = .opened ∧ (∀ k ∈ ls, k.kind ≠ .allowed) ∧
      ∀ t, t < l.time + config.recoveryTimeout → c.tracker.shouldAllowRequest config t =
        (checkedAddU64 l.time config.recoveryTimeout).map fun _ => .error .circuitBreakerOpen) ∧
    ∀ l b ls c, Ticks config a l b → a.tracker.state ≠ .halfOpen → b.tracker.state = .halfOpen →
      Run (Ticks config) b ls c → (∀ k ∈ ls, k.kind ≠ .success ∧ k.kind ≠ .failure) →
      (l :: ls).countP (fun k => k.kind = .allowed) ≤ config.halfOpenMaxRequests := by
  refine ⟨?_, ?_, ?_⟩
  · intro t ht hfew
    have hcount : a.tracker.failureCount ≤ 0 + ks.countP (fun k => k.kind = .failure) :=
      Run.failureCount_le hks
    have hmax32 : u32Max = 2 ^ 32 - 1 := rfl
    obtain ⟨tracker, hf⟩ := a.tracker.exists_recordFailure config t (by omega)
    exact ⟨⟨tracker, t⟩, .failure ht hf⟩
  · intro l b ls c hl ha hb hr hls
    have hopened := hl.openedAt_eq ha hb
    rw [← hopened] at hls ⊢
    obtain ⟨hc, hsame, hno⟩ := Run.stays_open hr hb hls
    refine ⟨hc, hno, fun t ht => ?_⟩
    rw [← hsame] at ht ⊢
    exact CircuitBreakerTracker.shouldAllowRequest_of_opened hc ht
  · intro l b ls c hl ha hb hr hls
    obtain ⟨hkind, hfirst⟩ := hl.first_trial ha hb
    obtain ⟨-, hroom, hcount⟩ := Run.trials hr hb hls (by omega)
    rw [List.countP_cons_of_pos (by simpa using hkind)]
    omega

/-- The preset that allows one trial: the third failure opens the breaker, a late success
and one more failure change nothing, and after 600 seconds one request passes. -/
theorem breaker_timing_strict : ∃ (ks : List Pulse) (a b c d e : Clocked),
    Run (Ticks .strict) ⟨.new, 0⟩ ks a ∧ Ticks .strict a ⟨.failure, 12⟩ b ∧
    Run (Ticks .strict) b [⟨.success, 100⟩, ⟨.failure, 200⟩, ⟨.refused, 611⟩] c ∧
    c.tracker.state = .opened ∧ Ticks .strict c ⟨.allowed, 612⟩ d ∧
    Run (Ticks .strict) d [⟨.refused, 613⟩] e ∧
    [⟨.allowed, 612⟩, ⟨.refused, 613⟩].countP (fun k : Pulse => k.kind = .allowed) ≤ 1 := by
  have hks : Run (Ticks .strict) ⟨.new, 0⟩ [⟨.failure, 10⟩, ⟨.failure, 11⟩]
      ⟨⟨.closed, 2, 0, 0⟩, 11⟩ :=
    .snoc (.snoc .nil (.failure (by decide) rfl)) (.failure (by decide) rfl)
  have hl : Ticks .strict ⟨⟨.closed, 2, 0, 0⟩, 11⟩ ⟨.failure, 12⟩ ⟨⟨.opened, 3, 12, 0⟩, 12⟩ :=
    .failure (by decide) rfl
  have hr : Run (Ticks .strict) ⟨⟨.opened, 3, 12, 0⟩, 12⟩
      [⟨.success, 100⟩, ⟨.failure, 200⟩, ⟨.refused, 611⟩] ⟨⟨.opened, 4, 12, 0⟩, 611⟩ :=
    .snoc (.snoc (.snoc .nil (.success (by decide))) (.failure (by decide) rfl))
      (.refused (by decide) fun _ h => by cases h)
  have hd : Ticks .strict ⟨⟨.opened, 4, 12, 0⟩, 611⟩ ⟨.allowed, 612⟩ ⟨⟨.halfOpen, 4, 12, 1⟩, 612⟩ :=
    .allowed (by decide) rfl
  have he : Run (Ticks .strict) ⟨⟨.halfOpen, 4, 12, 1⟩, 612⟩ [⟨.refused, 613⟩]
      ⟨⟨.halfOpen, 4, 12, 1⟩, 613⟩ :=
    .snoc .nil (.refused (by decide) fun _ h => by cases h)
  have hopen := (breaker_timing (by decide) hks).2.1 _ _ _ _ hl (by decide) rfl hr (by decide)
  have htrials := (breaker_timing (by decide) ((hks.snoc hl).append hr)).2.2 _ _ _ _ hd (by decide) rfl
    he (by decide)
  exact ⟨_, _, _, _, _, _, hks, hl, hr, hopen.1, hd, he, htrials⟩

end Navin
