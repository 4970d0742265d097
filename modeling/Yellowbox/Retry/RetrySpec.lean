import Mathlib.Algebra.Order.Field.Rat
import Mathlib.Algebra.Order.Monoid.WithTop
import Mathlib.Tactic.Common
import Yellowbox.Base.Effects
import Yellowbox.Base.Iteration

/-!
`RetrySpec`. `retry` and `aretry` are one loop, which pauses with `time.sleep` or
with `asyncio.sleep`: each round is one attempt, and the last attempt follows the
loop. Time is rational, with `inf` for a limit that is never passed.
-/
namespace Yellowbox.Retry

open Effects Iteration

/-- What leaves a retry: an exception of the function, a `ValueError`, or the
`OverflowError` of a pause. -/
inductive Exn (ε : Type) where
  | value (message : String)
  | overflow
  | raised (e : ε)

/-- The fields of the dataclass, in seconds. -/
structure Fields where
  interval : ℚ := 2
  attempts : Option ℤ := none
  timeout : Option (WithTop ℚ) := none

/-- A `RetrySpec` that `__post_init__` has accepted. -/
structure RetrySpec extends Fields where
  limited : attempts ≠ none ∨ timeout ≠ none

variable {σ ε α : Type}

def postInit (fields : Fields) : Except (Exn ε) RetrySpec :=
  if h : fields.attempts = none ∧ fields.timeout = none then
    .error (.value "RetrySpec must have either a timeout or attempts")
  else
    .ok { fields with limited := not_and_or.mp h }

/-- `postInit` accepts the fields of every `RetrySpec`, and no others. -/
theorem postInit_eq_ok {fields : Fields} {spec : RetrySpec} :
    postInit fields = (.ok spec : Except (Exn ε) RetrySpec) ↔ spec.toFields = fields := by
  unfold postInit
  constructor
  · intro h
    split at h
    · cases h
    · cases h
      rfl
  · rintro rfl
    rw [dif_neg (not_and_or.mpr spec.limited)]

/-- What an iterable of attempts still yields. -/
inductive AttemptIterator where
  | count
  | range (stop : ℕ)

namespace AttemptIterator

def next : AttemptIterator → Option AttemptIterator
  | count => some count
  | range 0 => none
  | range (n + 1) => some (range n)

/-- The iterator after `i` attempts. -/
def drop : AttemptIterator → ℕ → AttemptIterator
  | count, _ => count
  | range n, i => range (n - i)

/-- Attempt `i`, counted from 0, is made inside the loop. -/
def Yields : AttemptIterator → ℕ → Prop
  | count, _ => True
  | range n, i => i < n

@[simp] theorem drop_zero (iterator : AttemptIterator) : iterator.drop 0 = iterator := by
  cases iterator <;> rfl

theorem next_drop_of_yields {iterator : AttemptIterator} {i : ℕ} (h : iterator.Yields i) :
    (iterator.drop i).next = some (iterator.drop (i + 1)) := by
  cases iterator with
  | count => rfl
  | range n =>
    have hlt : i < n := h
    have hsucc : n - i = n - (i + 1) + 1 := by omega
    rw [drop, hsucc]
    rfl

theorem next_drop_of_not_yields {iterator : AttemptIterator} {i : ℕ} (h : ¬iterator.Yields i) :
    (iterator.drop i).next = none := by
  cases iterator with
  | count => exact absurd trivial h
  | range n =>
    have hle : n ≤ i := Nat.le_of_not_lt h
    rw [drop, Nat.sub_eq_zero_of_le hle]
    rfl

end AttemptIterator

/-- What a retry calls: the function, the clock, and a pause of some length. A pause that is
longer than the platform's clock goes on (2 ^ 63 nanoseconds for `time.sleep`) is refused. -/
structure Runtime (σ ε α : Type) where
  func : Act σ ε α
  perfCounter : σ → ℚ × σ
  pause : ℚ → σ → σ
  longestSleep : WithTop ℚ
  longestDelay : WithTop ℚ

namespace Runtime

variable (runtime : Runtime σ ε α) {secs : ℚ}

/-- `time.sleep` -/
def sleep (secs : ℚ) : Act σ (Exn ε) Unit := fun s =>
  if secs < 0 then (.error (.value "sleep length must be non-negative"), s)
  else if runtime.longestSleep < secs then (.error .overflow, s)
  else (.ok (), runtime.pause secs s)

/-- `asyncio.sleep`: a delay that is not positive only yields to the event loop. -/
def asyncioSleep (secs : ℚ) : Act σ (Exn ε) Unit := fun s =>
  if runtime.longestDelay < secs then (.error .overflow, s)
  else (.ok (), runtime.pause (max secs 0) s)

theorem sleep_of_le (h : 0 ≤ secs) (hlongest : (secs : WithTop ℚ) ≤ runtime.longestSleep)
    (s : σ) : runtime.sleep secs s = (.ok (), runtime.pause secs s) := by
  rw [sleep, if_neg (not_lt.mpr h), if_neg (not_lt.mpr hlongest)]

theorem sleep_of_lt (h : 0 ≤ secs) (hlongest : runtime.longestSleep < secs) (s : σ) :
    runtime.sleep secs s = (.error .overflow, s) := by
  rw [sleep, if_neg (not_lt.mpr h), if_pos hlongest]

theorem asyncioSleep_of_le (hlongest : (secs : WithTop ℚ) ≤ runtime.longestDelay) (s : σ) :
    runtime.asyncioSleep secs s = (.ok (), runtime.pause (max secs 0) s) :=
  if_neg (not_lt.mpr hlongest)

theorem asyncioSleep_of_lt (hlongest : runtime.longestDelay < secs) (s : σ) :
    runtime.asyncioSleep secs s = (.error .overflow, s) := if_pos hlongest

end Runtime

/-- One round of the loop; the call after it once the iterator is exhausted. -/
def attemptRound (runtime : Runtime σ ε α) (sleep : ℚ → Act σ (Exn ε) Unit) (interval : ℚ)
    (exceptions : ε → Bool) (timeLimit : WithTop ℚ) :
    AttemptIterator × σ → (AttemptIterator × σ) ⊕ (Except (Exn ε) α × σ)
  | (iterator, s) =>
    match iterator.next with
    | none => .inr ((runtime.func s).1.mapError .raised, (runtime.func s).2)
    | some rest =>
      match runtime.func s with
      | (.ok value, t) => .inr (.ok value, t)
      | (.error e, t) =>
        if exceptions e then
          match runtime.perfCounter t with
          | (now, u) =>
            if timeLimit < now then .inr (.error (.raised e), u)
            else
              match sleep interval u with
              | (.ok (), v) => .inl (rest, v)
              | (.error e', v) => .inr (.error e', v)
        else .inr (.error (.raised e), t)

namespace RetrySpec

def attemptIterator (spec : RetrySpec) : Except (Exn ε) AttemptIterator :=
  match spec.attempts with
  | none => .ok .count
  | some attempts =>
    if attempts < 1 then .error (.value "Attempts must be greater than zero.")
    else .ok (.range (attempts - 1).toNat)

/-- `perf_counter() + self.timeout` if there is a truthy timeout, `float("inf")` if not. -/
def timeLimit (spec : RetrySpec) (runtime : Runtime σ ε α) (s : σ) : WithTop ℚ × σ :=
  match spec.timeout with
  | none => (⊤, s)
  | some timeout =>
    if timeout = 0 then (⊤, s)
    else ((runtime.perfCounter s).1 + timeout, (runtime.perfCounter s).2)

/-- The text that `retry` and `aretry` share, cut off after a number of rounds. -/
def retryWith (sleep : ℚ → Act σ (Exn ε) Unit) (spec : RetrySpec) (runtime : Runtime σ ε α)
    (exceptions : ε → Bool) (rounds : ℕ) (s : σ) :
    (AttemptIterator × σ) ⊕ (Except (Exn ε) α × σ) :=
  match spec.attemptIterator with
  | .error e => .inr (.error e, s)
  | .ok iterator =>
    match spec.timeLimit runtime s with
    | (timeLimit, t) =>
      run (attemptRound runtime sleep spec.interval exceptions timeLimit) rounds (iterator, t)

def retry (spec : RetrySpec) (runtime : Runtime σ ε α) (exceptions : ε → Bool) :
    ℕ → σ → (AttemptIterator × σ) ⊕ (Except (Exn ε) α × σ) :=
  retryWith runtime.sleep spec runtime exceptions

def aretry (spec : RetrySpec) (runtime : Runtime σ ε α) (exceptions : ε → Bool) :
    ℕ → σ → (AttemptIterator × σ) ⊕ (Except (Exn ε) α × σ) :=
  retryWith runtime.asyncioSleep spec runtime exceptions

end RetrySpec

section Rounds

variable {runtime : Runtime σ ε α} {sleep : ℚ → Act σ (Exn ε) Unit} {interval : ℚ}
  {exceptions : ε → Bool} {timeLimit : WithTop ℚ} {iterator rest : AttemptIterator}
  {s t u v : σ} {e : ε} {now : ℚ}

/-- The loop goes on after a listed failure that came in time. -/
theorem attemptRound_again (hnext : iterator.next = some rest)
    (hfunc : runtime.func s = (.error e, t)) (hlisted : exceptions e = true)
    (hclock : runtime.perfCounter t = (now, u)) (hintime : ¬timeLimit < now)
    (hsleep : sleep interval u = (.ok (), v)) :
    attemptRound runtime sleep interval exceptions timeLimit (iterator, s) =
      .inl (rest, v) := by
  simp only [attemptRound, hnext, hfunc, hlisted, if_true, hclock, if_neg hintime, hsleep]

theorem attemptRound_last (hnext : iterator.next = none) :
    attemptRound runtime sleep interval exceptions timeLimit (iterator, s) =
      .inr ((runtime.func s).1.mapError .raised, (runtime.func s).2) := by
  simp only [attemptRound, hnext]

theorem attemptRound_value {value : α} (hfunc : runtime.func s = (.ok value, t)) :
    attemptRound runtime sleep interval exceptions timeLimit (iterator, s) =
      .inr (.ok value, t) := by
  cases hnext : iterator.next with
  | none =>
    rw [attemptRound_last hnext, hfunc]
    rfl
  | some rest => simp only [attemptRound, hnext, hfunc]

theorem attemptRound_unlisted (hfunc : runtime.func s = (.error e, t))
    (hlisted : exceptions e = false) :
    attemptRound runtime sleep interval exceptions timeLimit (iterator, s) =
      .inr (.error (.raised e), t) := by
  cases hnext : iterator.next with
  | none =>
    rw [attemptRound_last hnext, hfunc]
    rfl
  | some rest => simp only [attemptRound, hnext, hfunc, hlisted, Bool.false_eq_true, if_false]

theorem attemptRound_timedOut (hnext : iterator.next = some rest)
    (hfunc : runtime.func s = (.error e, t)) (hlisted : exceptions e = true)
    (hclock : runtime.perfCounter t = (now, u)) (hlate : timeLimit < now) :
    attemptRound runtime sleep interval exceptions timeLimit (iterator, s) =
      .inr (.error (.raised e), u) := by
  simp only [attemptRound, hnext, hfunc, hlisted, if_true, hclock, if_pos hlate]

end Rounds

namespace RetrySpec

/-- The attempts inside the loop are all those before attempt `attempts`. -/
theorem attemptIterator_yields (ε : Type) {spec : RetrySpec} (h : ∀ n ∈ spec.attempts, 1 ≤ n) :
    ∃ iterator, (spec.attemptIterator : Except (Exn ε) AttemptIterator) = .ok iterator ∧
      ∀ i : ℕ, iterator.Yields i ↔ ∀ n ∈ spec.attempts, (i : ℤ) + 1 < n := by
  unfold attemptIterator
  cases hattempts : spec.attempts with
  | none => exact ⟨.count, rfl, fun i => by simp [AttemptIterator.Yields]⟩
  | some n =>
    have hn : 1 ≤ n := h n hattempts
    refine ⟨.range (n - 1).toNat, if_neg (by omega), ?_⟩
    intro i
    simp only [AttemptIterator.Yields, Option.mem_some_iff, forall_eq']
    omega

/-- Too few attempts are refused when the retry is called, before the first of them. -/
theorem attemptIterator_error (ε : Type) {spec : RetrySpec} (h : ¬∀ n ∈ spec.attempts, 1 ≤ n) :
    (spec.attemptIterator : Except (Exn ε) AttemptIterator) =
      .error (.value "Attempts must be greater than zero.") := by
  unfold attemptIterator
  cases hattempts : spec.attempts with
  | none => simp [hattempts] at h
  | some n =>
    simp only [hattempts, Option.mem_some_iff, forall_eq'] at h
    exact if_pos (by omega)

variable {sleep : ℚ → Act σ (Exn ε) Unit} {spec : RetrySpec} {runtime : Runtime σ ε α}
  {exceptions : ε → Bool} {iterator : AttemptIterator} {limit : WithTop ℚ} {s : σ}
  {worlds : ℕ → σ} {k : ℕ}

/-- The worlds before the first `k + 1` attempts, when the loop goes on after each of
the first `k`. -/
structure Following (sleep : ℚ → Act σ (Exn ε) Unit) (spec : RetrySpec)
    (runtime : Runtime σ ε α) (exceptions : ε → Bool) (iterator : AttemptIterator)
    (limit : WithTop ℚ) (s : σ) (worlds : ℕ → σ) (k : ℕ) : Prop where
  accepted : spec.attemptIterator = (.ok iterator : Except (Exn ε) AttemptIterator)
  started : spec.timeLimit runtime s = (limit, worlds 0)
  again : ∀ i < k, attemptRound runtime sleep spec.interval exceptions limit
    (iterator.drop i, worlds i) = .inl (iterator.drop (i + 1), worlds (i + 1))

theorem retryWith_eq_run (haccepted : spec.attemptIterator = (.ok iterator : Except (Exn ε) _))
    {t : σ} (hlimit : spec.timeLimit runtime s = (limit, t)) (rounds : ℕ) :
    retryWith sleep spec runtime exceptions rounds s =
      run (attemptRound runtime sleep spec.interval exceptions limit) rounds (iterator, t) := by
  simp only [retryWith, haccepted, hlimit]

theorem retryWith_following
    (h : Following sleep spec runtime exceptions iterator limit s worlds k) {rounds : ℕ}
    (hrounds : rounds ≤ k) :
    retryWith sleep spec runtime exceptions rounds s =
      .inl (iterator.drop rounds, worlds rounds) := by
  have hrun := run_following (fun i => (iterator.drop i, worlds i)) h.again hrounds
  rw [AttemptIterator.drop_zero] at hrun
  rw [retryWith_eq_run h.accepted h.started, hrun]

theorem retryWith_stopped
    (h : Following sleep spec runtime exceptions iterator limit s worlds k)
    {result : Except (Exn ε) α × σ}
    (hstop : attemptRound runtime sleep spec.interval exceptions limit
      (iterator.drop k, worlds k) = .inr result)
    {rounds : ℕ} (hrounds : k < rounds) :
    retryWith sleep spec runtime exceptions rounds s = .inr result := by
  have hrun := run_stopped (fun i => (iterator.drop i, worlds i)) h.again hstop hrounds
  rw [AttemptIterator.drop_zero] at hrun
  rw [retryWith_eq_run h.accepted h.started, hrun]

end RetrySpec

end Yellowbox.Retry
