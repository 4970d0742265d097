import Mathlib.Order.Bounds.Basic
import Yellowbox.Retry.RetrySpec

/-!
What a retry returns, over every sequence of attempt outcomes and clock readings.
The last attempt is the least one after which the loop does not go on; it decides
the outcome, and each attempt before it is followed by one pause.
-/
namespace Yellowbox.Retry

open Iteration

/-- The outcome of each attempt, counted from 1, and the clock readings: reading 0
starts a timeout, and reading `k` follows failing attempt `k`. Then the longest pauses. -/
structure Script (ε α : Type) where
  outcome : ℕ → Except ε α
  clock : ℕ → ℚ
  longestSleep : WithTop ℚ
  longestDelay : WithTop ℚ

/-- How far a script has been played, and the pauses made so far. -/
structure Played where
  calls : ℕ := 0
  reads : ℕ := 0
  pauses : List ℚ := []

variable {ε α : Type}

def Script.runtime (script : Script ε α) : Runtime Played ε α where
  func s := (script.outcome (s.calls + 1), { s with calls := s.calls + 1 })
  perfCounter s := (script.clock s.reads, { s with reads := s.reads + 1 })
  pause secs s := { s with pauses := s.pauses ++ [secs] }
  longestSleep := script.longestSleep
  longestDelay := script.longestDelay

/-- No attempt is made after attempt `k`. -/
def Final (spec : RetrySpec) (exceptions : ε → Bool) (script : Script ε α) (k : ℕ) : Prop :=
  (∃ value, script.outcome k = .ok value) ∨
  (∃ e, script.outcome k = .error e ∧ exceptions e = false) ∨
  spec.attempts = some (k : ℤ) ∨
  ∃ timeout, spec.timeout = some timeout ∧ script.clock 0 + timeout < script.clock k

/-- A retry calls the function `k` times, pauses `k - 1` times and gives the outcome
of the last call, as soon as it has been followed for `k` rounds. -/
def GivesOutcome {ρ : Type} (retry : ℕ → Played → ρ ⊕ (Except (Exn ε) α × Played))
    (script : Script ε α) (k : ℕ) : Prop :=
  ∃ last : Played, last.calls = k ∧ last.pauses.length = k - 1 ∧
    ∀ rounds ≥ k, retry rounds {} = .inr ((script.outcome k).mapError .raised, last)

section Play

variable {spec : RetrySpec} {exceptions : ε → Bool} {script : Script ε α} {k : ℕ}

/-- A failure that is not final is listed, comes in time, and leaves attempts to make. -/
theorem not_final_iff : ¬Final spec exceptions script k ↔
    (∃ e, script.outcome k = .error e ∧ exceptions e = true) ∧
    spec.attempts ≠ some (k : ℤ) ∧
    ∀ timeout ∈ spec.timeout, ¬script.clock 0 + timeout < script.clock k := by
  unfold Final
  cases houtcome : script.outcome k with
  | ok value => simp
  | error e => simp

/-- The world after `i` failures that the loop goes on from. -/
def Played.after (timed : Bool) (pause : ℚ) (i : ℕ) : Played where
  calls := i
  reads := i + timed.toNat
  pauses := List.replicate i pause

/-- The clock is read once before the loop when there is a timeout. -/
theorem timeLimit_played (script : Script ε α) (htimeout : ∀ t ∈ spec.timeout, 0 < t)
    (pause : ℚ) :
    ∃ limit, spec.timeLimit script.runtime {} =
        (limit, Played.after spec.timeout.isSome pause 0) ∧
      ∀ now : ℚ, ¬limit < (now : WithTop ℚ) ↔
        ∀ t ∈ spec.timeout, ¬script.clock 0 + t < (now : WithTop ℚ) := by
  unfold RetrySpec.timeLimit
  cases hspec : spec.timeout with
  | none => exact ⟨⊤, rfl, fun now => by simp⟩
  | some t =>
    have ht : t ≠ 0 := ne_of_gt (htimeout t hspec)
    refine ⟨script.clock 0 + t, ?_, fun now => by simp⟩
    simp only [if_neg ht]
    rfl

/-- Before a final attempt the iterator still yields. -/
theorem yields_of_not_final {iterator : AttemptIterator}
    (hyields : ∀ i : ℕ, iterator.Yields i ↔ ∀ n ∈ spec.attempts, (i : ℤ) + 1 < n)
    (hattempts : ∀ n ∈ spec.attempts, 1 ≤ n)
    (hbefore : ∀ j, 1 ≤ j → j < k → ¬Final spec exceptions script j) {i : ℕ}
    (hi : i + 1 < k) : iterator.Yields i := by
  apply (hyields i).mpr
  intro n hn
  have hpos : 1 ≤ n := hattempts n hn
  by_contra hle
  have hcast : ((n.toNat : ℕ) : ℤ) = n := Int.toNat_of_nonneg (by omega)
  apply hbefore n.toNat (by omega) (by omega)
  exact Or.inr (Or.inr (Or.inl (hcast.symm ▸ hn)))

variable {sleep : ℚ → Effects.Act Played (Exn ε) Unit} {pause : ℚ} {iterator : AttemptIterator}
  {limit : WithTop ℚ}

theorem played_again {i : ℕ} (hyields : iterator.Yields i)
    (hlimit : ∀ now : ℚ, ¬limit < (now : WithTop ℚ) ↔
      ∀ t ∈ spec.timeout, ¬script.clock 0 + t < (now : WithTop ℚ))
    (hsleep : ∀ s, sleep spec.interval s = (.ok (), script.runtime.pause pause s))
    (hgo : ¬Final spec exceptions script (i + 1)) :
    attemptRound script.runtime sleep spec.interval exceptions limit
      (iterator.drop i, Played.after spec.timeout.isSome pause i) =
      .inl (iterator.drop (i + 1), Played.after spec.timeout.isSome pause (i + 1)) := by
  obtain ⟨⟨e, hfail, hlisted⟩, -, htimely⟩ := not_final_iff.mp hgo
  have hintime : ¬limit < (script.clock (i + spec.timeout.isSome.toNat) : WithTop ℚ) := by
    apply (hlimit _).mpr
    intro t ht
    have hread : i + spec.timeout.isSome.toNat = i + 1 := by
      rw [show spec.timeout = some t from ht]
      rfl
    rw [hread]
    exact htimely t ht
  have hslept := hsleep
    { calls := i + 1, reads := i + spec.timeout.isSome.toNat + 1, pauses := .replicate i pause }
  rw [attemptRound_again (AttemptIterator.next_drop_of_yields hyields)
    (t := { Played.after spec.timeout.isSome pause i with calls := i + 1 }) (by
      simp only [Script.runtime, Played.after, hfail]) hlisted rfl hintime hslept]
  simp only [Script.runtime, Played.after, ← List.replicate_succ', Nat.add_right_comm]

/-- The final attempt ends the loop with its own outcome. -/
theorem played_final (sleep : ℚ → Effects.Act Played (Exn ε) Unit) (pause : ℚ) {i : ℕ}
    (hyields : iterator.Yields i → spec.attempts ≠ some ((i + 1 : ℕ) : ℤ))
    (hlimit : ∀ now : ℚ, ¬limit < (now : WithTop ℚ) ↔
      ∀ t ∈ spec.timeout, ¬script.clock 0 + t < (now : WithTop ℚ))
    (hfinal : Final spec exceptions script (i + 1)) :
    ∃ last : Played, last.calls = i + 1 ∧ last.pauses.length = i ∧
      attemptRound script.runtime sleep spec.interval exceptions limit
        (iterator.drop i, Played.after spec.timeout.isSome pause i) =
        .inr ((script.outcome (i + 1)).mapError .raised, last) := by
  let called : Played := { Played.after spec.timeout.isSome pause i with calls := i + 1 }
  have hlength : called.pauses.length = i := List.length_replicate
  have hfunc : script.runtime.func (Played.after spec.timeout.isSome pause i) =
    (script.outcome (i + 1), called) := rfl
  by_cases hlast : iterator.Yields i
  · have hnext := AttemptIterator.next_drop_of_yields hlast
    rcases houtcome : script.outcome (i + 1) with e | value
    · rw [houtcome] at hfunc
      cases hlisted : exceptions e with
      | false => exact ⟨called, rfl, hlength, attemptRound_unlisted hfunc hlisted⟩
      | true =>
        -- a listed failure inside the loop is final only when it comes late
        have hlate : limit < (script.clock (i + spec.timeout.isSome.toNat) : WithTop ℚ) := by
          rcases hfinal with ⟨value, hvalue⟩ | ⟨e', he', hunlisted⟩ | hcount | ⟨t, ht, hover⟩
          · rw [houtcome] at hvalue
            cases hvalue
          · rw [houtcome] at he'
            cases he'
            rw [hlisted] at hunlisted
            cases hunlisted
          · exact absurd hcount (hyields hlast)
          · by_contra hintime
            refine (hlimit _).mp hintime t ht ?_
            rw [ht]
            exact hover
        exact ⟨{ called with reads := called.reads + 1 }, rfl, hlength,
          attemptRound_timedOut hnext hfunc hlisted rfl hlate⟩
    · rw [houtcome] at hfunc
      exact ⟨called, rfl, hlength, attemptRound_value hfunc⟩
  · refine ⟨called, rfl, hlength, ?_⟩
    rw [attemptRound_last (AttemptIterator.next_drop_of_not_yields hlast), hfunc]

theorem retryWith_givesOutcome (pause : ℚ) (hattempts : ∀ n ∈ spec.attempts, 1 ≤ n)
    (htimeout : ∀ t ∈ spec.timeout, 0 < t)
    (hleast : IsLeast {j | 1 ≤ j ∧ Final spec exceptions script j} k)
    (hsleep : 1 < k → ∀ s, sleep spec.interval s = (.ok (), script.runtime.pause pause s)) :
    GivesOutcome (spec.retryWith sleep script.runtime exceptions) script k := by
  obtain ⟨⟨hpos, hfinal⟩, hmin⟩ := hleast
  obtain ⟨i, rfl⟩ : ∃ i, k = i + 1 := ⟨k - 1, by omega⟩
  have hbefore : ∀ j, 1 ≤ j → j < i + 1 → ¬Final spec exceptions script j := by
    intro j hj hlt hfin
    exact absurd (hmin ⟨hj, hfin⟩) (by omega)
  obtain ⟨iterator, haccepted, hyields⟩ := RetrySpec.attemptIterator_yields ε hattempts
  obtain ⟨limit, hstarted, hlimit⟩ := timeLimit_played script htimeout pause
  have hfollow : RetrySpec.Following sleep spec script.runtime exceptions iterator limit {}
      (Played.after spec.timeout.isSome pause) i := by
    refine ⟨haccepted, hstarted, ?_⟩
    intro j hj
    exact played_again (yields_of_not_final hyields hattempts hbefore (by omega)) hlimit
      (hsleep (by omega)) (hbefore (j + 1) (by omega) (by omega))
  have hcount : iterator.Yields i → spec.attempts ≠ some ((i + 1 : ℕ) : ℤ) := by
    intro hyield heq
    have hlt := (hyields i).mp hyield _ heq
    push_cast at hlt
    omega
  obtain ⟨last, hcalls, hpauses, hstop⟩ := played_final sleep pause hcount hlimit hfinal
  exact ⟨last, hcalls, hpauses, fun rounds hrounds =>
    RetrySpec.retryWith_stopped hfollow hstop (by omega)⟩

end Play

/-- `retry` and `aretry` give the outcome of the least final attempt. Only an interval that
the pause refuses keeps them from it: a negative one for `time.sleep`, and one that is too
long for the platform. -/
theorem retry_gives_least_final {spec : RetrySpec} (hattempts : ∀ n ∈ spec.attempts, 1 ≤ n)
    (htimeout : ∀ t ∈ spec.timeout, 0 < t) (exceptions : ε → Bool) (script : Script ε α)
    {k : ℕ} (hleast : IsLeast {j | 1 ≤ j ∧ Final spec exceptions script j} k) :
    (0 ≤ spec.interval ∧ (spec.interval : WithTop ℚ) ≤ script.longestSleep ∨ k = 1 →
      GivesOutcome (spec.retry script.runtime exceptions) script k) ∧
    ((spec.interval : WithTop ℚ) ≤ script.longestDelay ∨ k = 1 →
      GivesOutcome (spec.aretry script.runtime exceptions) script k) := by
  constructor
  · intro hinterval
    apply retryWith_givesOutcome spec.interval hattempts htimeout hleast
    intro hlt s
    obtain ⟨hnonneg, hlongest⟩ := hinterval.resolve_right (by omega)
    exact Runtime.sleep_of_le script.runtime hnonneg hlongest s
  · intro hinterval
    apply retryWith_givesOutcome (max spec.interval 0) hattempts htimeout hleast
    intro hlt s
    have hlongest := hinterval.resolve_right (by omega)
    exact Runtime.asyncioSleep_of_le script.runtime hlongest s

/-- Two attempts, of which the first fails in time. -/
def secondSucceeds : Script Unit ℕ where
  outcome k := if k = 1 then .error () else .ok k
  clock k := k
  longestSleep := ((9223372036 : ℚ) : WithTop ℚ)
  longestDelay := ⊤

def twoAttempts (interval : ℚ) (timeout : Option (WithTop ℚ)) : RetrySpec where
  interval := interval
  attempts := some 2
  timeout := timeout
  limited := Or.inl (Option.some_ne_none 2)

theorem secondSucceeds_least (interval : ℚ) {timeout : Option (WithTop ℚ)}
    (htimeout : ∀ t ∈ timeout, ¬t < 1) :
    IsLeast {j | 1 ≤ j ∧ Final (twoAttempts interval timeout) (fun _ => true)
      secondSucceeds j} 2 := by
  refine ⟨⟨by omega, Or.inl ⟨2, rfl⟩⟩, ?_⟩
  rintro j ⟨hj, hfinal⟩
  by_contra hlt
  obtain rfl : j = 1 := by omega
  refine not_final_iff.mpr ⟨⟨(), rfl, rfl⟩, by simp [twoAttempts], ?_⟩ hfinal
  intro t ht
  simpa [secondSucceeds] using htimeout t ht

theorem retry_gives_second_attempt :
    GivesOutcome ((twoAttempts 2 (some 5)).retry secondSucceeds.runtime (fun _ => true))
      secondSucceeds 2 :=
  (retry_gives_least_final (by simp [twoAttempts]) (by simp [twoAttempts]) (fun _ => true)
    secondSucceeds (secondSucceeds_least 2 (by simp))).1
    (Or.inl ⟨by simp [twoAttempts], WithTop.coe_le_coe.mpr (by decide)⟩)

/-- With a negative interval `retry` raises the `ValueError` of its first pause, and with one
of some centuries an `OverflowError`. -/
theorem retry_negative_interval :
    (∃ last, (twoAttempts (-1) none).retry secondSucceeds.runtime (fun _ => true) 2 {} =
      .inr (.error (.value "sleep length must be non-negative"), last)) ∧
    (∃ last, (twoAttempts 10000000000 none).retry secondSucceeds.runtime (fun _ => true) 2 {} =
      .inr (.error .overflow, last)) ∧
    ¬∀ spec : RetrySpec, (∀ n ∈ spec.attempts, 1 ≤ n) →
    (∀ t ∈ spec.timeout, 0 < t) → ∀ (exceptions : Unit → Bool) (script : Script Unit ℕ) (k : ℕ),
      IsLeast {j | 1 ≤ j ∧ Final spec exceptions script j} k →
      GivesOutcome (spec.retry script.runtime exceptions) script k ∧
        GivesOutcome (spec.aretry script.runtime exceptions) script k := by
  refine ⟨⟨_, rfl⟩, ⟨_, rfl⟩, ?_⟩
  intro h
  obtain ⟨⟨last, -, -, hrun⟩, -⟩ := h (twoAttempts (-1) none) (by simp [twoAttempts])
    (by simp [twoAttempts]) (fun _ => true) secondSucceeds 2
    (secondSucceeds_least (-1) (by simp))
  have hvalue := hrun 2 (Nat.le_refl 2)
  cases hvalue

end Yellowbox.Retry
