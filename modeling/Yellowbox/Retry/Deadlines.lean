import Mathlib.Algebra.Order.Archimedean.Basic
import Mathlib.Data.NNRat.Defs
import Mathlib.Data.Rat.Floor
import Yellowbox.Retry.RetrySpec

/-!
Retries in time. Attempts and pauses take time, and the limit is only looked at
when an attempt has failed: the pause that follows may end past the limit, and a
timeout of zero is no limit at all.
-/
namespace Yellowbox.Retry

open Iteration

/-- What each attempt, counted from 0, gives and how long it takes; pause `i`, counted
from 1, lasts `oversleep i` longer than asked. Then the longest pauses. -/
structure Schedule (ε α : Type) where
  outcome : ℕ → Except ε α
  duration : ℕ → NNRat
  oversleep : ℕ → NNRat
  longestSleep : WithTop ℚ
  longestDelay : WithTop ℚ

/-- The clock, and the times at which attempts started. -/
structure Clock where
  now : ℚ
  starts : List ℚ := []

variable {ε α : Type}

namespace Schedule

def runtime (schedule : Schedule ε α) : Runtime Clock ε α where
  func s := (schedule.outcome s.starts.length,
    { now := s.now + schedule.duration s.starts.length, starts := s.starts ++ [s.now] })
  perfCounter s := (s.now, s)
  pause secs s := { s with now := s.now + secs + schedule.oversleep s.starts.length }
  longestSleep := schedule.longestSleep
  longestDelay := schedule.longestDelay

/-- When attempt `i` starts, after the call began, if it is made. -/
def startAfter (schedule : Schedule ε α) (interval : ℚ) : ℕ → ℚ
  | 0 => 0
  | i + 1 => startAfter schedule interval i + schedule.duration i + max interval 0 +
      schedule.oversleep (i + 1)

def finishAfter (schedule : Schedule ε α) (interval : ℚ) (i : ℕ) : ℚ :=
  schedule.startAfter interval i + schedule.duration i

/-- The world before attempt `i` of a call that began at `began`. -/
def clockAt (schedule : Schedule ε α) (interval began : ℚ) (i : ℕ) : Clock where
  now := began + schedule.startAfter interval i
  starts := (List.range i).map fun j => began + schedule.startAfter interval j

/-- The world at the end of attempt `i`. -/
def clockAfter (schedule : Schedule ε α) (interval began : ℚ) (i : ℕ) : Clock where
  now := began + schedule.finishAfter interval i
  starts := (schedule.clockAt interval began (i + 1)).starts

variable (schedule : Schedule ε α) (interval began : ℚ)

theorem startAfter_succ (i : ℕ) : schedule.startAfter interval (i + 1) =
    schedule.finishAfter interval i + max interval 0 + schedule.oversleep (i + 1) := rfl

theorem startAfter_le_finishAfter (i : ℕ) :
    schedule.startAfter interval i ≤ schedule.finishAfter interval i :=
  le_add_of_nonneg_right (NNRat.coe_nonneg _)

/-- A pause lasts at least as long as it was asked to. -/
theorem finishAfter_add_le_startAfter (i : ℕ) :
    schedule.finishAfter interval i + max interval 0 ≤ schedule.startAfter interval (i + 1) :=
  le_add_of_nonneg_right (NNRat.coe_nonneg _)

theorem finishAfter_mono : Monotone (schedule.finishAfter interval) := by
  apply monotone_nat_of_le_succ
  intro i
  calc schedule.finishAfter interval i
    _ ≤ schedule.finishAfter interval i + max interval 0 :=
        le_add_of_nonneg_right (le_max_right _ _)
    _ ≤ schedule.startAfter interval (i + 1) := schedule.finishAfter_add_le_startAfter interval i
    _ ≤ schedule.finishAfter interval (i + 1) := schedule.startAfter_le_finishAfter interval _

/-- Pauses alone make the time of the attempts grow without bound. -/
theorem mul_interval_le_finishAfter (i : ℕ) :
    i * interval ≤ schedule.finishAfter interval i := by
  induction i with
  | zero => simp [finishAfter, startAfter]
  | succ i ih =>
    calc ((i + 1 : ℕ) : ℚ) * interval
      _ = i * interval + interval := by
        push_cast
        ring
      _ ≤ schedule.finishAfter interval i + max interval 0 :=
        add_le_add ih (le_max_left _ _)
      _ ≤ schedule.startAfter interval (i + 1) :=
        schedule.finishAfter_add_le_startAfter interval i
      _ ≤ schedule.finishAfter interval (i + 1) := schedule.startAfter_le_finishAfter interval _

theorem length_starts_clockAt (i : ℕ) :
    (schedule.clockAt interval began i).starts.length = i := by
  simp [clockAt]

theorem starts_clockAt_succ (i : ℕ) : (schedule.clockAt interval began (i + 1)).starts =
    (schedule.clockAt interval began i).starts ++ [began + schedule.startAfter interval i] := by
  simp [clockAt, List.range_succ]

theorem func_clockAt (i : ℕ) : schedule.runtime.func (schedule.clockAt interval began i) =
    (schedule.outcome i, schedule.clockAfter interval began i) := by
  simp only [runtime, clockAfter, length_starts_clockAt, starts_clockAt_succ]
  simp only [clockAt, finishAfter, add_assoc]

end Schedule

/-- The world a retry has got to, whether or not it has ended. -/
def reached {ι ρ : Type} : (ι × Clock) ⊕ (ρ × Clock) → Clock :=
  Sum.elim Prod.snd Prod.snd

/-- A pause of `interval` lasts as long as asked. -/
def Granted (sleep : ℚ → Effects.Act Clock (Exn ε) Unit) (runtime : Runtime Clock ε α)
    (interval : ℚ) : Prop :=
  ∀ s, sleep interval s = (.ok (), runtime.pause (max interval 0) s)

def Refused (sleep : ℚ → Effects.Act Clock (Exn ε) Unit) (interval : ℚ) : Prop :=
  ∃ e, ∀ s, sleep interval s = (.error e, s)

/-- A pause is granted up to the longest one, and refused beyond it or for being negative. -/
def Pauses (sleep : ℚ → Effects.Act Clock (Exn ε) Unit) (runtime : Runtime Clock ε α)
    (longest : WithTop ℚ) (interval : ℚ) : Prop :=
  Granted sleep runtime interval ∧ (interval : WithTop ℚ) ≤ longest ∨
    Refused sleep interval ∧ (interval < 0 ∨ longest < interval)

theorem sleep_pauses (runtime : Runtime Clock ε α) (interval : ℚ) :
    Pauses runtime.sleep runtime runtime.longestSleep interval := by
  by_cases h : interval < 0
  · exact Or.inr ⟨⟨_, fun s => if_pos h⟩, Or.inl h⟩
  · rcases le_or_gt (interval : WithTop ℚ) runtime.longestSleep with hle | hlt
    · refine Or.inl ⟨fun s => ?_, hle⟩
      rw [max_eq_left (not_lt.mp h)]
      exact runtime.sleep_of_le (not_lt.mp h) hle s
    · exact Or.inr ⟨⟨_, runtime.sleep_of_lt (not_lt.mp h) hlt⟩, Or.inr hlt⟩

theorem asyncioSleep_pauses (runtime : Runtime Clock ε α) (interval : ℚ) :
    Pauses runtime.asyncioSleep runtime runtime.longestDelay interval := by
  rcases le_or_gt (interval : WithTop ℚ) runtime.longestDelay with hle | hlt
  · exact Or.inl ⟨runtime.asyncioSleep_of_le hle, hle⟩
  · exact Or.inr ⟨⟨_, runtime.asyncioSleep_of_lt hlt⟩, Or.inr hlt⟩

section Timed

variable {spec : RetrySpec} {schedule : Schedule ε α} {exceptions : ε → Bool} {began : ℚ}
  {sleep : ℚ → Effects.Act Clock (Exn ε) Unit} {iterator : AttemptIterator}
  {limit : WithTop ℚ} {i k : ℕ}

/-- The limit is passed when a timeout other than 0 has gone by. -/
theorem timeLimit_clock (spec : RetrySpec) (schedule : Schedule ε α) (began : ℚ) :
    ∃ limit, spec.timeLimit schedule.runtime { now := began } =
        (limit, schedule.clockAt spec.interval began 0) ∧
      ∀ q : ℚ, limit < ((began + q : ℚ) : WithTop ℚ) ↔
        ∃ t ∈ spec.timeout, t ≠ 0 ∧ t < (q : WithTop ℚ) := by
  have hclock : ({ now := began } : Clock) = schedule.clockAt spec.interval began 0 := by
    simp [Schedule.clockAt, Schedule.startAfter]
  unfold RetrySpec.timeLimit
  rw [hclock]
  cases spec.timeout with
  | none => exact ⟨⊤, rfl, fun q => by simp⟩
  | some t =>
    by_cases ht : t = 0
    · exact ⟨⊤, if_pos ht, fun q => by simp [ht]⟩
    · refine ⟨(began : WithTop ℚ) + t, ?_, fun q => ?_⟩
      · simp only [if_neg ht, ← hclock]
        rfl
      · simp only [Option.mem_some_iff, exists_eq_left', ne_eq, ht, not_false_eq_true, true_and]
        cases t with
        | top => simp
        | coe t =>
          norm_cast
          exact add_lt_add_iff_left began

/-- The attempts after which the loop pauses: listed failures inside it and in time. -/
structure GoesOn (spec : RetrySpec) (schedule : Schedule ε α) (exceptions : ε → Bool)
    (iterator : AttemptIterator) (limit : WithTop ℚ) (began : ℚ) (i : ℕ) : Prop where
  yields : iterator.Yields i
  listed : ∃ e, schedule.outcome i = .error e ∧ exceptions e = true
  intime : ¬limit < ((began + schedule.finishAfter spec.interval i : ℚ) : WithTop ℚ)

theorem attemptRound_goesOn
    (hgo : GoesOn spec schedule exceptions iterator limit began i)
    (hsleep : Granted sleep schedule.runtime spec.interval) :
    attemptRound schedule.runtime sleep spec.interval exceptions limit
      (iterator.drop i, schedule.clockAt spec.interval began i) =
      .inl (iterator.drop (i + 1), schedule.clockAt spec.interval began (i + 1)) := by
  obtain ⟨hyields, ⟨e, hfail, hlisted⟩, hintime⟩ := hgo
  have hfunc := schedule.func_clockAt spec.interval began i
  rw [hfail] at hfunc
  rw [attemptRound_again (AttemptIterator.next_drop_of_yields hyields) hfunc hlisted rfl
    hintime (hsleep _)]
  simp only [Schedule.runtime, Schedule.clockAfter, Schedule.length_starts_clockAt]
  simp only [Schedule.clockAt, Schedule.startAfter_succ, add_assoc]

/-- Every round makes one attempt; it goes on after a pause, or it is the last. -/
theorem attemptRound_clock
    (hpauses : Granted sleep schedule.runtime spec.interval ∨ Refused sleep spec.interval)
    (exceptions : ε → Bool) (iterator : AttemptIterator) (limit : WithTop ℚ) (began : ℚ) (i : ℕ) :
    (Granted sleep schedule.runtime spec.interval ∧
      GoesOn spec schedule exceptions iterator limit began i ∧
      attemptRound schedule.runtime sleep spec.interval exceptions limit
        (iterator.drop i, schedule.clockAt spec.interval began i) =
        .inl (iterator.drop (i + 1), schedule.clockAt spec.interval began (i + 1))) ∨
    ∃ result last, last.starts = (schedule.clockAt spec.interval began (i + 1)).starts ∧
      attemptRound schedule.runtime sleep spec.interval exceptions limit
        (iterator.drop i, schedule.clockAt spec.interval began i) = .inr (result, last) := by
  have hfunc := schedule.func_clockAt spec.interval began i
  let after := schedule.clockAfter spec.interval began i
  by_cases hyields : iterator.Yields i
  · have hnext := AttemptIterator.next_drop_of_yields hyields
    rcases houtcome : schedule.outcome i with e | value
    · rw [houtcome] at hfunc
      cases hlisted : exceptions e with
      | false => exact Or.inr ⟨_, after, rfl, attemptRound_unlisted hfunc hlisted⟩
      | true =>
        by_cases hintime :
            limit < ((began + schedule.finishAfter spec.interval i : ℚ) : WithTop ℚ)
        · exact Or.inr ⟨_, after, rfl,
            attemptRound_timedOut hnext hfunc hlisted rfl hintime⟩
        · have hgo : GoesOn spec schedule exceptions iterator limit began i :=
            ⟨hyields, ⟨e, houtcome, hlisted⟩, hintime⟩
          rcases hpauses with hsleep | ⟨e', hrefused⟩
          · exact Or.inl ⟨hsleep, hgo, attemptRound_goesOn hgo hsleep⟩
          · refine Or.inr ⟨.error e', after, rfl, ?_⟩
            simp only [attemptRound, hnext, hfunc, hlisted, if_true]
            simp only [Schedule.runtime, Schedule.clockAfter, if_neg hintime, hrefused, after]
    · rw [houtcome] at hfunc
      exact Or.inr ⟨_, after, rfl, attemptRound_value hfunc⟩
  · refine Or.inr ⟨(schedule.outcome i).mapError .raised, after, rfl, ?_⟩
    rw [attemptRound_last (AttemptIterator.next_drop_of_not_yields hyields), hfunc]

theorem retryWith_goesOn (haccepted : spec.attemptIterator = (.ok iterator : Except (Exn ε) _))
    (hlimit : spec.timeLimit schedule.runtime { now := began } =
      (limit, schedule.clockAt spec.interval began 0))
    (hsleep : Granted sleep schedule.runtime spec.interval)
    (hgo : ∀ i < k, GoesOn spec schedule exceptions iterator limit began i) :
    RetrySpec.Following sleep spec schedule.runtime exceptions iterator limit { now := began }
      (schedule.clockAt spec.interval began) k :=
  ⟨haccepted, hlimit, fun i hi => attemptRound_goesOn (hgo i hi) hsleep⟩

end Timed

/-- No attempt starts later than `t` after the call began. -/
def NoLateStart (retry : ℕ → Clock → (AttemptIterator × Clock) ⊕ (Except (Exn ε) α × Clock))
    (began : ℚ) (t : WithTop ℚ) : Prop :=
  ∀ rounds, ∀ start ∈ (reached (retry rounds { now := began })).starts,
    (start : WithTop ℚ) ≤ began + t

/-- Some attempt that is not the last one fails in time, as all before it did, and the
pause after it ends past `t`. -/
def PausesPast (spec : RetrySpec) (schedule : Schedule ε α) (exceptions : ε → Bool)
    (t : WithTop ℚ) : Prop :=
  ∃ k : ℕ, (∀ n ∈ spec.attempts, (k : ℤ) + 1 < n) ∧
    (∀ i ≤ k, ∃ e, schedule.outcome i = .error e ∧ exceptions e = true) ∧
    (schedule.finishAfter spec.interval k : WithTop ℚ) ≤ t ∧
    t < ((schedule.finishAfter spec.interval k + spec.interval : ℚ) : WithTop ℚ)

section LateStarts

variable {spec : RetrySpec} {schedule : Schedule ε α} {exceptions : ε → Bool} {began : ℚ}
  {sleep : ℚ → Effects.Act Clock (Exn ε) Unit} {iterator : AttemptIterator}
  {limit t : WithTop ℚ} {i k : ℕ}

theorem began_add_le_iff {q : ℚ} :
    ((began + q : ℚ) : WithTop ℚ) ≤ began + t ↔ (q : WithTop ℚ) ≤ t := by
  cases t with
  | top => simp
  | coe t =>
    norm_cast
    exact add_le_add_iff_left began

/-- A pause that does not end past `t` lets the next attempt start in time. -/
theorem startAfter_succ_le (hexact : ∀ i, schedule.oversleep i = 0)
    (hnot : ¬PausesPast spec schedule exceptions t)
    (hmore : ∀ n ∈ spec.attempts, (i : ℤ) + 1 < n)
    (hlisted : ∀ j ≤ i, ∃ e, schedule.outcome j = .error e ∧ exceptions e = true)
    (hintime : (schedule.finishAfter spec.interval i : WithTop ℚ) ≤ t) :
    (schedule.startAfter spec.interval (i + 1) : WithTop ℚ) ≤ t := by
  have hpause : ((schedule.finishAfter spec.interval i + spec.interval : ℚ) : WithTop ℚ) ≤ t := by
    by_contra hlate
    exact hnot ⟨i, hmore, hlisted, hintime, not_le.mp hlate⟩
  rw [Schedule.startAfter_succ, hexact, NNRat.coe_zero, add_zero]
  rcases max_choice spec.interval 0 with hmax | hmax
  · rwa [hmax]
  · rwa [hmax, add_zero]

/-- Every attempt of a run starts in time if no pause that is granted ends past `t`. -/
theorem starts_le
    (hpauses : Granted sleep schedule.runtime spec.interval ∨ Refused sleep spec.interval)
    (hexact : ∀ i, schedule.oversleep i = 0)
    (hyields : ∀ i : ℕ, iterator.Yields i ↔ ∀ n ∈ spec.attempts, (i : ℤ) + 1 < n)
    (hlimit : ∀ q : ℚ, limit < ((began + q : ℚ) : WithTop ℚ) ↔ t < (q : WithTop ℚ))
    (hnot : Granted sleep schedule.runtime spec.interval →
      ¬PausesPast spec schedule exceptions t) (rounds : ℕ)
    (hlisted : ∀ j < i, ∃ e, schedule.outcome j = .error e ∧ exceptions e = true)
    (hstart : (schedule.startAfter spec.interval i : WithTop ℚ) ≤ t)
    (hstarts : ∀ start ∈ (schedule.clockAt spec.interval began i).starts,
      (start : WithTop ℚ) ≤ began + t) :
    ∀ start ∈ (reached (run (attemptRound schedule.runtime sleep spec.interval exceptions limit)
      rounds (iterator.drop i, schedule.clockAt spec.interval began i))).starts,
      (start : WithTop ℚ) ≤ began + t := by
  have hnext : ∀ {i}, (schedule.startAfter spec.interval i : WithTop ℚ) ≤ t →
      (∀ start ∈ (schedule.clockAt spec.interval began i).starts,
        (start : WithTop ℚ) ≤ began + t) →
      ∀ start ∈ (schedule.clockAt spec.interval began (i + 1)).starts,
        (start : WithTop ℚ) ≤ began + t := by
    intro i hstart hstarts start hmem
    rw [Schedule.starts_clockAt_succ] at hmem
    rcases List.mem_append.mp hmem with hbefore | hnew
    · exact hstarts start hbefore
    · rw [List.mem_singleton.mp hnew]
      exact began_add_le_iff.mpr hstart
  induction rounds generalizing i with
  | zero => exact hstarts
  | succ rounds ih =>
    rcases attemptRound_clock hpauses exceptions iterator limit began i with
      ⟨hsleep, hgo, hround⟩ | ⟨result, last, hlast, hround⟩
    · rw [run_again hround]
      have hlisted' : ∀ j ≤ i, ∃ e, schedule.outcome j = .error e ∧ exceptions e = true := by
        intro j hj
        rcases Nat.lt_or_eq_of_le hj with hlt | rfl
        · exact hlisted j hlt
        · exact hgo.listed
      have hintime := not_lt.mp ((hlimit _).not.mp hgo.intime)
      exact ih (fun j hj => hlisted' j (Nat.le_of_lt_succ hj))
        (startAfter_succ_le hexact (hnot hsleep) ((hyields i).mp hgo.yields) hlisted' hintime)
        (hnext hstart hstarts)
    · rw [run_stop hround]
      change ∀ start ∈ last.starts, _
      rw [hlast]
      exact hnext hstart hstarts

/-- An attempt is started after every pause. -/
theorem started_of_goesOn (haccepted : spec.attemptIterator = (.ok iterator : Except (Exn ε) _))
    (hlimit : spec.timeLimit schedule.runtime { now := began } =
      (limit, schedule.clockAt spec.interval began 0))
    (hsleep : Granted sleep schedule.runtime spec.interval)
    (hgo : ∀ i < k, GoesOn spec schedule exceptions iterator limit began i) :
    began + schedule.startAfter spec.interval k ∈ (reached (spec.retryWith sleep
      schedule.runtime exceptions (k + 1) { now := began })).starts := by
  have hmem : began + schedule.startAfter spec.interval k ∈
      (schedule.clockAt spec.interval began (k + 1)).starts := by
    rw [Schedule.starts_clockAt_succ]
    exact List.mem_append_right _ (List.mem_singleton_self _)
  have hfollow := retryWith_goesOn haccepted hlimit hsleep hgo
  have hrun := RetrySpec.retryWith_following hfollow (Nat.le_refl k)
  rw [RetrySpec.retryWith_eq_run haccepted hlimit] at hrun ⊢
  rw [run_add hrun 1]
  rcases attemptRound_clock (Or.inl hsleep) exceptions iterator limit began k with
    ⟨-, -, hround⟩ | ⟨result, last, hlast, hround⟩
  · rw [run_again hround]
    exact hmem
  · rw [run_stop hround]
    change _ ∈ last.starts
    rwa [hlast]

/-- All rounds up to a failure in time that is not the last go on. -/
theorem goesOn_of_intime
    (hyields : ∀ i : ℕ, iterator.Yields i ↔ ∀ n ∈ spec.attempts, (i : ℤ) + 1 < n)
    (hlimit : ∀ q : ℚ, limit < ((began + q : ℚ) : WithTop ℚ) ↔ t < (q : WithTop ℚ))
    (hmore : ∀ n ∈ spec.attempts, (k : ℤ) + 1 < n)
    (hlisted : ∀ i ≤ k, ∃ e, schedule.outcome i = .error e ∧ exceptions e = true)
    (hintime : (schedule.finishAfter spec.interval k : WithTop ℚ) ≤ t) (hi : i ≤ k) :
    GoesOn spec schedule exceptions iterator limit began i := by
  refine ⟨(hyields i).mpr fun n hn => ?_, hlisted i hi, ?_⟩
  · have hlt := hmore n hn
    omega
  · rw [hlimit, not_lt]
    have hmono := schedule.finishAfter_mono spec.interval hi
    exact (WithTop.coe_le_coe.mpr hmono).trans hintime

/-- The attempt after a pause that ends past `t` starts late. -/
theorem late_of_pausesPast {longest : WithTop ℚ}
    (hpauses : Pauses sleep schedule.runtime longest spec.interval)
    (hlongest : (spec.interval : WithTop ℚ) ≤ longest)
    (haccepted : spec.attemptIterator = (.ok iterator : Except (Exn ε) _))
    (hclock : spec.timeLimit schedule.runtime { now := began } =
      (limit, schedule.clockAt spec.interval began 0))
    (hyields : ∀ i : ℕ, iterator.Yields i ↔ ∀ n ∈ spec.attempts, (i : ℤ) + 1 < n)
    (hlimit : ∀ q : ℚ, limit < ((began + q : ℚ) : WithTop ℚ) ↔ t < (q : WithTop ℚ))
    (h : PausesPast spec schedule exceptions t) :
    ¬NoLateStart (spec.retryWith sleep schedule.runtime exceptions) began t := by
  obtain ⟨k, hmore, hlisted, hintime, hover⟩ := h
  have hinterval : 0 < spec.interval := by
    have hlt := WithTop.coe_lt_coe.mp (lt_of_le_of_lt hintime hover)
    exact (lt_add_iff_pos_right _).mp hlt
  have hsleep : Granted sleep schedule.runtime spec.interval := by
    rcases hpauses with ⟨hsleep, -⟩ | ⟨-, hneg | hlong⟩
    · exact hsleep
    · exact absurd hneg (not_lt.mpr hinterval.le)
    · exact absurd hlong (not_lt.mpr hlongest)
  have hgo : ∀ i < k + 1, GoesOn spec schedule exceptions iterator limit began i :=
    fun i hi => goesOn_of_intime hyields hlimit hmore hlisted hintime (Nat.le_of_lt_succ hi)
  intro hstarts
  have hstarted := hstarts (k + 2) _ (started_of_goesOn haccepted hclock hsleep hgo)
  have hnext := schedule.finishAfter_add_le_startAfter spec.interval k
  rw [max_eq_left hinterval.le] at hnext
  have hle := (WithTop.coe_le_coe.mpr hnext).trans (began_add_le_iff.mp hstarted)
  exact absurd hover (not_lt.mpr hle)

theorem retryWith_noLateStart_iff {longest : WithTop ℚ}
    (hpauses : Pauses sleep schedule.runtime longest spec.interval)
    (htimeout : spec.timeout = some t) (hpos : 0 < t) (exceptions : ε → Bool)
    (hexact : ∀ i, schedule.oversleep i = 0) (began : ℚ) :
    NoLateStart (spec.retryWith sleep schedule.runtime exceptions) began t ↔
      ((spec.interval : WithTop ℚ) ≤ longest → ¬PausesPast spec schedule exceptions t) := by
  by_cases hattempts : ∀ n ∈ spec.attempts, 1 ≤ n
  · obtain ⟨iterator, haccepted, hyields⟩ := RetrySpec.attemptIterator_yields ε hattempts
    obtain ⟨limit, hclock, hlate⟩ := timeLimit_clock spec schedule began
    have hlimit : ∀ q : ℚ, limit < ((began + q : ℚ) : WithTop ℚ) ↔ t < (q : WithTop ℚ) := by
      intro q
      rw [hlate, htimeout]
      simp [hpos.ne']
    constructor
    · intro hstarts hlongest hpast
      exact late_of_pausesPast hpauses hlongest haccepted hclock hyields hlimit hpast hstarts
    · intro hnot rounds
      have hgranted : Granted sleep schedule.runtime spec.interval →
          (spec.interval : WithTop ℚ) ≤ longest := by
        rcases hpauses with ⟨-, hle⟩ | ⟨⟨e, hrefused⟩, -⟩
        · exact fun _ => hle
        · intro hsleep
          have hboth := (hsleep { now := began }).symm.trans (hrefused _)
          cases hboth
      rw [RetrySpec.retryWith_eq_run haccepted hclock, ← iterator.drop_zero]
      apply starts_le (hpauses.imp And.left And.left) hexact hyields hlimit
        fun hsleep => hnot (hgranted hsleep)
      · intro j hj
        omega
      · simpa [Schedule.startAfter] using hpos.le
      · simp [Schedule.clockAt]
  · -- the call itself is refused, so no attempt starts
    have hrefused := RetrySpec.attemptIterator_error ε hattempts
    constructor
    · rintro - - ⟨k, hmore, -⟩
      apply hattempts
      intro n hn
      have hlt := hmore n hn
      omega
    · intro _ rounds start hstart
      simp [RetrySpec.retryWith, hrefused, reached] at hstart

end LateStarts

/-- With exact pauses and a timeout, attempts start in time exactly when no pause after
a failure ends past the timeout. A pause that is longer than the platform's is refused, and
starts no attempt. -/
theorem no_late_start_iff {spec : RetrySpec} {t : WithTop ℚ} (htimeout : spec.timeout = some t)
    (hpos : 0 < t) (exceptions : ε → Bool) {schedule : Schedule ε α}
    (hexact : ∀ i, schedule.oversleep i = 0) (began : ℚ) :
    (NoLateStart (spec.retry schedule.runtime exceptions) began t ↔
      ((spec.interval : WithTop ℚ) ≤ schedule.longestSleep →
        ¬PausesPast spec schedule exceptions t)) ∧
    (NoLateStart (spec.aretry schedule.runtime exceptions) began t ↔
      ((spec.interval : WithTop ℚ) ≤ schedule.longestDelay →
        ¬PausesPast spec schedule exceptions t)) :=
  ⟨retryWith_noLateStart_iff (sleep_pauses schedule.runtime spec.interval) htimeout hpos
      exceptions hexact began,
    retryWith_noLateStart_iff (asyncioSleep_pauses schedule.runtime spec.interval) htimeout hpos
      exceptions hexact began⟩

/-- A timeout of one second under the default interval, and attempts that fail at once. -/
def oneSecond : RetrySpec where
  timeout := some ((1 : ℚ) : WithTop ℚ)
  limited := Or.inr (Option.some_ne_none _)

def failsAtOnce : Schedule Unit Unit where
  outcome _ := .error ()
  duration _ := 0
  oversleep _ := 0
  longestSleep := ((9223372036 : ℚ) : WithTop ℚ)
  longestDelay := ⊤

theorem oneSecond_longestSleep :
    (oneSecond.interval : WithTop ℚ) ≤ failsAtOnce.longestSleep :=
  WithTop.coe_le_coe.mpr (by norm_num [oneSecond])

theorem oneSecond_pausesPast :
    PausesPast oneSecond failsAtOnce (fun _ => true) ((1 : ℚ) : WithTop ℚ) := by
  have hfinish : failsAtOnce.finishAfter oneSecond.interval 0 = 0 := by
    simp [Schedule.finishAfter, Schedule.startAfter, failsAtOnce]
  refine ⟨0, by simp [oneSecond], fun _ _ => ⟨(), rfl, rfl⟩, ?_, ?_⟩
  · rw [hfinish, WithTop.coe_le_coe]
    norm_num
  · rw [hfinish, WithTop.coe_lt_coe]
    norm_num [oneSecond]

theorem aretry_oneSecond_late :
    ¬NoLateStart (oneSecond.aretry failsAtOnce.runtime (fun _ => true)) 0
      ((1 : ℚ) : WithTop ℚ) :=
  fun hstarts => (no_late_start_iff rfl (WithTop.coe_lt_coe.mpr one_pos) (fun _ => true)
    (fun _ => rfl) 0).2.mp hstarts le_top oneSecond_pausesPast

/-- The second attempt starts after two seconds, one second late. -/
theorem retry_starts_late : ¬∀ (spec : RetrySpec) (t : WithTop ℚ), spec.timeout = some t →
    0 < t → ∀ (exceptions : Unit → Bool) (schedule : Schedule Unit Unit),
      (∀ i, schedule.oversleep i = 0) → (spec.interval : WithTop ℚ) ≤ schedule.longestSleep →
      (spec.interval : WithTop ℚ) ≤ schedule.longestDelay → ∀ began : ℚ,
        NoLateStart (spec.retry schedule.runtime exceptions) began t ∧
          NoLateStart (spec.aretry schedule.runtime exceptions) began t := by
  intro h
  obtain ⟨hintime, -⟩ := h oneSecond _ rfl (WithTop.coe_lt_coe.mpr one_pos) (fun _ => true)
    failsAtOnce (fun _ => rfl) oneSecond_longestSleep le_top 0
  exact (retryWith_noLateStart_iff (sleep_pauses failsAtOnce.runtime oneSecond.interval) rfl
    (WithTop.coe_lt_coe.mpr one_pos) (fun _ => true) (fun _ => rfl) 0).mp hintime
    oneSecond_longestSleep oneSecond_pausesPast

/-- The retry ends after finitely many calls by raising the exception of the last one. -/
def GivesUp (retry : ℕ → Clock → (AttemptIterator × Clock) ⊕ (Except (Exn ε) α × Clock))
    (failure : ℕ → ε) (began : ℚ) : Prop :=
  ∃ k last, last.starts.length = k + 1 ∧
    ∃ enough, ∀ rounds ≥ enough,
      retry rounds { now := began } = .inr (.error (.raised (failure k)), last)

/-- The limit that a retry without attempts gives up at: neither 0, which the code takes
for no timeout, nor infinite. -/
def HasLimit (spec : RetrySpec) : Prop :=
  spec.attempts = none → ∀ t ∈ spec.timeout, t ≠ 0 ∧ t ≠ ⊤

/-- The first attempt is not followed by a pause: it is the only one, or it ends after the
timeout. -/
def EndsAtOnce (spec : RetrySpec) (schedule : Schedule ε α) : Prop :=
  spec.attempts = some 1 ∨
    ∃ t ∈ spec.timeout, t ≠ 0 ∧ t < (((schedule.duration 0 : NNRat) : ℚ) : WithTop ℚ)

section GivingUp

variable {spec : RetrySpec} {schedule : Schedule ε α} {exceptions : ε → Bool} {began : ℚ}
  {sleep : ℚ → Effects.Act Clock (Exn ε) Unit} {iterator : AttemptIterator}
  {limit : WithTop ℚ} {failure : ℕ → ε} {i : ℕ}

/-- A failure that the loop does not go on from is raised. -/
theorem attemptRound_failure (hfail : ∀ i, schedule.outcome i = .error (failure i))
    (hlisted : ∀ i, exceptions (failure i) = true)
    (hstop : ¬GoesOn spec schedule exceptions iterator limit began i) :
    attemptRound schedule.runtime sleep spec.interval exceptions limit
      (iterator.drop i, schedule.clockAt spec.interval began i) =
      .inr (.error (.raised (failure i)), schedule.clockAfter spec.interval began i) := by
  have hfunc := schedule.func_clockAt spec.interval began i
  rw [hfail i] at hfunc
  by_cases hyields : iterator.Yields i
  · have hlate : limit < ((began + schedule.finishAfter spec.interval i : ℚ) : WithTop ℚ) := by
      by_contra hintime
      exact hstop ⟨hyields, ⟨failure i, hfail i, hlisted i⟩, hintime⟩
    exact attemptRound_timedOut (AttemptIterator.next_drop_of_yields hyields) hfunc (hlisted i)
      rfl hlate
  · rw [attemptRound_last (AttemptIterator.next_drop_of_not_yields hyields), hfunc]
    rfl

/-- A limit is reached: the attempts run out, or the pauses add up to the timeout. -/
theorem exists_not_goesOn (schedule : Schedule ε α) (exceptions : ε → Bool)
    (hinterval : 0 < spec.interval) (hlimited : HasLimit spec)
    (hyields : ∀ i : ℕ, iterator.Yields i ↔ ∀ n ∈ spec.attempts, (i : ℤ) + 1 < n)
    (hlate : ∀ q : ℚ, limit < ((began + q : ℚ) : WithTop ℚ) ↔
      ∃ t ∈ spec.timeout, t ≠ 0 ∧ t < (q : WithTop ℚ)) :
    ∃ k, ¬GoesOn spec schedule exceptions iterator limit began k := by
  cases hattempts : spec.attempts with
  | some n =>
    refine ⟨n.toNat, fun hgo => ?_⟩
    have hlt := (hyields n.toNat).mp hgo.yields n hattempts
    have hle := Int.self_le_toNat n
    omega
  | none =>
    obtain ⟨t, ht⟩ : ∃ t, spec.timeout = some t := by
      rcases spec.limited with hsome | hsome
      · exact absurd hattempts hsome
      · exact Option.ne_none_iff_exists'.mp hsome
    obtain ⟨hzero, htop⟩ := hlimited hattempts t ht
    obtain ⟨q, rfl⟩ := WithTop.ne_top_iff_exists.mp htop
    obtain ⟨k, hk⟩ := exists_nat_gt (q / spec.interval)
    refine ⟨k, fun hgo => hgo.intime ((hlate _).mpr ⟨q, ht, hzero, WithTop.coe_lt_coe.mpr ?_⟩)⟩
    calc q < k * spec.interval := (div_lt_iff₀ hinterval).mp hk
      _ ≤ schedule.finishAfter spec.interval k := schedule.mul_interval_le_finishAfter _ k

theorem retryWith_givesUp_iff (hinterval : 0 < spec.interval)
    (hsleep : Granted sleep schedule.runtime spec.interval)
    (hattempts : ∀ n ∈ spec.attempts, 1 ≤ n)
    (hfail : ∀ i, schedule.outcome i = .error (failure i))
    (hlisted : ∀ i, exceptions (failure i) = true) (began : ℚ) :
    GivesUp (spec.retryWith sleep schedule.runtime exceptions) failure began ↔
      HasLimit spec := by
  obtain ⟨iterator, haccepted, hyields⟩ := RetrySpec.attemptIterator_yields ε hattempts
  obtain ⟨limit, hlimit, hlate⟩ := timeLimit_clock spec schedule began
  constructor
  · rintro ⟨k, last, -, enough, hends⟩ hnone t ht
    by_contra hbad
    -- every failure is inside the loop and in time, so every round asks for another
    have hgo : ∀ i < enough, GoesOn spec schedule exceptions iterator limit began i := by
      intro i _
      refine ⟨(hyields i).mpr (by simp [hnone]), ⟨_, hfail i, hlisted i⟩, ?_⟩
      rw [hlate]
      rintro ⟨t', ht', hzero, hover⟩
      obtain rfl : t = t' := Option.some.inj (ht.symm.trans ht')
      exact hbad ⟨hzero, ne_top_of_lt hover⟩
    have hrun := RetrySpec.retryWith_following
      (retryWith_goesOn haccepted hlimit hsleep hgo) (Nat.le_refl enough)
    rw [hends enough (Nat.le_refl enough)] at hrun
    cases hrun
  · intro hlimited
    classical
    have hex := exists_not_goesOn schedule exceptions hinterval hlimited hyields hlate
    have hgo : ∀ i < Nat.find hex, GoesOn spec schedule exceptions iterator limit began i :=
      fun i hi => not_not.mp (Nat.find_min hex hi)
    refine ⟨Nat.find hex, schedule.clockAfter spec.interval began (Nat.find hex),
      schedule.length_starts_clockAt _ _ _, Nat.find hex + 1, fun rounds hrounds => ?_⟩
    exact RetrySpec.retryWith_stopped (retryWith_goesOn haccepted hlimit hsleep hgo)
      (attemptRound_failure hfail hlisted (Nat.find_spec hex)) hrounds

/-- The first attempt is followed by a pause unless it is the only one or ends late. -/
theorem not_goesOn_zero_iff (hattempts : ∀ n ∈ spec.attempts, 1 ≤ n)
    (hfail : ∀ i, schedule.outcome i = .error (failure i))
    (hlisted : ∀ i, exceptions (failure i) = true)
    (hyields : ∀ i : ℕ, iterator.Yields i ↔ ∀ n ∈ spec.attempts, (i : ℤ) + 1 < n)
    (hlate : ∀ q : ℚ, limit < ((began + q : ℚ) : WithTop ℚ) ↔
      ∃ t ∈ spec.timeout, t ≠ 0 ∧ t < (q : WithTop ℚ)) :
    ¬GoesOn spec schedule exceptions iterator limit began 0 ↔ EndsAtOnce spec schedule := by
  have hfinish : schedule.finishAfter spec.interval 0 = schedule.duration 0 := zero_add _
  have honly : ¬iterator.Yields 0 ↔ spec.attempts = some 1 := by
    rw [hyields]
    cases hspec : spec.attempts with
    | none => simp
    | some n =>
      have hpos := hattempts n hspec
      simp only [Option.mem_some_iff, forall_eq', Option.some_inj]
      omega
  unfold EndsAtOnce
  rw [← honly, ← hlate, ← hfinish]
  constructor
  · intro hnot
    by_contra hends
    rw [not_or, not_not] at hends
    exact hnot ⟨hends.1, ⟨_, hfail 0, hlisted 0⟩, hends.2⟩
  · rintro (hlast | hover) hgo
    · exact hlast hgo.yields
    · exact hgo.intime hover

/-- With a pause that is refused, a retry gives up only with its first attempt. -/
theorem retryWith_refused_givesUp_iff
    (hrefused : ∀ s, sleep spec.interval s = (.error .overflow, s))
    (hattempts : ∀ n ∈ spec.attempts, 1 ≤ n)
    (hfail : ∀ i, schedule.outcome i = .error (failure i))
    (hlisted : ∀ i, exceptions (failure i) = true) (began : ℚ) :
    GivesUp (spec.retryWith sleep schedule.runtime exceptions) failure began ↔
      EndsAtOnce spec schedule := by
  obtain ⟨iterator, haccepted, hyields⟩ := RetrySpec.attemptIterator_yields ε hattempts
  obtain ⟨limit, hlimit, hlate⟩ := timeLimit_clock spec schedule began
  have hfollow : RetrySpec.Following sleep spec schedule.runtime exceptions iterator limit
      { now := began } (schedule.clockAt spec.interval began) 0 := ⟨haccepted, hlimit, nofun⟩
  rw [← not_goesOn_zero_iff hattempts hfail hlisted hyields hlate]
  constructor
  · rintro ⟨k, last, -, enough, hends⟩ hgo
    have hfunc := schedule.func_clockAt spec.interval began 0
    rw [hfail 0] at hfunc
    have hstop : attemptRound schedule.runtime sleep spec.interval exceptions limit
        (iterator.drop 0, schedule.clockAt spec.interval began 0) =
        .inr (.error .overflow, schedule.clockAfter spec.interval began 0) := by
      have hintime := hgo.intime
      simp only [attemptRound, AttemptIterator.next_drop_of_yields hgo.yields, hfunc, hlisted 0,
        if_true]
      simp only [Schedule.runtime, Schedule.clockAfter, if_neg hintime, hrefused]
    have hrun := RetrySpec.retryWith_stopped hfollow hstop (Nat.succ_pos enough)
    rw [hends (enough + 1) (Nat.le_succ enough)] at hrun
    cases hrun
  · intro hstop
    exact ⟨0, schedule.clockAfter spec.interval began 0, schedule.length_starts_clockAt _ _ _, 1,
      fun rounds hrounds =>
        RetrySpec.retryWith_stopped hfollow (attemptRound_failure hfail hlisted hstop) hrounds⟩

/-- The pauses are as long as asked, or longer than the platform can and refused. -/
theorem retryWith_givesUp_iff_longest {longest : WithTop ℚ} (hinterval : 0 < spec.interval)
    (hsleep : (spec.interval : WithTop ℚ) ≤ longest →
      Granted sleep schedule.runtime spec.interval)
    (hrefused : longest < spec.interval → ∀ s, sleep spec.interval s = (.error .overflow, s))
    (hattempts : ∀ n ∈ spec.attempts, 1 ≤ n)
    (hfail : ∀ i, schedule.outcome i = .error (failure i))
    (hlisted : ∀ i, exceptions (failure i) = true) (began : ℚ) :
    GivesUp (spec.retryWith sleep schedule.runtime exceptions) failure began ↔
      HasLimit spec ∧ ((spec.interval : WithTop ℚ) ≤ longest ∨ EndsAtOnce spec schedule) := by
  rcases le_or_gt (spec.interval : WithTop ℚ) longest with hle | hlt
  · rw [retryWith_givesUp_iff hinterval (hsleep hle) hattempts hfail hlisted began]
    exact (and_iff_left (Or.inl hle)).symm
  · rw [retryWith_refused_givesUp_iff (hrefused hlt) hattempts hfail hlisted began]
    constructor
    · intro hends
      refine ⟨fun hnone t ht => ?_, Or.inr hends⟩
      rcases hends with honly | ⟨t', ht', hzero, hover⟩
      · rw [hnone] at honly
        cases honly
      · obtain rfl : t = t' := Option.some.inj (ht.symm.trans ht')
        exact ⟨hzero, ne_top_of_lt hover⟩
    · rintro ⟨-, hle | hends⟩
      · exact absurd hlt (not_lt.mpr hle)
      · exact hends

end GivingUp

/-- A retry of a function that always fails gives up exactly when it has a limit and, should
its interval be longer than the platform can pause, ends before the first pause. -/
theorem gives_up_iff {spec : RetrySpec} (hinterval : 0 < spec.interval)
    (hattempts : ∀ n ∈ spec.attempts, 1 ≤ n) {schedule : Schedule ε α} {failure : ℕ → ε}
    (hfail : ∀ i, schedule.outcome i = .error (failure i)) {exceptions : ε → Bool}
    (hlisted : ∀ i, exceptions (failure i) = true) (began : ℚ) :
    (GivesUp (spec.retry schedule.runtime exceptions) failure began ↔ HasLimit spec ∧
      ((spec.interval : WithTop ℚ) ≤ schedule.longestSleep ∨ EndsAtOnce spec schedule)) ∧
    (GivesUp (spec.aretry schedule.runtime exceptions) failure began ↔ HasLimit spec ∧
      ((spec.interval : WithTop ℚ) ≤ schedule.longestDelay ∨ EndsAtOnce spec schedule)) := by
  constructor
  · refine retryWith_givesUp_iff_longest hinterval (fun hle s => ?_)
      (schedule.runtime.sleep_of_lt hinterval.le) hattempts hfail hlisted began
    rw [max_eq_left hinterval.le]
    exact schedule.runtime.sleep_of_le hinterval.le hle s
  · exact retryWith_givesUp_iff_longest hinterval schedule.runtime.asyncioSleep_of_le
      schedule.runtime.asyncioSleep_of_lt hattempts hfail hlisted began

theorem retry_oneSecond_gives_up :
    GivesUp (oneSecond.retry failsAtOnce.runtime (fun _ => true)) (fun _ => ()) 0 :=
  (gives_up_iff (by norm_num [oneSecond]) (by simp [oneSecond]) (fun _ => rfl) (fun _ => rfl)
    0).1.mpr ⟨fun _ => by simp [oneSecond], Or.inl oneSecond_longestSleep⟩

/-- A timeout of 0 without attempts is accepted, and then taken for no timeout. -/
def zeroSeconds : RetrySpec where
  timeout := some 0
  limited := Or.inr (Option.some_ne_none _)

theorem retry_never_gives_up : ¬∀ spec : RetrySpec, 0 < spec.interval →
    (∀ n ∈ spec.attempts, 1 ≤ n) → (∀ t ∈ spec.timeout, 0 ≤ t) →
    ∀ (schedule : Schedule Unit Unit) (failure : ℕ → Unit),
      (∀ i, schedule.outcome i = .error (failure i)) → ∀ exceptions : Unit → Bool,
      (∀ i, exceptions (failure i) = true) → ∀ began : ℚ,
        GivesUp (spec.retry schedule.runtime exceptions) failure began ∧
          GivesUp (spec.aretry schedule.runtime exceptions) failure began := by
  intro h
  have hinterval : 0 < zeroSeconds.interval := by norm_num [zeroSeconds]
  obtain ⟨-, hgives⟩ := h zeroSeconds hinterval (by simp [zeroSeconds]) (by simp [zeroSeconds])
    failsAtOnce (fun _ => ()) (fun _ => rfl) (fun _ => true) (fun _ => rfl) 0
  have hlimited := (retryWith_givesUp_iff hinterval
    (failsAtOnce.runtime.asyncioSleep_of_le le_top) (by simp [zeroSeconds])
    (fun _ => rfl) (fun _ => rfl) 0).mp hgives
  exact (hlimited rfl 0 rfl).1 rfl

end Yellowbox.Retry
