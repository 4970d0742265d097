import Mathlib.Tactic.Common

/-!
Loops that may never stop. A body either asks for another round from a new state
or stops with a result; a run is cut off after a number of rounds. A sequence of
states that follows the body determines every run, up to the round that stops.
-/
namespace Yellowbox.Iteration

variable {S R : Type*}

/-- At most `n` rounds: the result of a loop that has stopped by then, or the
state in which its next round begins. -/
def run (body : S → S ⊕ R) : ℕ → S → S ⊕ R
  | 0, s => .inl s
  | n + 1, s =>
    match body s with
    | .inl t => run body n t
    | .inr r => .inr r

variable {body : S → S ⊕ R} {s t : S} {r : R}

theorem run_again (h : body s = .inl t) (n : ℕ) : run body (n + 1) s = run body n t := by
  simp only [run, h]

theorem run_stop (h : body s = .inr r) (n : ℕ) : run body (n + 1) s = .inr r := by
  simp only [run, h]

/-- A run goes on where a shorter run has got to. -/
theorem run_add {n : ℕ} (h : run body n s = .inl t) (m : ℕ) :
    run body (n + m) s = run body m t := by
  induction n generalizing s with
  | zero =>
    cases h
    rw [Nat.zero_add]
  | succ n ih =>
    cases hbody : body s with
    | inl u =>
      rw [run_again hbody] at h
      rw [Nat.add_right_comm, run_again hbody]
      exact ih h
    | inr r =>
      rw [run_stop hbody] at h
      cases h

section Following

variable (states : ℕ → S) {k : ℕ}

/-- The first rounds of a run are the states that follow the body. -/
theorem run_following (h : ∀ i < k, body (states i) = .inl (states (i + 1))) {n : ℕ}
    (hn : n ≤ k) : run body n (states 0) = .inl (states n) := by
  suffices hfrom : ∀ m i, i + m = n → run body m (states i) = .inl (states n) from
    hfrom n 0 (Nat.zero_add n)
  intro m
  induction m with
  | zero =>
    rintro i rfl
    rfl
  | succ m ih =>
    intro i hi
    rw [run_again (h i (by omega))]
    exact ih (i + 1) (by omega)

/-- The loop stops in the round after the states that follow the body. -/
theorem run_stopped (h : ∀ i < k, body (states i) = .inl (states (i + 1)))
    (hstop : body (states k) = .inr r) {n : ℕ} (hn : k < n) :
    run body n (states 0) = .inr r := by
  suffices hfrom : ∀ m i, i ≤ k → k < i + m → run body m (states i) = .inr r from
    hfrom n 0 (Nat.zero_le k) (by omega)
  intro m
  induction m with
  | zero =>
    intro i hi hlt
    omega
  | succ m ih =>
    intro i hi hlt
    by_cases hik : i = k
    · subst hik
      exact run_stop hstop m
    · rw [run_again (h i (by omega))]
      exact ih (i + 1) (by omega) (by omega)

end Following

end Yellowbox.Iteration
