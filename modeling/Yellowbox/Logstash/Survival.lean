import Yellowbox.Logstash.Runs

/-!
Whether a client can end the background thread. Both clean-ups call `shutdown`,
which raises on a connection that the peer has reset, and an exception of the
second clean-up is not caught.
-/
namespace Yellowbox.LogstashSurvival

open Effects StepRuns StreamSplit LogstashService LogstashConnection LogstashRounds LogstashRuns

variable {ρ : Type} {cfg : Setup ρ}

/-- A thread that has not crashed survives a run if and only if no shutdown fails in a
clean-up. -/
theorem exec_survives_iff {loop : Loop ρ} (batches : List Ready) (hnum : Numbered loop.service)
    (halive : ∀ err, loop.status ≠ .crashed err)
    (honly : ∀ ready ∈ batches, OnlySentinel ready) :
    (∀ err, (exec (backgroundRound cfg) loop batches).status ≠ .crashed err) ↔
      Along (backgroundRound cfg) (RoundHolds cfg) loop batches := by
  induction batches generalizing loop with
  | nil => exact iff_of_true halive trivial
  | cons ready batches ih =>
    have hready := honly ready (List.mem_cons_self ..)
    have hrest := fun ready' hready' => honly ready' (List.mem_cons_of_mem ready hready')
    rw [exec_cons, along_cons]
    by_cases hholds : RoundHolds cfg loop ready
    · have halive' : ∀ err, (backgroundRound cfg loop ready).1.status ≠ .crashed err := by
        intro err
        by_cases hserving : loop.status = .serving
        · rw [round_holds hnum hready hserving hholds]
          dsimp only
          split <;> simp
        · have hsame : (backgroundRound cfg loop ready).1 = loop :=
            exec_ended cfg [ready] hserving
          rw [hsame]
          exact halive err
      rw [ih (round_numbered hnum hready hholds) halive' hrest]
      exact (and_iff_right hholds).symm
    · obtain ⟨err, hcrashed⟩ := round_fails hnum hready hholds
      have hended : (backgroundRound cfg loop ready).1.status ≠ .serving := by
        rw [hcrashed]
        simp
      rw [exec_ended cfg batches hended]
      exact iff_of_false (fun h => h err hcrashed) (fun h => hholds h.1)

/-- The background thread is ended by no exception if and only if, whenever a read of a
connection fails, its shutdown does not raise. It then serves every connection as if
it were alone, and returns when the sentinel is received. -/
theorem survives_iff (cfg : Setup ρ) (batches : List Ready)
    (honly : ∀ ready ∈ batches, OnlySentinel ready) :
    let final := exec (backgroundRound cfg) started batches
    ((∀ err, final.status ≠ .crashed err) ↔
      Along (backgroundRound cfg) (RoundHolds cfg) started batches) ∧
    (Along (backgroundRound cfg) (RoundHolds cfg) started batches →
      final.status = (if batches.any closes then .returned else .serving) ∧
        ∀ c, c < final.service.accepted →
          connOf final.service c = (inputs c 0 batches).foldl (Conn.read cfg) .fresh) := by
  intro final
  have hstatus : ∀ err, (started : Loop ρ).status ≠ .crashed err :=
    fun err h => Status.noConfusion h
  exact ⟨exec_survives_iff batches started_numbered hstatus honly,
    fun hholds => exec_started honly hholds rfl⟩

/-- A parser that knows the JSON documents of one digit. -/
def parseDigit (line : Bytes) : Except LineError ℕ :=
  match line with
  | [b] => if 48 ≤ b ∧ b ≤ 57 then .ok (b.toNat - 48) else .error .jsonDecodeError
  | _ => .error .jsonDecodeError

/-- A bad line on one of two connections, and a shutdown that succeeds. -/
theorem survives_iff_bad_line :
    let cfg : Setup ℕ := ⟨[10], parseDigit⟩
    let batches : List Ready := [⟨[.root], by decide⟩, ⟨[.root], by decide⟩,
      ⟨[.socket 0 ⟨.ok [123, 10], .ok ()⟩, .socket 1 ⟨.ok [49, 10, 50], .ok ()⟩], by decide⟩,
      ⟨[.socket 1 ⟨.ok [10], .ok ()⟩], by decide⟩]
    ∀ err, (exec (backgroundRound cfg) started batches).status ≠ .crashed err := by
  intro cfg batches
  have honly : ∀ ready ∈ batches, OnlySentinel ready := by
    intro ready hready received hin
    simp only [batches, List.mem_cons, List.not_mem_nil, or_false] at hready
    rcases hready with rfl | rfl | rfl | rfl <;> simp at hin
  exact (survives_iff cfg batches honly).1.mpr (by decide)

/-- The peer resets its connection: `recv` and then `shutdown` raise, and the thread,
which had another connection to serve, is gone. -/
theorem reset_ends_thread :
    let cfg : Setup ℕ := ⟨[10], parseDigit⟩
    let batches : List Ready := [⟨[.root], by decide⟩, ⟨[.root], by decide⟩,
      ⟨[.socket 0 ⟨.error ⟨104⟩, .error ⟨107⟩⟩], by decide⟩]
    (exec (backgroundRound cfg) started batches).status = .crashed (.osError ⟨107⟩) ∧
      (exec (backgroundRound cfg) started batches).service.registered 1 = true := by
  decide

end Yellowbox.LogstashSurvival
