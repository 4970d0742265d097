import Yellowbox.Docker.Containers

/-!
`removing`. On the way out of the context a container that is alive is killed if
the caller forces it, and then the exit code is checked. That code may be the one
of the kill itself, and alive includes the containers that were never started.
-/
namespace Yellowbox.Docker

open Effects

/-- `expected_exit_code`: `None`, an int, or a collection of ints. -/
inductive ExpectedExitCode
  | any
  | code (code : ℤ)
  | oneOf (codes : ℤ → Bool)

/-- An int stands for the tuple that holds it. -/
def ExpectedExitCode.accepts : ExpectedExitCode → ℤ → Bool
  | any, _ => true
  | code expected, result => [expected].contains result
  | oneOf codes, result => codes result

def runtimeError (message : String) : Error := .raised ("RuntimeError: " ++ message)

/-- `container.wait(timeout=..)["StatusCode"]`; a container never started reports 0. -/
def waitStatusCode (c : ContainerId) : Act World Error ℤ := do
  wait c
  match (← Act.get).status c with
  | some (.exited code) => return code
  | _ => return 0

/-- `container.remove(force=force, v=True)` -/
def removeWith (force : Bool) (c : ContainerId) : Act World Error Unit := do
  Act.modify fun w => w.ask (.remove c)
  match (← Act.get).status c with
  | none => Act.raise .notFound
  | some s =>
    Act.raiseIf (s.up && !force) .conflict
    Act.modify fun w => w.setStatus c none

/-- The end of the `finally` block: the code is checked before the removal. -/
def removeExited (expected : ExpectedExitCode) (force : Bool) (c : ContainerId) :
    Act World Error Unit := do
  let code ← waitStatusCode c
  Act.raiseIf (!expected.accepts code) (runtimeError s!"Container {c} exited with code {code}")
  removeWith force c

/-- The `finally` block of `removing`. -/
def exitRemoving (expected : ExpectedExitCode) (force : Bool) (c : ContainerId) :
    Act World Error Unit := do
  if !(← isRemoved c) then
    if ← isAlive c then
      let status := ((← Act.get).attrs c).text
      Act.raiseIf (!force) (runtimeError s!"Container {c} is still alive (status: {status})")
      kill "SIGKILL" c
    removeExited expected force c

/-- `with removing(container, expected_exit_code=.., force=..): body` -/
def removing {α : Type} (expected : ExpectedExitCode) (force : Bool) (c : ContainerId)
    (body : Act World Error α) : Act World Error α :=
  Act.ensure body (exitRemoving expected force c)

section Exit

variable {expected : ExpectedExitCode} {force : Bool} {c : ContainerId} {w : World}
  {s : Status} {code : ℤ}

theorem waitStatusCode_exited (h : w.status c = some (.exited code)) :
    waitStatusCode c w = (.ok code, w.ask (.wait c)) := by
  rw [waitStatusCode, Act.bind_ok (wait_down h rfl)]
  simp only [Act.get_bind, World.status_ask, h]
  rfl

theorem removeWith_present (h : w.status c = some s) (hforce : force = true ∨ s.up = false) :
    removeWith force c w = (.ok (), (w.ask (.remove c)).setStatus c none) := by
  have hallowed : (s.up && !force) = false := by
    rcases hforce with hforce | hdown
    · simp [hforce]
    · simp [hdown]
  simp only [removeWith, Act.modify_bind, Act.get_bind, World.status_ask, h, Act.raiseIf_bind,
    hallowed]
  rfl

/-- A container that has exited stays if its code is not an expected one. -/
theorem removeExited_exited (h : w.status c = some (.exited code)) :
    removeExited expected force c w =
      if expected.accepts code then
        (.ok (), ((w.ask (.wait c)).ask (.remove c)).setStatus c none)
      else
        (.error (runtimeError s!"Container {c} exited with code {code}"), w.ask (.wait c)) := by
  rw [removeExited, Act.bind_ok (waitStatusCode_exited h), Act.raiseIf_bind]
  cases expected.accepts code with
  | true => exact removeWith_present (s := .exited code) h (Or.inr rfl)
  | false => rfl

/-- The two checks of the exit reload the container twice. -/
theorem isAlive_loaded (h : w.status c = some s) :
    isAlive c (w.load c s) = (.ok (s.up || s == .created), (w.load c s).load c s) := by
  have hload : (w.load c s).status c = some s := h
  exact isAlive_present hload

theorem exitRemoving_exited (expected : ExpectedExitCode) (force : Bool)
    (h : w.status c = some (.exited code)) :
    ∃ seen : World, seen.status = w.status ∧
      exitRemoving expected force c w = removeExited expected force c seen := by
  refine ⟨(w.load c (.exited code)).load c (.exited code), rfl, ?_⟩
  rw [exitRemoving, Act.bind_ok (isRemoved_present h)]
  change (isAlive c >>= fun _ => _) _ = _
  rw [Act.bind_ok (isAlive_loaded h)]
  rfl

/-- Without `force` a container that is alive is left as it is. -/
theorem exitRemoving_alive_unforced (expected : ExpectedExitCode) (h : w.status c = some s)
    (halive : (s.up || s == .created) = true) :
    ∃ seen : World, seen.status = w.status ∧ exitRemoving expected false c w =
      (.error (runtimeError s!"Container {c} is still alive (status: {s.text})"), seen) := by
  let seen := (w.load c s).load c s
  have hseen : isAlive c (w.load c s) = (.ok true, seen) := by
    rw [isAlive_loaded h, halive]
  have hattrs : seen.attrs c = s := by
    simp only [seen, World.load, Function.update_self]
  refine ⟨seen, rfl, ?_⟩
  rw [exitRemoving, Act.bind_ok (isRemoved_present h)]
  change (isAlive c >>= fun _ => _) _ = _
  rw [Act.bind_ok hseen]
  simp only [if_true, Act.get_bind, hattrs]
  rfl

/-- With `force` it is killed first, which docker refuses before the first start. -/
theorem exitRemoving_alive_forced (expected : ExpectedExitCode) (h : w.status c = some s)
    (halive : (s.up || s == .created) = true) :
    ∃ seen : World, seen.status = w.status ∧ seen.reaction = w.reaction ∧
      exitRemoving expected true c w =
        (kill "SIGKILL" c >>= fun _ => removeExited expected true c) seen := by
  have hseen : isAlive c (w.load c s) = (.ok true, (w.load c s).load c s) := by
    rw [isAlive_loaded h, halive]
  refine ⟨(w.load c s).load c s, rfl, rfl, ?_⟩
  rw [exitRemoving, Act.bind_ok (isRemoved_present h)]
  change (isAlive c >>= fun _ => _) _ = _
  rw [Act.bind_ok hseen]
  rfl

theorem exitRemoving_created (expected : ExpectedExitCode) (h : w.status c = some .created) :
    ∃ seen : World, seen.status = w.status ∧
      exitRemoving expected true c w = (.error .conflict, seen) := by
  obtain ⟨seen, hseen, -, hexit⟩ := exitRemoving_alive_forced expected h rfl
  refine ⟨seen.ask (.kill c "SIGKILL"), hseen, ?_⟩
  rw [hexit, Act.bind_error (kill_down "SIGKILL" ((congrFun hseen c).trans h) rfl)]

/-- The code of the kill is checked like one the container has chosen. -/
theorem exitRemoving_up (expected : ExpectedExitCode) (h : w.status c = some s)
    (hup : s.up = true) (hkill : w.reaction c s "SIGKILL" = .exits code) :
    ∃ killed : World, killed.status c = some (.exited code) ∧
      exitRemoving expected true c w = removeExited expected true c killed := by
  have halive : (s.up || s == .created) = true := by rw [hup, Bool.true_or]
  obtain ⟨seen, hseen, hreaction, hexit⟩ := exitRemoving_alive_forced expected h halive
  have hcall := kill_exits (w := seen) ((congrFun hseen c).trans h) hup (hreaction ▸ hkill)
  exact ⟨_, World.status_setStatus_self .., hexit.trans (Act.bind_ok hcall)⟩

/-- After the exit of a container with a status code the container is gone, or it has
an unexpected code. -/
theorem removeExited_outcome (expected : ExpectedExitCode) (force : Bool)
    (h : w.status c = some (.exited code)) :
    ((removeExited expected force c w).2.status c = none ↔ expected.accepts code = true) ∧
      (expected.accepts code = false →
        ∃ message, (removeExited expected force c w).1 = .error (runtimeError message)) := by
  rw [removeExited_exited h]
  cases expected.accepts code with
  | true => simp
  | false =>
    refine ⟨?_, fun _ => ⟨_, rfl⟩⟩
    simp [h]

end Exit

/-- Without `force` a container that is still alive is reported and kept. -/
theorem removing_unforced_alive {α : Type} (expected : ExpectedExitCode) {c : ContainerId}
    {body : Act World Error α} {w : World} {s : Status} (hexit : (body w).2.status c = some s)
    (halive : (s.up || s == .created) = true) :
    (removing expected false c body w).2.status = (body w).2.status ∧
      ∃ message, (removing expected false c body w).1 = .error (runtimeError message) := by
  obtain ⟨seen, hseen, hrun⟩ := exitRemoving_alive_unforced expected hexit halive
  refine ⟨?_, s!"Container {c} is still alive (status: {s.text})", Act.ensure_error (by rw [hrun])⟩
  rw [removing, Act.ensure_snd, hrun, hseen]

/-- What forcing the removal should leave of a container that has status `s` when its
context is left. -/
def ForcedRemoval {α : Type} (expected : ExpectedExitCode) (c : ContainerId) (s : Status)
    (left : Except Error α × World) : Prop :=
  match s with
  | .running | .paused | .created => left.2.status c = none
  | .exited code =>
    (left.2.status c = none ↔ expected.accepts code = true) ∧
      (expected.accepts code = false → ∃ message, left.1 = .error (runtimeError message))

/-- A forced removal removes unless the container was never started, or the code of its
own kill is not an expected one. -/
theorem removing_forced_iff {α : Type} (expected : ExpectedExitCode) {c : ContainerId}
    {body : Act World Error α} {w : World} {s : Status} (hexit : (body w).2.status c = some s)
    (hkill : ∀ s, (body w).2.reaction c s "SIGKILL" = .exits 137) :
    ForcedRemoval expected c s (removing expected true c body w) ↔
      s ≠ .created ∧ (s.up = true → expected.accepts 137 = true) := by
  have hup : ∀ s', (body w).2.status c = some s' → s'.up = true →
      ((removing expected true c body w).2.status c = none ↔
        expected.accepts 137 = true) := by
    intro s' hs' hrunning
    obtain ⟨killed, hkilled, hrun⟩ := exitRemoving_up expected hs' hrunning (hkill s')
    rw [removing, Act.ensure_snd, hrun]
    exact (removeExited_outcome expected true hkilled).1
  cases s with
  | created =>
    obtain ⟨seen, hseen, hrun⟩ := exitRemoving_created expected hexit
    have hstays : (removing expected true c body w).2.status c = some .created := by
      rw [removing, Act.ensure_snd, hrun, hseen, hexit]
    simp [ForcedRemoval, hstays]
  | running => simpa [ForcedRemoval, Status.up] using hup .running hexit rfl
  | paused => simpa [ForcedRemoval, Status.up] using hup .paused hexit rfl
  | exited code =>
    obtain ⟨seen, hseen, hrun⟩ := exitRemoving_exited expected true hexit
    have hcode : seen.status c = some (.exited code) := (congrFun hseen c).trans hexit
    obtain ⟨hgone, hraises⟩ := removeExited_outcome expected true hcode
    have hne : Status.exited code ≠ .created := by simp
    have hdown : (Status.exited code).up ≠ true := by simp [Status.up]
    refine iff_of_true ⟨?_, fun hreject => ?_⟩ ⟨hne, fun hup => absurd hup hdown⟩
    · rw [removing, Act.ensure_snd, hrun]
      exact hgone
    · obtain ⟨message, hmessage⟩ := hraises hreject
      exact ⟨message, Act.ensure_error (hrun ▸ hmessage)⟩

/-- A daemon where every container has status `s` and stops on a kill. -/
def killable (s : Status) : World where
  status := fun _ => some s
  attrs := fun _ => .created
  connected := fun _ => false
  reaction := fun _ _ _ => .exits 137
  sigkill := Reaction.exits_killed
  next := 1
  requests := []

theorem removing_forced_kill_code :
    (removing (.code 137) true 0 (pure () : Act World Error Unit) (killable .running)).2.status 0 =
      none :=
  (removing_forced_iff (.code 137) (s := .running) rfl fun _ => rfl).mpr ⟨nofun, fun _ => rfl⟩

/-- With the default expected code a running container is killed and kept. -/
theorem removing_forced_keeps : ¬∀ (expected : ExpectedExitCode) (c : ContainerId)
    (body : Act World Error Unit) (w : World) (s : Status), (body w).2.status c = some s →
      (∀ s, (body w).2.reaction c s "SIGKILL" = .exits 137) →
      ForcedRemoval expected c s (removing expected true c body w) := by
  intro h
  have hgone : (removing (.code 0) true 0 (pure ()) (killable .running)).2.status 0 = none :=
    h (.code 0) 0 (pure ()) (killable .running) .running rfl fun _ => rfl
  have hkept : (removing (.code 0) true 0 (pure () : Act World Error Unit)
      (killable .running)).2.status 0 = some (.exited 137) := by
    decide +kernel
  rw [hkept] at hgone
  cases hgone

end Yellowbox.Docker
