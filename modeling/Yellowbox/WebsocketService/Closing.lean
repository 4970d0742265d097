import Yellowbox.WebsocketService.Session

/-!
What `handle_close` raises. The error it throws into the session's generator is ignored
when it comes back out, but not the `StopIteration` of a generator that catches it and
returns, and the `close` behind it may raise as well.
-/
namespace Yellowbox.WebsocketService.Closing

open Effects Generators StepRuns

variable {σ : Type}

/-- `generator.throw(error)` as a call, whose value is dropped; a generator that returns
makes it raise `StopIteration`. -/
def throwInto (gen : UserBody (Point σ)) (error : Exc) : Act (Generator (Point σ)) Exc Unit :=
  fun generator =>
    match generator.throw gen error with
    | (.yielded _ _, generator') => (.ok (), generator')
    | (.returned _, generator') => (.error .stopIteration, generator')
    | (.raised e, generator') => (.error e, generator')

/-- `generator.close()` as a call. -/
def closeObject (gen : UserBody (Point σ)) : Act (Generator (Point σ)) Exc Unit :=
  fun generator =>
    match generator.close gen with
    | (none, generator') => (.ok (), generator')
    | (some e, generator') => (.error e, generator')

/-- The `try` statement of `handle_close`, over the generator object. -/
def closeGenerator (gen : UserBody (Point σ)) : Act (Generator (Point σ)) Exc Unit :=
  Act.ensure
    (Act.handle (throwInto gen .connectionAborted) fun exc =>
      -- `if exc is err: return`, and `raise` otherwise.
      if exc = .connectionAborted then pure () else Act.raise exc)
    (closeObject gen)

/-- `handle_close()` -/
def handleClose (gen : UserBody (Point σ)) : Act (Session σ) Exc Unit := do
  match (← Act.get).generator with
  | none => pure ()
  | some generator =>
    Act.modify fun s => { s with generator := none }
    Act.ofExcept (closeGenerator gen generator).1

/-- The point at which the user's generator is suspended, if it is. -/
def userPoint : Generator (Point σ) → Option σ
  | .suspended (.delegating (.generator (.suspended point))) => some point
  | _ => none

/-- What may come out for a generator suspended there: an exception that it raises itself
and that has not been thrown into it. -/
def ownError (user : UserBody σ) (point : σ) : Except Exc Unit :=
  match user.resume point (.throw .connectionAborted) with
  | .raised e => if e = .connectionAborted then .ok () else .error e
  | .returned _ => .ok ()
  | .yielded _ point' =>
    match user.resume point' (.throw .generatorExit) with
    | .raised e => if e = .connectionAborted ∨ e = .generatorExit then .ok () else .error e
    | .yielded _ _ | .returned _ => .ok ()

/-- `handle_close` in this session raises nothing but what the generator raises itself,
leaves the generator closed, and does nothing the second time. -/
structure ClosesCleanly (user : UserBody σ) (gen : UserBody (Point σ)) (s : Session σ) :
    Prop where
  raises : (handleClose gen s).1 =
    match s.generator.bind userPoint with
    | none => .ok ()
    | some point => ownError user point
  closed : ∀ generator, s.generator = some generator → (closeGenerator gen generator).2 = .finished
  again : handleClose gen (handleClose gen s).2 = (.ok (), (handleClose gen s).2)

/-- The generator does not return on the error that is thrown into it, and if it yields
again, it neither does so on `GeneratorExit` nor raises that error then. -/
structure Behaves (user : UserBody σ) (point : σ) : Prop where
  not_returned : ∀ value, user.resume point (.throw .connectionAborted) ≠ .returned value
  not_yielded : ∀ value point' value' point'',
    user.resume point (.throw .connectionAborted) = .yielded value point' →
      user.resume point' (.throw .generatorExit) ≠ .yielded value' point''
  not_thrown : ∀ value point',
    user.resume point (.throw .connectionAborted) = .yielded value point' →
      user.resume point' (.throw .generatorExit) ≠ .raised .connectionAborted

/-- The session once the server has passed on these events. -/
def reached (user : UserBody σ) (sideEffect : SideEffect σ) (events : List Event) : Session σ :=
  (exec (step (toGenerator user sideEffect)) start events).session

/-! ### Throwing into the session's generator -/

section Throwing

variable (user : UserBody σ) (sideEffect : SideEffect σ)

/-- What is thrown at a `yield from` comes out of it as `delegate` has it; only a returned
value depends on the side effect. -/
theorem resume_delegating (it : Iter σ (Option Primitive)) (error : Exc) :
    ∃ result, (toGenerator user sideEffect).resume (.delegating it) (.throw error) =
      yieldFrom user result it (.throw error) := by
  cases sideEffect with
  | primitive value => exact ⟨id, rfl⟩
  | iterable values => exact ⟨fun _ => none, rfl⟩
  | callable result => exact ⟨id, rfl⟩

/-- An object that is not suspended raises what is thrown, whichever way. -/
theorem delegate_throw_of_idle {object : Generator σ} (h : ∀ point, object ≠ .suspended point)
    (error : Exc) :
    delegate user none (.generator object) (.throw error) = .raised error := by
  have hthrow : ∀ e, object.throw user e = (.raised e, .finished) := by
    intro e
    cases object with
    | created point => rfl
    | suspended point => exact absurd rfl (h point)
    | finished => rfl
  have hclose : object.close user = (none, .finished) := Generator.close_of_raised (hthrow _)
  simp only [delegate, hthrow, hclose, Option.getD_none, ite_self]

/-- Where the user's generator is not suspended, nothing catches what is thrown. -/
theorem throw_of_no_point {generator : Generator (Point σ)} (h : userPoint generator = none)
    (error : Exc) :
    generator.throw (toGenerator user sideEffect) error = (.raised error, .finished) := by
  cases generator with
  | created point => rfl
  | finished => rfl
  | suspended point =>
    cases point with
    | start => rfl
    | delegating it =>
      obtain ⟨result, hresume⟩ := resume_delegating user sideEffect it error
      have hdelegate : delegate user none it (.throw error) = .raised error := by
        cases it with
        | plain values => cases values <;> rfl
        | generator object =>
          refine delegate_throw_of_idle user (fun point hobject => ?_) error
          rw [hobject] at h
          cases h
      rw [Generator.throw, hresume, yieldFrom, hdelegate]
      rfl

/-- The session's generator while the user's is suspended. -/
abbrev suspendedAt (point : σ) : Generator (Point σ) :=
  .suspended (.delegating (.generator (.suspended point)))

theorem userPoint_eq_some_iff {generator : Generator (Point σ)} {point : σ} :
    userPoint generator = some point ↔ generator = suspendedAt point := by
  constructor
  · intro h
    unfold userPoint at h
    split at h
    · rw [Option.some.inj h]
    · cases h
  · rintro rfl
    rfl

theorem throwInto_suspendedAt (point : σ) :
    throwInto (toGenerator user sideEffect) .connectionAborted (suspendedAt point) =
      match user.resume point (.throw .connectionAborted) with
      | .yielded _ point' => (.ok (), suspendedAt point')
      | .returned _ => (.error .stopIteration, .finished)
      | .raised e => (.error e, .finished) := by
  obtain ⟨result, hresume⟩ :=
    resume_delegating user sideEffect (.generator (.suspended point)) .connectionAborted
  have hexit : ProtocolErrors.isExit Exc.connectionAborted = false := rfl
  simp only [throwInto, Generator.throw, hresume, yieldFrom, delegate, hexit]
  cases user.resume point (.throw .connectionAborted) <;> rfl

/-- What `close` makes of a reply to `GeneratorExit`. -/
def exitOutcome : Reply σ (Option Primitive) (Option Primitive) Exc → Except Exc Unit
  | .yielded _ _ => .error .runtimeError
  | .returned _ => .ok ()
  | .raised e => if e = .generatorExit then .ok () else .error e

/-- The wrapper raises `GeneratorExit` unless closing the user's generator raises. -/
theorem closeObject_suspendedAt (point : σ) :
    closeObject (toGenerator user sideEffect) (suspendedAt point) =
      (exitOutcome (user.resume point (.throw .generatorExit)), .finished) := by
  obtain ⟨result, hresume⟩ :=
    resume_delegating user sideEffect (.generator (.suspended point)) .generatorExit
  have hthrow : (suspendedAt point).throw (toGenerator user sideEffect) .generatorExit =
      (.raised (((Generator.suspended point).close user).1.getD .generatorExit), .finished) := by
    rw [Generator.throw, hresume]
    rfl
  have hclose := Generator.close_of_raised hthrow
  rw [closeObject, hclose, Generator.close, Generator.throw]
  cases user.resume point (.throw .generatorExit) with
  | yielded value point' => rfl
  | returned value => rfl
  | raised e =>
    by_cases hexit : e = .generatorExit
    · subst hexit
      rfl
    · have hfalse : ProtocolErrors.isExit e = false := decide_eq_false hexit
      simp [hfalse, hexit, exitOutcome]

end Throwing

/-! ### Closing the generator -/

section Closing

variable (user : UserBody σ) (sideEffect : SideEffect σ)

/-- A generator that is finished has nothing to close. -/
theorem closeObject_finished (gen : UserBody (Point σ)) :
    closeObject gen .finished = (.ok (), .finished) := rfl

theorem closeGenerator_of_no_point {generator : Generator (Point σ)}
    (h : userPoint generator = none) :
    closeGenerator (toGenerator user sideEffect) generator = (.ok (), .finished) := by
  have hthrow : throwInto (toGenerator user sideEffect) .connectionAborted generator =
      (.error .connectionAborted, .finished) := by
    rw [throwInto, throw_of_no_point user sideEffect h]
  exact Act.ensure_of_ok (Act.handle_error hthrow) (closeObject_finished _)

/-- What `handle_close` raises for a user's generator suspended there. -/
def closing (point : σ) : Except Exc Unit :=
  match user.resume point (.throw .connectionAborted) with
  | .raised e => if e = .connectionAborted then .ok () else .error e
  | .returned _ => .error .stopIteration
  | .yielded _ point' => exitOutcome (user.resume point' (.throw .generatorExit))

theorem closeGenerator_suspendedAt (point : σ) :
    closeGenerator (toGenerator user sideEffect) (suspendedAt point) =
      (closing user point, .finished) := by
  have hthrow := throwInto_suspendedAt user sideEffect point
  unfold closing
  cases hreply : user.resume point (.throw .connectionAborted) with
  | yielded value point' =>
    rw [hreply] at hthrow
    have hclose := closeObject_suspendedAt user sideEffect point'
    dsimp only
    cases hexit : exitOutcome (user.resume point' (.throw .generatorExit)) with
    | ok u =>
      rw [hexit] at hclose
      exact Act.ensure_of_ok (Act.handle_ok hthrow) hclose
    | error e =>
      rw [hexit] at hclose
      exact Act.ensure_of_error (Act.handle_ok hthrow) hclose
  | returned value =>
    rw [hreply] at hthrow
    exact Act.ensure_of_ok (Act.handle_error hthrow) (closeObject_finished _)
  | raised e =>
    rw [hreply] at hthrow
    refine Act.ensure_of_ok ((Act.handle_error hthrow).trans ?_) (closeObject_finished _)
    dsimp only
    by_cases hours : e = .connectionAborted
    · rw [if_pos hours, if_pos hours]
      rfl
    · rw [if_neg hours, if_neg hours]
      rfl

theorem closeGenerator_finished (generator : Generator (Point σ)) :
    (closeGenerator (toGenerator user sideEffect) generator).2 = .finished := by
  cases hpoint : userPoint generator with
  | none => rw [closeGenerator_of_no_point user sideEffect hpoint]
  | some point =>
    rw [userPoint_eq_some_iff.mp hpoint, closeGenerator_suspendedAt]

/-- The outcome is the generator's own exactly when it behaves. -/
theorem closing_eq_ownError_iff (point : σ) :
    closing user point = ownError user point ↔ Behaves user point := by
  unfold closing ownError
  cases hreply : user.resume point (.throw .connectionAborted) with
  | raised e =>
    exact iff_of_true rfl ⟨by simp [hreply], by simp [hreply], by simp [hreply]⟩
  | returned value =>
    exact iff_of_false (by simp) fun h => h.not_returned value hreply
  | yielded value point' =>
    dsimp only
    cases hexit : user.resume point' (.throw .generatorExit) with
    | yielded value' point'' =>
      exact iff_of_false (by simp [exitOutcome])
        fun h => h.not_yielded value point' value' point'' hreply hexit
    | returned value' =>
      refine iff_of_true rfl ⟨by simp [hreply], ?_, ?_⟩
      · intro v p v' p' hp
        cases hreply.symm.trans hp
        simp [hexit]
      · intro v p hp
        cases hreply.symm.trans hp
        simp [hexit]
    | raised e =>
      by_cases hours : e = .connectionAborted
      · subst hours
        exact iff_of_false (by simp [exitOutcome])
          fun h => h.not_thrown value point' hreply hexit
      · refine iff_of_true (by simp [exitOutcome, hours]) ⟨by simp [hreply], ?_, ?_⟩
        · intro v p v' p' hp
          cases hreply.symm.trans hp
          simp [hexit]
        · intro v p hp
          cases hreply.symm.trans hp
          simp [hexit, hours]

end Closing

/-! ### The sessions -/

theorem handleClose_none (gen : UserBody (Point σ)) {s : Session σ} (h : s.generator = none) :
    handleClose gen s = (.ok (), s) := by
  simp only [handleClose, Act.get_bind, h]
  rfl

theorem handleClose_some (gen : UserBody (Point σ)) {s : Session σ}
    {generator : Generator (Point σ)} (h : s.generator = some generator) :
    handleClose gen s = ((closeGenerator gen generator).1, { s with generator := none }) := by
  simp only [handleClose, Act.get_bind, h, Act.modify_bind]
  rfl

/-- A session without a generator has nothing to close. -/
theorem handleClose_again (gen : UserBody (Point σ)) (s : Session σ) :
    handleClose gen (handleClose gen s).2 = (.ok (), (handleClose gen s).2) := by
  cases h : s.generator with
  | none => rw [handleClose_none gen h, handleClose_none gen h]
  | some generator =>
    rw [handleClose_some gen h]
    exact handleClose_none gen rfl

theorem closesCleanly_iff (user : UserBody σ) (sideEffect : SideEffect σ) (s : Session σ) :
    ClosesCleanly user (toGenerator user sideEffect) s ↔
      ∀ point, s.generator.bind userPoint = some point → Behaves user point := by
  have hrest : ClosesCleanly user (toGenerator user sideEffect) s ↔
      (handleClose (toGenerator user sideEffect) s).1 =
        match s.generator.bind userPoint with
        | none => .ok ()
        | some point => ownError user point :=
    ⟨fun h => h.raises, fun h => ⟨h, fun generator _ => closeGenerator_finished user sideEffect
      generator, handleClose_again _ s⟩⟩
  rw [hrest]
  cases h : s.generator with
  | none =>
    rw [handleClose_none _ h]
    exact iff_of_true rfl fun point hpoint => by cases hpoint
  | some generator =>
    rw [handleClose_some _ h, Option.bind_some]
    cases hpoint : userPoint generator with
    | none =>
      rw [closeGenerator_of_no_point user sideEffect hpoint]
      exact iff_of_true rfl fun point hsome => by cases hsome
    | some point =>
      rw [userPoint_eq_some_iff.mp hpoint, closeGenerator_suspendedAt]
      simp only [Option.some.injEq, forall_eq']
      exact closing_eq_ownError_iff user point

/-- However a session came about, closing it is clean exactly if its generator, where it
is suspended, behaves. -/
theorem handle_close_clean_iff (user : UserBody σ) (sideEffect : SideEffect σ)
    (events : List Event) :
    ClosesCleanly user (toGenerator user sideEffect) (reached user sideEffect events) ↔
      ∀ point, (reached user sideEffect events).generator.bind userPoint = some point →
        Behaves user point :=
  closesCleanly_iff user sideEffect _

/-- A generator that catches the error and returns. -/
def catching : UserBody Unit where
  resume
    | _, .send _ => .yielded none ()
    | _, .throw _ => .returned none

/-- The connection is closed after the first value: `StopIteration` comes out. -/
theorem caught_error_raises_stopIteration :
    ¬(∀ (user : UserBody Unit) (sideEffect : SideEffect Unit) (events : List Event),
      ClosesCleanly user (toGenerator user sideEffect) (reached user sideEffect events)) ∧
      (handleClose (toGenerator catching (.callable (.generator ())))
        (reached catching (.callable (.generator ())) [.connect])).1 = .error .stopIteration := by
  refine ⟨fun h => ?_, rfl⟩
  have hbehaves := (closesCleanly_iff catching (.callable (.generator ())) _).mp
    (h catching (.callable (.generator ())) [.connect]) () rfl
  exact hbehaves.not_returned none rfl

end Yellowbox.WebsocketService.Closing
