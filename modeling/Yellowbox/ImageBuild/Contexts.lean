import Yellowbox.ImageBuild.OutputIndependence

/-!
The contexts of `build_image` and `async_build_image`, from the build to the removal of
the image. Both are generators that yield outside of any `try`, so an exception of
the body is raised at the `yield` and what follows it is skipped.
-/
namespace Yellowbox.ImageBuild

open Effects Json

/-- What leaves a context: an exception of the build, or one of the daemon or of the body. -/
inductive Failure
  | build (e : Exc)
  | imageNotFound
  | other (name : String) (isException : Bool)

/-- `isinstance(e, Exception)` -/
def Failure.isException : Failure → Bool
  | build _ | imageNotFound => true
  | other _ isException => isException

inductive Mark
  | fail
  | ok

/-- What is printed: a message, or all that a build printed. -/
inductive Line
  | text (message : String)
  | log (printed : List Value)

/-- The last build, the images that were passed to `remove_image`, the marks of the
spinners, and what was printed. -/
structure Session where
  build : Build := .start
  removed : List Value := []
  marks : List Mark := []
  stderr : List Line := []
  output : List Line := []

variable {α β : Type}

def building (x : Act Build Exc α) : Act Session Failure α := fun s =>
  ((x .start).1.mapError .build, { s with build := (x .start).2 })

/-- `with _get_spinner(spinner)(msg): body` -/
def spinning (spinner : Bool) (body : Act Session Failure α) : Act Session Failure α :=
  if spinner then fun s =>
    match body s with
    | (.ok a, t) => (.ok a, { t with marks := t.marks ++ [.ok] })
    | (.error e, t) =>
      (.error e, if e.isException then { t with marks := t.marks ++ [.fail] } else t)
  else body

/-- The removal of the image, as the daemon answers it. -/
def removeImage (daemon : Value → Except Failure Unit) (image_alias : Value) :
    Act Session Failure Unit :=
  Act.handle
    (do
      Act.modify fun s => { s with removed := s.removed ++ [image_alias] }
      Act.ofExcept (daemon image_alias))
    fun
    | .imageNotFound => pure ()
    | e => Act.raise e

/-- What follows the `yield` of a context, after a body with this outcome. -/
def leave (daemon : Value → Except Failure Unit) (remove_image : Bool) (image_alias : Value)
    (body : Except Failure β) : Act Session Failure β := do
  let value ← Act.ofExcept body
  if remove_image then
    removeImage daemon image_alias
  return value

/-- `with build_image(..) as image_alias: body`; `file` is the deprecated parameter. -/
def withBuildImage (loads : Loads) (daemon : Value → Except Failure Unit)
    (image_name : Option String) (remove_image : Bool) (file : Option Bool)
    (output spinner : Bool) (build_log : List (List UInt8)) (body : Value → Except Failure β) :
    Act Session Failure β :=
  spinning (spinner && file == some false) do
    let image_alias ← building (buildImage loads image_name file output build_log)
    leave daemon remove_image image_alias (body image_alias)

def imageTag (image_name : Option String) : Option String :=
  image_name.map fun name => if ':' ∈ name.toList then name else name ++ ":test"

def startMsg : Option String → String
  | none => "Creating anonymous image..."
  | some image_tag => s!".   Creating image {image_tag}..."

def failMsg : Option String → String
  | none => "failed building anonymous image"
  | some image_tag => s!"failed building image {image_tag}"

def okMsg : Option String → String
  | none => "anonymous image built successfully"
  | some image_tag => s!".   image {image_tag} built successfully"

def printOutput (lines : List Line) : Act Session Failure Unit :=
  Act.modify fun s => { s with output := s.output ++ lines }

/-- `except (DockerException, BuildError, DockerfileParseError)`: the failed build is
reported, with all that it printed. -/
def reportFailure (image_tag : Option String) : Failure → Act Session Failure Value
  | .build e => do
    if e.isDocker then
      Act.modify fun s =>
        { s with stderr := s.stderr ++ [.text (failMsg image_tag), .log s.build.printed] }
    Act.raise (.build e)
  | e => Act.raise e

/-- `async_build_image` until its context is entered. The build prints to a `StringIO`,
which is an output whatever the caller's output is. -/
def asyncBuildImage (loads : Loads) (image_name : Option String) (output spinner : Bool)
    (build_log : List (List UInt8)) : Act Session Failure Value := do
  let image_tag := imageTag image_name
  if spinner && output then
    printOutput [.text (startMsg image_tag)]
  let image_id ← Act.handle (building (dockerBuild loads true build_log))
    (reportFailure image_tag)
  if spinner && output then
    Act.modify fun s =>
      { s with output := s.output ++ [.text (okMsg image_tag), .log s.build.printed] }
  return (image_tag.map Value.str).getD image_id

/-- `async with async_build_image(..) as image_alias: body` -/
def withAsyncBuildImage (loads : Loads) (daemon : Value → Except Failure Unit)
    (image_name : Option String) (remove_image output spinner : Bool)
    (build_log : List (List UInt8)) (body : Value → Except Failure β) :
    Act Session Failure β := do
  let image_alias ← asyncBuildImage loads image_name output spinner build_log
  leave daemon remove_image image_alias (body image_alias)

/-! ### Leaving a context -/

/-- A spinner changes neither the outcome nor what was removed. -/
theorem spinning_eq (spinner : Bool) (body : Act Session Failure α) (s : Session) :
    (spinning spinner body s).1 = (body s).1 ∧
      (spinning spinner body s).2.removed = (body s).2.removed := by
  cases spinner with
  | false => exact ⟨rfl, rfl⟩
  | true =>
    rcases hbody : body s with ⟨e | a, t⟩
    · cases he : e.isException <;> simp [spinning, hbody, he]
    · simp [spinning, hbody]

variable {daemon : Value → Except Failure Unit} {image_alias : Value} {outcome : Except Failure β}
  {s : Session}

theorem removeImage_removed :
    (removeImage daemon image_alias s).2.removed = s.removed ++ [image_alias] := by
  unfold removeImage Act.handle
  simp only [Act.modify_bind, Act.ofExcept]
  cases daemon image_alias with
  | ok u => rfl
  | error e => cases e <;> rfl

/-- That the image is already gone is no error. -/
theorem removeImage_missing (h : daemon image_alias = .error .imageNotFound) :
    (removeImage daemon image_alias s).1 = .ok () := by
  unfold removeImage Act.handle
  simp only [Act.modify_bind, Act.ofExcept, h]
  rfl

theorem leave_error (remove_image : Bool) (e : Failure) :
    leave daemon remove_image image_alias (.error e : Except Failure β) s = (.error e, s) := rfl

theorem leave_ok (value : β) : leave daemon true image_alias (.ok value : Except Failure β) s =
    (removeImage daemon image_alias >>= fun _ => pure value) s := rfl

/-- The image was passed to `remove_image`, unless it was missing already nothing came of
it, and the exception of the body propagates. -/
structure LeavesNoImage (daemon : Value → Except Failure Unit) (image_alias : Value)
    (outcome : Except Failure β) (before : Session) (left : Except Failure β × Session) :
    Prop where
  removed : left.2.removed = before.removed ++ [image_alias]
  missing : ∀ value, outcome = .ok value → daemon image_alias = .error .imageNotFound →
    left.1 = .ok value
  propagates : ∀ e, outcome = .error e → left.1 = .error e

/-- An exception of the body leaves the context at the `yield`. -/
theorem leave_leavesNoImage_iff {left : Except Failure β × Session} {t : Session}
    (hfst : left.1 = (leave daemon true image_alias outcome t).1)
    (hsnd : left.2.removed = (leave daemon true image_alias outcome t).2.removed)
    (hkept : t.removed = s.removed) :
    LeavesNoImage daemon image_alias outcome s left ↔ ∃ value, outcome = .ok value := by
  cases outcome with
  | error e =>
    refine iff_of_false (fun h => ?_) nofun
    have hremoved := h.removed
    rw [hsnd, leave_error, hkept] at hremoved
    simp at hremoved
  | ok value =>
    refine iff_of_true ⟨?_, ?_, nofun⟩ ⟨value, rfl⟩
    · rw [hsnd, leave_ok, ← hkept, ← removeImage_removed]
      rcases hremove : removeImage daemon image_alias t with ⟨e | u, t'⟩
      · rw [Act.bind_error hremove]
      · rw [Act.bind_ok hremove]
        rfl
    · rintro value' hvalue hmissing
      cases hvalue
      rw [hfst, leave_ok]
      rcases hremove : removeImage daemon image_alias t with ⟨e | u, t'⟩
      · have hgone := removeImage_missing hmissing (s := t)
        rw [hremove] at hgone
        cases hgone
      · rw [Act.bind_ok hremove]
        rfl

/-! ### Entering a context -/

section AsyncBuild

variable {loads : Loads} {build_log : List (List UInt8)} {t : Build}

theorem building_apply {x : Act Build Exc α} {r : Except Exc α} (h : x .start = (r, t))
    (s : Session) : building x s = (r.mapError .build, { s with build := t }) := by
  rw [building, h]

/-- The alias that an asynchronous context yields. -/
theorem asyncBuildImage_succeeds {id : Value} (image_name : Option String)
    (output spinner : Bool) (s : Session)
    (h : dockerBuild loads true build_log .start = (.ok id, t)) :
    (asyncBuildImage loads image_name output spinner build_log s).1 =
      .ok (((imageTag image_name).map Value.str).getD id) := by
  have hbuilt : ∀ s : Session, Act.handle (building (dockerBuild loads true build_log))
      (reportFailure (imageTag image_name)) s = (.ok id, { s with build := t }) :=
    fun s => Act.handle_ok (building_apply h s)
  unfold asyncBuildImage printOutput
  cases spinner && output with
  | true =>
    simp only [if_true]
    rw [Act.modify_bind, Act.bind_ok (hbuilt _)]
    rfl
  | false =>
    simp only [Bool.false_eq_true, if_false]
    rw [Act.bind_ok (hbuilt s)]
    rfl

/-- A build that fails with an error of docker's is reported, and fails the context. -/
theorem asyncBuildImage_fails {e : Exc} (image_name : Option String) (output spinner : Bool)
    (s : Session) (h : dockerBuild loads true build_log .start = (.error e, t))
    (he : e.isDocker = true) :
    ∃ left : Session, asyncBuildImage loads image_name output spinner build_log s =
        (.error (.build e), left) ∧
      left.stderr =
        s.stderr ++ [.text (failMsg (imageTag image_name)), .log left.build.printed] := by
  have hreport : ∀ u : Session, reportFailure (imageTag image_name) (.build e) u =
      (.error (.build e), { u with
        stderr := u.stderr ++ [.text (failMsg (imageTag image_name)), .log u.build.printed] }) := by
    intro u
    simp only [reportFailure, he, if_true]
    rfl
  have hfails : ∀ s : Session, Act.handle (building (dockerBuild loads true build_log))
      (reportFailure (imageTag image_name)) s =
        reportFailure (imageTag image_name) (.build e) { s with build := t } :=
    fun s => Act.handle_error (building_apply h s)
  unfold asyncBuildImage printOutput
  cases spinner && output with
  | true =>
    simp only [if_true]
    rw [Act.modify_bind]
    exact ⟨_, Act.bind_error ((hfails _).trans (hreport _)), rfl⟩
  | false =>
    simp only [Bool.false_eq_true, if_false]
    exact ⟨_, Act.bind_error ((hfails s).trans (hreport _)), rfl⟩

end AsyncBuild

theorem keeps_removed_asyncBuildImage (loads : Loads) (image_name : Option String)
    (output spinner : Bool) (build_log : List (List UInt8)) (l : List Value) :
    Act.Keeps (fun s : Session => s.removed = l)
      (asyncBuildImage loads image_name output spinner build_log) := by
  have hprint : ∀ lines, Act.Keeps (fun s : Session => s.removed = l) (printOutput lines) :=
    fun _ => Act.keeps_modify fun _ h => h
  have hreport : ∀ image_tag e,
      Act.Keeps (fun s : Session => s.removed = l) (reportFailure image_tag e) := by
    intro image_tag e
    cases e with
    | build e =>
      exact Act.keeps_ite (Act.keeps_bind (Act.keeps_modify fun _ h => h)
        fun _ => Act.keeps_raise _) (Act.keeps_raise _)
    | imageNotFound | other => exact Act.keeps_raise _
  have hbuild : Act.Keeps (fun s : Session => s.removed = l)
      (building (dockerBuild loads true build_log)) := fun _ h => h
  have hafter : ∀ image_id : Value, Act.Keeps (fun s : Session => s.removed = l) (do
      if spinner && output then
        Act.modify fun s => { s with
          output := s.output ++ [.text (okMsg (imageTag image_name)), .log s.build.printed] }
      return ((imageTag image_name).map Value.str).getD image_id : Act Session Failure Value) :=
    fun image_id => Act.keeps_ite (Act.keeps_bind (Act.keeps_modify fun _ h => h)
      fun _ => Act.keeps_pure _) (Act.keeps_pure _)
  unfold asyncBuildImage
  apply Act.keeps_ite
  · exact Act.keeps_bind (hprint _) fun _ =>
      Act.keeps_bind (Act.keeps_handle hbuild (hreport _)) hafter
  · exact Act.keeps_bind (Act.keeps_handle hbuild (hreport _)) hafter

/-- For both contexts, once entered: the image is removed and the exception of the body
propagates exactly when the body returns. -/
theorem leavesNoImage_iff (loads : Loads) (daemon : Value → Except Failure Unit)
    (image_name : Option String) (file : Option Bool) (output spinner : Bool)
    (build_log : List (List UInt8)) (outcome : Except Failure β) (s : Session) :
    (∀ image_alias t,
      building (buildImage loads image_name file output build_log) s = (.ok image_alias, t) →
      (LeavesNoImage daemon image_alias outcome s (withBuildImage loads daemon image_name true
        file output spinner build_log (fun _ => outcome) s) ↔ ∃ value, outcome = .ok value)) ∧
    ∀ image_alias t,
      asyncBuildImage loads image_name output spinner build_log s = (.ok image_alias, t) →
      (LeavesNoImage daemon image_alias outcome s (withAsyncBuildImage loads daemon image_name
        true output spinner build_log (fun _ => outcome) s) ↔ ∃ value, outcome = .ok value) := by
  constructor
  · intro image_alias t hentered
    have hbody : (building (buildImage loads image_name file output build_log) >>=
        fun image_alias => leave daemon true image_alias outcome) s =
        leave daemon true image_alias outcome t := Act.bind_ok hentered
    obtain ⟨hfst, hsnd⟩ := spinning_eq (spinner && file == some false)
      (building (buildImage loads image_name file output build_log) >>=
        fun image_alias => leave daemon true image_alias outcome) s
    rw [hbody] at hfst hsnd
    have hkept : s.removed = t.removed := congrArg (fun entered => entered.2.removed) hentered
    exact leave_leavesNoImage_iff hfst hsnd hkept.symm
  · intro image_alias t hentered
    have hkept := keeps_removed_asyncBuildImage loads image_name output spinner build_log
      s.removed s rfl
    rw [hentered] at hkept
    have hbody : withAsyncBuildImage loads daemon image_name true output spinner build_log
        (fun _ => outcome) s = leave daemon true image_alias outcome t := Act.bind_ok hentered
    exact leave_leavesNoImage_iff (congrArg Prod.fst hbody)
      (congrArg (fun left => left.2.removed) hbody) hkept

/-- A daemon that removes every image. -/
def removes : Value → Except Failure Unit := fun _ => .ok ()

theorem oneStep_removed : ∃ image_alias, LeavesNoImage removes image_alias (.ok ()) {}
    (withAsyncBuildImage oneStepLoads removes (some "yellowbox") true true true oneStepLog
      (fun _ => .ok ()) {}) := by
  have hentered : (asyncBuildImage oneStepLoads (some "yellowbox") true true oneStepLog {}).1.isOk =
      true := by
    decide +kernel
  rcases hbuild : asyncBuildImage oneStepLoads (some "yellowbox") true true oneStepLog {} with
    ⟨e | image_alias, t⟩
  · rw [hbuild] at hentered
    cases hentered
  · exact ⟨image_alias, ((leavesNoImage_iff oneStepLoads removes (some "yellowbox") none true true
      oneStepLog (.ok ()) {}).2 image_alias t hbuild).mpr ⟨(), rfl⟩⟩

/-- An image whose body raises stays. -/
theorem raising_body_leaves_image : ¬∀ (loads : Loads) (daemon : Value → Except Failure Unit)
    (image_name : Option String) (file : Option Bool) (output spinner : Bool)
    (build_log : List (List UInt8)) (outcome : Except Failure Unit) (s : Session),
    (∀ image_alias t,
      building (buildImage loads image_name file output build_log) s = (.ok image_alias, t) →
      LeavesNoImage daemon image_alias outcome s (withBuildImage loads daemon image_name true
        file output spinner build_log (fun _ => outcome) s)) ∧
    ∀ image_alias t,
      asyncBuildImage loads image_name output spinner build_log s = (.ok image_alias, t) →
      LeavesNoImage daemon image_alias outcome s (withAsyncBuildImage loads daemon image_name
        true output spinner build_log (fun _ => outcome) s) := by
  intro h
  let raised : Except Failure Unit := .error (.other "AssertionError" true)
  have hentered :
      (building (buildImage oneStepLoads none none true oneStepLog) {}).1.isOk = true := by
    decide +kernel
  rcases hbuild : building (buildImage oneStepLoads none none true oneStepLog) {} with ⟨e | id, t⟩
  · rw [hbuild] at hentered
    cases hentered
  · have hremoved := ((h oneStepLoads removes none none true true oneStepLog raised {}).1
      id t hbuild).removed
    have hkept : (withBuildImage oneStepLoads removes none true none true true oneStepLog
        (fun _ => raised) {}).2.removed.length = 0 := by
      decide +kernel
    rw [hremoved] at hkept
    cases hkept

end Yellowbox.ImageBuild
