import Yellowbox.ImageBuild.BuildLog

/-!
`_docker_build` with and without an output on the same log. Without one the very first
message ends the build, so the outcomes agree exactly when the first message ends
it with an output too.
-/
namespace Yellowbox.ImageBuild

open Effects Json

variable {loads : Loads} {output : Bool}

/-! ### The log as one list of messages -/

/-- What `_docker_build` comes upon: a message, or a chunk that does not decode. -/
inductive Item
  | undecodable
  | message (msg : String)

def items (msg_b : List UInt8) : List Item :=
  match decode msg_b with
  | .ok text => (splitlines text).map .message
  | .error _ => [.undecodable]

def allItems (build_log : List (List UInt8)) : List Item := build_log.flatMap items

def handleItem (loads : Loads) (output : Bool) : Item → Act Build Exc Unit
  | .undecodable => Act.raise .unicodeDecodeError
  | .message msg => handleMessage loads output msg

theorem decode_error {msg_b : List UInt8} {e : Exc} (h : decode msg_b = .error e) :
    e = .unicodeDecodeError := by
  rw [decode] at h
  split at h
  · cases h
  · exact (Except.error.inj h).symm

theorem decode_toUTF8 (text : String) : decode text.toUTF8.data.toList = .ok text := by
  have hvalid : (ByteArray.mk text.toUTF8.data.toList.toArray).IsValidUTF8 := by
    rw [Array.toArray_toList]
    exact text.isValidUTF8
  rw [decode, String.fromUTF8?, dif_pos hvalid]
  simp [String.fromUTF8]

theorem handleChunk_eq (msg_b : List UInt8) :
    handleChunk loads output msg_b = Act.forEach (handleItem loads output) (items msg_b) := by
  funext s
  rw [handleChunk, Act.ofExcept_bind, items]
  cases hdecode : decode msg_b with
  | ok text =>
    simp only [Act.forEach_map]
    rfl
  | error e =>
    rw [decode_error hdecode]
    rfl

theorem forEach_handleChunk (build_log : List (List UInt8)) (s : Build) :
    Act.forEach (handleChunk loads output) build_log s =
      Act.forEach (handleItem loads output) (allItems build_log) s := by
  rw [allItems, ← Act.forEach_flatMap]
  congr
  funext msg_b
  exact handleChunk_eq msg_b

/-- The end of `_docker_build`, after the loops. -/
theorem dockerBuild_ok {build_log : List (List UInt8)} {s t : Build}
    (h : Act.forEach (handleItem loads output) (allItems build_log) s = (.ok (), t)) :
    dockerBuild loads output build_log s =
      (if t.id.isNull then .error .typeError else .ok t.id, t) := by
  rw [dockerBuild, Act.bind_ok ((forEach_handleChunk build_log s).trans h), Act.get_bind]
  cases t.id.isNull <;> rfl

theorem dockerBuild_error {build_log : List (List UInt8)} {s t : Build} {e : Exc}
    (h : Act.forEach (handleItem loads output) (allItems build_log) s = (.error e, t)) :
    dockerBuild loads output build_log s = (.error e, t) :=
  Act.bind_error ((forEach_handleChunk build_log s).trans h)

/-! ### One message -/

/-- A field of a `dict`, `None` when it is not there. -/
def field (fields : List (String × Value)) (key : String) : Value :=
  (fields.lookup key).getD .null

theorem getKey_obj (fields : List (String × Value)) (key : String) (s : Build) :
    getKey (.obj fields) key s = (.ok (field fields key), s) := rfl

theorem getKey_other {v : Value} (h : ∀ fields, v ≠ .obj fields) (key : String) (s : Build) :
    getKey v key s = (.error .attributeError, s) := by
  cases v with
  | obj fields => exact absurd rfl (h fields)
  | null | bool | int | float | str | arr => rfl

theorem handleOther_obj (output : Bool) (fields : List (String × Value)) (s : Build) :
    handleOther output (.obj fields) s =
      (if !(field fields "errorDetail").isNull then
        Act.raise (.buildError (field fields "errorDetail"))
      else if !(field fields "message").isNull then
        Act.raise (.dockerfileParseError (field fields "message"))
      else if !(field fields "status").isNull && output then
        print (field fields "status")
      else if !(field fields "aux").isNull && output then do
        print (field fields "aux")
        readId (field fields "aux")
      else
        Act.raise .dockerException : Act Build Exc Unit) s := by
  rw [handleOther, Act.bind_ok (getKey_obj fields "errorDetail" s),
    Act.bind_ok (getKey_obj fields "message" s), Act.bind_ok (getKey_obj fields "status" s),
    Act.bind_ok (getKey_obj fields "aux" s)]

/-- The state once a message is begun. -/
def Build.begin (s : Build) : Build := { s with begun := s.begun + 1 }

theorem handleMessage_unparsed {msg : String} {e : Exc} (h : parse loads msg = .error e)
    (s : Build) : handleMessage loads output msg s = (.error e, s.begin) := by
  rw [handleMessage, Act.modify_bind, h]
  rfl

theorem handleMessage_other {msg : String} {v : Value} (h : parse loads msg = .ok v)
    (hv : ∀ fields, v ≠ .obj fields) (s : Build) :
    handleMessage loads output msg s = (.error .attributeError, s.begin) := by
  rw [handleMessage, Act.modify_bind, h, Act.ofExcept_bind]
  exact Act.bind_error (getKey_other hv "stream" s.begin)

theorem handleMessage_obj {msg : String} {fields : List (String × Value)}
    (h : parse loads msg = .ok (.obj fields)) (s : Build) :
    handleMessage loads output msg s =
      (if (field fields "stream").truthy && output then
        print (field fields "stream")
      else
        handleOther output (.obj fields) : Act Build Exc Unit) s.begin := by
  rw [handleMessage, Act.modify_bind, h, Act.ofExcept_bind]
  exact Act.bind_ok (getKey_obj fields "stream" s.begin)

/-! ### The first message under both settings -/

/-- The message ends the build with an output too: it is not a JSON object, or it has no
text to print as `stream` and is an error or has neither `status` nor `aux`. -/
def EndsBuild (loads : Loads) : Item → Prop
  | .undecodable => True
  | .message msg => ∀ fields, parse loads msg = .ok (.obj fields) →
      (field fields "stream").truthy = false ∧
        ((field fields "errorDetail").isNull = false ∨
          (field fields "message").isNull = false ∨
          ((field fields "status").isNull = true ∧ (field fields "aux").isNull = true))

/-- How many messages an item is. -/
def Item.count : Item → ℕ
  | undecodable => 0
  | message _ => 1

theorem handleItem_same {item : Item} (h : EndsBuild loads item) (s : Build) :
    handleItem loads true item s = handleItem loads false item s := by
  cases item with
  | undecodable => rfl
  | message msg =>
    show handleMessage loads true msg s = handleMessage loads false msg s
    cases hparse : parse loads msg with
    | error e => rw [handleMessage_unparsed hparse, handleMessage_unparsed hparse]
    | ok v =>
      by_cases hv : ∃ fields, v = .obj fields
      · obtain ⟨fields, rfl⟩ := hv
        obtain ⟨hstream, hends⟩ := h fields hparse
        rw [handleMessage_obj hparse, handleMessage_obj hparse, hstream]
        simp only [Bool.false_and, Bool.false_eq_true, if_false, handleOther_obj]
        rcases hends with hdetail | hmessage | ⟨hstatus, haux⟩
        · simp only [hdetail, Bool.not_false, if_true]
        · simp only [hmessage, Bool.not_false, if_true]
        · simp only [hstatus, haux, Bool.not_true, Bool.false_and, Bool.false_eq_true, if_false]
      · have hother : ∀ fields, v ≠ .obj fields := fun fields hfields => hv ⟨fields, hfields⟩
        rw [handleMessage_other hparse hother, handleMessage_other hparse hother]

/-- A message that does not end the build with an output. -/
theorem not_endsBuild {item : Item} (h : ¬ EndsBuild loads item) :
    ∃ msg fields, item = .message msg ∧ parse loads msg = .ok (.obj fields) ∧
      ((field fields "stream").truthy = true ∨
        ((field fields "errorDetail").isNull = true ∧ (field fields "message").isNull = true ∧
          ((field fields "status").isNull = true → (field fields "aux").isNull = false))) := by
  cases item with
  | undecodable => exact absurd trivial h
  | message msg =>
    simp only [EndsBuild, not_forall] at h
    obtain ⟨fields, hparse, hnot⟩ := h
    refine ⟨msg, fields, rfl, hparse, ?_⟩
    cases hstream : (field fields "stream").truthy with
    | true => exact Or.inl rfl
    | false =>
      right
      simpa [hstream] using hnot

/-- Without an output a message that is an object always ends the build in an error of
docker's. -/
theorem handleMessage_quiet {msg : String} {fields : List (String × Value)}
    (h : parse loads msg = .ok (.obj fields)) (s : Build) :
    ∃ e, handleMessage loads false msg s = (.error e, s.begin) ∧ e.isDocker = true := by
  rw [handleMessage_obj h]
  simp only [Bool.and_false, Bool.false_eq_true, if_false, handleOther_obj]
  split
  · exact ⟨_, rfl, rfl⟩
  · split
    · exact ⟨_, rfl, rfl⟩
    · exact ⟨_, rfl, rfl⟩

/-- Without an output no message is passed over. -/
theorem handleItem_quiet (loads : Loads) (item : Item) (s : Build) :
    ∃ e t, handleItem loads false item s = (.error e, t) := by
  cases item with
  | undecodable => exact ⟨_, _, rfl⟩
  | message msg =>
    show ∃ e t, handleMessage loads false msg s = (.error e, t)
    cases hparse : parse loads msg with
    | error e => exact ⟨_, _, handleMessage_unparsed hparse s⟩
    | ok v =>
      by_cases hv : ∃ fields, v = .obj fields
      · obtain ⟨fields, rfl⟩ := hv
        obtain ⟨e, hraise, -⟩ := handleMessage_quiet hparse s
        exact ⟨e, _, hraise⟩
      · exact ⟨_, _, handleMessage_other hparse (fun fields hfields => hv ⟨fields, hfields⟩) s⟩

/-- Running this neither begins a message nor ends in an error of docker's. -/
def Passes (x : Act Build Exc Unit) : Prop :=
  ∀ s, (x s).2.begun = s.begun ∧ ∀ e, (x s).1 = .error e → e.isDocker = false

theorem passes_print (v : Value) : Passes (print v) := fun _ => ⟨rfl, nofun⟩

theorem passes_readId (aux : Value) : Passes (readId aux) := by
  intro s
  rw [readId, Act.ofExcept_bind]
  cases aux.contains? "ID" with
  | none => exact ⟨rfl, fun e he => by cases he; rfl⟩
  | some found =>
    cases found with
    | false => exact ⟨rfl, nofun⟩
    | true =>
      show ((Act.ofExcept _ >>= _) s).2.begun = _ ∧ _
      rw [Act.ofExcept_bind]
      cases aux.subscript? "ID" with
      | none => exact ⟨rfl, fun e he => by cases he; rfl⟩
      | some id => exact ⟨rfl, nofun⟩

theorem handleMessage_passes {msg : String} {fields : List (String × Value)}
    (hparse : parse loads msg = .ok (.obj fields))
    (h : (field fields "stream").truthy = true ∨
      ((field fields "errorDetail").isNull = true ∧ (field fields "message").isNull = true ∧
        ((field fields "status").isNull = true → (field fields "aux").isNull = false)))
    (s : Build) :
    (handleMessage loads true msg s).2.begun = s.begun + 1 ∧
      ∀ e, (handleMessage loads true msg s).1 = .error e → e.isDocker = false := by
  rw [handleMessage_obj hparse]
  cases hstream : (field fields "stream").truthy with
  | true => exact passes_print _ s.begin
  | false =>
    simp only [hstream, Bool.false_eq_true, false_or] at h
    obtain ⟨hdetail, hmessage, hshown⟩ := h
    simp only [Bool.false_eq_true, if_false, handleOther_obj, hdetail, hmessage, Bool.not_true,
      Bool.and_true]
    cases hstatus : (field fields "status").isNull with
    | false => exact passes_print _ s.begin
    | true =>
      have haux : (field fields "aux").isNull = false := hshown hstatus
      simp only [haux, Bool.not_true, Bool.not_false, Bool.false_eq_true, if_false, if_true]
      exact passes_readId _ _

/-! ### Whole logs -/

/-- What a message does once it is begun begins no other. -/
theorem keeps_begun (loads : Loads) (output : Bool) (n : ℕ) (msg : String) :
    Act.Keeps (fun s => n ≤ s.begun)
      (do
        let parse_msg ← Act.ofExcept (parse loads msg)
        let stream ← getKey parse_msg "stream"
        if stream.truthy && output then
          print stream
        else
          handleOther output parse_msg) := by
  have hkey : ∀ v key, Act.Keeps (fun s => n ≤ s.begun) (getKey v key) :=
    fun _ _ => Act.keeps_ofExcept _
  have hprint : ∀ v, Act.Keeps (fun s => n ≤ s.begun) (print v) :=
    fun v s h => Nat.le_trans h (Nat.le_of_eq (passes_print v s).1.symm)
  have hread : ∀ v, Act.Keeps (fun s => n ≤ s.begun) (readId v) :=
    fun v s h => Nat.le_trans h (Nat.le_of_eq (passes_readId v s).1.symm)
  refine Act.keeps_bind (Act.keeps_ofExcept _) fun v => ?_
  refine Act.keeps_bind (hkey v _) fun stream => ?_
  refine Act.keeps_ite (hprint stream) ?_
  refine Act.keeps_bind (hkey v _) fun errorDetail => ?_
  refine Act.keeps_bind (hkey v _) fun errorMsg => ?_
  refine Act.keeps_bind (hkey v _) fun status => ?_
  refine Act.keeps_bind (hkey v _) fun aux => ?_
  refine Act.keeps_ite (Act.keeps_raise _) (Act.keeps_ite (Act.keeps_raise _) ?_)
  refine Act.keeps_ite (hprint status) (Act.keeps_ite ?_ (Act.keeps_raise _))
  exact Act.keeps_bind (hprint aux) fun _ => hread aux

theorem begun_message (loads : Loads) (output : Bool) (msg : String) (s : Build) :
    s.begun + 1 ≤ (handleMessage loads output msg s).2.begun := by
  have hrest := keeps_begun loads output (s.begun + 1) msg s.begin
  rw [handleMessage, Act.modify_bind]
  exact hrest (Nat.le_refl _)

/-- A loop over the items begins the first of them, if it is a message. -/
theorem begun_forEach (loads : Loads) (output : Bool) (msg : String) (rest : List Item)
    (s : Build) :
    s.begun + 1 ≤
      (Act.forEach (handleItem loads output) (.message msg :: rest) s).2.begun := by
  have hkeeps : ∀ item, Act.Keeps (fun t => s.begun + 1 ≤ t.begun)
      (handleItem loads output item) := by
    intro item
    cases item with
    | undecodable => exact Act.keeps_raise _
    | message msg =>
      exact Act.keeps_bind (Act.keeps_modify fun t h => Nat.le_succ_of_le h) fun _ =>
        keeps_begun loads output _ msg
  have hfirst := begun_message loads output msg s
  cases hcall : handleMessage loads output msg s with
  | mk r t =>
    rw [hcall] at hfirst
    cases r with
    | error e =>
      have hitem : handleItem loads output (.message msg) s = (.error e, t) := hcall
      rw [Act.forEach_cons_error hitem]
      exact hfirst
    | ok u =>
      have hitem : handleItem loads output (.message msg) s = (.ok (), t) := hcall
      rw [Act.forEach_cons_ok hitem]
      exact Act.keeps_forEach rest hkeeps t hfirst

/-- The number of messages begun is that of the loops. -/
theorem dockerBuild_begun (build_log : List (List UInt8)) (s : Build) :
    (dockerBuild loads output build_log s).2.begun =
      (Act.forEach (handleItem loads output) (allItems build_log) s).2.begun := by
  cases hloop : Act.forEach (handleItem loads output) (allItems build_log) s with
  | mk r t =>
    cases r with
    | error e => rw [dockerBuild_error hloop]
    | ok u => rw [dockerBuild_ok hloop]

/-- `_docker_build` without an output and with one: the same image id, or the same
exception at the same message. -/
def SameOutcome (loads : Loads) (build_log : List (List UInt8)) : Prop :=
  (dockerBuild loads false build_log .start).1 = (dockerBuild loads true build_log .start).1 ∧
    (dockerBuild loads false build_log .start).2.begun =
      (dockerBuild loads true build_log .start).2.begun

theorem sameOutcome_of_ends {build_log : List (List UInt8)} {item : Item} {rest : List Item}
    (hlog : allItems build_log = item :: rest) (h : EndsBuild loads item) :
    SameOutcome loads build_log := by
  obtain ⟨e, t, hquiet⟩ := handleItem_quiet loads item .start
  have hloud : handleItem loads true item .start = (.error e, t) :=
    (handleItem_same h .start).trans hquiet
  have hfalse := Act.forEach_cons_error hquiet rest
  have htrue := Act.forEach_cons_error hloud rest
  rw [← hlog] at hfalse htrue
  rw [SameOutcome, dockerBuild_error hfalse, dockerBuild_error htrue]
  exact ⟨rfl, rfl⟩

theorem error_ne_docker {α : Type} {e e' : Exc} (he : e.isDocker = true)
    (he' : e'.isDocker = false) : (.error e' : Except Exc α) ≠ .error e := by
  intro h
  rw [Except.error.inj h, he] at he'
  contradiction

/-- After a message that does not end the build, the run with an output ends somewhere
else, or in another way. -/
theorem loud_differs {build_log : List (List UInt8)} {item : Item} {rest : List Item}
    (hlog : allItems build_log = item :: rest) (h : ¬ EndsBuild loads item) (e : Exc)
    (he : e.isDocker = true) :
    (dockerBuild loads true build_log .start).1 = .error e →
      (dockerBuild loads true build_log .start).2.begun ≠ 1 := by
  obtain ⟨msg, fields, rfl, hparse, hpasses⟩ := not_endsBuild h
  obtain ⟨hbegun, hkind⟩ := handleMessage_passes hparse hpasses .start
  cases hcall : handleMessage loads true msg .start with
  | mk r t =>
    rw [hcall] at hbegun hkind
    cases r with
    | error e' =>
      have hloop := Act.forEach_cons_error
        (show handleItem loads true (.message msg) .start = (.error e', t) from hcall) rest
      rw [← hlog] at hloop
      rw [dockerBuild_error hloop]
      intro hresult
      exact absurd hresult (error_ne_docker he (hkind e' rfl))
    | ok u =>
      have hloop := Act.forEach_cons_ok
        (show handleItem loads true (.message msg) .start = (.ok (), t) from hcall) rest
      rw [← hlog] at hloop
      cases rest with
      | nil =>
        rw [dockerBuild_ok hloop]
        intro hresult
        split at hresult
        · exact absurd hresult (error_ne_docker he rfl)
        · contradiction
      | cons next rest =>
        cases next with
        | undecodable =>
          rw [dockerBuild_error hloop]
          intro hresult
          exact absurd hresult (error_ne_docker he rfl)
        | message next =>
          intro _
          have hone : t.begun = 1 := hbegun
          have hmore := begun_forEach loads true next rest t
          rw [dockerBuild_begun, hloop]
          omega

/-- The outcome does not depend on the output exactly when the first message, if there is
one, ends the build with an output too. -/
theorem sameOutcome_iff (build_log : List (List UInt8)) :
    SameOutcome loads build_log ↔
      ∀ item ∈ (allItems build_log).head?, EndsBuild loads item := by
  cases hlog : allItems build_log with
  | nil =>
    have hloop : ∀ output, Act.forEach (handleItem loads output) (allItems build_log) .start =
        (.ok (), .start) := by
      intro output
      rw [hlog]
      rfl
    have hsame : SameOutcome loads build_log := by
      rw [SameOutcome, dockerBuild_ok (hloop false), dockerBuild_ok (hloop true)]
      exact ⟨rfl, rfl⟩
    simpa using hsame
  | cons item rest =>
    have hhead : (∀ item' ∈ (item :: rest).head?, EndsBuild loads item') ↔
        EndsBuild loads item := by
      simp
    rw [hhead]
    refine ⟨fun hsame => ?_, sameOutcome_of_ends hlog⟩
    by_contra h
    obtain ⟨msg, fields, rfl, hparse, -⟩ := not_endsBuild h
    obtain ⟨e, hquiet, he⟩ := handleMessage_quiet hparse .start
    have hfalse := Act.forEach_cons_error
      (show handleItem loads false (.message msg) .start = (.error e, _) from hquiet) rest
    rw [← hlog] at hfalse
    rw [SameOutcome, dockerBuild_error hfalse] at hsame
    exact loud_differs hlog h e he hsame.1.symm hsame.2.symm

/-- Without an output no build succeeds: some message is begun and raises, or there is none
to give an id. -/
theorem dockerBuild_quiet (loads : Loads) (build_log : List (List UInt8)) (id : Value) :
    (dockerBuild loads false build_log .start).1 ≠ .ok id := by
  cases hlog : allItems build_log with
  | nil =>
    have hloop : Act.forEach (handleItem loads false) (allItems build_log) .start =
        (.ok (), .start) := by
      rw [hlog]
      rfl
    rw [dockerBuild_ok hloop]
    exact nofun
  | cons item rest =>
    obtain ⟨e, t, hquiet⟩ := handleItem_quiet loads item .start
    have hloop := Act.forEach_cons_error hquiet rest
    rw [← hlog] at hloop
    rw [dockerBuild_error hloop]
    exact nofun

/-! ### `build_image` -/

/-- The context of `build_image` is entered. -/
def Enters (loads : Loads) (image_name : Option String) (output : Bool)
    (build_log : List (List UInt8)) : Prop :=
  ∃ image_alias, (buildImage loads image_name none output build_log .start).1 = .ok image_alias

theorem enters_iff (image_name : Option String) (build_log : List (List UInt8)) :
    Enters loads image_name output build_log ↔
      ∃ id, (dockerBuild loads output build_log .start).1 = .ok id := by
  rw [Enters, buildImage]
  cases hbuild : dockerBuild loads output build_log .start with
  | mk r t =>
    cases r with
    | error e =>
      rw [show (none : Option Bool).getD output = output from rfl, Act.bind_error hbuild]
    | ok id =>
      rw [show (none : Option Bool).getD output = output from rfl, Act.bind_ok hbuild]
      exact ⟨fun _ => ⟨id, rfl⟩, fun _ => ⟨_, rfl⟩⟩

/-- The output decides neither the outcome of the build nor whether `build_image`
succeeds. -/
structure OutputIndependent (loads : Loads) (build_log : List (List UInt8)) : Prop where
  same : SameOutcome loads build_log
  enters : ∀ image_name,
    Enters loads image_name false build_log ↔ Enters loads image_name true build_log

theorem outputIndependent_iff (loads : Loads) (build_log : List (List UInt8)) :
    OutputIndependent loads build_log ↔
      ∀ item ∈ (allItems build_log).head?, EndsBuild loads item := by
  rw [← sameOutcome_iff]
  constructor
  · intro h
    exact h.same
  · intro h
    refine ⟨h, fun image_name => ?_⟩
    rw [enters_iff, enters_iff, h.1]

/-- A build of one step: what the step prints, and the image. -/
def oneStep : String × String :=
  ("\x7b\"stream\": \"Step 1\"\x7d", "\x7b\"aux\": \x7b\"ID\": \"sha256:1\"\x7d\x7d")

def oneStepLoads : Loads := fun msg =>
  if msg = oneStep.1 then .ok (.obj [("stream", .str "Step 1")])
  else if msg = oneStep.2 then .ok (.obj [("aux", .obj [("ID", .str "sha256:1")])])
  else .error .jsonDecodeError

def oneStepLog : List (List UInt8) :=
  [(oneStep.1 ++ "\r\n").toUTF8.data.toList, (oneStep.2 ++ "\r\n").toUTF8.data.toList]

/-- The build gives its image with an output and raises without one. -/
theorem successful_build_raises :
    ¬ ∀ (loads : Loads) (build_log : List (List UInt8)), OutputIndependent loads build_log := by
  intro h
  have hquiet : (dockerBuild oneStepLoads false oneStepLog .start).1.isOk = false := by
    decide +kernel
  have hloud : (dockerBuild oneStepLoads true oneStepLog .start).1.isOk = true := by
    decide +kernel
  rw [(h oneStepLoads oneStepLog).same.1, hloud] at hquiet
  cases hquiet

end Yellowbox.ImageBuild
