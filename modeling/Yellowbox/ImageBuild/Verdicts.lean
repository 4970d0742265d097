import Yellowbox.ImageBuild.Contexts

/-!
The outcome that a build log declares, and the one that `_docker_build` gives. Each
message passes, carries auxiliary data, or ends the build; the last image id is the
outcome of a log that no message ends.
-/
namespace Yellowbox.ImageBuild

open Effects Json

variable {loads : Loads}

/-- What a message of the log is, in the order in which its keys are looked at. -/
inductive Verdict
  | passes
  | carries (aux : Value)
  | offends (e : Exc)

def verdictOf (fields : List (String × Value)) : Verdict :=
  if (field fields "stream").truthy then .passes
  else if !(field fields "errorDetail").isNull then
    .offends (.buildError (field fields "errorDetail"))
  else if !(field fields "message").isNull then
    .offends (.dockerfileParseError (field fields "message"))
  else if !(field fields "status").isNull then .passes
  else if !(field fields "aux").isNull then .carries (field fields "aux")
  else .offends .dockerException

def verdict (loads : Loads) (msg : String) : Verdict :=
  match loads msg with
  | .ok (.obj fields) => verdictOf fields
  | _ => .offends .dockerException

def offence (loads : Loads) (msg : String) : Option Exc :=
  match verdict loads msg with
  | .offends e => some e
  | .passes | .carries _ => none

/-- The value under "ID" that an aux message carries. -/
def auxId (loads : Loads) (msg : String) : Option Value :=
  match verdict loads msg with
  | .carries (.obj fields) => fields.lookup "ID"
  | _ => none

/-- The messages of the chunks that decode. -/
def messages (build_log : List (List UInt8)) : List String :=
  build_log.flatMap fun msg_b => (decode msg_b).toOption.elim [] splitlines

/-- Every chunk is UTF-8, and every line is no JSON or a JSON object. -/
structure ReadableLog (loads : Loads) (build_log : List (List UInt8)) : Prop where
  decodes : ∀ msg_b ∈ build_log, ∃ text, decode msg_b = .ok text
  lines : ∀ msg ∈ messages build_log,
    loads msg = .error .jsonDecodeError ∨ ∃ fields, loads msg = .ok (.obj fields)

/-- The id of the last aux message that carries one, a null being none. -/
def lastId (loads : Loads) (msgs : List String) : Option Value :=
  ((msgs.filterMap (auxId loads)).filter fun id => !id.isNull).getLast?

/-- The outcome the log declares: the exception of the first message that ends the build,
or the last image id, or a `BuildError` when there is none. -/
def Declares (loads : Loads) (msgs : List String) (result : Except Exc Value) : Prop :=
  match msgs.findSome? (offence loads), lastId loads msgs with
  | some e, _ => result = .error e
  | none, some id => result = .ok id
  | none, none => ∃ reason, result = .error (.buildError reason)

/-- Every failed build is reported: the failure, and all that was printed. -/
def ReportsFailure (loads : Loads) (build_log : List (List UInt8)) : Prop :=
  ∀ image_name output spinner s e t,
    asyncBuildImage loads image_name output spinner build_log s = (.error e, t) →
    t.stderr = s.stderr ++ [.text (failMsg (imageTag image_name)), .log t.build.printed]

structure AsDeclared (loads : Loads) (build_log : List (List UInt8)) : Prop where
  outcome : Declares loads (messages build_log) (dockerBuild loads true build_log .start).1
  reported : ReportsFailure loads build_log

/-- `"ID" in aux` and `aux["ID"]` do not raise. -/
def Searchable (aux : Value) : Prop :=
  aux.contains? "ID" = some false ∨ ∃ fields, aux = .obj fields

/-- The messages before the first that ends the build. -/
def examined (loads : Loads) (msgs : List String) : List String :=
  msgs.takeWhile fun msg => (offence loads msg).isNone

/-- Every aux message that is reached can be searched for an id, and when no message ends
the build the last value under "ID" is there and not null. -/
structure YieldsId (loads : Loads) (msgs : List String) : Prop where
  searchable : ∀ msg ∈ examined loads msgs, ∀ aux, verdict loads msg = .carries aux →
    Searchable aux
  found : msgs.findSome? (offence loads) = none →
    ∃ id ∈ (msgs.filterMap (auxId loads)).getLast?, id.isNull = false

/-! ### One message -/

theorem lookup_isSome (fields : List (String × Value)) (key : String) :
    (fields.lookup key).isSome = fields.any fun field => field.1 = key := by
  rw [Bool.eq_iff_iff, List.lookup_isSome_iff, List.any_eq_true]
  simp only [beq_iff_eq, decide_eq_true_eq]
  exact exists_congr fun field => and_congr_right fun _ => eq_comm

theorem readId_obj (fields : List (String × Value)) (s : Build) :
    readId (.obj fields) s = (.ok (), { s with id := (fields.lookup "ID").getD s.id }) := by
  have hfound : (Value.obj fields).contains? "ID" = some (fields.lookup "ID").isSome := by
    rw [lookup_isSome]
    rfl
  rw [readId, Act.ofExcept_bind, hfound]
  cases hlookup : fields.lookup "ID" with
  | none => rfl
  | some id =>
    simp only [Option.isSome_some, Option.elim_some, if_true]
    rw [Act.ofExcept_bind, show (Value.obj fields).subscript? "ID" = some id from hlookup]
    rfl

theorem readId_absent {aux : Value} (h : aux.contains? "ID" = some false) (s : Build) :
    readId aux s = (.ok (), s) := by
  rw [readId, Act.ofExcept_bind, h]
  rfl

/-- A number has no keys, and a text or a list that contains "ID" has none to look up. -/
theorem readId_unsearchable {aux : Value} (h : ¬Searchable aux) (s : Build) :
    readId aux s = (.error .typeError, s) := by
  have hobj : ∀ fields, aux ≠ .obj fields := fun fields heq => h (Or.inr ⟨fields, heq⟩)
  have hsubscript : aux.subscript? "ID" = none := by
    cases aux with
    | obj fields => exact absurd rfl (hobj fields)
    | null | bool | int | float | str | arr => rfl
  rw [readId, Act.ofExcept_bind]
  cases hfound : aux.contains? "ID" with
  | none => rfl
  | some found =>
    cases found with
    | false => exact absurd (Or.inl hfound) h
    | true =>
      simp only [Option.elim_some, if_true]
      rw [Act.ofExcept_bind, hsubscript]
      rfl

/-- A message that is an object does what its verdict says. -/
theorem handleMessage_verdict {msg : String} {fields : List (String × Value)}
    (h : loads msg = .ok (.obj fields)) (s : Build) :
    handleMessage loads true msg s =
      (match verdictOf fields with
      | .passes =>
        print (if (field fields "stream").truthy then field fields "stream"
          else field fields "status")
      | .carries aux => do
        print aux
        readId aux
      | .offends e => Act.raise e : Act Build Exc Unit) s.begin := by
  have hparse : parse loads msg = .ok (.obj fields) := by rw [parse, h]
  rw [handleMessage_obj hparse, verdictOf, Bool.and_true]
  cases (field fields "stream").truthy with
  | true => rfl
  | false =>
    simp only [Bool.false_eq_true, if_false, handleOther_obj, Bool.and_true]
    cases (field fields "errorDetail").isNull with
    | false => rfl
    | true =>
      cases (field fields "message").isNull with
      | false => rfl
      | true =>
        cases (field fields "status").isNull with
        | false => rfl
        | true => cases (field fields "aux").isNull <;> rfl

section Message

variable {msg : String}
  (hreadable : loads msg = .error .jsonDecodeError ∨ ∃ fields, loads msg = .ok (.obj fields))
include hreadable

theorem handleMessage_offends {e : Exc} (h : offence loads msg = some e) (s : Build) :
    ∃ t, handleMessage loads true msg s = (.error e, t) := by
  rcases hreadable with hjson | ⟨fields, hobj⟩
  · have hparse : parse loads msg = .error .dockerException := by rw [parse, hjson]
    simp only [offence, verdict, hjson, Option.some.injEq] at h
    rw [handleMessage_unparsed hparse, h]
    exact ⟨_, rfl⟩
  · rw [handleMessage_verdict hobj]
    simp only [offence, verdict, hobj] at h
    cases hverdict : verdictOf fields with
    | passes | carries => simp [hverdict] at h
    | offends e' =>
      simp only [hverdict, Option.some.injEq] at h
      exact ⟨_, by rw [h]; rfl⟩

/-- A message that does not end the build leaves the id it carries, if any. -/
theorem handleMessage_goes (h : offence loads msg = none)
    (hsearchable : ∀ aux, verdict loads msg = .carries aux → Searchable aux) (s : Build) :
    ∃ t, handleMessage loads true msg s = (.ok (), t) ∧
      t.id = (auxId loads msg).getD s.id := by
  rcases hreadable with hjson | ⟨fields, hobj⟩
  · simp [offence, verdict, hjson] at h
  · have hverdict : verdict loads msg = verdictOf fields := by simp only [verdict, hobj]
    rw [handleMessage_verdict hobj]
    cases hcases : verdictOf fields with
    | passes =>
      refine ⟨_, rfl, ?_⟩
      simp only [auxId, hverdict, hcases]
      rfl
    | carries aux =>
      rcases hsearchable aux (hverdict.trans hcases) with habsent | ⟨fields', rfl⟩
      · refine ⟨_, readId_absent habsent _, ?_⟩
        cases aux with
        | obj fields' =>
          have hlookup := lookup_isSome fields' "ID"
          rw [Option.some.inj habsent] at hlookup
          rw [Option.isSome_eq_false_iff, Option.isNone_iff_eq_none] at hlookup
          simp only [auxId, hverdict, hcases, hlookup]
          rfl
        | null | bool | int | float | str | arr =>
          simp only [auxId, hverdict, hcases]
          rfl
      · refine ⟨_, readId_obj fields' _, ?_⟩
        simp only [auxId, hverdict, hcases]
        rfl
    | offends e => simp [offence, hverdict, hcases] at h

theorem handleMessage_unsearchable {aux : Value} (h : verdict loads msg = .carries aux)
    (haux : ¬Searchable aux) (s : Build) :
    ∃ t, handleMessage loads true msg s = (.error .typeError, t) := by
  rcases hreadable with hjson | ⟨fields, hobj⟩
  · simp [verdict, hjson] at h
  · simp only [verdict, hobj] at h
    rw [handleMessage_verdict hobj, h]
    exact ⟨_, readId_unsearchable haux _⟩

end Message

/-! ### The loop over the messages -/

/-- Each line is no JSON or a JSON object. -/
def Readable (loads : Loads) (msgs : List String) : Prop :=
  ∀ msg ∈ msgs, loads msg = .error .jsonDecodeError ∨ ∃ fields, loads msg = .ok (.obj fields)

/-- Every aux message that is reached can be searched. -/
def AllSearchable (loads : Loads) (msgs : List String) : Prop :=
  ∀ msg ∈ examined loads msgs, ∀ aux, verdict loads msg = .carries aux → Searchable aux

theorem examined_cons {msg : String} (h : offence loads msg = none) (msgs : List String) :
    examined loads (msg :: msgs) = msg :: examined loads msgs :=
  List.takeWhile_cons_of_pos (by rw [h]; rfl)

/-- The loop ends with the first offence, or with the last value under "ID". -/
theorem loop_searchable {msgs : List String} (hreadable : Readable loads msgs)
    (hsearchable : AllSearchable loads msgs) (s : Build) :
    ∃ t, match msgs.findSome? (offence loads) with
      | some e => Act.forEach (handleMessage loads true) msgs s = (.error e, t)
      | none => Act.forEach (handleMessage loads true) msgs s = (.ok (), t) ∧
          t.id = (msgs.filterMap (auxId loads)).getLast?.getD s.id := by
  induction msgs generalizing s with
  | nil => exact ⟨s, rfl, rfl⟩
  | cons msg msgs ih =>
    have hmsg := hreadable msg (List.mem_cons_self ..)
    have hmsgs : Readable loads msgs := fun m hm => hreadable m (List.mem_cons_of_mem msg hm)
    cases hoffence : offence loads msg with
    | some e =>
      obtain ⟨t, ht⟩ := handleMessage_offends hmsg hoffence s
      simp only [List.findSome?_cons, hoffence]
      exact ⟨t, Act.forEach_cons_error ht msgs⟩
    | none =>
      have hexamined := examined_cons hoffence msgs
      have hhead : ∀ aux, verdict loads msg = .carries aux → Searchable aux :=
        hsearchable msg (hexamined ▸ List.mem_cons_self ..)
      have htail : AllSearchable loads msgs :=
        fun m hm => hsearchable m (hexamined ▸ List.mem_cons_of_mem msg hm)
      obtain ⟨u, hu, hid⟩ := handleMessage_goes hmsg hoffence hhead s
      obtain ⟨t, ht⟩ := ih hmsgs htail u
      refine ⟨t, ?_⟩
      simp only [List.findSome?_cons, hoffence]
      cases hrest : msgs.findSome? (offence loads) with
      | some e =>
        simp only [hrest] at ht ⊢
        rw [Act.forEach_cons_ok hu, ht]
      | none =>
        simp only [hrest] at ht ⊢
        refine ⟨(Act.forEach_cons_ok hu msgs).trans ht.1, ?_⟩
        rw [ht.2, hid]
        cases hown : auxId loads msg with
        | none => rw [List.filterMap_cons_none hown, Option.getD_none]
        | some id =>
          rw [List.filterMap_cons_some hown, List.getLast?_cons, Option.getD_some,
            Option.getD_some]

/-- An aux message that cannot be searched ends the loop in a `TypeError`. -/
theorem loop_unsearchable {msgs : List String} (hreadable : Readable loads msgs)
    (h : ¬AllSearchable loads msgs) (s : Build) :
    ∃ t, Act.forEach (handleMessage loads true) msgs s = (.error .typeError, t) := by
  induction msgs generalizing s with
  | nil => exact absurd (by simp [AllSearchable, examined]) h
  | cons msg msgs ih =>
    have hmsg := hreadable msg (List.mem_cons_self ..)
    have hmsgs : Readable loads msgs := fun m hm => hreadable m (List.mem_cons_of_mem msg hm)
    cases hoffence : offence loads msg with
    | some e =>
      have hnone : examined loads (msg :: msgs) = [] :=
        List.takeWhile_cons_of_neg (by simp [hoffence])
      exact absurd (by simp [AllSearchable, hnone]) h
    | none =>
      by_cases hhead : ∀ aux, verdict loads msg = .carries aux → Searchable aux
      · have htail : ¬AllSearchable loads msgs := by
          intro htail
          apply h
          intro m hm
          rw [examined_cons hoffence] at hm
          rcases List.mem_cons.mp hm with rfl | hm
          · exact hhead
          · exact htail m hm
        obtain ⟨u, hu, -⟩ := handleMessage_goes hmsg hoffence hhead s
        obtain ⟨t, ht⟩ := ih hmsgs htail u
        exact ⟨t, (Act.forEach_cons_ok hu msgs).trans ht⟩
      · simp only [not_forall] at hhead
        obtain ⟨aux, hverdict, haux⟩ := hhead
        obtain ⟨t, ht⟩ := handleMessage_unsearchable hmsg hverdict haux s
        exact ⟨t, Act.forEach_cons_error ht msgs⟩

/-! ### Whole logs -/

/-- A log whose chunks decode is the list of its messages. -/
theorem allItems_eq_messages {build_log : List (List UInt8)}
    (h : ∀ msg_b ∈ build_log, ∃ text, decode msg_b = .ok text) :
    allItems build_log = (messages build_log).map .message := by
  induction build_log with
  | nil => rfl
  | cons msg_b build_log ih =>
    obtain ⟨text, htext⟩ := h msg_b (List.mem_cons_self ..)
    have hrest := ih fun m hm => h m (List.mem_cons_of_mem msg_b hm)
    rw [allItems] at hrest ⊢
    rw [List.flatMap_cons, hrest, messages, messages, List.flatMap_cons, List.map_append, items,
      htext]
    rfl

theorem forEach_messages {build_log : List (List UInt8)}
    (h : ∀ msg_b ∈ build_log, ∃ text, decode msg_b = .ok text) (s : Build) :
    Act.forEach (handleItem loads true) (allItems build_log) s =
      Act.forEach (handleMessage loads true) (messages build_log) s := by
  rw [allItems_eq_messages h, Act.forEach_map]
  rfl

theorem verdictOf_isDocker {fields : List (String × Value)} {e : Exc}
    (h : verdictOf fields = .offends e) : e.isDocker = true := by
  unfold verdictOf at h
  split at h
  · cases h
  split at h
  · cases h
    rfl
  split at h
  · cases h
    rfl
  split at h
  · cases h
  split at h
  · cases h
  · cases h
    rfl

theorem offence_isDocker {msg : String} {e : Exc} (h : offence loads msg = some e) :
    e.isDocker = true := by
  unfold offence at h
  cases hverdict : verdict loads msg with
  | passes | carries => simp [hverdict] at h
  | offends e' =>
    simp only [hverdict, Option.some.injEq] at h
    subst h
    unfold verdict at hverdict
    split at hverdict
    · exact verdictOf_isDocker hverdict
    · cases hverdict
      rfl

theorem findSome_isDocker {msgs : List String} {e : Exc}
    (h : msgs.findSome? (offence loads) = some e) : e.isDocker = true := by
  obtain ⟨msg, -, hmsg⟩ := List.exists_of_findSome?_eq_some h
  exact offence_isDocker hmsg

/-- Every exception that a log declares is one of docker's. -/
theorem declares_isDocker {msgs : List String} {e : Exc} (h : Declares loads msgs (.error e)) :
    e.isDocker = true := by
  unfold Declares at h
  cases hoffence : msgs.findSome? (offence loads) with
  | some e' =>
    simp only [hoffence, Except.error.injEq] at h
    exact h ▸ findSome_isDocker hoffence
  | none =>
    cases hlast : lastId loads msgs with
    | some id => simp [hoffence, hlast] at h
    | none =>
      simp only [hoffence, hlast, Except.error.injEq] at h
      obtain ⟨reason, rfl⟩ := h
      rfl

theorem getLast?_filter {α : Type} {p : α → Bool} {l : List α} {a : α}
    (h : l.getLast? = some a) (ha : p a = true) : (l.filter p).getLast? = some a := by
  obtain ⟨init, rfl⟩ := List.getLast?_eq_some_iff.mp h
  rw [List.filter_append, List.filter_singleton, ha]
  simp

section Builds

variable {build_log : List (List UInt8)}

/-- A message that ends the build is reached if the aux messages before it can be
searched. -/
theorem dockerBuild_offended (hlog : ReadableLog loads build_log)
    (hsearchable : AllSearchable loads (messages build_log)) {e : Exc}
    (h : (messages build_log).findSome? (offence loads) = some e) :
    (dockerBuild loads true build_log .start).1 = .error e := by
  obtain ⟨t, hloop⟩ := loop_searchable hlog.lines hsearchable .start
  simp only [h] at hloop
  rw [← forEach_messages hlog.decodes] at hloop
  rw [dockerBuild_error hloop]

/-- Where no message ends the build, its outcome is the last value under "ID", and the
`TypeError` of the exception made for a log without an id. -/
theorem dockerBuild_unended (hlog : ReadableLog loads build_log)
    (hsearchable : AllSearchable loads (messages build_log))
    (h : (messages build_log).findSome? (offence loads) = none) :
    (dockerBuild loads true build_log .start).1 =
      if (((messages build_log).filterMap (auxId loads)).getLast?.getD .null).isNull then
        .error .typeError
      else .ok (((messages build_log).filterMap (auxId loads)).getLast?.getD .null) := by
  obtain ⟨t, hloop⟩ := loop_searchable hlog.lines hsearchable .start
  simp only [h] at hloop
  obtain ⟨hloop, hid⟩ := hloop
  rw [← forEach_messages hlog.decodes] at hloop
  rw [dockerBuild_ok hloop, hid]
  rfl

theorem dockerBuild_unsearchable (hlog : ReadableLog loads build_log)
    (h : ¬AllSearchable loads (messages build_log)) :
    (dockerBuild loads true build_log .start).1 = .error .typeError := by
  obtain ⟨t, hloop⟩ := loop_unsearchable hlog.lines h .start
  rw [← forEach_messages hlog.decodes] at hloop
  rw [dockerBuild_error hloop]

theorem exists_not_null_iff {id : Option Value} :
    (∃ value ∈ id, value.isNull = false) ↔ (id.getD .null).isNull = false := by
  cases id with
  | none => exact iff_of_false nofun nofun
  | some value => simp

theorem dockerBuild_declares_iff (hlog : ReadableLog loads build_log) :
    Declares loads (messages build_log) (dockerBuild loads true build_log .start).1 ↔
      YieldsId loads (messages build_log) := by
  have htypeError : ¬Declares loads (messages build_log) (.error .typeError) := by
    intro h
    have hdocker := declares_isDocker h
    cases hdocker
  by_cases hsearchable : AllSearchable loads (messages build_log)
  · cases hoffence : (messages build_log).findSome? (offence loads) with
    | some e =>
      refine iff_of_true ?_ ⟨hsearchable, fun hnone => ?_⟩
      · rw [dockerBuild_offended hlog hsearchable hoffence, Declares, hoffence]
      · rw [hoffence] at hnone
        cases hnone
    | none =>
      rw [dockerBuild_unended hlog hsearchable hoffence]
      cases hlast :
        (((messages build_log).filterMap (auxId loads)).getLast?.getD .null).isNull with
      | true =>
        refine iff_of_false htypeError fun h => ?_
        have hfound := exists_not_null_iff.mp (h.found hoffence)
        rw [hlast] at hfound
        cases hfound
      | false =>
        obtain ⟨id, hmem, hid⟩ := exists_not_null_iff.mpr hlast
        refine iff_of_true ?_ ⟨hsearchable, fun _ => ⟨id, hmem, hid⟩⟩
        have hlastId : lastId loads (messages build_log) = some id :=
          getLast?_filter hmem (by rw [hid]; rfl)
        simp only [Declares, hoffence, hlastId, Option.mem_def.mp hmem]
        rfl
  · rw [dockerBuild_unsearchable hlog hsearchable]
    exact iff_of_false htypeError fun h => hsearchable h.searchable

end Builds

theorem reportsFailure_of_isDocker {build_log : List (List UInt8)}
    (h : ∀ e, (dockerBuild loads true build_log .start).1 = .error e → e.isDocker = true) :
    ReportsFailure loads build_log := by
  intro image_name output spinner s e t hfails
  rcases hbuild : dockerBuild loads true build_log .start with ⟨e' | id, b⟩
  · obtain ⟨left, hleft, hstderr⟩ := asyncBuildImage_fails image_name output spinner s hbuild
      (h e' (by rw [hbuild]))
    rw [hleft] at hfails
    cases hfails
    exact hstderr
  · have hok := asyncBuildImage_succeeds image_name output spinner s hbuild
    rw [hfails] at hok
    cases hok

/-- The outcome is the declared one, and every failure is reported, exactly when the aux
messages that are reached can be searched and a log without an offence ends with an id. -/
theorem asDeclared_iff {build_log : List (List UInt8)} (hlog : ReadableLog loads build_log) :
    AsDeclared loads build_log ↔ YieldsId loads (messages build_log) := by
  rw [← dockerBuild_declares_iff hlog]
  constructor
  · intro h
    exact h.outcome
  · intro h
    refine ⟨h, reportsFailure_of_isDocker fun e he => ?_⟩
    rw [he] at h
    exact declares_isDocker h

theorem messages_oneStep : messages oneStepLog = [oneStep.1, oneStep.2] := by decide +kernel

theorem verdict_oneStep : verdict oneStepLoads oneStep.1 = .passes ∧
    verdict oneStepLoads oneStep.2 = .carries (.obj [("ID", .str "sha256:1")]) := by
  have hfirst : oneStepLoads oneStep.1 = .ok (.obj [("stream", .str "Step 1")]) := if_pos rfl
  have hsecond : oneStepLoads oneStep.2 =
      .ok (.obj [("aux", .obj [("ID", .str "sha256:1")])]) :=
    (if_neg (by decide +kernel)).trans (if_pos rfl)
  rw [verdict, verdict, hfirst, hsecond]
  exact ⟨rfl, rfl⟩

theorem oneStep_readable : ReadableLog oneStepLoads oneStepLog := by
  constructor
  · intro msg_b hmem
    rcases List.mem_cons.mp hmem with rfl | hmem
    · exact ⟨_, decode_toUTF8 _⟩
    · rw [List.mem_singleton.mp hmem]
      exact ⟨_, decode_toUTF8 _⟩
  · rw [messages_oneStep]
    intro msg hmem
    rcases List.mem_cons.mp hmem with rfl | hmem
    · exact Or.inr ⟨_, if_pos rfl⟩
    · rw [List.mem_singleton.mp hmem]
      exact Or.inr ⟨_, (if_neg (by decide +kernel)).trans (if_pos rfl)⟩

theorem oneStep_asDeclared : AsDeclared oneStepLoads oneStepLog := by
  obtain ⟨hfirst, hsecond⟩ := verdict_oneStep
  apply (asDeclared_iff oneStep_readable).mpr
  rw [messages_oneStep]
  constructor
  · intro msg hmem aux haux
    rcases List.mem_cons.mp (List.takeWhile_subset _ hmem) with rfl | hmem
    · rw [hfirst] at haux
      cases haux
    · rw [List.mem_singleton.mp hmem, hsecond] at haux
      cases haux
      exact Or.inr ⟨_, rfl⟩
  · intro _
    refine ⟨.str "sha256:1", ?_, rfl⟩
    simp [auxId, hfirst, hsecond]

/-- The `BuildError` of an empty log is made without its `build_log`, a `TypeError` that
is not reported. -/
theorem empty_log_typeError : ¬∀ (loads : Loads) (build_log : List (List UInt8)),
    ReadableLog loads build_log → AsDeclared loads build_log := by
  intro h
  have hdeclared := (h oneStepLoads [] ⟨nofun, nofun⟩).outcome
  have hdocker := declares_isDocker
    (show Declares oneStepLoads (messages []) (.error .typeError) from hdeclared)
  cases hdocker

end Yellowbox.ImageBuild
