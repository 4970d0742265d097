import Yellowbox.Base.Dicts
import Yellowbox.Base.Json

/-!
The assertions of the fake logstash service about the levels of its records. Each of
them resolves the level it is given, and looks at the records of that level or above
until it knows enough; one shows the message of the record it found.
-/
namespace Yellowbox.LogLevels

open Dicts Json

/-- A level as `logging` takes and gives it. -/
inductive Level
  | number (n : ℤ)
  | name (s : String)
  deriving DecidableEq

/-- The names that are registered with `logging`, and `str.upper`. -/
structure Logging where
  nameToLevel : Dict String ℤ
  levelToName : Dict ℤ String
  upper : String → String

/-- `logging.getLevelName` -/
def Logging.getLevelName (logging : Logging) : Level → Level
  | .number n =>
    match logging.levelToName.get? n with
    | some name => .name name
    | none => .name s!"Level {n}"
  | .name s =>
    match logging.nameToLevel.get? s with
    | some n => .number n
    | none => .name s!"Level {s}"

abbrev Record := Dict String Value

/-- What the methods raise: a `ValueError`, a `KeyError`, a `TypeError`, and the
`AssertionError` of each assertion with what its text shows. -/
inductive LogError
  | unknownLevel (level : String)
  | keyError (key : String)
  | typeError
  | noLogs (level : Level)
  | logReceived (level message : Value)

def LogError.isAssertion : LogError → Bool
  | noLogs _ | logReceived _ _ => true
  | unknownLevel _ | keyError _ | typeError => false

variable {logging : Logging}

/-- `_level_to_int` -/
def levelToInt (logging : Logging) : Level → Except LogError ℤ
  | .number n => .ok n
  | .name s =>
    match logging.getLevelName (.name (logging.upper s)) with
    | .number n => .ok n
    | .name unknown => .error (.unknownLevel unknown)

/-- `logging.getLevelName(record["level"]) >= level`. Of anything but a registered name
`getLevelName` gives a `str`, which is not comparable with a number, or raises a
`TypeError` itself. -/
def passes (logging : Logging) (level : ℤ) (record : Record) : Except LogError Bool :=
  match record.get? "level" with
  | none => .error (.keyError "level")
  | some (.str name) =>
    match logging.getLevelName (.name name) with
    | .number n => .ok (n ≥ level)
    | .name _ => .error .typeError
  | some _ => .error .typeError

/-- All records of the generator of `filter_records`. -/
def filtered (logging : Logging) (level : ℤ) : List Record → Except LogError (List Record)
  | [] => .ok []
  | record :: records => do
    let pass ← passes logging level record
    let rest ← filtered logging level records
    return if pass then record :: rest else rest

/-- `next(…, None)` of the generator. -/
def nextFiltered (logging : Logging) (level : ℤ) : List Record → Except LogError (Option Record)
  | [] => .ok none
  | record :: records => do
    let pass ← passes logging level record
    if pass then return some record else nextFiltered logging level records

/-- `any(…)` of the generator; a record counts when it is not an empty `dict`. -/
def anyFiltered (logging : Logging) (level : ℤ) : List Record → Except LogError Bool
  | [] => .ok false
  | record :: records => do
    let pass ← passes logging level record
    if pass && !record.entries.isEmpty then return true else anyFiltered logging level records

/-- `list(self.filter_records(level))` -/
def filterRecords (logging : Logging) (records : List Record) (level : Level) :
    Except LogError (List Record) := do
  let level ← levelToInt logging level
  filtered logging level records

def assertLogs (logging : Logging) (records : List Record) (level : Level) :
    Except LogError Unit := do
  let level ← levelToInt logging level
  let again ← levelToInt logging (.number level)
  let found ← anyFiltered logging again records
  if !found then .error (.noLogs (logging.getLevelName (.number level))) else .ok ()

def assertNoLogs (logging : Logging) (records : List Record) (level : Level) :
    Except LogError Unit := do
  let level ← levelToInt logging level
  let again ← levelToInt logging (.number level)
  match ← nextFiltered logging again records with
  | none => .ok ()
  | some record =>
    if record.entries.isEmpty then .ok ()
    else
      match record.get? "level", record.get? "message" with
      | none, _ => .error (.keyError "level")
      | some _, none => .error (.keyError "message")
      | some level, some message => .error (.logReceived level message)

/-! ### Records with registered levels -/

/-- A record whose level is a registered name in upper case. -/
structure LevelRecord (logging : Logging) where
  record : Record
  name : String
  level : ℤ
  upper : logging.upper name = name
  hasLevel : record.get? "level" = some (.str name)
  registered : logging.nameToLevel.get? name = some level

/-- A level given by number, or by a name in any letter case. -/
structure GivenLevel (logging : Logging) where
  given : Level
  level : ℤ
  resolves : match given with
    | .number n => n = level
    | .name s => logging.nameToLevel.get? (logging.upper s) = some level

/-- The records of a level or above, in their order. -/
def above (level : ℤ) (records : List (LevelRecord logging)) : List (LevelRecord logging) :=
  records.filter fun r => level ≤ r.level

/-- `filter_records` gives the records of the level or above; `assert_logs` raises an
`AssertionError` when there are none, `assert_no_logs` when there are some, and neither
raises anything else. -/
structure ExactOpposites (records : List (LevelRecord logging)) (level : GivenLevel logging) :
    Prop where
  filter : filterRecords logging (records.map (·.record)) level.given =
    .ok ((above level.level records).map (·.record))
  logs : (∃ e : LogError, e.isAssertion = true ∧
    assertLogs logging (records.map (·.record)) level.given = .error e) ↔
      above level.level records = []
  noLogs : (∃ e : LogError, e.isAssertion = true ∧
    assertNoLogs logging (records.map (·.record)) level.given = .error e) ↔
      above level.level records ≠ []
  logsOnly : ∀ e : LogError, assertLogs logging (records.map (·.record)) level.given = .error e →
    e.isAssertion = true
  noLogsOnly : ∀ e : LogError,
    assertNoLogs logging (records.map (·.record)) level.given = .error e → e.isAssertion = true

theorem levelToInt_given (level : GivenLevel logging) :
    levelToInt logging level.given = .ok level.level := by
  obtain ⟨given, value, hresolves⟩ := level
  cases given with
  | number n => exact congrArg Except.ok hresolves
  | name s =>
    dsimp only at hresolves
    rw [levelToInt, Logging.getLevelName, hresolves]

theorem passes_eq (level : ℤ) (r : LevelRecord logging) :
    passes logging level r.record = .ok (decide (level ≤ r.level)) := by
  rw [passes, r.hasLevel]
  simp only [Logging.getLevelName, r.registered]

theorem entries_ne_nil (r : LevelRecord logging) : r.record.entries.isEmpty = false := by
  have hmem := Dict.mem_entries_iff.mpr r.hasLevel
  rw [List.isEmpty_eq_false_iff]
  exact List.ne_nil_of_mem hmem

/-! ### The generator -/

theorem above_cons (level : ℤ) (r : LevelRecord logging) (records : List (LevelRecord logging)) :
    above level (r :: records) =
      if level ≤ r.level then r :: above level records else above level records := by
  simp [above, List.filter_cons]

theorem filtered_eq (level : ℤ) (records : List (LevelRecord logging)) :
    filtered logging level (records.map (·.record)) =
      .ok ((above level records).map (·.record)) := by
  induction records with
  | nil => rfl
  | cons r records ih =>
    rw [List.map_cons, filtered, passes_eq, ih, above_cons]
    simp only [bind, Except.bind, pure, Except.pure, decide_eq_true_eq]
    split
    · rfl
    · rfl

theorem nextFiltered_eq (level : ℤ) (records : List (LevelRecord logging)) :
    nextFiltered logging level (records.map (·.record)) =
      .ok ((above level records).head?.map (·.record)) := by
  induction records with
  | nil => rfl
  | cons r records ih =>
    rw [List.map_cons, nextFiltered, passes_eq, above_cons]
    simp only [bind, Except.bind, pure, Except.pure, decide_eq_true_eq]
    split
    · rfl
    · exact ih

theorem anyFiltered_eq (level : ℤ) (records : List (LevelRecord logging)) :
    anyFiltered logging level (records.map (·.record)) =
      .ok (!(above level records).isEmpty) := by
  induction records with
  | nil => rfl
  | cons r records ih =>
    rw [List.map_cons, anyFiltered, passes_eq, above_cons, entries_ne_nil]
    simp only [bind, Except.bind, pure, Except.pure, Bool.not_false, Bool.and_true,
      decide_eq_true_eq]
    split
    · rfl
    · exact ih

/-! ### The methods -/

variable (records : List (LevelRecord logging)) (level : GivenLevel logging)

/-- `filter_records` gives the records of the level or above. -/
theorem filterRecords_eq : filterRecords logging (records.map (·.record)) level.given =
    .ok ((above level.level records).map (·.record)) := by
  rw [filterRecords, levelToInt_given]
  exact filtered_eq level.level records

theorem assertLogs_eq : assertLogs logging (records.map (·.record)) level.given =
    if above level.level records = [] then
      .error (.noLogs (logging.getLevelName (.number level.level)))
    else .ok () := by
  rw [assertLogs, levelToInt_given]
  show Except.bind (anyFiltered logging level.level (records.map (·.record))) _ = _
  rw [anyFiltered_eq]
  cases above level.level records with
  | nil => rfl
  | cons r rest => rfl

/-- The error of `assert_no_logs`, if it shows one, is about the first record. -/
theorem assertNoLogs_eq : assertNoLogs logging (records.map (·.record)) level.given =
    match (above level.level records).head? with
    | none => .ok ()
    | some r =>
      match r.record.get? "message" with
      | none => .error (.keyError "message")
      | some message => .error (.logReceived (.str r.name) message) := by
  rw [assertNoLogs, levelToInt_given]
  show Except.bind (nextFiltered logging level.level (records.map (·.record))) _ = _
  rw [nextFiltered_eq]
  cases (above level.level records).head? with
  | none => rfl
  | some r =>
    simp only [Option.map_some, Except.bind, entries_ne_nil, r.hasLevel]
    cases r.record.get? "message" with
    | none => rfl
    | some message => rfl

theorem exact_of_ok {result : Except LogError Unit} {P : Prop} (hresult : result = .ok ())
    (hP : ¬ P) : ((∃ e : LogError, e.isAssertion = true ∧ result = .error e) ↔ P) ∧
      ∀ e : LogError, result = .error e → e.isAssertion = true := by
  subst hresult
  refine ⟨iff_of_false ?_ hP, ?_⟩
  · rintro ⟨e, -, herror⟩
    cases herror
  · intro e herror
    cases herror

theorem exact_of_error {result : Except LogError Unit} {P : Prop} {err : LogError}
    (hresult : result = .error err) (herr : err.isAssertion = true) (hP : P) :
    ((∃ e : LogError, e.isAssertion = true ∧ result = .error e) ↔ P) ∧
      ∀ e : LogError, result = .error e → e.isAssertion = true := by
  subst hresult
  refine ⟨iff_of_true ⟨err, herr, rfl⟩ hP, ?_⟩
  intro e herror
  cases herror
  exact herr

theorem assertLogs_exact :
    ((∃ e : LogError, e.isAssertion = true ∧
      assertLogs logging (records.map (·.record)) level.given = .error e) ↔
        above level.level records = []) ∧
    ∀ e : LogError, assertLogs logging (records.map (·.record)) level.given = .error e →
      e.isAssertion = true := by
  have hresult := assertLogs_eq records level
  by_cases hempty : above level.level records = []
  · rw [if_pos hempty] at hresult
    exact exact_of_error hresult rfl hempty
  · rw [if_neg hempty] at hresult
    exact exact_of_ok hresult hempty

theorem assertNoLogs_exact
    (h : ∀ r, (above level.level records).head? = some r → "message" ∈ r.record.keys) :
    ((∃ e : LogError, e.isAssertion = true ∧
      assertNoLogs logging (records.map (·.record)) level.given = .error e) ↔
        above level.level records ≠ []) ∧
    ∀ e : LogError, assertNoLogs logging (records.map (·.record)) level.given = .error e →
      e.isAssertion = true := by
  have hresult := assertNoLogs_eq records level
  cases hhead : (above level.level records).head? with
  | none =>
    rw [hhead] at hresult
    exact exact_of_ok hresult (not_not_intro (List.head?_eq_none_iff.mp hhead))
  | some r =>
    obtain ⟨message, hmessage⟩ := Dict.mem_keys_iff.mp (h r hhead)
    have hne : above level.level records ≠ [] := by
      intro hempty
      rw [hempty] at hhead
      cases hhead
    simp only [hhead, hmessage] at hresult
    exact exact_of_error hresult rfl hne

/-- `assert_logs` is exact for all records; `assert_no_logs` is its opposite if and only if
the first record that it finds, should there be one, has a message to show. -/
theorem exact_opposites_iff : ExactOpposites records level ↔
    ∀ r, (above level.level records).head? = some r → "message" ∈ r.record.keys := by
  constructor
  · intro h r hr
    cases hmessage : r.record.get? "message" with
    | none =>
      have herror := assertNoLogs_eq records level
      simp only [hr, hmessage] at herror
      have hassert := h.noLogsOnly _ herror
      cases hassert
    | some message => exact Dict.mem_keys_iff.mpr ⟨message, hmessage⟩
  · intro h
    obtain ⟨hlogs, hlogsOnly⟩ := assertLogs_exact records level
    obtain ⟨hnoLogs, hnoLogsOnly⟩ := assertNoLogs_exact records level h
    exact ⟨filterRecords_eq records level, hlogs, hnoLogs, hlogsOnly, hnoLogsOnly⟩

/-- The registered names that matter here. -/
def standardLogging : Logging where
  nameToLevel := .ofPairs [("ERROR", 40), ("WARNING", 30), ("INFO", 20)]
  levelToName := .ofPairs [(40, "ERROR"), (30, "WARNING"), (20, "INFO")]
  upper := String.toUpper

/-- A record with a level and no message. -/
def errorRecord : LevelRecord standardLogging where
  record := .ofPairs [("level", .str "ERROR"), ("msg", .str "test")]
  name := "ERROR"
  level := 40
  upper := by decide +kernel
  hasLevel := rfl
  registered := rfl

def infoLevel : GivenLevel standardLogging where
  given := .name "INFO"
  level := 20
  resolves := by
    show standardLogging.nameToLevel.get? (standardLogging.upper "INFO") = some 20
    decide +kernel

/-- A record that is found but has no message raises a `KeyError`. -/
theorem no_message_raises : ¬ ∀ (records : List (LevelRecord standardLogging))
    (level : GivenLevel standardLogging), ExactOpposites records level := by
  intro h
  have herror : assertNoLogs standardLogging [errorRecord.record] infoLevel.given =
      .error (.keyError "message") := (assertNoLogs_eq [errorRecord] infoLevel).trans rfl
  have hassert := (h [errorRecord] infoLevel).noLogsOnly _ herror
  cases hassert

end Yellowbox.LogLevels
