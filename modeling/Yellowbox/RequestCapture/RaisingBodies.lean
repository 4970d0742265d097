import Yellowbox.RequestCapture.ExpectedRequest

/-!
When a match against a recorded request raises. Of the validators that the constructor
makes from its own parameters, the two that call `json.loads` let everything but a
`JSONDecodeError` through, also the `UnicodeDecodeError` of a body that is no text.
-/
namespace Yellowbox.RequestCapture

variable {V : Type}

def Returns {ε α : Type} (x : Except ε α) : Prop := ∃ a, x = .ok a

/-- If it raises, then an `AssertionError`. -/
def OnlyAsserts {α : Type} (x : Except (AssertError V) α) : Prop :=
  ∀ exc, x ≠ .error (.raised exc)

/-- `json.loads` returns or raises what the validators expect of it. -/
def LoadsExpected (py : Python V) (content : Bytes) : Prop :=
  ∀ exc, py.loads content = .error exc → exc = .jsonDecodeError

/-- An expected request that was constructed without a `content_predicate`. -/
structure PlainRequest (py : Python V) where
  args : RequestArgs V
  noPredicate : args.contentPredicate = none
  expected : ExpectedHTTPRequest V
  built : ExpectedHTTPRequest.init py args = .ok expected

/-- The constructor got `json` or `json_submap`. -/
def PlainRequest.ReadsJson {py : Python V} (p : PlainRequest py) : Prop :=
  p.args.json ≠ none ∨ p.args.jsonSubmap ≠ none

/-- No match raises, and no assertion anything but an `AssertionError`. -/
structure NeverRaises [BEq V] (py : Python V) (expected : List (ExpectedHTTPRequest V))
    (requests : List (RecordedHTTPRequest V)) : Prop where
  matching : ∀ e ∈ expected, ∀ r ∈ requests, Returns (e.matchesRequest py r)
  any : ∀ e ∈ expected, OnlyAsserts (assertAnyRequest py (some e) none requests)
  has : expected ≠ [] → OnlyAsserts (assertHasRequests py expected requests)

/-! ### The validators -/

/-- The validators made from `body`, `text`, `json` and `json_submap`. -/
inductive OwnValidator : BodyValidator V → Prop
  | content (body : Bytes) : OwnValidator (.content body)
  | text (text : String) : OwnValidator (.text text "utf-8")
  | json (json : V) : OwnValidator (.json json)
  | jsonSubmap (submap : Dicts.Dict String V) : OwnValidator (.jsonSubmap submap)

def BodyValidator.readsJson : BodyValidator V → Bool
  | json _ | jsonSubmap _ => true
  | content _ | text _ _ | custom _ | custom2 _ _ | user _ => false

theorem returns_ok {ε α : Type} (a : α) : Returns (.ok a : Except ε α) := ⟨a, rfl⟩

theorem not_returns_error {ε α : Type} (e : ε) : ¬ Returns (.error e : Except ε α) := by
  rintro ⟨a, h⟩
  cases h

theorem validateJson_returns_iff (py : Python V) (content : Bytes)
    (validateParsed : V → Option (BodyReason V)) :
    Returns (validateJson py content validateParsed) ↔ LoadsExpected py content := by
  unfold validateJson LoadsExpected
  rcases py.loads content with (_ | _ | name) | parsed
  · simp [returns_ok]
  · simp [not_returns_error]
  · simp [not_returns_error]
  · simp [returns_ok]

/-! ### The constructor -/

/-- Without a predicate the validator is one of the constructor's own, and one that reads
JSON exactly when one of the two JSON parameters is given. -/
theorem validator_cases {args : RequestArgs V} (hpredicate : args.contentPredicate = none)
    (hcriteria : args.bodyCriteria < 2) :
    (args.validator = none ∧ ¬ (args.json ≠ none ∨ args.jsonSubmap ≠ none)) ∨
      ∃ validator, args.validator = some validator ∧ OwnValidator validator ∧
        (validator.readsJson = true ↔ args.json ≠ none ∨ args.jsonSubmap ≠ none) := by
  obtain ⟨scope, method, body, text, json, jsonSubmap, predicate⟩ := args
  cases hpredicate
  have hnone : ∀ {first second : Bool}, first = true ∨ second = true →
      [first, second, json.isSome, jsonSubmap.isSome, false].countP id < 2 →
        json = none ∧ jsonSubmap = none := by
    intro first second hgiven hcount
    cases first <;> cases second <;> cases json <;> cases jsonSubmap <;> simp at hgiven hcount ⊢
  rcases body with _ | body
  · rcases text with _ | text
    · rcases json with _ | json
      · rcases jsonSubmap with _ | submap
        · exact Or.inl ⟨rfl, by simp⟩
        · exact Or.inr ⟨_, rfl, .jsonSubmap submap, by simp [BodyValidator.readsJson]⟩
      · exact Or.inr ⟨_, rfl, .json json, by simp [BodyValidator.readsJson]⟩
    · obtain ⟨rfl, rfl⟩ := hnone (Or.inr rfl) hcriteria
      exact Or.inr ⟨_, rfl, .text text, by simp [BodyValidator.readsJson]⟩
  · obtain ⟨rfl, rfl⟩ := hnone (Or.inl rfl) hcriteria
    exact Or.inr ⟨_, rfl, .content body, by simp [BodyValidator.readsJson]⟩

/-! ### Matching -/

variable [BEq V]

theorem validate_returns_iff {validator : BodyValidator V} (hown : OwnValidator validator)
    (py : Python V) (content : Bytes) :
    Returns (validator.validate py content) ↔
      (validator.readsJson = true → LoadsExpected py content) := by
  cases hown with
  | content body => simp [BodyValidator.validate, BodyValidator.readsJson, returns_ok]
  | text text =>
    simp only [BodyValidator.validate, BodyValidator.readsJson, decode, if_true]
    cases String.fromUTF8? ⟨content.toArray⟩ with
    | none => simp [returns_ok]
    | some decoded => simp [returns_ok]
  | json json => simp [BodyValidator.validate, BodyValidator.readsJson, validateJson_returns_iff]
  | jsonSubmap submap =>
    simp [BodyValidator.validate, BodyValidator.readsJson, validateJson_returns_iff]

/-- Only the validator can raise. -/
theorem matchesRequest_returns_iff_validate {py : Python V} (e : ExpectedHTTPRequest V)
    (recorded : RecordedHTTPRequest V) :
    Returns (e.matchesRequest py recorded) ↔ ∀ validator, e.bodyValidator = some validator →
      Returns (validator.validate py recorded.content) := by
  unfold ExpectedHTTPRequest.matchesRequest
  cases e.bodyValidator with
  | none => simp [returns_ok]
  | some validator =>
    simp only [Option.some.injEq, forall_eq']
    cases validator.validate py recorded.content with
    | error exc => simp [not_returns_error]
    | ok bodyReason => simp [returns_ok]

theorem matchesRequest_returns_iff {py : Python V} (p : PlainRequest py)
    (recorded : RecordedHTTPRequest V) :
    Returns (p.expected.matchesRequest py recorded) ↔
      (p.ReadsJson → LoadsExpected py recorded.content) := by
  obtain ⟨-, hcriteria, -, hvalidator⟩ := ExpectedHTTPRequest.init_eq_ok_iff.mp p.built
  rw [matchesRequest_returns_iff_validate, hvalidator, PlainRequest.ReadsJson]
  rcases validator_cases p.noPredicate hcriteria with
    ⟨hnone, hjson⟩ | ⟨validator, hsome, hown, hreads⟩
  · rw [hnone]
    simp [hjson]
  · rw [hsome, ← hreads, ← validate_returns_iff hown]
    simp

/-! ### The assertions -/

theorem findRequest_onlyAsserts {py : Python V} {expected : ExpectedHTTPRequest V}
    {requests : List (RecordedHTTPRequest V)}
    (hmatch : ∀ r ∈ requests, Returns (expected.matchesRequest py r))
    (whynots : List (RecordedHTTPRequest V × List (RequestReason V))) :
    OnlyAsserts (findRequest py expected whynots requests) := by
  induction requests generalizing whynots with
  | nil => exact nofun
  | cons req requests ih =>
    obtain ⟨reasons, hreasons⟩ := hmatch req List.mem_cons_self
    rw [findRequest, hreasons]
    cases reasons with
    | nil => exact nofun
    | cons reason reasons => exact ih (fun r hr => hmatch r (List.mem_cons_of_mem _ hr)) _

theorem findRequests_onlyAsserts {py : Python V} {requests : List (RecordedHTTPRequest V)}
    (nextExpected : ExpectedHTTPRequest V) (expectedIter : List (ExpectedHTTPRequest V))
    (hmatch : ∀ e ∈ nextExpected :: expectedIter, ∀ r ∈ requests,
      Returns (e.matchesRequest py r)) :
    OnlyAsserts (findRequests py nextExpected expectedIter requests) := by
  induction requests generalizing nextExpected expectedIter with
  | nil => exact nofun
  | cons request requests ih =>
    obtain ⟨reasons, hreasons⟩ := hmatch nextExpected List.mem_cons_self request List.mem_cons_self
    have hrest : ∀ e ∈ nextExpected :: expectedIter, ∀ r ∈ requests,
        Returns (e.matchesRequest py r) :=
      fun e he r hr => hmatch e he r (List.mem_cons_of_mem _ hr)
    rw [findRequests.eq_def]
    simp only [hreasons]
    cases reasons with
    | cons reason reasons => exact ih nextExpected expectedIter hrest
    | nil =>
      cases expectedIter with
      | nil => exact nofun
      | cons following expectedIter =>
        exact ih following expectedIter fun e he => hrest e (List.mem_cons_of_mem _ he)

theorem assertAnyRequest_onlyAsserts {py : Python V} {expected : ExpectedHTTPRequest V}
    {requests : List (RecordedHTTPRequest V)}
    (hmatch : ∀ r ∈ requests, Returns (expected.matchesRequest py r)) :
    OnlyAsserts (assertAnyRequest py (some expected) none requests) := by
  show OnlyAsserts (if requests.isEmpty then .error .noRequests
    else findRequest py expected [] requests)
  split
  · exact nofun
  · exact findRequest_onlyAsserts hmatch []

theorem assertHasRequests_onlyAsserts {py : Python V} {expected : List (ExpectedHTTPRequest V)}
    {requests : List (RecordedHTTPRequest V)} (hne : expected ≠ [])
    (hmatch : ∀ e ∈ expected, ∀ r ∈ requests, Returns (e.matchesRequest py r)) :
    OnlyAsserts (assertHasRequests py expected requests) := by
  cases expected with
  | nil => contradiction
  | cons first rest =>
    rw [assertHasRequests]
    split
    · exact nofun
    · exact findRequests_onlyAsserts first rest hmatch

/-- Nothing is raised but an `AssertionError` if and only if every body that an expectation
reads as JSON is one that `json.loads` decodes or calls malformed. -/
theorem neverRaises_iff (py : Python V) (plain : List (PlainRequest py))
    (requests : List (RecordedHTTPRequest V)) :
    NeverRaises py (plain.map (·.expected)) requests ↔
      ∀ p ∈ plain, p.ReadsJson → ∀ r ∈ requests, LoadsExpected py r.content := by
  constructor
  · intro h p hp hreads r hr
    have hreturns := h.matching p.expected (List.mem_map_of_mem hp) r hr
    exact (matchesRequest_returns_iff p r).mp hreturns hreads
  · intro h
    have hmatch : ∀ e ∈ plain.map (·.expected), ∀ r ∈ requests,
        Returns (e.matchesRequest py r) := by
      intro e he r hr
      obtain ⟨p, hp, rfl⟩ := List.mem_map.mp he
      exact (matchesRequest_returns_iff p r).mpr fun hreads => h p hp hreads r hr
    exact ⟨hmatch, fun e he => assertAnyRequest_onlyAsserts (hmatch e he),
      fun hne => assertHasRequests_onlyAsserts hne hmatch⟩

/-- A Python in which what decodes is malformed JSON. -/
def noJson : Python String where
  loads content :=
    match String.fromUTF8? ⟨content.toArray⟩ with
    | none => .error .unicodeDecodeError
    | some _ => .error .jsonDecodeError
  mapping? _ := none
  decodeOther _ _ := .error .lookupError
  lower := String.toLower
  upper := String.toUpper

def jsonRequest : PlainRequest noJson where
  args := { json := some "hello" }
  noPredicate := rfl
  expected := ⟨⟨none, none, none, none⟩, none, some (.json "hello")⟩
  built := rfl

/-- A POST of the byte 255, which is not UTF-8. -/
def binaryRequest : RecordedHTTPRequest String :=
  ⟨⟨.empty, "/", .empty, .empty⟩, "POST", [255]⟩

/-- Matching an expected JSON against a body that does not decode raises. -/
theorem binary_body_raises : ¬ ∀ (py : Python String) (plain : List (PlainRequest py))
    (requests : List (RecordedHTTPRequest String)),
    NeverRaises py (plain.map (·.expected)) requests := by
  intro h
  have hraises : (jsonRequest.expected.matchesRequest noJson binaryRequest).isOk = false := by
    decide +kernel
  obtain ⟨reasons, hreasons⟩ := (h noJson [jsonRequest] [binaryRequest]).matching
    jsonRequest.expected List.mem_cons_self binaryRequest List.mem_cons_self
  rw [hreasons] at hraises
  contradiction

end Yellowbox.RequestCapture
