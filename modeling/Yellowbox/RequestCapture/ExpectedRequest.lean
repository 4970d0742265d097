import Yellowbox.RequestCapture.ScopeExpectation

/-!
`ExpectedHTTPRequest`, its body validators, and the assertions over the recorded
requests that match it. Each validator has a decoding step of its own, with its own
exception handler around it.
-/
namespace Yellowbox.RequestCapture

open Dicts

/-- What `json.loads` raises on `bytes`. -/
inductive LoadsError
  | jsonDecodeError
  | unicodeDecodeError
  | other (name : String)
  deriving DecidableEq

/-- What `bytes.decode` raises. -/
inductive DecodeError
  | unicodeDecodeError
  | lookupError

/-- What the expectations use of Python: `json.loads`, the dict that a decoded value is if it
is a `Mapping`, `bytes.decode` for encodings other than UTF-8, `str.lower` and `str.upper`. -/
structure Python (V : Type) where
  loads : Bytes → Except LoadsError V
  mapping? : V → Option (Dict String V)
  decodeOther : String → Bytes → Except DecodeError String
  lower : String → String
  upper : String → String

variable {V : Type}

/-- `content.decode(encoding)` -/
def decode (py : Python V) (encoding : String) (content : Bytes) : Except DecodeError String :=
  if encoding = "utf-8" then
    match String.fromUTF8? ⟨content.toArray⟩ with
    | some text => .ok text
    | none => .error .unicodeDecodeError
  else py.decodeOther encoding content

/-! ### Body validators -/

/-- The validators of the library, and those of a caller's own class, by their `validate`. -/
inductive BodyValidator (V : Type)
  | content (expectedContent : Bytes)
  | text (expectedText : String) (encoding : String)
  | json (expectedJson : V)
  | jsonSubmap (expectedJsonSubmap : Dict String V)
  | custom (predicate : Bytes → Except Exc Bool)
  | custom2 (predicate : Bytes → Except Exc V) (expected : V)
  | user (validate : Bytes → Except Exc (Option String))

/-- The reasons of a body, one constructor for each text. -/
inductive BodyReason (V : Type)
  | contentIsNe (expected got : Bytes)
  | couldNotDecode (encoding : String)
  | textIsNe (expected got : String)
  | couldNotDecodeJson
  | jsonIsNe (expected got : V)
  | notAnObject
  | submap (reason : SubmapReason String V)
  | predicateDidNotMatch
  | predicateIsNe (expected got : V)
  | user (text : String)

/-- `json.loads(content)` in a handler for `JSONDecodeError` only. -/
def validateJson (py : Python V) (content : Bytes)
    (validateParsed : V → Option (BodyReason V)) : Except Exc (Option (BodyReason V)) :=
  match py.loads content with
  | .ok parsed => .ok (validateParsed parsed)
  | .error .jsonDecodeError => .ok (some .couldNotDecodeJson)
  | .error .unicodeDecodeError => .error .unicodeDecodeError
  | .error (.other name) => .error (.loadsError name)

/-- `validate` of each class of validators. -/
def BodyValidator.validate [BEq V] (py : Python V) (content : Bytes) :
    BodyValidator V → Except Exc (Option (BodyReason V))
  | .content expectedContent =>
    .ok (if content ≠ expectedContent then some (.contentIsNe expectedContent content) else none)
  | .text expectedText encoding =>
    match decode py encoding content with
    | .error .unicodeDecodeError => .ok (some (.couldNotDecode encoding))
    | .error .lookupError => .error (.lookupError encoding)
    | .ok decoded =>
      .ok (if decoded ≠ expectedText then some (.textIsNe expectedText decoded) else none)
  | .json expectedJson =>
    validateJson py content fun parsed =>
      if parsed != expectedJson then some (.jsonIsNe expectedJson parsed) else none
  | .jsonSubmap expectedJsonSubmap =>
    validateJson py content fun parsed =>
      match py.mapping? parsed with
      | none => some .notAnObject
      | some parsed => (isSubmapOf expectedJsonSubmap parsed).map .submap
  | .custom predicate =>
    match predicate content with
    | .error exc => .error exc
    | .ok holds => .ok (if holds then none else some .predicateDidNotMatch)
  | .custom2 predicate expected =>
    match predicate content with
    | .error exc => .error exc
    | .ok got => .ok (if got != expected then some (.predicateIsNe expected got) else none)
  | .user validate => (validate content).map (·.map .user)

/-! ### Expected requests -/

/-- A `content_predicate`. -/
inductive ContentPredicate (V : Type)
  | validator (validator : BodyValidator V)
  | tuple (predicate : Bytes → Except Exc V) (expected : V)
  | callable (predicate : Bytes → Except Exc Bool)

structure RequestArgs (V : Type) extends ScopeArgs V where
  method : Option String := none
  body : Option Bytes := none
  text : Option String := none
  json : Option V := none
  jsonSubmap : Option (Dict String V) := none
  contentPredicate : Option (ContentPredicate V) := none

structure ExpectedHTTPRequest (V : Type) extends ScopeExpectation V where
  method : Option String
  bodyValidator : Option (BodyValidator V)

/-- A recorded request, without the time at which it was received. -/
structure RecordedHTTPRequest (V : Type) extends RecordedScope V where
  method : String
  content : Bytes

inductive RequestReason (V : Type)
  | scope (reason : ScopeReason V)
  | methodIsNe (expected got : String)
  | body (reason : BodyReason V)

namespace RequestArgs

/-- How many of the parameters about the body are given. -/
def bodyCriteria (args : RequestArgs V) : ℕ :=
  [args.body.isSome, args.text.isSome, args.json.isSome, args.jsonSubmap.isSome,
    args.contentPredicate.isSome].countP id

/-- The validator of the first parameter about the body that is given. -/
def validator (args : RequestArgs V) : Option (BodyValidator V) :=
  match args.body, args.text, args.json, args.jsonSubmap, args.contentPredicate with
  | some body, _, _, _, _ => some (.content body)
  | none, some text, _, _, _ => some (.text text "utf-8")
  | none, none, some json, _, _ => some (.json json)
  | none, none, none, some submap, _ => some (.jsonSubmap submap)
  | none, none, none, none, some (.validator validator) => some validator
  | none, none, none, none, some (.tuple predicate expected) => some (.custom2 predicate expected)
  | none, none, none, none, some (.callable predicate) => some (.custom predicate)
  | none, none, none, none, none => none

end RequestArgs

namespace ExpectedHTTPRequest

/-- `ExpectedHTTPRequest.__init__` -/
def init (py : Python V) (args : RequestArgs V) : Except Exc (ExpectedHTTPRequest V) := do
  let scope ← ScopeExpectation.init py.lower args.toScopeArgs
  if args.bodyCriteria ≥ 2 then
    .error (.valueError
      "only one of content, text, json, json_submap, or content_predicate must be set")
  else
    return ⟨scope, args.method.map py.upper, args.validator⟩

theorem init_eq_ok_iff {py : Python V} {args : RequestArgs V} {e : ExpectedHTTPRequest V} :
    init py args = .ok e ↔
      ScopeExpectation.init py.lower args.toScopeArgs = .ok e.toScopeExpectation ∧
      args.bodyCriteria < 2 ∧ e.method = args.method.map py.upper ∧
      e.bodyValidator = args.validator := by
  obtain ⟨scope, method, bodyValidator⟩ := e
  unfold init
  rcases ScopeExpectation.init py.lower args.toScopeArgs with exc | scope'
  · simp [bind, Except.bind]
  · simp only [bind, Except.bind, pure, Except.pure]
    split
    · rename_i hcriteria
      simp [Nat.not_lt.mpr hcriteria]
    · rename_i hcriteria
      simp [Nat.lt_of_not_le hcriteria, eq_comm]

/-- The reasons that `matches` collects before it looks at the body; an empty method is no
criterion. -/
def requestReasons [BEq V] (e : ExpectedHTTPRequest V) (recorded : RecordedHTTPRequest V) :
    List (RequestReason V) :=
  (e.scopeMismatchReasons recorded.toRecordedScope).map .scope ++
    match e.method with
    | none => []
    | some method =>
      if method ≠ "" && method ≠ recorded.method then [.methodIsNe method recorded.method] else []

/-- `ExpectedHTTPRequest.matches`: no reasons for `True`. -/
def matchesRequest [BEq V] (py : Python V) (e : ExpectedHTTPRequest V)
    (recorded : RecordedHTTPRequest V) : Except Exc (List (RequestReason V)) :=
  match e.bodyValidator with
  | none => .ok (e.requestReasons recorded)
  | some validator =>
    match validator.validate py recorded.content with
    | .error exc => .error exc
    | .ok bodyReason =>
      .ok (e.requestReasons recorded ++ (bodyReason.map RequestReason.body).toList)

end ExpectedHTTPRequest

/-! ### Assertions over the recorded requests -/

/-- What an assertion raises: an `AssertionError`, with what its text shows, or something
else. -/
inductive AssertError (V : Type)
  | noRequests
  | noRequestsMatch (expected : ExpectedHTTPRequest V)
      (whynots : List (RecordedHTTPRequest V × List (RequestReason V)))
  | couldNotFind (expected : ExpectedHTTPRequest V)
  | raised (exc : Exc)

/-- The expectation of an assertion, given as an object or by keyword arguments. -/
def theExpected (py : Python V) :
    Option (ExpectedHTTPRequest V) → Option (RequestArgs V) → Except Exc (ExpectedHTTPRequest V)
  | some _, some _ =>
    .error (.typeError "method can be called with either expected or keyword args, but not both")
  | some expected, none => .ok expected
  | none, some kwargs => ExpectedHTTPRequest.init py kwargs
  | none, none => .error (.typeError "either expected or keyword args must be provided")

/-- The loop of `assert_any_request`, with the reasons found so far. -/
def findRequest [BEq V] (py : Python V) (expected : ExpectedHTTPRequest V) :
    List (RecordedHTTPRequest V × List (RequestReason V)) → List (RecordedHTTPRequest V) →
      Except (AssertError V) Unit
  | whynots, [] => .error (.noRequestsMatch expected whynots)
  | whynots, req :: requests =>
    match expected.matchesRequest py req with
    | .error exc => .error (.raised exc)
    | .ok [] => .ok ()
    | .ok whynot => findRequest py expected (whynots ++ [(req, whynot)]) requests

/-- `assert_any_request` -/
def assertAnyRequest [BEq V] (py : Python V) (expected : Option (ExpectedHTTPRequest V))
    (kwargs : Option (RequestArgs V)) (requests : List (RecordedHTTPRequest V)) :
    Except (AssertError V) Unit :=
  match theExpected py expected kwargs with
  | .error exc => .error (.raised exc)
  | .ok expected =>
    if requests.isEmpty then .error .noRequests else findRequest py expected [] requests

/-- The greedy loop of `assert_has_requests`. -/
def findRequests [BEq V] (py : Python V) :
    ExpectedHTTPRequest V → List (ExpectedHTTPRequest V) → List (RecordedHTTPRequest V) →
      Except (AssertError V) Unit
  | nextExpected, _, [] => .error (.couldNotFind nextExpected)
  | nextExpected, expectedIter, request :: requests =>
    match nextExpected.matchesRequest py request, expectedIter with
    | .error exc, _ => .error (.raised exc)
    | .ok [], [] => .ok ()
    | .ok [], following :: expectedIter => findRequests py following expectedIter requests
    | .ok (_ :: _), _ => findRequests py nextExpected expectedIter requests

/-- `assert_has_requests` -/
def assertHasRequests [BEq V] (py : Python V) (expectedRequests : List (ExpectedHTTPRequest V))
    (requests : List (RecordedHTTPRequest V)) : Except (AssertError V) Unit :=
  match expectedRequests with
  | [] => .error (.raised (.typeError "at least one expected request must be provided"))
  | first :: rest =>
    if requests.length < expectedRequests.length then .error (.couldNotFind first)
    else findRequests py first rest requests

end Yellowbox.RequestCapture
