import Mathlib
import Yellowbox.RequestCapture.RequestCriteria

/-!
The arguments that `ExpectedHTTPRequest.__repr__` shows, given to the constructor again.
What the constructor normalised (the names of headers, the path, the method) it leaves as
it is the second time; of a validator of texts only the text is shown.
-/
namespace Yellowbox.RequestCapture

open Dicts

variable {V : Type}

/-- `_repr_map`: the parameter for an exact map and the one for a submap. -/
def reprParameters {α : Type} : ExpectedMap α → Option α × Option α
  | none => (none, none)
  | some (expectedValue, true) => (none, some expectedValue)
  | some (expectedValue, false) => (some expectedValue, none)

/-- `ScopeExpectation._repr_map` -/
def ScopeExpectation.reprMap (e : ScopeExpectation V) : ScopeArgs V where
  headers := (reprParameters e.headers).1
  headersSubmap := (reprParameters e.headers).2
  path := e.pathPattern.map .pattern
  pathParams := (reprParameters e.pathParams).1
  pathParamsSubmap := (reprParameters e.pathParams).2
  queryParams := (reprParameters e.queryParams).1
  queryParamsSubmap := (reprParameters e.queryParams).2

/-- `args.update(self.repr_map())`, with the `repr_map` of each class of validators; a
caller's own class inherits the one of `BodyValidator`. -/
def BodyValidator.addTo (args : RequestArgs V) : BodyValidator V → RequestArgs V
  | .content expectedContent => { args with body := some expectedContent }
  | .text expectedText _ => { args with text := some expectedText }
  | .json expectedJson => { args with json := some expectedJson }
  | .jsonSubmap expectedJsonSubmap => { args with jsonSubmap := some expectedJsonSubmap }
  | .custom predicate => { args with contentPredicate := some (.callable predicate) }
  | .custom2 predicate expected =>
    { args with contentPredicate := some (.tuple predicate expected) }
  | .user validate => { args with contentPredicate := some (.validator (.user validate)) }

/-- The map of the arguments in `ExpectedHTTPRequest.__repr__`. -/
def ExpectedHTTPRequest.reprMap (e : ExpectedHTTPRequest V) : RequestArgs V :=
  let args : RequestArgs V := { e.toScopeExpectation.reprMap with method := e.method }
  match e.bodyValidator with
  | none => args
  | some validator => validator.addTo args

/-- The constructor makes, of the arguments shown, an expectation that accepts the same
requests. -/
def Reconstructs [BEq V] (py : Python V) (e : ExpectedHTTPRequest V) : Prop :=
  ∃ e', ExpectedHTTPRequest.init py e.reprMap = .ok e' ∧
    ∀ recorded, e'.matchesRequest py recorded = .ok [] ↔ e.matchesRequest py recorded = .ok []

/-- An expected request that was constructed. -/
structure BuiltRequest (py : Python V) where
  args : RequestArgs V
  expected : ExpectedHTTPRequest V
  built : ExpectedHTTPRequest.init py args = .ok expected

/-- A recorded request meets every criterion but the one of the body. -/
def MeetsOthers [BEq V] (e : ExpectedHTTPRequest V) (recorded : RecordedHTTPRequest V) : Prop :=
  ScopeCriteria e.toScopeExpectation recorded.toRecordedScope ∧
    ∀ method, e.method = some method → method ≠ "" → recorded.method = method

/-! ### What the constructor makes of the arguments shown -/

/-- The validator made of the arguments that a validator shows. -/
def BodyValidator.shown : BodyValidator V → BodyValidator V
  | .text expectedText _ => .text expectedText "utf-8"
  | validator => validator

theorem toExpectedMap_repr {α : Type} (name : String) (expected : ExpectedMap α) :
    toExpectedMap name (reprParameters expected).1 (reprParameters expected).2 = .ok expected := by
  rcases expected with _ | ⟨expectedValue, _ | _⟩ <;> rfl

/-- Headers that the constructor made: not empty, with names in lower case. -/
def Normalised (lower : String → String) (headers : ExpectedMap (Dict String Collection)) : Prop :=
  ∀ d isSubset, headers = some (d, isSubset) → d.entries ≠ [] ∧ ∀ name ∈ d.keys, lower name = name

theorem lowerKeys_normalised {lower : String → String} (hlower : ∀ s, lower (lower s) = lower s)
    {given : Option (Dict String Collection)} {d : Dict String Collection}
    (h : lowerKeys lower given = some d) :
    d.entries ≠ [] ∧ ∀ name ∈ d.keys, lower name = name := by
  cases given with
  | none => cases h
  | some original =>
    by_cases hempty : original.entries = []
    · rw [lowerKeys_empty hempty] at h
      cases h
    · rw [lowerKeys_some hempty, Option.some.injEq] at h
      subst h
      have hkeys : ∀ name, name ∈ (lowered lower original).keys ↔
          ∃ entry ∈ original.entries, lower entry.1 = name := by
        intro name
        rw [lowered, Dict.mem_keys_ofPairs, List.map_map, List.mem_map]
        rfl
      constructor
      · intro hnone
        obtain ⟨entry, hentry⟩ := List.exists_mem_of_ne_nil _ hempty
        have hmem := (hkeys (lower entry.1)).mpr ⟨entry, hentry, rfl⟩
        rw [Dict.keys, hnone] at hmem
        cases hmem
      · intro name hname
        obtain ⟨entry, -, rfl⟩ := (hkeys name).mp hname
        exact hlower entry.1

theorem headers_normalised {lower : String → String} (hlower : ∀ s, lower (lower s) = lower s)
    {args : ScopeArgs V} {scope : ScopeExpectation V}
    (h : ScopeExpectation.init lower args = .ok scope) : Normalised lower scope.headers := by
  obtain ⟨hheaders, -⟩ := scopeInit_eq_ok_iff.mp h
  intro d isSubset hd
  rw [hd] at hheaders
  rcases toExpectedMap_cases hheaders with
    ⟨-, -, hnone⟩ | ⟨d', hexact, -, hsome⟩ | ⟨d', -, hsubmap, hsome⟩
  · cases hnone
  · cases hsome
    exact lowerKeys_normalised hlower hexact
  · cases hsome
    exact lowerKeys_normalised hlower hsubmap

/-- `lower_keys` leaves a normalised map as it is. -/
theorem lowerKeys_of_normalised {lower : String → String} {d : Dict String Collection}
    (hne : d.entries ≠ []) (hnames : ∀ name ∈ d.keys, lower name = name) :
    lowerKeys lower (some d) = some d := by
  obtain ⟨entries, hnodup⟩ := d
  have hsame : (entries.map fun entry => (lower entry.1, entry.2)) = entries := by
    refine (List.map_congr_left ?_).trans (List.map_id entries)
    rintro ⟨name, values⟩ hentry
    rw [hnames name (List.mem_map_of_mem hentry)]
    rfl
  rw [lowerKeys_some hne, lowered, Option.some.injEq, Dict.mk.injEq]
  rw [hsame]
  exact Dict.entries_ofPairs hnodup

theorem lowerKeys_repr {lower : String → String} {headers : ExpectedMap (Dict String Collection)}
    (h : Normalised lower headers) :
    lowerKeys lower (reprParameters headers).1 = (reprParameters headers).1 ∧
      lowerKeys lower (reprParameters headers).2 = (reprParameters headers).2 := by
  rcases headers with _ | ⟨d, _ | _⟩
  · exact ⟨rfl, rfl⟩
  · obtain ⟨hne, hnames⟩ := h d false rfl
    exact ⟨lowerKeys_of_normalised hne hnames, rfl⟩
  · obtain ⟨hne, hnames⟩ := h d true rfl
    exact ⟨rfl, lowerKeys_of_normalised hne hnames⟩

theorem scopeInit_repr {lower : String → String} {scope : ScopeExpectation V}
    (h : Normalised lower scope.headers) :
    ScopeExpectation.init lower scope.reprMap = .ok scope := by
  obtain ⟨hexact, hsubmap⟩ := lowerKeys_repr h
  rw [scopeInit_eq_ok_iff]
  refine ⟨?_, ?_, toExpectedMap_repr _ _, toExpectedMap_repr _ _⟩
  · rw [ScopeExpectation.reprMap, hexact, hsubmap]
    exact toExpectedMap_repr _ _
  · rw [ScopeExpectation.reprMap, Option.map_map]
    exact Option.map_id'.symm

theorem reprMap_scope (e : ExpectedHTTPRequest V) :
    e.reprMap.toScopeArgs = e.toScopeExpectation.reprMap ∧ e.reprMap.method = e.method := by
  unfold ExpectedHTTPRequest.reprMap
  rcases e.bodyValidator with _ | _ | _ | _ | _ | _ | _ | _ <;> exact ⟨rfl, rfl⟩

theorem reprMap_body (e : ExpectedHTTPRequest V) :
    e.reprMap.bodyCriteria < 2 ∧
      e.reprMap.validator = e.bodyValidator.map BodyValidator.shown := by
  unfold ExpectedHTTPRequest.reprMap
  rcases e.bodyValidator with _ | _ | _ | _ | _ | _ | _ | _ <;>
    exact ⟨by simp [RequestArgs.bodyCriteria, BodyValidator.addTo, ScopeExpectation.reprMap], rfl⟩

/-- The constructor accepts what is shown; only an encoding can be lost. -/
theorem init_reprMap {py : Python V} (hlower : ∀ s, py.lower (py.lower s) = py.lower s)
    (hupper : ∀ s, py.upper (py.upper s) = py.upper s) (b : BuiltRequest py) :
    ExpectedHTTPRequest.init py b.expected.reprMap =
      .ok { b.expected with
        bodyValidator := b.expected.bodyValidator.map BodyValidator.shown } := by
  obtain ⟨hscope, -, hmethod, -⟩ := ExpectedHTTPRequest.init_eq_ok_iff.mp b.built
  obtain ⟨hargs, hshown⟩ := reprMap_scope b.expected
  obtain ⟨hcriteria, hvalidator⟩ := reprMap_body b.expected
  rw [ExpectedHTTPRequest.init_eq_ok_iff, hargs, hshown]
  refine ⟨scopeInit_repr (headers_normalised hlower hscope), hcriteria, ?_, hvalidator.symm⟩
  show b.expected.method = b.expected.method.map py.upper
  rw [hmethod, Option.map_map]
  exact Option.map_congr fun method _ => (hupper method).symm

/-! ### What is accepted -/

variable [BEq V]

theorem requestReasons_eq_nil_iff (e : ExpectedHTTPRequest V) (recorded : RecordedHTTPRequest V) :
    e.requestReasons recorded = [] ↔ MeetsOthers e recorded := by
  rw [ExpectedHTTPRequest.requestReasons, List.append_eq_nil_iff, List.map_eq_nil_iff,
    scopeMismatchReasons_eq_nil_iff, MeetsOthers]
  apply and_congr_right
  intro _
  cases e.method with
  | none => simp
  | some method =>
    by_cases hempty : method = ""
    · simp [hempty]
    · by_cases heq : recorded.method = method
      · simp [heq]
      · simp [hempty, heq, Ne.symm heq]

/-- A request matches when it meets the other criteria and its body is accepted. -/
theorem matches_iff (py : Python V) (e : ExpectedHTTPRequest V)
    (recorded : RecordedHTTPRequest V) : e.matchesRequest py recorded = .ok [] ↔
      MeetsOthers e recorded ∧
        ∀ validator, e.bodyValidator = some validator → validator.Accepts py recorded.content := by
  rw [← requestReasons_eq_nil_iff, ExpectedHTTPRequest.matchesRequest]
  cases hbody : e.bodyValidator with
  | none => simp
  | some validator =>
    simp only [Option.some.injEq, forall_eq', ← validate_eq_none_iff]
    cases validator.validate py recorded.content with
    | error exc => simp
    | ok bodyReason => cases bodyReason <;> simp

/-- What is shown of a validator accepts the same bodies, if its encoding decodes to its text
what UTF-8 does. -/
theorem shown_accepts_iff (py : Python V) (content : Bytes) (validator : BodyValidator V) :
    (validator.shown.Accepts py content ↔ validator.Accepts py content) ↔
      ∀ text encoding, validator = .text text encoding →
        (decode py encoding content = .ok text ↔ decode py "utf-8" content = .ok text) := by
  cases validator with
  | text text encoding => simp [BodyValidator.shown, BodyValidator.Accepts, iff_comm]
  | content _ => simp [BodyValidator.shown]
  | json _ => simp [BodyValidator.shown]
  | jsonSubmap _ => simp [BodyValidator.shown]
  | custom _ => simp [BodyValidator.shown]
  | custom2 _ _ => simp [BodyValidator.shown]
  | user _ => simp [BodyValidator.shown]

/-- A reconstructed expectation against the original, on one request. -/
theorem shown_matches_iff (py : Python V) (e : ExpectedHTTPRequest V)
    (recorded : RecordedHTTPRequest V) :
    (({ e with bodyValidator := e.bodyValidator.map BodyValidator.shown } :
        ExpectedHTTPRequest V).matchesRequest py recorded = .ok [] ↔
      e.matchesRequest py recorded = .ok []) ↔
      (MeetsOthers e recorded → ∀ text encoding, e.bodyValidator = some (.text text encoding) →
        (decode py encoding recorded.content = .ok text ↔
          decode py "utf-8" recorded.content = .ok text)) := by
  have hothers : MeetsOthers
      { e with bodyValidator := e.bodyValidator.map BodyValidator.shown } recorded ↔
        MeetsOthers e recorded := Iff.rfl
  rw [matches_iff, matches_iff, hothers, and_congr_right_iff]
  apply imp_congr_right
  intro _
  cases e.bodyValidator with
  | none => simp
  | some validator =>
    simp only [Option.map_some, Option.some.injEq, forall_eq']
    exact shown_accepts_iff py recorded.content validator

/-- The arguments shown reconstruct the expectation if and only if it has no validator of a
text, or one whose encoding decodes to its text exactly the bodies that UTF-8 does, or the
other criteria are such that no request meets them. -/
theorem repr_reconstructs_iff (py : Python V)
    (hlower : ∀ s, py.lower (py.lower s) = py.lower s)
    (hupper : ∀ s, py.upper (py.upper s) = py.upper s) (b : BuiltRequest py) :
    Reconstructs py b.expected ↔
      ∀ text encoding, b.expected.bodyValidator = some (.text text encoding) →
        (∃ recorded, MeetsOthers b.expected recorded) →
          ∀ content,
            decode py encoding content = .ok text ↔ decode py "utf-8" content = .ok text := by
  have hinit := init_reprMap hlower hupper b
  constructor
  · rintro ⟨e', he', hsame⟩ text encoding htext ⟨recorded, hothers⟩ content
    rw [hinit, Except.ok.injEq] at he'
    subst he'
    -- the same request with another body still meets the other criteria
    have hmeets : MeetsOthers b.expected { recorded with content := content } := hothers
    exact (shown_matches_iff py b.expected _).mp (hsame _) hmeets text encoding htext
  · intro h
    refine ⟨_, hinit, fun recorded => ?_⟩
    apply (shown_matches_iff py b.expected recorded).mpr
    intro hmeets text encoding htext
    exact h text encoding htext ⟨recorded, hmeets⟩ recorded.content

-- The two facts about characters come with the whole of Mathlib only.
theorem toLower_toLower (s : String) : s.toLower.toLower = s.toLower := by
  rw [String.toLower, String.toLower, String.map_map]
  congr 1
  funext c
  exact Char.toLower_toLower_eq_toLower c

theorem toUpper_toUpper (s : String) : s.toUpper.toUpper = s.toUpper := by
  rw [String.toUpper, String.toUpper, String.map_map]
  congr 1
  funext c
  exact Char.toUpper_toUpper_eq_toUpper c

/-- A Python that knows one encoding besides UTF-8, in which each byte is a character. -/
def latin1 : Python String :=
  { noJson with
    decodeOther := fun encoding content =>
      if encoding = "latin-1" then
        .ok (String.ofList (content.map fun byte => Char.ofNat byte.toNat))
      else .error .lookupError }

/-- An expectation with a validator of a text in some encoding. -/
def textRequest (text encoding : String) : BuiltRequest latin1 where
  args := { contentPredicate := some (.validator (.text text encoding)) }
  expected := ⟨⟨none, none, none, none⟩, none, some (.text text encoding)⟩
  built := rfl

/-- The text in UTF-8 is reconstructed. -/
theorem repr_reconstructs_iff_utf8 : Reconstructs latin1 (textRequest "é" "utf-8").expected := by
  rw [repr_reconstructs_iff latin1 toLower_toLower toUpper_toUpper (textRequest "é" "utf-8")]
  rintro text encoding ⟨⟩ - content
  rfl

/-- In Latin-1 it is not: the body 0xE9 is that text, and no UTF-8. -/
theorem encoding_lost : ¬ ∀ b : BuiltRequest latin1, Reconstructs latin1 b.expected := by
  intro h
  obtain ⟨e', he', hsame⟩ := h (textRequest "é" "latin-1")
  have heq : e' = ⟨⟨none, none, none, none⟩, none, some (.text "é" "utf-8")⟩ :=
    (Except.ok.inj he').symm
  subst heq
  let recorded : RecordedHTTPRequest String := ⟨⟨.empty, "/", .empty, .empty⟩, "POST", [0xe9]⟩
  have hmatch : (textRequest "é" "latin-1").expected.matchesRequest latin1 recorded = .ok [] := rfl
  have hdecode : (decode latin1 "utf-8" [0xe9]).isOk = false := by
    decide +kernel
  have haccepts := ((matches_iff latin1 _ recorded).mp ((hsame recorded).mpr hmatch)).2 _ rfl
  rw [BodyValidator.Accepts] at haccepts
  rw [haccepts] at hdecode
  contradiction

end Yellowbox.RequestCapture
