import Yellowbox.RequestCapture.HeaderExpectations

/-!
`ExpectedHTTPRequest.matches` against the criteria that its constructor was given. Each
criterion is stated in terms of the arguments alone; `matches` collects one reason for
each that fails, so that more criteria never turn a mismatch into a match.
-/
namespace Yellowbox.RequestCapture

open Dicts

variable {V : Type}

/-! ### The criteria of the arguments -/

inductive Criterion
  | headers
  | path
  | pathParams
  | queryParams
  | method
  | body
  deriving DecidableEq

/-- The criteria in the order in which `matches` looks at them. -/
def Criterion.all : List Criterion := [headers, path, pathParams, queryParams, method, body]

/-- A string path is the path, a pattern matches it in full. -/
def PathArg.Accepts (recorded : String) : PathArg → Prop
  | str path => recorded = path
  | pattern path => path.fullmatch recorded = true

/-- What each validator wants of a body. -/
def BodyValidator.Accepts [BEq V] (py : Python V) (content : Bytes) : BodyValidator V → Prop
  | .content expectedContent => content = expectedContent
  | .text expectedText encoding => decode py encoding content = .ok expectedText
  | .json expectedJson =>
    ∃ parsed, py.loads content = .ok parsed ∧ (parsed == expectedJson) = true
  | .jsonSubmap expectedJsonSubmap =>
    ∃ parsed fields, py.loads content = .ok parsed ∧ py.mapping? parsed = some fields ∧
      Submap expectedJsonSubmap fields
  | .custom predicate => predicate content = .ok true
  | .custom2 predicate expected =>
    ∃ got, predicate content = .ok got ∧ (got == expected) = true
  | .user validate => validate content = .ok none

def ContentPredicate.toValidator : ContentPredicate V → BodyValidator V
  | .validator given => given
  | .tuple predicate expected => .custom2 predicate expected
  | .callable predicate => .custom predicate

/-- The parameters about the body that are given. -/
def RequestArgs.bodies (args : RequestArgs V) : List (BodyValidator V) :=
  (args.body.map BodyValidator.content).toList ++
    (args.text.map (BodyValidator.text · "utf-8")).toList ++
    (args.json.map BodyValidator.json).toList ++
    (args.jsonSubmap.map BodyValidator.jsonSubmap).toList ++
    (args.contentPredicate.map ContentPredicate.toValidator).toList

/-- The given maps about one part of a request, one of which must be equal to what was
recorded and the other included in it. -/
def MultimapHolds (exact submap : Option (Dict String Collection))
    (recorded : Dict String (List String)) : Prop :=
  (∀ expected, exact = some expected → SameMap Collection.eqList expected recorded) ∧
    ∀ expected, submap = some expected →
      Submultimap (expected.mapValues Collection.items) recorded

def MapHolds [BEq V] (exact submap : Option (Dict String V)) (recorded : Dict String V) : Prop :=
  (∀ expected, exact = some expected → SameMap (· == ·) expected recorded) ∧
    ∀ expected, submap = some expected → Submap expected recorded

/-- A criterion holds, on its own, of a recorded request; one that is not given does. -/
def Criterion.Holds [BEq V] (py : Python V) (args : RequestArgs V)
    (recorded : RecordedHTTPRequest V) : Criterion → Prop
  | headers => MultimapHolds (args.headers.map (lowered py.lower))
    (args.headersSubmap.map (lowered py.lower)) recorded.headers
  | path => ∀ path, args.path = some path → path.Accepts recorded.path
  | pathParams => MapHolds args.pathParams args.pathParamsSubmap recorded.pathParams
  | queryParams => MultimapHolds args.queryParams args.queryParamsSubmap recorded.queryParams
  | method => ∀ method, args.method = some method → recorded.method = py.upper method
  | body => ∀ validator ∈ args.bodies, validator.Accepts py recorded.content

/-- An expectation that was constructed, of headers and a method that are not empty. -/
structure GivenRequest (py : Python V) where
  args : RequestArgs V
  headersNonEmpty : ∀ d, args.headers = some d → d.entries ≠ []
  headersSubmapNonEmpty : ∀ d, args.headersSubmap = some d → d.entries ≠ []
  methodNonEmpty : ∀ method, args.method = some method → method ≠ ""
  expected : ExpectedHTTPRequest V
  built : ExpectedHTTPRequest.init py args = .ok expected

/-- Every argument that is given is given to the other constructor too. -/
structure Extends (args args' : RequestArgs V) : Prop where
  headers : ∀ d, args.headers = some d → args'.headers = some d
  headersSubmap : ∀ d, args.headersSubmap = some d → args'.headersSubmap = some d
  path : ∀ path, args.path = some path → args'.path = some path
  pathParams : ∀ d, args.pathParams = some d → args'.pathParams = some d
  pathParamsSubmap : ∀ d, args.pathParamsSubmap = some d → args'.pathParamsSubmap = some d
  queryParams : ∀ d, args.queryParams = some d → args'.queryParams = some d
  queryParamsSubmap : ∀ d, args.queryParamsSubmap = some d → args'.queryParamsSubmap = some d
  method : ∀ method, args.method = some method → args'.method = some method
  body : ∀ body, args.body = some body → args'.body = some body
  text : ∀ text, args.text = some text → args'.text = some text
  json : ∀ json, args.json = some json → args'.json = some json
  jsonSubmap : ∀ d, args.jsonSubmap = some d → args'.jsonSubmap = some d
  contentPredicate : ∀ predicate, args.contentPredicate = some predicate →
    args'.contentPredicate = some predicate

/-! ### The reasons -/

/-- The criterion that a reason is about. -/
def RequestReason.criterion : RequestReason V → Criterion
  | .scope reason =>
    if reason.field = "header" then .headers
    else if reason.field = "path" then .path
    else if reason.field = "path_params" then .pathParams
    else .queryParams
  | .methodIsNe _ _ => .method
  | .body _ => .body

/-- The reason of each criterion, when the validator gave `bodyReason`. -/
def reason? [BEq V] (e : ExpectedHTTPRequest V) (recorded : RecordedHTTPRequest V)
    (bodyReason : Option (BodyReason V)) : Criterion → Option (RequestReason V)
  | .headers => (matchesExpectedMultimap "header" e.headers recorded.headers).map .scope
  | .path => (matchesPath e.pathPattern recorded.path).map .scope
  | .pathParams => (matchesExpectedMap "path_params" e.pathParams recorded.pathParams).map .scope
  | .queryParams =>
    (matchesExpectedMultimap "query_params" e.queryParams recorded.queryParams).map .scope
  | .method =>
    match e.method with
    | none => none
    | some method =>
      if method ≠ "" && method ≠ recorded.method then some (.methodIsNe method recorded.method)
      else none
  | .body => bodyReason.map .body

theorem requestReasons_eq [BEq V] (e : ExpectedHTTPRequest V) (recorded : RecordedHTTPRequest V)
    (bodyReason : Option (BodyReason V)) :
    e.requestReasons recorded ++ (bodyReason.map RequestReason.body).toList =
      Criterion.all.filterMap (reason? e recorded bodyReason) := by
  unfold ExpectedHTTPRequest.requestReasons ScopeExpectation.scopeMismatchReasons
  rw [List.filterMap_eq_flatMap_toList]
  simp only [Criterion.all, List.flatMap_cons, List.flatMap_nil, reason?, Option.toList_map,
    List.map_append, List.append_assoc, List.append_nil]
  cases e.method with
  | none => rfl
  | some method =>
    dsimp only
    split <;> rfl

theorem filterMap_kinds {α β : Type} {f : α → Option β} {kind : β → α}
    (h : ∀ a b, f a = some b → kind b = a) (l : List α) :
    (l.filterMap f).map kind = l.filter fun a => (f a).isSome := by
  induction l with
  | nil => rfl
  | cons a l ih =>
    cases hfa : f a with
    | none => simpa [hfa] using ih
    | some b => simpa [hfa, h a b hfa] using ih

theorem criterion_of_reason [BEq V] {e : ExpectedHTTPRequest V}
    {recorded : RecordedHTTPRequest V} {bodyReason : Option (BodyReason V)} (c : Criterion)
    (reason : RequestReason V) (h : reason? e recorded bodyReason c = some reason) :
    reason.criterion = c := by
  cases c with
  | headers =>
    obtain ⟨r, hr, rfl⟩ := Option.map_eq_some_iff.mp h
    have hfield := field_of_mem_multimap (Option.mem_toList.mpr hr)
    simp [RequestReason.criterion, hfield]
  | path =>
    obtain ⟨r, hr, rfl⟩ := Option.map_eq_some_iff.mp h
    have hfield := field_of_mem_path (Option.mem_toList.mpr hr)
    simp [RequestReason.criterion, hfield]
  | pathParams =>
    obtain ⟨r, hr, rfl⟩ := Option.map_eq_some_iff.mp h
    have hfield := field_of_mem_map (Option.mem_toList.mpr hr)
    simp [RequestReason.criterion, hfield]
  | queryParams =>
    obtain ⟨r, hr, rfl⟩ := Option.map_eq_some_iff.mp h
    have hfield := field_of_mem_multimap (Option.mem_toList.mpr hr)
    simp [RequestReason.criterion, hfield]
  | method =>
    rw [reason?] at h
    split at h
    · cases h
    · split at h <;> cases h
      rfl
  | body =>
    obtain ⟨r, -, rfl⟩ := Option.map_eq_some_iff.mp h
    rfl

/-! ### What was given -/

theorem multimapCriterion_iff {name : String} {exact submap : Option (Dict String Collection)}
    {expected : ExpectedMap (Dict String Collection)}
    (h : toExpectedMap name exact submap = .ok expected) (recorded : Dict String (List String)) :
    MultimapCriterion recorded expected ↔ MultimapHolds exact submap recorded := by
  unfold MultimapHolds
  rcases toExpectedMap_cases h with ⟨rfl, rfl, rfl⟩ | ⟨d, rfl, rfl, rfl⟩ | ⟨d, rfl, rfl, rfl⟩
  · simp [MultimapCriterion]
  · simp [MultimapCriterion]
  · simp [MultimapCriterion]

theorem mapCriterion_iff [BEq V] {name : String} {exact submap : Option (Dict String V)}
    {expected : ExpectedMap (Dict String V)}
    (h : toExpectedMap name exact submap = .ok expected) (recorded : Dict String V) :
    MapCriterion recorded expected ↔ MapHolds exact submap recorded := by
  unfold MapHolds
  rcases toExpectedMap_cases h with ⟨rfl, rfl, rfl⟩ | ⟨d, rfl, rfl, rfl⟩ | ⟨d, rfl, rfl, rfl⟩
  · simp [MapCriterion]
  · simp [MapCriterion]
  · simp [MapCriterion]

theorem lowerKeys_given {lower : String → String} {d? : Option (Dict String Collection)}
    (h : ∀ d, d? = some d → d.entries ≠ []) : lowerKeys lower d? = d?.map (lowered lower) := by
  cases d? with
  | none => rfl
  | some d => exact lowerKeys_some (h d rfl)

theorem compile_fullmatch_iff (path : PathArg) (recorded : String) :
    path.compile.fullmatch recorded = true ↔ path.Accepts recorded := by
  cases path with
  | str path => simp [PathArg.compile, Pattern.literal, PathArg.Accepts]
  | pattern pattern => rfl

theorem validate_eq_none_iff [BEq V] (py : Python V) (content : Bytes)
    (validator : BodyValidator V) :
    validator.validate py content = .ok none ↔ validator.Accepts py content := by
  cases validator with
  | content expected => simp [BodyValidator.validate, BodyValidator.Accepts]
  | text expected encoding =>
    rw [BodyValidator.validate, BodyValidator.Accepts]
    rcases decode py encoding content with (_ | _) | decoded <;> simp
  | json expected =>
    rw [BodyValidator.validate, BodyValidator.Accepts, validateJson]
    rcases py.loads content with (_ | _ | name) | parsed <;> simp [bne]
  | jsonSubmap expected =>
    rw [BodyValidator.validate, BodyValidator.Accepts, validateJson]
    rcases py.loads content with (_ | _ | name) | parsed
    · simp
    · simp
    · simp
    · cases hfields : py.mapping? parsed with
      | none => simp [hfields]
      | some fields => simp [hfields, isSubmapOf_eq_none_iff]
  | custom predicate =>
    rw [BodyValidator.validate, BodyValidator.Accepts]
    rcases predicate content with exc | holds <;> simp
  | custom2 predicate expected =>
    rw [BodyValidator.validate, BodyValidator.Accepts]
    rcases predicate content with exc | got <;> simp [bne]
  | user validate =>
    rw [BodyValidator.validate, BodyValidator.Accepts]
    rcases validate content with exc | _ | text <;> simp [Except.map]

theorem length_bodies (args : RequestArgs V) : args.bodies.length = args.bodyCriteria := by
  obtain ⟨scope, method, body, text, json, jsonSubmap, predicate⟩ := args
  cases body <;> cases text <;> cases json <;> cases jsonSubmap <;> cases predicate <;> rfl

theorem validator_eq_head (args : RequestArgs V) : args.validator = args.bodies.head? := by
  obtain ⟨scope, method, body, text, json, jsonSubmap, predicate⟩ := args
  cases body with
  | some body => rfl
  | none =>
    cases text with
    | some text => rfl
    | none =>
      cases json with
      | some json => rfl
      | none =>
        cases jsonSubmap with
        | some submap => rfl
        | none => rcases predicate with _ | _ | _ | _ <;> rfl

/-- The constructor's validator is the only one that is given. -/
theorem mem_bodies_iff {args : RequestArgs V} (h : args.bodyCriteria < 2)
    (validator : BodyValidator V) : validator ∈ args.bodies ↔ args.validator = some validator := by
  rw [← length_bodies] at h
  rw [validator_eq_head]
  match hbodies : args.bodies with
  | [] => simp
  | [only] => simp [eq_comm]
  | first :: second :: rest =>
    rw [hbodies, List.length_cons, List.length_cons] at h
    omega

theorem Extends.mem_bodies {args args' : RequestArgs V} (h : Extends args args')
    {validator : BodyValidator V} (hmem : validator ∈ args.bodies) : validator ∈ args'.bodies := by
  unfold RequestArgs.bodies at hmem ⊢
  simp only [List.mem_append, Option.mem_toList, Option.map_eq_some_iff] at hmem ⊢
  rcases hmem with (((⟨x, hx, rfl⟩ | ⟨x, hx, rfl⟩) | ⟨x, hx, rfl⟩) | ⟨x, hx, rfl⟩) | ⟨x, hx, rfl⟩
  · exact Or.inl (Or.inl (Or.inl (Or.inl ⟨x, h.body x hx, rfl⟩)))
  · exact Or.inl (Or.inl (Or.inl (Or.inr ⟨x, h.text x hx, rfl⟩)))
  · exact Or.inl (Or.inl (Or.inr ⟨x, h.json x hx, rfl⟩))
  · exact Or.inl (Or.inr ⟨x, h.jsonSubmap x hx, rfl⟩)
  · exact Or.inr ⟨x, h.contentPredicate x hx, rfl⟩

/-- A criterion that holds with more arguments holds with fewer. -/
theorem Extends.holds [BEq V] {py : Python V} {args args' : RequestArgs V}
    (h : Extends args args') {recorded : RecordedHTTPRequest V} {c : Criterion}
    (hholds : c.Holds py args' recorded) : c.Holds py args recorded := by
  cases c with
  | headers =>
    obtain ⟨hexact, hsubmap⟩ := hholds
    constructor
    · intro expected hexpected
      obtain ⟨d, hd, rfl⟩ := Option.map_eq_some_iff.mp hexpected
      exact hexact _ (Option.map_eq_some_iff.mpr ⟨d, h.headers d hd, rfl⟩)
    · intro expected hexpected
      obtain ⟨d, hd, rfl⟩ := Option.map_eq_some_iff.mp hexpected
      exact hsubmap _ (Option.map_eq_some_iff.mpr ⟨d, h.headersSubmap d hd, rfl⟩)
  | path => exact fun path hpath => hholds path (h.path path hpath)
  | pathParams =>
    exact ⟨fun d hd => hholds.1 d (h.pathParams d hd),
      fun d hd => hholds.2 d (h.pathParamsSubmap d hd)⟩
  | queryParams =>
    exact ⟨fun d hd => hholds.1 d (h.queryParams d hd),
      fun d hd => hholds.2 d (h.queryParamsSubmap d hd)⟩
  | method => exact fun method hmethod => hholds method (h.method method hmethod)
  | body => exact fun validator hmem => hholds validator (h.mem_bodies hmem)

/-! ### Matching -/

variable [BEq V]

/-- A criterion has no reason exactly when it holds. -/
theorem reason?_eq_none_iff {py : Python V} (hupper : ∀ s, s ≠ "" → py.upper s ≠ "")
    (g : GivenRequest py) (recorded : RecordedHTTPRequest V) {bodyReason : Option (BodyReason V)}
    (hbody : bodyReason = none ↔ Criterion.body.Holds py g.args recorded) (c : Criterion) :
    reason? g.expected recorded bodyReason c = none ↔ c.Holds py g.args recorded := by
  obtain ⟨hscope, -, hmethod, -⟩ := ExpectedHTTPRequest.init_eq_ok_iff.mp g.built
  obtain ⟨hheaders, hpath, hpathParams, hqueryParams⟩ := scopeInit_eq_ok_iff.mp hscope
  cases c with
  | headers =>
    rw [lowerKeys_given g.headersNonEmpty, lowerKeys_given g.headersSubmapNonEmpty] at hheaders
    rw [reason?, Option.map_eq_none_iff, matchesExpectedMultimap_eq_none_iff]
    exact multimapCriterion_iff hheaders recorded.headers
  | path =>
    rw [reason?, Option.map_eq_none_iff, matchesPath_eq_none_iff, hpath, Criterion.Holds]
    cases g.args.path with
    | none => simp
    | some path => simp [compile_fullmatch_iff]
  | pathParams =>
    rw [reason?, Option.map_eq_none_iff, matchesExpectedMap_eq_none_iff]
    exact mapCriterion_iff hpathParams recorded.pathParams
  | queryParams =>
    rw [reason?, Option.map_eq_none_iff, matchesExpectedMultimap_eq_none_iff]
    exact multimapCriterion_iff hqueryParams recorded.queryParams
  | method =>
    rw [reason?, hmethod, Criterion.Holds]
    cases hgiven : g.args.method with
    | none => simp
    | some method =>
      have hnonempty := hupper method (g.methodNonEmpty method hgiven)
      by_cases heq : recorded.method = py.upper method
      · simp [heq]
      · simp [hnonempty, heq, Ne.symm heq]
  | body =>
    rw [reason?, Option.map_eq_none_iff]
    exact hbody

/-- `matches` returns, with the reasons of the criteria that do not hold. -/
theorem matchesRequest_spec {py : Python V} (hupper : ∀ s, s ≠ "" → py.upper s ≠ "")
    (g : GivenRequest py) (recorded : RecordedHTTPRequest V)
    (hreturns : ∀ validator, g.expected.bodyValidator = some validator →
      Returns (validator.validate py recorded.content)) :
    ∃ bodyReason, g.expected.matchesRequest py recorded =
        .ok (Criterion.all.filterMap (reason? g.expected recorded bodyReason)) ∧
      ∀ c, reason? g.expected recorded bodyReason c = none ↔ c.Holds py g.args recorded := by
  obtain ⟨-, hcriteria, -, hvalidator⟩ := ExpectedHTTPRequest.init_eq_ok_iff.mp g.built
  have hbodies := mem_bodies_iff hcriteria
  rw [← hvalidator] at hbodies
  unfold ExpectedHTTPRequest.matchesRequest
  cases hbody : g.expected.bodyValidator with
  | none =>
    refine ⟨none, ?_, reason?_eq_none_iff hupper g recorded (iff_of_true rfl ?_)⟩
    · rw [← requestReasons_eq]
      simp
    · intro validator hmem
      rw [hbodies, hbody] at hmem
      cases hmem
  | some validator =>
    obtain ⟨bodyReason, hvalidate⟩ := hreturns validator hbody
    have haccepts := validate_eq_none_iff py recorded.content validator
    rw [hvalidate, Except.ok.injEq] at haccepts
    refine ⟨bodyReason, ?_, reason?_eq_none_iff hupper g recorded (haccepts.trans ?_)⟩
    · simp only [hvalidate, requestReasons_eq]
    · constructor
      · intro h other hmem
        rw [hbodies, hbody] at hmem
        cases hmem
        exact h
      · intro h
        exact h validator ((hbodies validator).mpr hbody)

theorem criteria_nodup : Criterion.all.Nodup := by decide

theorem mem_criteria (c : Criterion) : c ∈ Criterion.all := by
  cases c <;> decide

/-- Unless the validator raises, `matches` is the conjunction of the criteria: no reasons
exactly when every criterion that is given holds, and otherwise one reason for each that
does not. An expectation with more arguments matches no request that this one does not. -/
theorem matches_conjunction (py : Python V) (hupper : ∀ s, s ≠ "" → py.upper s ≠ "")
    (g : GivenRequest py) (recorded : RecordedHTTPRequest V)
    (hreturns : ∀ validator, g.expected.bodyValidator = some validator →
      Returns (validator.validate py recorded.content)) :
    ∃ reasons, g.expected.matchesRequest py recorded = .ok reasons ∧
      (reasons = [] ↔ ∀ c : Criterion, c.Holds py g.args recorded) ∧
      (reasons.map RequestReason.criterion).Nodup ∧
      (∀ c : Criterion, c ∈ reasons.map RequestReason.criterion ↔
        ¬ c.Holds py g.args recorded) ∧
      ∀ g' : GivenRequest py, Extends g.args g'.args →
        g'.expected.matchesRequest py recorded = .ok [] → reasons = [] := by
  obtain ⟨bodyReason, hmatches, hreasons⟩ := matchesRequest_spec hupper g recorded hreturns
  have hkinds := filterMap_kinds (f := reason? g.expected recorded bodyReason)
    criterion_of_reason Criterion.all
  have hnil : Criterion.all.filterMap (reason? g.expected recorded bodyReason) = [] ↔
      ∀ c : Criterion, c.Holds py g.args recorded := by
    rw [List.filterMap_eq_nil_iff]
    constructor
    · intro h c
      exact (hreasons c).mp (h c (mem_criteria c))
    · intro h c _
      exact (hreasons c).mpr (h c)
  refine ⟨_, hmatches, hnil, ?_, ?_, ?_⟩
  · rw [hkinds]
    exact criteria_nodup.filter _
  · intro c
    rw [hkinds, List.mem_filter, Option.isSome_iff_ne_none, ← hreasons c]
    exact and_iff_right (mem_criteria c)
  · intro g' hextends hmatch
    have hreturns' := (matchesRequest_returns_iff_validate g'.expected recorded).mp ⟨_, hmatch⟩
    obtain ⟨bodyReason', hmatches', hreasons'⟩ :=
      matchesRequest_spec hupper g' recorded hreturns'
    rw [hmatches', Except.ok.injEq, List.filterMap_eq_nil_iff] at hmatch
    rw [hnil]
    intro c
    exact hextends.holds ((hreasons' c).mp (hmatch c (mem_criteria c)))

theorem toUpper_ne_empty (s : String) (h : s ≠ "") : s.toUpper ≠ "" := by
  intro hupper
  exact h (String.map_eq_empty.mp hupper)

/-- An expectation of a POST to a path. -/
def postRequest : GivenRequest noJson where
  args := { method := some "post", path := some (.str "/") }
  headersNonEmpty := nofun
  headersSubmapNonEmpty := nofun
  methodNonEmpty := by
    rintro method ⟨⟩
    decide
  expected := ⟨⟨none, some (.literal "/"), none, none⟩, some (String.toUpper "post"), none⟩
  built := rfl

/-- A GET of that path fails the criterion of the method. -/
theorem matches_conjunction_post : ∃ reasons,
    postRequest.expected.matchesRequest noJson requestWithHeader = .ok reasons ∧
      Criterion.method ∈ reasons.map RequestReason.criterion := by
  obtain ⟨reasons, hmatches, -, -, hmem, -⟩ := matches_conjunction noJson toUpper_ne_empty
    postRequest requestWithHeader nofun
  refine ⟨reasons, hmatches, (hmem .method).mpr ?_⟩
  intro h
  have heq : "GET" = String.toUpper "post" := h "post" rfl
  revert heq
  decide +kernel

end Yellowbox.RequestCapture
