import Yellowbox.Base.Counters

/-!
What an expected request and an expected transcript say about the scope of a
connection: its headers, its path and its parameters. A check gives the reason of a
mismatch, or nothing.
-/
namespace Yellowbox.RequestCapture

open Dicts Counters

abbrev Bytes := List UInt8

/-- What the classes of expectations raise; `user` is an exception of a caller's predicate. -/
inductive Exc
  | typeError (message : String)
  | valueError (message : String)
  | runtimeError (message : String)
  | indexError
  | unicodeDecodeError
  | lookupError (encoding : String)
  | loadsError (name : String)
  | user (id : ℕ)
  deriving DecidableEq, Repr

/-- A compiled regular expression over `str` or `bytes`, with what it matches in full. -/
structure Pattern (α : Type) where
  pattern : α
  fullmatch : α → Bool

/-- The characters that `re.escape` writes a backslash before. -/
def isSpecial (c : Char) : Bool :=
  c ∈ ['(', ')', '[', ']', '\x7b', '\x7d', '?', '*', '+', '-', '|', '^', '$', '\\', '.', '&',
    '~', '#', ' ', '\t', '\n', '\r', '\x0b', '\x0c']

/-- `re.escape` -/
def escape (path : String) : String :=
  String.ofList (path.toList.flatMap fun c => if isSpecial c then ['\\', c] else [c])

/-- `re.compile(re.escape(path))`, which matches the path and nothing else. -/
def Pattern.literal (path : String) : Pattern String := ⟨escape path, fun text => text == path⟩

/-- A collection of `str`. One that is no `list` is not equal to any list. -/
structure Collection where
  isList : Bool
  items : List String
  deriving DecidableEq

def Collection.eqList (expected : Collection) (recorded : List String) : Bool :=
  expected.isList && expected.items == recorded

/-! ### Maps -/

inductive SubmapReason (K V : Type)
  | keyNotFound (key : K) (found : List K)
  | otherValue (key : K) (expected got : V)

inductive SubmultimapReason (K V : Type)
  | keyNotFound (key : K)
  | tooFew (value : V) (expected : ℕ) (key : K) (got : List V)

section Maps

variable {K V : Type} [DecidableEq K]

/-- `_is_submap_of`, up to the first pair that is not found. -/
def isSubmapOf [BEq V] (submap supermap : Dict K V) : Option (SubmapReason K V) :=
  submap.entries.findSome? fun entry =>
    match supermap.get? entry.1 with
    | none => some (.keyNotFound entry.1 supermap.keys)
    | some otherV =>
      if otherV != entry.2 then some (.otherValue entry.1 entry.2 otherV) else none

/-- `_is_submultimap_of`, up to the first key whose values are not all found. -/
def isSubmultimapOf [DecidableEq V] (submultimap supermultimap : Dict K (List V)) :
    Option (SubmultimapReason K V) :=
  submultimap.entries.findSome? fun entry =>
    match supermultimap.get? entry.1 with
    | none => some (.keyNotFound entry.1)
    | some otherV =>
      let diff := (Counter.ofList otherV).subtract (Counter.ofList entry.2)
      diff.firstNegative.map fun missingValue =>
        .tooFew missingValue (entry.2.count missingValue) entry.1 otherV

/-- Every pair of `submap` is in `supermap`. -/
def Submap [BEq V] (submap supermap : Dict K V) : Prop :=
  ∀ k v, submap.get? k = some v → ∃ otherV, supermap.get? k = some otherV ∧ (otherV == v) = true

/-- Under every key of `submultimap`, `supermultimap` has all its values, as often. -/
def Submultimap [DecidableEq V] (submultimap supermultimap : Dict K (List V)) : Prop :=
  ∀ k v, submultimap.get? k = some v → ∃ otherV, supermultimap.get? k = some otherV ∧
    ∀ a, v.count a ≤ otherV.count a

/-- The same keys with equal values. -/
def SameMap {W : Type} (eq : V → W → Bool) (expected : Dict K V) (recorded : Dict K W) : Prop :=
  (∀ k v, expected.get? k = some v → ∃ w, recorded.get? k = some w ∧ eq v w = true) ∧
    ∀ k, k ∈ recorded.keys → k ∈ expected.keys

theorem forall_entries_iff {d : Dict K V} {P : K → V → Prop} :
    (∀ entry ∈ d.entries, P entry.1 entry.2) ↔ ∀ k v, d.get? k = some v → P k v := by
  constructor
  · intro h k v hkv
    exact h (k, v) (Dict.mem_entries_iff.mpr hkv)
  · intro h entry hentry
    exact h entry.1 entry.2 (Dict.mem_entries_iff.mp hentry)

theorem isSubmapOf_eq_none_iff [BEq V] (submap supermap : Dict K V) :
    isSubmapOf submap supermap = none ↔ Submap submap supermap := by
  rw [isSubmapOf, List.findSome?_eq_none_iff, Submap, ← forall_entries_iff]
  apply forall_congr'
  intro entry
  apply imp_congr_right
  intro _
  cases supermap.get? entry.1 with
  | none => simp
  | some otherV => simp [bne]

theorem isSubmultimapOf_eq_none_iff [DecidableEq V]
    (submultimap supermultimap : Dict K (List V)) :
    isSubmultimapOf submultimap supermultimap = none ↔
      Submultimap submultimap supermultimap := by
  rw [isSubmultimapOf, List.findSome?_eq_none_iff, Submultimap, ← forall_entries_iff]
  apply forall_congr'
  intro entry
  apply imp_congr_right
  intro _
  cases supermultimap.get? entry.1 with
  | none => simp
  | some otherV =>
    simp only [Option.map_eq_none_iff, Counter.firstNegative_subtract_iff]
    simp

end Maps

/-! ### The scope -/

/-- `lower_keys`; an empty map becomes no map at all. `lower` is `str.lower`. -/
def lowerKeys (lower : String → String) : Option (Dict String Collection) →
    Option (Dict String Collection)
  | none => none
  | some d =>
    if d.entries.isEmpty then none
    else some (.ofPairs (d.entries.map fun entry => (lower entry.1, entry.2)))

/-- What is expected of a map, and whether it may have more than that. -/
abbrev ExpectedMap (α : Type) := Option (α × Bool)

/-- `_to_expected_map` -/
def toExpectedMap {α : Type} (name : String) : Option α → Option α →
    Except Exc (ExpectedMap α)
  | some _, some _ =>
    .error (.typeError s!"at most one of \"{name}\" and \"{name}_submap\" can be provided")
  | some exact, none => .ok (some (exact, false))
  | none, some submap => .ok (some (submap, true))
  | none, none => .ok none

/-- At most one of the two maps was given. -/
theorem toExpectedMap_cases {α : Type} {name : String} {exact submap : Option α}
    {expected : ExpectedMap α} (h : toExpectedMap name exact submap = .ok expected) :
    (exact = none ∧ submap = none ∧ expected = none) ∨
      (∃ d, exact = some d ∧ submap = none ∧ expected = some (d, false)) ∨
      ∃ d, exact = none ∧ submap = some d ∧ expected = some (d, true) := by
  cases exact with
  | none =>
    cases submap with
    | none =>
      cases h
      exact .inl ⟨rfl, rfl, rfl⟩
    | some d =>
      cases h
      exact .inr (.inr ⟨d, rfl, rfl, rfl⟩)
  | some d =>
    cases submap with
    | none =>
      cases h
      exact .inr (.inl ⟨d, rfl, rfl, rfl⟩)
    | some d' => cases h

/-- The reasons of a scope, one constructor for each text. -/
inductive ScopeReason (V : Type)
  | multimapMismatch (name : String) (reason : SubmultimapReason String String)
  | multimapIsNe (name : String) (expected : Dict String Collection)
      (got : Dict String (List String))
  | mapMismatch (name : String) (reason : SubmapReason String V)
  | mapIsNe (name : String) (expected got : Dict String V)
  | pathIsNe (pattern got : String)

/-- The name with which the text of a reason begins. -/
def ScopeReason.field {V : Type} : ScopeReason V → String
  | multimapMismatch name _ | multimapIsNe name _ _ => name
  | mapMismatch name _ | mapIsNe name _ _ => name
  | pathIsNe _ _ => "path"

/-- What is recorded of the scope of a request or a connection. -/
structure RecordedScope (V : Type) where
  headers : Dict String (List String)
  path : String
  pathParams : Dict String V
  queryParams : Dict String (List String)

inductive PathArg
  | str (path : String)
  | pattern (path : Pattern String)

structure ScopeArgs (V : Type) where
  headers : Option (Dict String Collection) := none
  headersSubmap : Option (Dict String Collection) := none
  path : Option PathArg := none
  pathParams : Option (Dict String V) := none
  pathParamsSubmap : Option (Dict String V) := none
  queryParams : Option (Dict String Collection) := none
  queryParamsSubmap : Option (Dict String Collection) := none

structure ScopeExpectation (V : Type) where
  headers : ExpectedMap (Dict String Collection)
  pathPattern : Option (Pattern String)
  pathParams : ExpectedMap (Dict String V)
  queryParams : ExpectedMap (Dict String Collection)

def PathArg.compile : PathArg → Pattern String
  | str path => .literal path
  | pattern path => path

variable {V : Type}

/-- `_matches_expected_multimap` -/
def matchesExpectedMultimap (name : String) (expected : ExpectedMap (Dict String Collection))
    (recorded : Dict String (List String)) : Option (ScopeReason V) :=
  match expected with
  | none => none
  | some (expectedValue, true) =>
    (isSubmultimapOf (expectedValue.mapValues Collection.items) recorded).map
      (.multimapMismatch name)
  | some (expectedValue, false) =>
    if Dict.eqBy Collection.eqList expectedValue recorded then none
    else some (.multimapIsNe name expectedValue recorded)

/-- `_matches_expected_map` -/
def matchesExpectedMap [BEq V] (name : String) (expected : ExpectedMap (Dict String V))
    (recorded : Dict String V) : Option (ScopeReason V) :=
  match expected with
  | none => none
  | some (expectedValue, true) => (isSubmapOf expectedValue recorded).map (.mapMismatch name)
  | some (expectedValue, false) =>
    if Dict.eqBy (· == ·) expectedValue recorded then none
    else some (.mapIsNe name expectedValue recorded)

def matchesPath (expected : Option (Pattern String)) (path : String) : Option (ScopeReason V) :=
  match expected with
  | none => none
  | some pattern =>
    if pattern.fullmatch path then none else some (.pathIsNe pattern.pattern path)

namespace ScopeExpectation

/-- `ScopeExpectation.__init__` -/
def init (lower : String → String) (args : ScopeArgs V) : Except Exc (ScopeExpectation V) := do
  let headers ← toExpectedMap "headers" (lowerKeys lower args.headers)
    (lowerKeys lower args.headersSubmap)
  let pathParams ← toExpectedMap "path_params" args.pathParams args.pathParamsSubmap
  let queryParams ← toExpectedMap "query_params" args.queryParams args.queryParamsSubmap
  return ⟨headers, args.path.map PathArg.compile, pathParams, queryParams⟩

/-- `scope_mismatch_reasons` -/
def scopeMismatchReasons [BEq V] (e : ScopeExpectation V) (recorded : RecordedScope V) :
    List (ScopeReason V) :=
  (matchesExpectedMultimap "header" e.headers recorded.headers).toList ++
    (matchesPath e.pathPattern recorded.path).toList ++
    (matchesExpectedMap "path_params" e.pathParams recorded.pathParams).toList ++
    (matchesExpectedMultimap "query_params" e.queryParams recorded.queryParams).toList

end ScopeExpectation

/-! ### The constructor -/

theorem scopeInit_eq_ok_iff {lower : String → String} {args : ScopeArgs V}
    {e : ScopeExpectation V} : ScopeExpectation.init lower args = .ok e ↔
      toExpectedMap "headers" (lowerKeys lower args.headers) (lowerKeys lower args.headersSubmap) =
        .ok e.headers ∧
      e.pathPattern = args.path.map PathArg.compile ∧
      toExpectedMap "path_params" args.pathParams args.pathParamsSubmap = .ok e.pathParams ∧
      toExpectedMap "query_params" args.queryParams args.queryParamsSubmap =
        .ok e.queryParams := by
  obtain ⟨headers, pathPattern, pathParams, queryParams⟩ := e
  unfold ScopeExpectation.init
  rcases toExpectedMap "headers" (lowerKeys lower args.headers)
    (lowerKeys lower args.headersSubmap) with exc | headers'
  · simp [bind, Except.bind]
  · rcases toExpectedMap "path_params" args.pathParams args.pathParamsSubmap with exc | pathParams'
    · simp [bind, Except.bind]
    · rcases toExpectedMap "query_params" args.queryParams args.queryParamsSubmap with
        exc | queryParams'
      · simp [bind, Except.bind]
      · simp [bind, Except.bind, pure, Except.pure, eq_comm]

/-! ### The criteria -/

/-- What an expectation of a multimap wants of it. -/
def MultimapCriterion (recorded : Dict String (List String)) :
    ExpectedMap (Dict String Collection) → Prop
  | none => True
  | some (expected, true) => Submultimap (expected.mapValues Collection.items) recorded
  | some (expected, false) => SameMap Collection.eqList expected recorded

/-- What an expectation of a map wants of it. -/
def MapCriterion [BEq V] (recorded : Dict String V) : ExpectedMap (Dict String V) → Prop
  | none => True
  | some (expected, true) => Submap expected recorded
  | some (expected, false) => SameMap (· == ·) expected recorded

/-- Every criterion of the scope holds. -/
structure ScopeCriteria [BEq V] (e : ScopeExpectation V) (recorded : RecordedScope V) : Prop where
  headers : MultimapCriterion recorded.headers e.headers
  path : ∀ pattern, e.pathPattern = some pattern → pattern.fullmatch recorded.path = true
  pathParams : MapCriterion recorded.pathParams e.pathParams
  queryParams : MultimapCriterion recorded.queryParams e.queryParams

theorem matchesExpectedMultimap_eq_none_iff (name : String)
    (expected : ExpectedMap (Dict String Collection)) (recorded : Dict String (List String)) :
    matchesExpectedMultimap (V := V) name expected recorded = none ↔
      MultimapCriterion recorded expected := by
  rcases expected with _ | ⟨expected, _ | _⟩
  · simp [matchesExpectedMultimap, MultimapCriterion]
  · simp [matchesExpectedMultimap, MultimapCriterion, Dict.eqBy_iff, SameMap]
  · simp [matchesExpectedMultimap, MultimapCriterion, isSubmultimapOf_eq_none_iff]

theorem matchesExpectedMap_eq_none_iff [BEq V] (name : String)
    (expected : ExpectedMap (Dict String V)) (recorded : Dict String V) :
    matchesExpectedMap name expected recorded = none ↔ MapCriterion recorded expected := by
  rcases expected with _ | ⟨expected, _ | _⟩
  · simp [matchesExpectedMap, MapCriterion]
  · simp [matchesExpectedMap, MapCriterion, Dict.eqBy_iff, SameMap]
  · simp [matchesExpectedMap, MapCriterion, isSubmapOf_eq_none_iff]

theorem matchesPath_eq_none_iff (expected : Option (Pattern String)) (path : String) :
    matchesPath (V := V) expected path = none ↔
      ∀ pattern, expected = some pattern → pattern.fullmatch path = true := by
  cases expected with
  | none => simp [matchesPath]
  | some pattern => simp [matchesPath]

theorem field_of_mem_multimap {name : String} {expected : ExpectedMap (Dict String Collection)}
    {recorded : Dict String (List String)} {reason : ScopeReason V}
    (h : reason ∈ (matchesExpectedMultimap name expected recorded).toList) :
    reason.field = name := by
  unfold matchesExpectedMultimap at h
  rw [Option.mem_toList] at h
  split at h
  · cases h
  · obtain ⟨_, -, rfl⟩ := Option.map_eq_some_iff.mp h
    rfl
  · split at h <;> cases h
    rfl

theorem field_of_mem_map [BEq V] {name : String} {expected : ExpectedMap (Dict String V)}
    {recorded : Dict String V} {reason : ScopeReason V}
    (h : reason ∈ (matchesExpectedMap name expected recorded).toList) : reason.field = name := by
  unfold matchesExpectedMap at h
  rw [Option.mem_toList] at h
  split at h
  · cases h
  · obtain ⟨_, -, rfl⟩ := Option.map_eq_some_iff.mp h
    rfl
  · split at h <;> cases h
    rfl

theorem field_of_mem_path {expected : Option (Pattern String)} {path : String}
    {reason : ScopeReason V} (h : reason ∈ (matchesPath expected path).toList) :
    reason.field = "path" := by
  unfold matchesPath at h
  rw [Option.mem_toList] at h
  split at h
  · cases h
  · split at h <;> cases h
    rfl

theorem scopeMismatchReasons_eq_nil_iff [BEq V] (e : ScopeExpectation V)
    (recorded : RecordedScope V) :
    e.scopeMismatchReasons recorded = [] ↔ ScopeCriteria e recorded := by
  simp only [ScopeExpectation.scopeMismatchReasons, List.append_eq_nil_iff,
    Option.toList_eq_nil_iff, matchesExpectedMultimap_eq_none_iff, matchesPath_eq_none_iff,
    matchesExpectedMap_eq_none_iff]
  constructor
  · rintro ⟨⟨⟨hheaders, hpath⟩, hpathParams⟩, hqueryParams⟩
    exact ⟨hheaders, hpath, hpathParams, hqueryParams⟩
  · intro h
    exact ⟨⟨⟨h.headers, h.path⟩, h.pathParams⟩, h.queryParams⟩

end Yellowbox.RequestCapture
