import Yellowbox.RequestCapture.ExpectedTranscript
import Yellowbox.RequestCapture.RaisingBodies

/-!
What the headers given to an expectation accept. They pass through `lower_keys`, which
makes no map of an empty one, where the other maps are only compared with `None`.
-/
namespace Yellowbox.RequestCapture

open Dicts

variable {V : Type}

/-- Headers whose names are distinct in lower case. -/
structure HeaderMap (lower : String → String) where
  map : Dict String Collection
  distinct : (map.keys.map lower).Nodup

inductive GivenHeaders (lower : String → String)
  | exact (headers : HeaderMap lower)
  | submap (headersSubmap : HeaderMap lower)
  | both (headers headersSubmap : HeaderMap lower)

namespace GivenHeaders

variable {lower : String → String}

def headers : GivenHeaders lower → Option (Dict String Collection)
  | exact headers | both headers _ => some headers.map
  | submap _ => none

def headersSubmap : GivenHeaders lower → Option (Dict String Collection)
  | submap headersSubmap | both _ headersSubmap => some headersSubmap.map
  | exact _ => none

end GivenHeaders

/-! ### What the headers should mean -/

/-- The recorded headers are the expected ones under lower-cased names. -/
def EqualsLowered (lower : String → String) (expected : Dict String Collection)
    (recorded : Dict String (List String)) : Prop :=
  (∀ name values, expected.get? name = some values →
    ∃ got, recorded.get? (lower name) = some got ∧ values.eqList got = true) ∧
  ∀ key ∈ recorded.keys, ∃ name ∈ expected.keys, lower name = key

/-- Every expected name is there in lower case, with its values at least as often. -/
def IncludesLowered (lower : String → String) (expected : Dict String Collection)
    (recorded : Dict String (List String)) : Prop :=
  ∀ name values, expected.get? name = some values →
    ∃ got, recorded.get? (lower name) = some got ∧
      ∀ value, values.items.count value ≤ got.count value

/-- No reason is about the headers. -/
def AcceptsHeaders [BEq V] (e : ScopeExpectation V) (recorded : RecordedScope V) : Prop :=
  ∀ reason ∈ e.scopeMismatchReasons recorded, reason.field ≠ "header"

/-- What a constructor with these headers should give, for what was recorded. -/
def GivenHeaders.Means [BEq V] {lower : String → String} (given : GivenHeaders lower)
    (recorded : RecordedScope V) (built : Except Exc (ScopeExpectation V)) : Prop :=
  match given with
  | .exact H => ∃ e, built = .ok e ∧
    (AcceptsHeaders e recorded ↔ EqualsLowered lower H.map recorded.headers)
  | .submap H => ∃ e, built = .ok e ∧
    (AcceptsHeaders e recorded ↔ IncludesLowered lower H.map recorded.headers)
  | .both _ _ => ∃ message, built = .error (.typeError message)

/-- No map is empty where that makes a difference. -/
def GivenHeaders.Kept {lower : String → String} (given : GivenHeaders lower)
    (recorded : RecordedScope V) : Prop :=
  match given with
  | .exact H => H.map.entries ≠ [] ∨ recorded.headers.entries = []
  | .submap _ => True
  | .both H H' => H.map.entries ≠ [] ∧ H'.map.entries ≠ []

/-- Arguments of which a request expectation can be made; other headers will be given. -/
structure OtherRequestArgs (py : Python V) where
  args : RequestArgs V
  constructible : ∃ e, ExpectedHTTPRequest.init py args = .ok e

/-- Arguments of which a transcript expectation can be made; other headers will be given. -/
structure OtherTranscriptArgs (V : Type) (lower : String → String) where
  args : TranscriptArgs V
  constructible : ∃ e, ExpectedWSTranscript.init lower args = .ok e

def OtherRequestArgs.build {py : Python V} (other : OtherRequestArgs py)
    (given : GivenHeaders py.lower) : Except Exc (ScopeExpectation V) :=
  (ExpectedHTTPRequest.init py
    { other.args with headers := given.headers, headersSubmap := given.headersSubmap }).map
      (·.toScopeExpectation)

def OtherTranscriptArgs.build {lower : String → String}
    (other : OtherTranscriptArgs V lower) (given : GivenHeaders lower) :
    Except Exc (ScopeExpectation V) :=
  (ExpectedWSTranscript.init lower
    { other.args with headers := given.headers, headersSubmap := given.headersSubmap }).map
      (·.toScopeExpectation)

/-! ### The maps that are compared -/

/-- `lower_keys` of a map that is not empty. -/
def lowered (lower : String → String) (d : Dict String Collection) : Dict String Collection :=
  .ofPairs (d.entries.map fun entry => (lower entry.1, entry.2))

section Lowered

variable {lower : String → String}

theorem lowerKeys_some {d : Dict String Collection} (h : d.entries ≠ []) :
    lowerKeys lower (some d) = some (lowered lower d) := by
  simp [lowerKeys, lowered, h]

theorem lowerKeys_empty {d : Dict String Collection} (h : d.entries = []) :
    lowerKeys lower (some d) = none := by
  simp [lowerKeys, h]

theorem entries_lowered (H : HeaderMap lower) :
    (lowered lower H.map).entries = H.map.entries.map fun entry => (lower entry.1, entry.2) := by
  apply Dict.entries_ofPairs
  have hdistinct := H.distinct
  rw [Dict.keys, List.map_map] at hdistinct
  rw [List.map_map]
  exact hdistinct

theorem forall_lowered (H : HeaderMap lower) {P : String → Collection → Prop} :
    (∀ key values, (lowered lower H.map).get? key = some values → P key values) ↔
      ∀ name values, H.map.get? name = some values → P (lower name) values := by
  rw [← forall_entries_iff, ← forall_entries_iff (P := fun name => P (lower name)),
    entries_lowered, List.forall_mem_map]

theorem mem_keys_lowered (H : HeaderMap lower) {key : String} :
    key ∈ (lowered lower H.map).keys ↔ ∃ name ∈ H.map.keys, lower name = key := by
  rw [Dict.keys, entries_lowered, List.map_map, Dict.keys]
  simp

theorem sameMap_lowered (H : HeaderMap lower) (recorded : Dict String (List String)) :
    SameMap Collection.eqList (lowered lower H.map) recorded ↔
      EqualsLowered lower H.map recorded := by
  rw [SameMap, EqualsLowered, forall_lowered H]
  simp only [mem_keys_lowered]

theorem submultimap_lowered (H : HeaderMap lower) (recorded : Dict String (List String)) :
    Submultimap ((lowered lower H.map).mapValues Collection.items) recorded ↔
      IncludesLowered lower H.map recorded := by
  have hforall := forall_lowered H (P := fun key values =>
    ∃ got, recorded.get? key = some got ∧ ∀ value, values.items.count value ≤ got.count value)
  rw [Submultimap, IncludesLowered, ← hforall, ← forall_entries_iff, ← forall_entries_iff,
    Dict.mapValues, List.forall_mem_map]

end Lowered

section Building

variable {lower : String → String}

/-- The expectation of a scope with these headers besides. -/
def withHeaders (lower : String → String) (scope : ScopeExpectation V)
    (given : GivenHeaders lower) : Except Exc (ScopeExpectation V) :=
  (toExpectedMap "headers" (lowerKeys lower given.headers)
    (lowerKeys lower given.headersSubmap)).map fun headers => { scope with headers := headers }

theorem acceptsHeaders_iff [BEq V] (e : ScopeExpectation V) (recorded : RecordedScope V) :
    AcceptsHeaders e recorded ↔ MultimapCriterion recorded.headers e.headers := by
  rw [← matchesExpectedMultimap_eq_none_iff (V := V) "header", AcceptsHeaders,
    ScopeExpectation.scopeMismatchReasons]
  constructor
  · intro h
    cases hreason : matchesExpectedMultimap (V := V) "header" e.headers recorded.headers with
    | none => rfl
    | some reason =>
      have hmem : reason ∈ (matchesExpectedMultimap "header" e.headers recorded.headers).toList :=
        Option.mem_toList.mpr hreason
      exact absurd (field_of_mem_multimap hmem) (h reason (by simp [hreason]))
  · intro h reason hmem
    rw [h, Option.toList_none, List.nil_append, List.mem_append, List.mem_append] at hmem
    rcases hmem with (hpath | hparams) | hquery
    · rw [field_of_mem_path hpath]
      decide
    · rw [field_of_mem_map hparams]
      decide
    · rw [field_of_mem_multimap hquery]
      decide

/-- The constructor of the scope with other headers. -/
theorem scopeInit_headers {args : ScopeArgs V} {scope : ScopeExpectation V}
    (h : ScopeExpectation.init lower args = .ok scope) (H H' : Option (Dict String Collection)) :
    ScopeExpectation.init lower { args with headers := H, headersSubmap := H' } =
      (toExpectedMap "headers" (lowerKeys lower H) (lowerKeys lower H')).map
        fun headers => { scope with headers := headers } := by
  obtain ⟨-, hpath, hparams, hquery⟩ := scopeInit_eq_ok_iff.mp h
  rw [ScopeExpectation.init, hparams, hquery, ← hpath]
  cases toExpectedMap "headers" (lowerKeys lower H) (lowerKeys lower H') <;> rfl

/-- The expectation of a request, when its headers can be compiled. -/
theorem OtherRequestArgs.build_eq {py : Python V} (other : OtherRequestArgs py)
    (given : GivenHeaders py.lower) : ∃ scope : ScopeExpectation V,
      other.build given = withHeaders py.lower scope given := by
  obtain ⟨e, he⟩ := other.constructible
  obtain ⟨hscope, hfew, -⟩ := ExpectedHTTPRequest.init_eq_ok_iff.mp he
  have hcriteria : ¬ other.args.bodyCriteria ≥ 2 := Nat.not_le.mpr hfew
  have hheaders := scopeInit_headers hscope given.headers given.headersSubmap
  refine ⟨e.toScopeExpectation, ?_⟩
  rw [withHeaders, ← hheaders, build, ExpectedHTTPRequest.init]
  show Except.map _ (Except.bind (ScopeExpectation.init py.lower _) fun _ =>
    if other.args.bodyCriteria ≥ 2 then _ else _) = _
  rw [hheaders]
  cases toExpectedMap "headers" (lowerKeys py.lower given.headers)
    (lowerKeys py.lower given.headersSubmap) with
  | error exc => rfl
  | ok headers =>
    simp only [Except.map, Except.bind, if_neg hcriteria]
    rfl

/-- The expectation of a transcript likewise. -/
theorem OtherTranscriptArgs.build_eq (other : OtherTranscriptArgs V lower)
    (given : GivenHeaders lower) : ∃ scope : ScopeExpectation V,
      other.build given = withHeaders lower scope given := by
  obtain ⟨e, he⟩ := other.constructible
  obtain ⟨hscope, houter, -⟩ := init_eq_ok_iff.mp he
  have hheaders := scopeInit_headers hscope given.headers given.headersSubmap
  have hinner :
      (stripEnd (stripStart other.args.messages).1).1.any MessageArg.isEllipsis = false := by
    rw [strip_any]
    exact (outerEllipses_iff _).mp houter
  refine ⟨e.toScopeExpectation, ?_⟩
  rw [withHeaders, ← hheaders, build, ExpectedWSTranscript.init, hheaders]
  cases toExpectedMap "headers" (lowerKeys lower given.headers)
    (lowerKeys lower given.headersSubmap) with
  | error exc => rfl
  | ok headers =>
    simp only [Except.map, bind, Except.bind, hinner]
    rfl

/-! ### The condition -/

theorem get?_of_empty {d : Dict String Collection} (hempty : d.entries = []) (name : String) :
    d.get? name = none := by
  rw [Dict.get?, hempty]
  rfl

theorem equalsLowered_of_empty {lower : String → String} {d : Dict String Collection}
    (hempty : d.entries = []) (recorded : Dict String (List String)) :
    EqualsLowered lower d recorded ↔ recorded.entries = [] := by
  constructor
  · rintro ⟨-, hkeys⟩
    rw [List.eq_nil_iff_forall_not_mem]
    intro entry hentry
    obtain ⟨name, hname, -⟩ := hkeys entry.1 (List.mem_map_of_mem hentry)
    rw [Dict.keys, hempty] at hname
    cases hname
  · intro hrecorded
    refine ⟨fun name values hvalues => ?_, fun key hkey => ?_⟩
    · rw [get?_of_empty hempty] at hvalues
      cases hvalues
    · rw [Dict.keys, hrecorded] at hkey
      cases hkey

variable [BEq V]

theorem exact_means_iff (scope : ScopeExpectation V) (H : HeaderMap lower)
    (recorded : RecordedScope V) :
    GivenHeaders.Means (.exact H) recorded (withHeaders lower scope (.exact H)) ↔
      H.map.entries ≠ [] ∨ recorded.headers.entries = [] := by
  by_cases hempty : H.map.entries = []
  · have hbuilt : withHeaders lower scope (.exact H) = .ok { scope with headers := none } := by
      rw [withHeaders, GivenHeaders.headers, lowerKeys_empty hempty]
      rfl
    have haccepts : AcceptsHeaders { scope with headers := none } recorded :=
      (acceptsHeaders_iff _ recorded).mpr trivial
    rw [← @equalsLowered_of_empty lower _ hempty]
    simp [GivenHeaders.Means, hbuilt, haccepts, hempty]
  · have hbuilt : withHeaders lower scope (.exact H) =
        .ok { scope with headers := some (lowered lower H.map, false) } := by
      rw [withHeaders, GivenHeaders.headers, lowerKeys_some hempty]
      rfl
    refine iff_of_true ⟨_, hbuilt, ?_⟩ (Or.inl hempty)
    rw [acceptsHeaders_iff]
    exact sameMap_lowered H recorded.headers

theorem submap_means (scope : ScopeExpectation V) (H : HeaderMap lower)
    (recorded : RecordedScope V) :
    GivenHeaders.Means (.submap H) recorded (withHeaders lower scope (.submap H)) := by
  by_cases hempty : H.map.entries = []
  · have hbuilt : withHeaders lower scope (.submap H) = .ok { scope with headers := none } := by
      rw [withHeaders, GivenHeaders.headersSubmap, lowerKeys_empty hempty]
      rfl
    refine ⟨_, hbuilt, iff_of_true ((acceptsHeaders_iff _ recorded).mpr trivial) ?_⟩
    intro name values hvalues
    rw [get?_of_empty hempty] at hvalues
    cases hvalues
  · have hbuilt : withHeaders lower scope (.submap H) =
        .ok { scope with headers := some (lowered lower H.map, true) } := by
      rw [withHeaders, GivenHeaders.headersSubmap, lowerKeys_some hempty]
      rfl
    refine ⟨_, hbuilt, ?_⟩
    rw [acceptsHeaders_iff]
    exact submultimap_lowered H recorded.headers

/-- Of two maps an empty one goes unnoticed. -/
theorem both_means_iff (scope : ScopeExpectation V) (H H' : HeaderMap lower)
    (recorded : RecordedScope V) :
    GivenHeaders.Means (.both H H') recorded (withHeaders lower scope (.both H H')) ↔
      H.map.entries ≠ [] ∧ H'.map.entries ≠ [] := by
  rw [GivenHeaders.Means, withHeaders, GivenHeaders.headers, GivenHeaders.headersSubmap]
  by_cases hempty : H.map.entries = []
  · rw [lowerKeys_empty hempty]
    by_cases hempty' : H'.map.entries = []
    · rw [lowerKeys_empty hempty']
      simp [toExpectedMap, Except.map, hempty]
    · rw [lowerKeys_some hempty']
      simp [toExpectedMap, Except.map, hempty]
  · rw [lowerKeys_some hempty]
    by_cases hempty' : H'.map.entries = []
    · rw [lowerKeys_empty hempty']
      simp [toExpectedMap, Except.map, hempty']
    · rw [lowerKeys_some hempty']
      simp [toExpectedMap, Except.map, hempty, hempty']

theorem means_iff (scope : ScopeExpectation V) (given : GivenHeaders lower)
    (recorded : RecordedScope V) :
    given.Means recorded (withHeaders lower scope given) ↔ given.Kept recorded := by
  cases given with
  | exact H => exact exact_means_iff scope H recorded
  | submap H => exact iff_of_true (submap_means scope H recorded) trivial
  | both H H' => exact both_means_iff scope H H' recorded

end Building

/-- The headers given to an expectation, of a request or of a transcript, mean what they say
exactly when no map that matters is empty. An empty one is dropped: as the exact headers it
accepts everything, and beside another map it is not rejected. -/
theorem headers_mean_iff [BEq V] (py : Python V) (given : GivenHeaders py.lower) :
    (∀ (other : OtherRequestArgs py) (r : RecordedHTTPRequest V),
      given.Means r.toRecordedScope (other.build given) ↔ given.Kept r.toRecordedScope) ∧
    ∀ (other : OtherTranscriptArgs V py.lower) (t : RecordedTranscript V),
      given.Means t.toRecordedScope (other.build given) ↔ given.Kept t.toRecordedScope := by
  constructor
  · intro other r
    obtain ⟨scope, hbuild⟩ := other.build_eq given
    rw [hbuild]
    exact means_iff scope given r.toRecordedScope
  · intro other t
    obtain ⟨scope, hbuild⟩ := other.build_eq given
    rw [hbuild]
    exact means_iff scope given t.toRecordedScope

/-- No headers at all. -/
def noHeaders (lower : String → String) : HeaderMap lower := ⟨.empty, List.nodup_nil⟩

def bareRequest : OtherRequestArgs noJson where
  args := {}
  constructible := ⟨_, rfl⟩

/-- A GET with one header. -/
def requestWithHeader : RecordedHTTPRequest String :=
  ⟨⟨.ofPairs [("host", ["a"])], "/", .empty, .empty⟩, "GET", []⟩

/-- An expectation of exactly no headers accepts a request that has one. -/
theorem empty_headers_accept : ¬ ∀ (py : Python String) (given : GivenHeaders py.lower)
    (other : OtherRequestArgs py) (r : RecordedHTTPRequest String),
    given.Means r.toRecordedScope (other.build given) := by
  intro h
  obtain ⟨e, hbuilt, haccepts⟩ :=
    h noJson (.exact (noHeaders noJson.lower)) bareRequest requestWithHeader
  have he : e = ⟨none, none, none, none⟩ := (Except.ok.inj hbuilt).symm
  subst he
  have hequal : EqualsLowered noJson.lower .empty requestWithHeader.headers :=
    haccepts.mp (by rintro reason ⟨⟩)
  obtain ⟨name, hname, -⟩ := hequal.2 "host" (by decide)
  cases hname

end Yellowbox.RequestCapture
