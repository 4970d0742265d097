import Yellowbox.RequestCapture.ExpectedTranscript

/-!
`assert_any_request` over recorded transcripts, some of which may be of connections that
are still open. `matches` raises on such a transcript, and `any` asks one transcript
after the other until one matches.
-/
namespace Yellowbox.RequestCapture

open WebSocketRecorder

variable {V : Type}

/-- What `assert_any_request` raises: an `AssertionError`, or something else. -/
inductive AnyTranscriptError
  | noRequests
  | noTranscriptsMatch
  | raised (exc : Exc)
  deriving DecidableEq

/-- The expectation of the assertion, given as an object or by keyword arguments. -/
def theExpectedTranscript (lower : String → String) :
    Option (ExpectedWSTranscript V) → Option (TranscriptArgs V) →
      Except Exc (ExpectedWSTranscript V)
  | some _, some _ =>
    .error (.typeError "method can be called with either expected or keyword args, but not both")
  | some expected, none => .ok expected
  | none, some kwargs => ExpectedWSTranscript.init lower kwargs
  | none, none => .error (.typeError "either expected or keyword args must be provided")

/-- `any(expected.matches(req) for req in self)` -/
def anyMatches [BEq V] (expected : ExpectedWSTranscript V) :
    List (RecordedTranscript V) → Except Exc Bool
  | [] => .ok false
  | req :: transcripts =>
    match expected.matchesTranscript req with
    | .error exc => .error exc
    | .ok none => .ok true
    | .ok (some _) => anyMatches expected transcripts

/-- `RecordedWSTranscripts.assert_any_request` -/
def assertAnyTranscript [BEq V] (lower : String → String)
    (expected : Option (ExpectedWSTranscript V)) (kwargs : Option (TranscriptArgs V))
    (transcripts : List (RecordedTranscript V)) : Except AnyTranscriptError Unit :=
  match theExpectedTranscript lower expected kwargs with
  | .error exc => .error (.raised exc)
  | .ok expected =>
    if transcripts.isEmpty then .error .noRequests
    else
      match anyMatches expected transcripts with
      | .error exc => .error (.raised exc)
      | .ok true => .ok ()
      | .ok false => .error .noTranscriptsMatch

/-- An expected transcript that was constructed. -/
structure BuiltTranscript (V : Type) (lower : String → String) where
  args : TranscriptArgs V
  expected : ExpectedWSTranscript V
  built : ExpectedWSTranscript.init lower args = .ok expected

def RecordedTranscript.Finished (t : RecordedTranscript V) : Prop := t.close ≠ none

variable [BEq V] {lower : String → String}

/-- A finished transcript that matches. -/
def Found (e : ExpectedWSTranscript V) (t : RecordedTranscript V) : Prop :=
  t.Finished ∧ e.matchesTranscript t = .ok none

/-- The assertion passes if and only if some finished transcript matches, and otherwise
raises an `AssertionError`. -/
structure AssertsAny (lower : String → String) (e : ExpectedWSTranscript V)
    (transcripts : List (RecordedTranscript V)) : Prop where
  passes : assertAnyTranscript lower (some e) none transcripts = .ok () ↔
    ∃ t ∈ transcripts, Found e t
  onlyAsserts : ∀ exc, assertAnyTranscript lower (some e) none transcripts ≠ .error (.raised exc)

/-- The outcome is the same for every order of the transcripts. -/
def OrderIndependent (lower : String → String) (e : ExpectedWSTranscript V)
    (transcripts : List (RecordedTranscript V)) : Prop :=
  ∀ transcripts', transcripts.Perm transcripts' →
    assertAnyTranscript lower (some e) none transcripts' =
      assertAnyTranscript lower (some e) none transcripts

/-- Before every transcript of an open connection there is a finished one that matches. -/
def OpenAfterFound (e : ExpectedWSTranscript V) (transcripts : List (RecordedTranscript V)) :
    Prop :=
  ∀ before t after, transcripts = before ++ t :: after → ¬ t.Finished → ∃ s ∈ before, Found e s

/-! ### The search -/

theorem matchesTranscript_open (e : ExpectedWSTranscript V) {t : RecordedTranscript V}
    (h : ¬ t.Finished) :
    e.matchesTranscript t = .error (.runtimeError "the transcript is not yet done") := by
  rw [ExpectedWSTranscript.matchesTranscript, not_not.mp h]

theorem matchesTranscript_finished (b : BuiltTranscript V lower) {t : RecordedTranscript V}
    (h : t.Finished) : ∃ result, b.expected.matchesTranscript t = .ok result := by
  obtain ⟨close, hclose⟩ := Option.ne_none_iff_exists'.mp h
  obtain ⟨result, hresult, -⟩ := matchesTranscript_spec b.built hclose
  exact ⟨result, hresult⟩

theorem openAfterFound_cons_of_found {e : ExpectedWSTranscript V} {t : RecordedTranscript V}
    (h : Found e t) (transcripts : List (RecordedTranscript V)) :
    OpenAfterFound e (t :: transcripts) := by
  intro before s after heq hopen
  cases before with
  | nil =>
    cases heq
    exact absurd h.1 hopen
  | cons first before =>
    obtain ⟨rfl, -⟩ := List.cons.inj heq
    exact ⟨t, List.mem_cons_self, h⟩

theorem openAfterFound_cons_of_not {e : ExpectedWSTranscript V} {t : RecordedTranscript V}
    (hfinished : t.Finished) (h : ¬ Found e t) (transcripts : List (RecordedTranscript V)) :
    OpenAfterFound e (t :: transcripts) ↔ OpenAfterFound e transcripts := by
  constructor
  · intro hlate before s after heq hopen
    obtain ⟨r, hr, hfound⟩ := hlate (t :: before) s after (congrArg (List.cons t) heq) hopen
    rcases List.mem_cons.mp hr with rfl | hmem
    · exact absurd hfound h
    · exact ⟨r, hmem, hfound⟩
  · intro hlate before s after heq hopen
    cases before with
    | nil =>
      cases heq
      exact absurd hfinished hopen
    | cons first before =>
      obtain ⟨rfl, hrest⟩ := List.cons.inj heq
      obtain ⟨r, hr, hfound⟩ := hlate before s after hrest hopen
      exact ⟨r, List.mem_cons_of_mem _ hr, hfound⟩

/-- `any` raises exactly when it comes to an open connection before a match. -/
theorem anyMatches_spec (b : BuiltTranscript V lower) (transcripts : List (RecordedTranscript V)) :
    (OpenAfterFound b.expected transcripts ∧ ∃ found,
      anyMatches b.expected transcripts = .ok found ∧
        (found = true ↔ ∃ t ∈ transcripts, Found b.expected t)) ∨
    (¬ OpenAfterFound b.expected transcripts ∧ ∃ exc,
      anyMatches b.expected transcripts = .error exc) := by
  induction transcripts with
  | nil =>
    refine Or.inl ⟨?_, false, rfl, by simp⟩
    intro before t after heq
    simp at heq
  | cons t transcripts ih =>
    rw [anyMatches]
    by_cases hfinished : t.Finished
    · obtain ⟨result, hresult⟩ := matchesTranscript_finished b hfinished
      rw [hresult]
      cases result with
      | none =>
        have hfound : Found b.expected t := ⟨hfinished, hresult⟩
        exact Or.inl ⟨openAfterFound_cons_of_found hfound transcripts, true, rfl,
          iff_of_true rfl ⟨t, List.mem_cons_self, hfound⟩⟩
      | some mismatch =>
        have hnot : ¬ Found b.expected t := by
          rintro ⟨-, hmatch⟩
          rw [hresult] at hmatch
          cases hmatch
        rw [openAfterFound_cons_of_not hfinished hnot]
        simp only [List.exists_mem_cons_iff, hnot, false_or]
        exact ih
    · rw [matchesTranscript_open b.expected hfinished]
      refine Or.inr ⟨?_, _, rfl⟩
      intro hlate
      obtain ⟨s, hs, -⟩ := hlate [] t transcripts rfl hfinished
      cases hs

/-! ### The assertion -/

theorem assertAnyTranscript_cons (e : ExpectedWSTranscript V) (t : RecordedTranscript V)
    (transcripts : List (RecordedTranscript V)) :
    assertAnyTranscript lower (some e) none (t :: transcripts) =
      match anyMatches e (t :: transcripts) with
      | .error exc => .error (.raised exc)
      | .ok true => .ok ()
      | .ok false => .error .noTranscriptsMatch := rfl

/-- The assertion on a list in which nothing raises. -/
theorem outcome_of_openAfterFound (b : BuiltTranscript V lower) {t : RecordedTranscript V}
    {transcripts : List (RecordedTranscript V)}
    (hlate : OpenAfterFound b.expected (t :: transcripts)) :
    let outcome := assertAnyTranscript lower (some b.expected) none (t :: transcripts)
    ((∃ s ∈ t :: transcripts, Found b.expected s) → outcome = .ok ()) ∧
      ((¬ ∃ s ∈ t :: transcripts, Found b.expected s) → outcome = .error .noTranscriptsMatch) := by
  rcases anyMatches_spec b (t :: transcripts) with
    ⟨-, found, hany, hfound⟩ | ⟨hnot, -⟩
  · rw [← hfound, assertAnyTranscript_cons, hany]
    cases found <;> simp
  · exact absurd hlate hnot

/-- On any other list it raises what `matches` raises. -/
theorem outcome_of_not (b : BuiltTranscript V lower) {t : RecordedTranscript V}
    {transcripts : List (RecordedTranscript V)}
    (hnot : ¬ OpenAfterFound b.expected (t :: transcripts)) :
    ∃ exc, assertAnyTranscript lower (some b.expected) none (t :: transcripts) =
      .error (.raised exc) := by
  rcases anyMatches_spec b (t :: transcripts) with ⟨hlate, -⟩ | ⟨-, exc, hany⟩
  · exact absurd hlate hnot
  · exact ⟨exc, by rw [assertAnyTranscript_cons, hany]⟩

theorem assertsAny_iff (b : BuiltTranscript V lower) (t : RecordedTranscript V)
    (transcripts : List (RecordedTranscript V)) :
    AssertsAny lower b.expected (t :: transcripts) ↔
      OpenAfterFound b.expected (t :: transcripts) := by
  constructor
  · intro h
    by_contra hnot
    obtain ⟨exc, hraised⟩ := outcome_of_not b hnot
    exact h.onlyAsserts exc hraised
  · intro hlate
    obtain ⟨hpass, hfail⟩ := outcome_of_openAfterFound b hlate
    by_cases hfound : ∃ s ∈ t :: transcripts, Found b.expected s
    · have hok := hpass hfound
      exact ⟨iff_of_true hok hfound, fun exc h => by rw [hok] at h; cases h⟩
    · have herror := hfail hfound
      refine ⟨iff_of_false ?_ hfound, fun exc h => by rw [herror] at h; cases h⟩
      rw [herror]
      nofun

theorem openAfterFound_of_finished {e : ExpectedWSTranscript V}
    {transcripts : List (RecordedTranscript V)} (h : ∀ t ∈ transcripts, t.Finished) :
    OpenAfterFound e transcripts := by
  rintro before t after rfl hopen
  exact absurd (h t (by simp)) hopen

/-- Among finished transcripts the order does not matter. -/
theorem orderIndependent_of_finished (b : BuiltTranscript V lower) {t : RecordedTranscript V}
    {transcripts : List (RecordedTranscript V)} (h : ∀ s ∈ t :: transcripts, s.Finished) :
    OrderIndependent lower b.expected (t :: transcripts) := by
  intro transcripts' hperm
  cases transcripts' with
  | nil => cases hperm.eq_nil
  | cons t' transcripts' =>
    have h' : ∀ s ∈ t' :: transcripts', s.Finished := fun s hs => h s (hperm.mem_iff.mpr hs)
    have hmem : (∃ s ∈ t' :: transcripts', Found b.expected s) ↔
        ∃ s ∈ t :: transcripts, Found b.expected s := by
      simp only [hperm.mem_iff]
    obtain ⟨hpass, hfail⟩ := outcome_of_openAfterFound b (openAfterFound_of_finished h)
    obtain ⟨hpass', hfail'⟩ := outcome_of_openAfterFound b (openAfterFound_of_finished h')
    rw [hmem] at hpass' hfail'
    by_cases hfound : ∃ s ∈ t :: transcripts, Found b.expected s
    · exact (hpass' hfound).trans (hpass hfound).symm
    · exact (hfail' hfound).trans (hfail hfound).symm

/-- With an open connection in front, the assertion raises something else. -/
theorem open_first_raises (b : BuiltTranscript V lower) {t : RecordedTranscript V}
    (hopen : ¬ t.Finished) (transcripts : List (RecordedTranscript V)) :
    ∃ exc, assertAnyTranscript lower (some b.expected) none (t :: transcripts) =
      .error (.raised exc) := by
  apply outcome_of_not
  intro hlate
  obtain ⟨s, hs, -⟩ := hlate [] t transcripts rfl hopen
  cases hs

/-- The assertion is right about a list exactly when a finished match comes before every open
connection, and right about it in whatever order exactly when no connection is open. -/
theorem assert_any_iff (lower : String → String) (b : BuiltTranscript V lower)
    (t : RecordedTranscript V) (transcripts : List (RecordedTranscript V)) :
    (AssertsAny lower b.expected (t :: transcripts) ↔
      OpenAfterFound b.expected (t :: transcripts)) ∧
    (AssertsAny lower b.expected (t :: transcripts) ∧
        OrderIndependent lower b.expected (t :: transcripts) ↔
      ∀ s ∈ t :: transcripts, s.Finished) := by
  refine ⟨assertsAny_iff b t transcripts, ?_, ?_⟩
  · rintro ⟨hright, horder⟩ s hs
    by_contra hopen
    obtain ⟨before, after, hsplit⟩ := List.append_of_mem hs
    have hperm : (t :: transcripts).Perm (s :: (before ++ after)) := by
      rw [hsplit]
      exact List.perm_middle
    obtain ⟨exc, hraised⟩ := open_first_raises b hopen (before ++ after)
    rw [horder _ hperm] at hraised
    exact hright.onlyAsserts exc hraised
  · intro h
    exact ⟨(assertsAny_iff b t transcripts).mpr (openAfterFound_of_finished h),
      orderIndependent_of_finished b h⟩

/-- A connection that was accepted and is still open, and one that was closed. -/
def openTranscript : RecordedTranscript ℕ :=
  { messages := [], accepted := true, close := none, headers := .empty, path := "/",
    pathParams := .empty, queryParams := .empty }

def closedTranscript : RecordedTranscript ℕ :=
  { openTranscript with close := some (.client, 1000) }

/-- The expectation of any conversation at all. -/
def anyTranscript : BuiltTranscript ℕ String.toLower where
  args := {}
  expected := ⟨⟨none, none, none, none⟩, true, false, [], some true, none⟩
  built := rfl

/-- An open connection before the match: the assertion raises a `RuntimeError`. -/
theorem open_connection_raises : ¬ ∀ (b : BuiltTranscript ℕ String.toLower)
    (t : RecordedTranscript ℕ) (transcripts : List (RecordedTranscript ℕ)),
    AssertsAny String.toLower b.expected (t :: transcripts) ∧
      OrderIndependent String.toLower b.expected (t :: transcripts) := by
  intro h
  have hraised : assertAnyTranscript String.toLower (some anyTranscript.expected) none
      [openTranscript, closedTranscript] =
      .error (.raised (.runtimeError "the transcript is not yet done")) := rfl
  exact (h anyTranscript openTranscript [closedTranscript]).1.onlyAsserts _ hraised

end Yellowbox.RequestCapture
