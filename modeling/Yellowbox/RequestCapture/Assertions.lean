import Yellowbox.RequestCapture.AnyTranscript
import Yellowbox.RequestCapture.OrderedRequests

/-!
The assertions about how many records there are and about the latest one, and how they
agree with `assert_any_request` and `assert_has_requests`. The two classes of recorded
lists have the same methods; they differ in the texts and in what `matches` may raise.
-/
namespace Yellowbox.RequestCapture

/-- What an assertion about the number of records or the latest one raises: an
`AssertionError`, one constructor for each text, or something else. -/
inductive CountError (R M : Type)
  | requestsLatest (count : ℕ) (latest : R)
  | requestsMade (count : ℕ)
  | noRequests
  | multiple (existing : List R)
  | mismatch (reason : M)
  | raised (exc : Exc)

section Family

variable {E R M : Type}

/-- `assert_requested` of both classes. -/
def assertRequested (records : List R) : Except (CountError R M) Unit :=
  if records.isEmpty then .error .noRequests else .ok ()

/-- `assert_requested_once`, where `several` is raised for more than one record. -/
def assertRequestedOnce (several : List R → CountError R M) (records : List R) :
    Except (CountError R M) Unit :=
  if records.isEmpty then .error .noRequests
  else if records.length > 1 then .error (several records)
  else .ok ()

/-- `if not match: raise AssertionError(str(match))` -/
def assertMatch (outcome : Except Exc (Option M)) : Except (CountError R M) Unit :=
  match outcome with
  | .error exc => .error (.raised exc)
  | .ok (some reason) => .error (.mismatch reason)
  | .ok none => .ok ()

/-- `assert_requested_with`, for the expectation that its arguments give. -/
def assertRequestedWith (mismatch : E → R → Except Exc (Option M)) (expected : Except Exc E)
    (records : List R) : Except (CountError R M) Unit :=
  match expected with
  | .error exc => .error (.raised exc)
  | .ok expected =>
    match records.getLast? with
    | none => .error .noRequests
    | some latest => assertMatch (mismatch expected latest)

/-- `assert_requested_once_with`, for the expectation that its arguments give. -/
def assertRequestedOnceWith (several : List R → CountError R M)
    (mismatch : E → R → Except Exc (Option M)) (expected : Except Exc E) (records : List R) :
    Except (CountError R M) Unit :=
  match expected with
  | .error exc => .error (.raised exc)
  | .ok expected =>
    match records with
    | [] => .error .noRequests
    | first :: rest =>
      if (first :: rest).length > 1 then .error (several (first :: rest))
      else assertMatch (mismatch expected first)

variable {several : List R → CountError R M} {mismatch : E → R → Except Exc (Option M)}
  {expected : Except Exc E} {records : List R}

theorem assertRequested_eq_ok_iff :
    assertRequested (M := M) records = .ok () ↔ records ≠ [] := by
  cases records <;> simp [assertRequested]

theorem assertRequestedOnce_eq_ok_iff :
    assertRequestedOnce several records = .ok () ↔ ∃ record, records = [record] := by
  rcases records with _ | ⟨first, _ | ⟨second, rest⟩⟩ <;> simp [assertRequestedOnce]

theorem assertMatch_eq_ok_iff {outcome : Except Exc (Option M)} :
    assertMatch (R := R) outcome = .ok () ↔ outcome = .ok none := by
  rcases outcome with exc | _ | reason <;> simp [assertMatch]

/-- The latest record matches. -/
theorem assertRequestedWith_eq_ok_iff :
    assertRequestedWith mismatch expected records = .ok () ↔
      ∃ e before latest, expected = .ok e ∧ records = before ++ [latest] ∧
        mismatch e latest = .ok none := by
  unfold assertRequestedWith
  cases expected with
  | error exc => simp
  | ok e =>
    rcases List.eq_nil_or_concat records with rfl | ⟨before, latest, rfl⟩
    · simp
    · simp only [List.concat_eq_append, List.getLast?_concat, assertMatch_eq_ok_iff]
      constructor
      · intro hmatch
        exact ⟨e, before, latest, rfl, rfl, hmatch⟩
      · rintro ⟨e', before', latest', he, hlatest, hmatch⟩
        cases he
        obtain ⟨-, hsingle⟩ := List.append_inj' hlatest rfl
        cases hsingle
        exact hmatch

theorem assertRequestedOnceWith_eq_ok_iff :
    assertRequestedOnceWith several mismatch expected records = .ok () ↔
      ∃ e record, expected = .ok e ∧ records = [record] ∧ mismatch e record = .ok none := by
  unfold assertRequestedOnceWith
  cases expected with
  | error exc => simp
  | ok e =>
    rcases records with _ | ⟨first, _ | ⟨second, rest⟩⟩ <;> simp [assertMatch_eq_ok_iff]

/-- The one request is the latest one. -/
theorem once_with_iff :
    assertRequestedOnceWith several mismatch expected records = .ok () ↔
      assertRequestedOnce several records = .ok () ∧
        assertRequestedWith mismatch expected records = .ok () := by
  rw [assertRequestedOnceWith_eq_ok_iff, assertRequestedOnce_eq_ok_iff,
    assertRequestedWith_eq_ok_iff]
  constructor
  · rintro ⟨e, record, he, rfl, hmatch⟩
    exact ⟨⟨record, rfl⟩, e, [], record, he, rfl, hmatch⟩
  · rintro ⟨⟨record, rfl⟩, e, before, latest, he, hlatest, hmatch⟩
    obtain ⟨-, hrecord⟩ := List.append_inj' ((List.nil_append [record]).trans hlatest) rfl
    cases hrecord
    exact ⟨e, record, he, rfl, hmatch⟩

end Family

/-! ### Recorded HTTP requests -/

section Requests

variable {V : Type}

/-- What the count assertions over recorded HTTP requests raise. -/
abbrev RequestCountError (V : Type) := CountError (RecordedHTTPRequest V) (List (RequestReason V))

namespace RecordedHTTPRequests

/-- `assert_not_requested` -/
def assertNotRequested (requests : List (RecordedHTTPRequest V)) :
    Except (RequestCountError V) Unit :=
  match requests.getLast? with
  | none => .ok ()
  | some latest => .error (.requestsLatest requests.length latest)

variable [BEq V]

/-- `matches` of an expected request, as the reason that its text shows. -/
def mismatch (py : Python V) (expected : ExpectedHTTPRequest V)
    (recorded : RecordedHTTPRequest V) : Except Exc (Option (List (RequestReason V))) :=
  (expected.matchesRequest py recorded).map fun reasons =>
    if reasons.isEmpty then none else some reasons

/-- `assert_requested_with` -/
def assertRequestedWith (py : Python V) (expected : Option (ExpectedHTTPRequest V))
    (kwargs : Option (RequestArgs V)) (requests : List (RecordedHTTPRequest V)) :
    Except (RequestCountError V) Unit :=
  RequestCapture.assertRequestedWith (mismatch py) (theExpected py expected kwargs) requests

/-- `assert_requested_once_with` -/
def assertRequestedOnceWith (py : Python V) (expected : Option (ExpectedHTTPRequest V))
    (kwargs : Option (RequestArgs V)) (requests : List (RecordedHTTPRequest V)) :
    Except (RequestCountError V) Unit :=
  RequestCapture.assertRequestedOnceWith .multiple (mismatch py) (theExpected py expected kwargs)
    requests

end RecordedHTTPRequests

theorem assertNotRequested_eq_ok_iff {requests : List (RecordedHTTPRequest V)} :
    RecordedHTTPRequests.assertNotRequested requests = .ok () ↔ requests = [] := by
  unfold RecordedHTTPRequests.assertNotRequested
  rcases List.eq_nil_or_concat requests with rfl | ⟨before, latest, rfl⟩ <;> simp

variable [BEq V] {py : Python V} {e : ExpectedHTTPRequest V}

theorem mismatch_eq_none_iff {recorded : RecordedHTTPRequest V} :
    RecordedHTTPRequests.mismatch py e recorded = .ok none ↔
      e.matchesRequest py recorded = .ok [] := by
  unfold RecordedHTTPRequests.mismatch
  rcases e.matchesRequest py recorded with exc | _ | ⟨reason, reasons⟩ <;> simp [Except.map]

/-- A request matches, and no request before it makes `matches` raise. -/
def FirstMatch (py : Python V) (e : ExpectedHTTPRequest V)
    (requests : List (RecordedHTTPRequest V)) : Prop :=
  ∃ before found rest, requests = before ++ found :: rest ∧
    e.matchesRequest py found = .ok [] ∧
    ∀ r ∈ before, ∃ reason reasons, e.matchesRequest py r = .ok (reason :: reasons)

theorem not_firstMatch_nil : ¬ FirstMatch py e [] := by
  rintro ⟨before, found, rest, h, -⟩
  simp at h

theorem firstMatch_cons_of_match {r : RecordedHTTPRequest V} (requests : List _)
    (h : e.matchesRequest py r = .ok []) : FirstMatch py e (r :: requests) :=
  ⟨[], r, requests, rfl, h, by simp⟩

theorem firstMatch_cons_of_error {r : RecordedHTTPRequest V} {exc : Exc} (requests : List _)
    (h : e.matchesRequest py r = .error exc) : ¬ FirstMatch py e (r :: requests) := by
  rintro ⟨before, found, rest, hsplit, hfound, hbefore⟩
  cases before with
  | nil =>
    cases hsplit
    rw [h] at hfound
    cases hfound
  | cons first before =>
    obtain ⟨rfl, -⟩ := List.cons.inj hsplit
    obtain ⟨reason, reasons, hreasons⟩ := hbefore r List.mem_cons_self
    rw [h] at hreasons
    cases hreasons

theorem firstMatch_cons_of_not {r : RecordedHTTPRequest V} {reason : RequestReason V}
    {reasons : List (RequestReason V)} (requests : List _)
    (h : e.matchesRequest py r = .ok (reason :: reasons)) :
    FirstMatch py e (r :: requests) ↔ FirstMatch py e requests := by
  constructor
  · rintro ⟨before, found, rest, hsplit, hfound, hbefore⟩
    cases before with
    | nil =>
      cases hsplit
      rw [h] at hfound
      cases hfound
    | cons first before =>
      obtain ⟨-, hrest⟩ := List.cons.inj hsplit
      exact ⟨before, found, rest, hrest, hfound, fun s hs =>
        hbefore s (List.mem_cons_of_mem _ hs)⟩
  · rintro ⟨before, found, rest, rfl, hfound, hbefore⟩
    refine ⟨r :: before, found, rest, rfl, hfound, ?_⟩
    intro s hs
    rcases List.mem_cons.mp hs with rfl | hs
    · exact ⟨reason, reasons, h⟩
    · exact hbefore s hs

theorem findRequest_eq_ok_iff (requests : List (RecordedHTTPRequest V))
    (whynots : List (RecordedHTTPRequest V × List (RequestReason V))) :
    findRequest py e whynots requests = .ok () ↔ FirstMatch py e requests := by
  induction requests generalizing whynots with
  | nil => exact iff_of_false nofun not_firstMatch_nil
  | cons r requests ih =>
    rw [findRequest.eq_def]
    cases hmatch : e.matchesRequest py r with
    | error exc => exact iff_of_false (by simp [hmatch]) (firstMatch_cons_of_error requests hmatch)
    | ok reasons =>
      cases reasons with
      | nil => exact iff_of_true (by simp [hmatch]) (firstMatch_cons_of_match requests hmatch)
      | cons reason reasons =>
        rw [firstMatch_cons_of_not requests hmatch]
        simp only [hmatch]
        exact ih _

theorem assertAnyRequest_eq_ok_iff {expected : Option (ExpectedHTTPRequest V)}
    {kwargs : Option (RequestArgs V)} {requests : List (RecordedHTTPRequest V)} :
    assertAnyRequest py expected kwargs requests = .ok () ↔
      ∃ e, theExpected py expected kwargs = .ok e ∧ FirstMatch py e requests := by
  unfold assertAnyRequest
  cases theExpected py expected kwargs with
  | error exc => simp
  | ok e =>
    cases requests with
    | nil => simp [not_firstMatch_nil]
    | cons r requests => simp [findRequest_eq_ok_iff]

/-- With one expectation the two loops do the same. -/
theorem findRequests_single (requests : List (RecordedHTTPRequest V))
    (whynots : List (RecordedHTTPRequest V × List (RequestReason V))) :
    (findRequests py e [] requests = .ok () ↔ findRequest py e whynots requests = .ok ()) ∧
    ∀ exc, findRequests py e [] requests = .error (.raised exc) ↔
      findRequest py e whynots requests = .error (.raised exc) := by
  induction requests generalizing whynots with
  | nil => simp [findRequests, findRequest]
  | cons r requests ih =>
    rw [findRequests.eq_def, findRequest.eq_def]
    simp only
    rcases e.matchesRequest py r with exc | _ | ⟨reason, reasons⟩
    · simp
    · simp
    · exact ih _

theorem assertHasRequests_single (requests : List (RecordedHTTPRequest V)) :
    assertHasRequests py [e] requests =
      if requests = [] then .error (.couldNotFind e) else findRequests py e [] requests := by
  cases requests <;> rfl

/-- The first expectation is searched for as `assert_any_request` does. -/
theorem firstMatch_of_findRequests (es : List (ExpectedHTTPRequest V))
    (requests : List (RecordedHTTPRequest V)) (h : findRequests py e es requests = .ok ()) :
    FirstMatch py e requests := by
  induction requests with
  | nil => cases h
  | cons r requests ih =>
    cases hmatch : e.matchesRequest py r with
    | error exc =>
      rw [findRequests.eq_def] at h
      simp [hmatch] at h
    | ok reasons =>
      cases reasons with
      | nil => exact firstMatch_cons_of_match requests hmatch
      | cons reason reasons =>
        rw [findRequests.eq_def] at h
        simp only [hmatch] at h
        exact (firstMatch_cons_of_not requests hmatch).mpr (ih h)

/-- How the search ends when the latest request matches. -/
theorem findRequest_of_latest {before : List (RecordedHTTPRequest V)}
    {latest : RecordedHTTPRequest V} (h : e.matchesRequest py latest = .ok [])
    (whynots : List (RecordedHTTPRequest V × List (RequestReason V))) :
    findRequest py e whynots (before ++ [latest]) = .ok () ∨
      ∃ r ∈ before, ∃ exc, e.matchesRequest py r = .error exc ∧
        findRequest py e whynots (before ++ [latest]) = .error (.raised exc) := by
  induction before generalizing whynots with
  | nil => simp [findRequest, h]
  | cons r before ih =>
    rw [List.cons_append, findRequest.eq_def]
    cases hmatch : e.matchesRequest py r with
    | error exc => exact Or.inr ⟨r, List.mem_cons_self, exc, hmatch, by simp [hmatch]⟩
    | ok reasons =>
      cases reasons with
      | nil => exact Or.inl (by simp [hmatch])
      | cons reason reasons =>
        simp only [hmatch]
        refine (ih _).imp_right ?_
        rintro ⟨s, hs, hraised⟩
        exact ⟨s, List.mem_cons_of_mem _ hs, hraised⟩

/-- How the assertions over one list of requests agree, for any arguments. -/
theorem http_assertions_agree (py : Python V) (expected : Option (ExpectedHTTPRequest V))
    (kwargs : Option (RequestArgs V)) (requests : List (RecordedHTTPRequest V)) :
    let once := assertRequestedOnce (M := List (RequestReason V)) .multiple requests
    let latest := RecordedHTTPRequests.assertRequestedWith py expected kwargs requests
    let onceWith := RecordedHTTPRequests.assertRequestedOnceWith py expected kwargs requests
    let any := assertAnyRequest py expected kwargs requests
    (RecordedHTTPRequests.assertNotRequested requests = .ok () ↔
      assertRequested (M := List (RequestReason V)) requests ≠ .ok ()) ∧
    (onceWith = .ok () ↔ once = .ok () ∧ latest = .ok ()) ∧
    (onceWith = .ok () → any = .ok ()) ∧
    (latest = .ok () → any = .ok () ∨ ∃ e, theExpected py expected kwargs = .ok e ∧
      ∃ r ∈ requests.dropLast, ∃ exc, e.matchesRequest py r = .error exc ∧
        any = .error (.raised exc)) ∧
    (∀ e, theExpected py expected kwargs = .ok e →
      (any = .ok () ↔ assertHasRequests py [e] requests = .ok ()) ∧
      (∀ exc, any = .error (.raised exc) ↔
        assertHasRequests py [e] requests = .error (.raised exc)) ∧
      ∀ es, assertHasRequests py (e :: es) requests = .ok () → any = .ok ()) := by
  intro once latest onceWith any
  have hlatest : latest = .ok () → ∃ e before r, theExpected py expected kwargs = .ok e ∧
      requests = before ++ [r] ∧ e.matchesRequest py r = .ok [] := by
    intro h
    obtain ⟨e, before, r, he, hrequests, hmatch⟩ := assertRequestedWith_eq_ok_iff.mp h
    exact ⟨e, before, r, he, hrequests, mismatch_eq_none_iff.mp hmatch⟩
  refine ⟨?_, once_with_iff, ?_, ?_, ?_⟩
  · rw [assertNotRequested_eq_ok_iff, ne_eq, assertRequested_eq_ok_iff, not_not]
  · intro h
    obtain ⟨e, r, he, rfl, hmatch⟩ := assertRequestedOnceWith_eq_ok_iff.mp h
    rw [mismatch_eq_none_iff] at hmatch
    exact assertAnyRequest_eq_ok_iff.mpr ⟨e, he, firstMatch_cons_of_match [] hmatch⟩
  · intro h
    obtain ⟨e, before, r, he, rfl, hmatch⟩ := hlatest h
    have hany : any = findRequest py e [] (before ++ [r]) := by
      show assertAnyRequest py expected kwargs (before ++ [r]) = _
      simp [assertAnyRequest, he]
    rw [hany, List.dropLast_concat]
    refine (findRequest_of_latest hmatch []).imp_right ?_
    rintro ⟨s, hs, exc, hexc, hraised⟩
    exact ⟨e, he, s, hs, exc, hexc, hraised⟩
  · intro e he
    have hfirst : ∀ es, assertHasRequests py (e :: es) requests = .ok () → any = .ok () := by
      intro es h
      rw [assertHasRequests] at h
      split at h
      · cases h
      · have hmatch := firstMatch_of_findRequests es requests h
        exact assertAnyRequest_eq_ok_iff.mpr ⟨e, he, hmatch⟩
    refine ⟨⟨?_, hfirst []⟩, ?_, hfirst⟩
    · intro h
      obtain ⟨e', he', hmatch⟩ := assertAnyRequest_eq_ok_iff.mp h
      cases he.symm.trans he'
      rw [assertHasRequests_single, if_neg]
      · have hfound := (findRequest_eq_ok_iff requests []).mpr hmatch
        exact (findRequests_single requests []).1.mpr hfound
      · rintro rfl
        exact not_firstMatch_nil hmatch
    · intro exc
      have hany : any = if requests = [] then .error .noRequests
          else findRequest py e [] requests := by
        simp [any, assertAnyRequest, he]
      rw [assertHasRequests_single, hany]
      split
      · simp
      · exact ((findRequests_single requests []).2 exc).symm

end Requests

/-! ### Recorded transcripts -/

section Transcripts

open WebSocketRecorder

variable {V : Type}

/-- What the count assertions over recorded transcripts raise. -/
abbrev TranscriptCountError (V : Type) := CountError (RecordedTranscript V) (TranscriptMismatch V)

namespace RecordedWSTranscripts

/-- `assert_not_requested` -/
def assertNotRequested (transcripts : List (RecordedTranscript V)) :
    Except (TranscriptCountError V) Unit :=
  if transcripts.isEmpty then .ok () else .error (.requestsMade transcripts.length)

/-- `assert_requested_once` -/
def assertRequestedOnce (transcripts : List (RecordedTranscript V)) :
    Except (TranscriptCountError V) Unit :=
  RequestCapture.assertRequestedOnce (.requestsMade ·.length) transcripts

variable [BEq V]

/-- `assert_requested_with` -/
def assertRequestedWith (lower : String → String) (expected : Option (ExpectedWSTranscript V))
    (kwargs : Option (TranscriptArgs V)) (transcripts : List (RecordedTranscript V)) :
    Except (TranscriptCountError V) Unit :=
  RequestCapture.assertRequestedWith ExpectedWSTranscript.matchesTranscript
    (theExpectedTranscript lower expected kwargs) transcripts

/-- `assert_requested_once_with` -/
def assertRequestedOnceWith (lower : String → String)
    (expected : Option (ExpectedWSTranscript V)) (kwargs : Option (TranscriptArgs V))
    (transcripts : List (RecordedTranscript V)) : Except (TranscriptCountError V) Unit :=
  RequestCapture.assertRequestedOnceWith (.requestsMade ·.length)
    ExpectedWSTranscript.matchesTranscript (theExpectedTranscript lower expected kwargs)
    transcripts

end RecordedWSTranscripts

variable [BEq V]

/-- How the search ends when the latest transcript matches. -/
theorem anyMatches_of_latest {e : ExpectedWSTranscript V} (before : List (RecordedTranscript V))
    {latest : RecordedTranscript V} (h : e.matchesTranscript latest = .ok none) :
    anyMatches e (before ++ [latest]) = .ok true ∨
      ∃ t ∈ before, ∃ exc, e.matchesTranscript t = .error exc ∧
        anyMatches e (before ++ [latest]) = .error exc := by
  induction before with
  | nil => simp [anyMatches, h]
  | cons t before ih =>
    rw [List.cons_append, anyMatches]
    cases hmatch : e.matchesTranscript t with
    | error exc => exact Or.inr ⟨t, List.mem_cons_self, exc, hmatch, rfl⟩
    | ok result =>
      cases result with
      | none => exact Or.inl rfl
      | some reason =>
        refine ih.imp_right ?_
        rintro ⟨s, hs, hraised⟩
        exact ⟨s, List.mem_cons_of_mem _ hs, hraised⟩

theorem assertAnyTranscript_ok {lower : String → String} {e : ExpectedWSTranscript V}
    {transcripts : List (RecordedTranscript V)} (hne : transcripts ≠ [])
    (h : anyMatches e transcripts = .ok true) :
    assertAnyTranscript lower (some e) none transcripts = .ok () := by
  cases transcripts with
  | nil => exact absurd rfl hne
  | cons t transcripts => rw [assertAnyTranscript_cons, h]

theorem assertAnyTranscript_error {lower : String → String} {e : ExpectedWSTranscript V}
    {transcripts : List (RecordedTranscript V)} (hne : transcripts ≠ []) {exc : Exc}
    (h : anyMatches e transcripts = .error exc) :
    assertAnyTranscript lower (some e) none transcripts = .error (.raised exc) := by
  cases transcripts with
  | nil => exact absurd rfl hne
  | cons t transcripts => rw [assertAnyTranscript_cons, h]

/-- How the assertions over one list of transcripts agree. `assert_requested_with` can pass
where `assert_any_request` raises, but only for a connection that is still open. -/
theorem ws_assertions_agree (lower : String → String) (b : BuiltTranscript V lower)
    (transcripts : List (RecordedTranscript V)) :
    let once := RecordedWSTranscripts.assertRequestedOnce transcripts
    let latest := RecordedWSTranscripts.assertRequestedWith lower b.expected none transcripts
    let onceWith := RecordedWSTranscripts.assertRequestedOnceWith lower b.expected none transcripts
    let any := assertAnyTranscript lower b.expected none transcripts
    (RecordedWSTranscripts.assertNotRequested transcripts = .ok () ↔
      assertRequested (M := TranscriptMismatch V) transcripts ≠ .ok ()) ∧
    (onceWith = .ok () ↔ once = .ok () ∧ latest = .ok ()) ∧
    (onceWith = .ok () → any = .ok ()) ∧
    (latest = .ok () → any = .ok () ∨ (∃ t ∈ transcripts.dropLast, ¬ t.Finished) ∧
      any = .error (.raised (.runtimeError "the transcript is not yet done"))) := by
  intro once latest onceWith any
  refine ⟨?_, once_with_iff, ?_, ?_⟩
  · rw [ne_eq, assertRequested_eq_ok_iff, not_not]
    cases transcripts <;> simp [RecordedWSTranscripts.assertNotRequested]
  · intro h
    obtain ⟨e, t, he, htranscripts, hmatch⟩ := assertRequestedOnceWith_eq_ok_iff.mp h
    cases he
    refine assertAnyTranscript_ok (by simp [htranscripts]) ?_
    simp [htranscripts, anyMatches, hmatch]
  · intro h
    obtain ⟨e, before, t, he, htranscripts, hmatch⟩ := assertRequestedWith_eq_ok_iff.mp h
    cases he
    have hne : transcripts ≠ [] := by simp [htranscripts]
    have hlast : transcripts.dropLast = before := by rw [htranscripts, List.dropLast_concat]
    have hsearch := anyMatches_of_latest before hmatch
    rw [← htranscripts] at hsearch
    rcases hsearch with hfound | ⟨s, hs, exc, hexc, hraised⟩
    · exact Or.inl (assertAnyTranscript_ok hne hfound)
    · have hopen : ¬ s.Finished := by
        intro hfinished
        obtain ⟨result, hresult⟩ := matchesTranscript_finished b hfinished
        rw [hresult] at hexc
        cases hexc
      rw [matchesTranscript_open b.expected hopen] at hexc
      cases hexc
      exact Or.inr ⟨⟨s, hlast ▸ hs, hopen⟩, assertAnyTranscript_error hne hraised⟩

end Transcripts

end Yellowbox.RequestCapture
