import Yellowbox.RequestCapture.Assertions
import Yellowbox.WebServer.Recording

/-!
What a test that asserts in the middle of a run may rely on. The list of a capture only
grows, at its end, whatever the main thread and the handlers do, so an assertion that
something was requested stays passed and one that nothing was stays failed.
-/
namespace Yellowbox.StableVerdicts

open StepRuns ScopedLog RequestCapture
open WebServerState WebServerCalls WebServerSteps Recording

/-! ### Assertions over a list that grows -/

section Growth

variable {E R M V : Type}

/-- The greedy loop does not look at what comes after the last match. -/
theorem matchGreedily_append {isMatch : E → R → Except RequestCapture.Exc Bool} {next : E}
    {es : List E} {requests : List R} (rest : List R)
    (h : matchGreedily isMatch next es requests = .ok ()) :
    matchGreedily isMatch next es (requests ++ rest) = .ok () := by
  induction requests generalizing next es with
  | nil => cases h
  | cons request requests ih =>
    rw [List.cons_append]
    rw [matchGreedily.eq_def] at h ⊢
    dsimp only at h ⊢
    cases hmatch : isMatch next request with
    | error exc => simp [hmatch] at h
    | ok found =>
      rw [hmatch] at h
      cases found with
      | false => exact ih h
      | true =>
        cases es with
        | nil => rfl
        | cons following es => exact ih h

theorem hasRequests_append {isMatch : E → R → Except RequestCapture.Exc Bool} {es : List E}
    {requests : List R} (rest : List R) (h : hasRequests isMatch es requests = .ok ()) :
    hasRequests isMatch es (requests ++ rest) = .ok () := by
  cases es with
  | nil => cases h
  | cons first es =>
    rw [hasRequests] at h ⊢
    split at h
    · cases h
    · rename_i hmany
      rw [if_neg (by rw [List.length_append]; omega)]
      exact matchGreedily_append rest h

variable [BEq V] {py : Python V}

theorem firstMatch_append {e : ExpectedHTTPRequest V} {requests : List (RecordedHTTPRequest V)}
    (rest : List (RecordedHTTPRequest V)) (h : FirstMatch py e requests) :
    FirstMatch py e (requests ++ rest) := by
  obtain ⟨before, found, after, rfl, hfound, hbefore⟩ := h
  exact ⟨before, found, after ++ rest, by simp, hfound, hbefore⟩

theorem assertHasRequests_eq_ok_iff {es : List (ExpectedHTTPRequest V)}
    {requests : List (RecordedHTTPRequest V)} :
    assertHasRequests py es requests = .ok () ↔
      hasRequests (ExpectedHTTPRequest.isMatch py) es requests = .ok () := by
  rw [assertHasRequests_eq]
  cases hasRequests (ExpectedHTTPRequest.isMatch py) es requests <;> simp [Except.mapError]

end Growth

/-! ### Runs -/

section Run

variable {cfg : Setup} {i : HttpId} {w : World} {evs : List Event}

theorem mem_of_entered {c : CaptureId} (h : c ∈ entered (captureOps cfg i w evs)) :
    .call (.enterCaptureCalls (.http i) c) ∈ evs := by
  obtain ⟨v, ev, hev, hop⟩ :=
    exists_of_mem_visible (step cfg) (captureOp cfg i) (mem_entered.mp h)
  rwa [← CaptureScopes.call_of_enter hop]

/-- Whatever runs, the list of a capture only grows, at its end. -/
theorem calls_prefix (cfg : Setup) (w : World) {c : CaptureId}
    (hentry : .call (.enterCaptureCalls (.http i) c) ∉ evs) :
    w.calls i c <+: (exec (step cfg) w evs).calls i c := by
  have hnever : c ∉ entered (captureOps cfg i w evs) := fun hmem => hentry (mem_of_entered hmem)
  have hrun := entries_prefix (capturesOf i w) hnever
  rw [← capturesOf_exec] at hrun
  exact hrun

/-- The verdicts on the list `c` after a run in which it is not opened anew, from any state
on; `data` is what `from_request` reads off a request. -/
theorem verdicts_stable {V : Type} [BEq V] (cfg : Setup) (i : HttpId) (c : CaptureId) (w : World)
    (evs : List Event) (hentry : .call (.enterCaptureCalls (.http i) c) ∉ evs)
    (data : RecordedRequest → RecordedHTTPRequest V) (py : Python V)
    (expected : Option (ExpectedHTTPRequest V)) (kwargs : Option (RequestArgs V))
    (es : List (ExpectedHTTPRequest V)) :
    let before := (w.calls i c).map data
    let after := ((exec (step cfg) w evs).calls i c).map data
    let requested := assertRequested (R := RecordedHTTPRequest V) (M := List (RequestReason V))
    let onceWith := RecordedHTTPRequests.assertRequestedOnceWith py expected kwargs
    (requested before = .ok () → requested after = .ok ()) ∧
    (assertAnyRequest py expected kwargs before = .ok () →
      assertAnyRequest py expected kwargs after = .ok ()) ∧
    (assertHasRequests py es before = .ok () → assertHasRequests py es after = .ok ()) ∧
    (RecordedHTTPRequests.assertNotRequested after = .ok () →
      RecordedHTTPRequests.assertNotRequested before = .ok ()) ∧
    (onceWith after = .ok () → before = [] ∨ onceWith before = .ok ()) := by
  intro before after requested onceWith
  obtain ⟨rest, hrest⟩ := calls_prefix cfg w hentry
  have hafter : after = before ++ rest.map data := by
    simp only [after, before, ← hrest, List.map_append]
  rw [hafter]
  refine ⟨?_, ?_, ?_, ?_, ?_⟩
  · simp only [requested, assertRequested_eq_ok_iff]
    intro hne hnil
    exact hne (List.append_eq_nil_iff.mp hnil).1
  · simp only [assertAnyRequest_eq_ok_iff]
    rintro ⟨e, he, hmatch⟩
    exact ⟨e, he, firstMatch_append _ hmatch⟩
  · simp only [assertHasRequests_eq_ok_iff]
    exact hasRequests_append _
  · simp only [assertNotRequested_eq_ok_iff]
    exact fun hnil => (List.append_eq_nil_iff.mp hnil).1
  · intro h
    obtain ⟨e, r, he, hone, hmatch⟩ := assertRequestedOnceWith_eq_ok_iff.mp h
    rcases List.append_eq_singleton_iff.mp hone with ⟨hnil, -⟩ | ⟨hbefore, -⟩
    · exact Or.inl hnil
    · exact Or.inr (assertRequestedOnceWith_eq_ok_iff.mpr ⟨e, r, he, hbefore, hmatch⟩)

/-- A GET that was asserted stays so when a POST comes in. -/
theorem verdicts_stable_post :
    let ask (r : RequestId) : List Event := [.request r 0 r, .body r true]
    let w := exec (step Setup.plain) (World.new fun _ => .response ⟨200, "hi"⟩)
      (.call (.addHttpEndpoint 0 0) :: .call (.enterCaptureCalls (.http 0) 0) :: ask 0)
    let data (a : RecordedRequest) : RecordedHTTPRequest String :=
      ⟨⟨.empty, "/foo", .empty, .empty⟩, if a.request = 0 then "GET" else "POST", []⟩
    let get : ExpectedHTTPRequest String := ⟨⟨none, none, none, none⟩, some "GET", none⟩
    assertHasRequests noJson [get]
      (((exec (step Setup.plain) w (ask 1)).calls 0 0).map data) = .ok () := by
  intro ask w data get
  have h := verdicts_stable Setup.plain 0 0 w (ask 1) (by simp [ask]) data noJson none none [get]
  exact h.2.2.1 rfl

end Run

end Yellowbox.StableVerdicts
