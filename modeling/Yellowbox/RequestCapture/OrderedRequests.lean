import Yellowbox.Base.OrderedMatch
import Yellowbox.RequestCapture.RaisingBodies

/-!
`assert_has_requests` over any `matches`: one pass that takes the first request for the
first expectation, the next one for the second, and so on. It finds requests in the
order of the expectations whenever there are any.
-/
namespace Yellowbox.RequestCapture

open OrderedMatch

section Ordered

variable {E R : Type}

/-- What `assert_has_requests` raises: a `TypeError` for no expectations, an
`AssertionError` with the expectation its text shows, or what `matches` raises. -/
inductive HasRequestsError (E : Type)
  | noExpected
  | couldNotFind (expected : E)
  | raised (exc : Exc)

/-- The greedy loop, for expectations that match by `isMatch`. -/
def matchGreedily (isMatch : E → R → Except Exc Bool) :
    E → List E → List R → Except (HasRequestsError E) Unit
  | nextExpected, _, [] => .error (.couldNotFind nextExpected)
  | nextExpected, expectedIter, request :: requests =>
    match isMatch nextExpected request with
    | .error exc => .error (.raised exc)
    | .ok false => matchGreedily isMatch nextExpected expectedIter requests
    | .ok true =>
      match expectedIter with
      | [] => .ok ()
      | following :: expectedIter => matchGreedily isMatch following expectedIter requests

/-- `assert_has_requests`, for expectations that match by `isMatch`. -/
def hasRequests (isMatch : E → R → Except Exc Bool) (expectedRequests : List E)
    (requests : List R) : Except (HasRequestsError E) Unit :=
  match expectedRequests with
  | [] => .error .noExpected
  | first :: rest =>
    if requests.length < expectedRequests.length then .error (.couldNotFind first)
    else matchGreedily isMatch first rest requests

variable {isMatch : E → R → Bool}

/-- The loop returns exactly when the requests can be found, and raises nothing but its
`AssertionError`. -/
theorem matchGreedily_spec (nextExpected : E) (expectedIter : List E) (requests : List R) :
    let outcome := matchGreedily (fun e r => .ok (isMatch e r)) nextExpected expectedIter requests
    (outcome = .ok () ↔
      List.SublistForall₂ (isMatch · · = true) (nextExpected :: expectedIter) requests) ∧
    (outcome = .ok () ∨
      ∃ e ∈ nextExpected :: expectedIter, outcome = .error (.couldNotFind e)) := by
  induction requests generalizing nextExpected expectedIter with
  | nil =>
    exact ⟨iff_of_false nofun not_sublistForall₂_nil,
      Or.inr ⟨nextExpected, List.mem_cons_self, rfl⟩⟩
  | cons request requests ih =>
    unfold matchGreedily
    cases hmatch : isMatch nextExpected request with
    | false =>
      rw [sublistForall₂_cons_of_not (R := (isMatch · · = true)) (by simp [hmatch])]
      exact ih nextExpected expectedIter
    | true =>
      rw [sublistForall₂_cons_of_match (R := (isMatch · · = true)) hmatch]
      cases expectedIter with
      | nil => exact ⟨iff_of_true rfl .nil, Or.inl rfl⟩
      | cons following expectedIter =>
        obtain ⟨hfound, herror⟩ := ih following expectedIter
        refine ⟨hfound, herror.imp_right ?_⟩
        rintro ⟨e, he, hraised⟩
        exact ⟨e, List.mem_cons_of_mem _ he, hraised⟩

theorem hasRequests_spec (first : E) (rest : List E) (requests : List R) :
    let outcome := hasRequests (fun e r => .ok (isMatch e r)) (first :: rest) requests
    (outcome = .ok () ↔
      List.SublistForall₂ (isMatch · · = true) (first :: rest) requests) ∧
    (outcome = .ok () ∨ ∃ e ∈ first :: rest, outcome = .error (.couldNotFind e)) := by
  unfold hasRequests
  by_cases hfew : requests.length < (first :: rest).length
  · simp only [if_pos hfew]
    -- the shortcut: too few requests to match each expectation with its own
    have hnot : ¬ List.SublistForall₂ (isMatch · · = true) (first :: rest) requests :=
      fun hmatch => Nat.not_lt.mpr (length_le_of_sublistForall₂ hmatch) hfew
    exact ⟨iff_of_false nofun hnot, Or.inr ⟨first, List.mem_cons_self, rfl⟩⟩
  · simp only [if_neg hfew]
    exact matchGreedily_spec first rest requests

/-- `assert_has_requests` returns if and only if there are requests at increasing indices
that match the expectations in order, and otherwise raises its `AssertionError`; more
requests, wherever they come, never make it raise. -/
theorem has_requests_in_order (isMatch : E → R → Bool) (first : E) (rest : List E)
    (requests : List R) :
    let outcome := hasRequests (fun e r => .ok (isMatch e r)) (first :: rest)
    (outcome requests = .ok () ↔
      ∃ index : Fin (first :: rest).length → Fin requests.length, StrictMono index ∧
        ∀ j, isMatch ((first :: rest).get j) (requests.get (index j)) = true) ∧
    (outcome requests = .ok () ∨
      ∃ e ∈ first :: rest, outcome requests = .error (.couldNotFind e)) ∧
    ∀ requests' : List R, requests.Sublist requests' → outcome requests = .ok () →
      outcome requests' = .ok () := by
  intro outcome
  obtain ⟨hfound, herror⟩ := @hasRequests_spec E R isMatch first rest requests
  refine ⟨hfound.trans sublistForall₂_iff_indices, herror, ?_⟩
  intro requests' hsub hok
  have hmatch := sublistForall₂_mono hsub (hfound.mp hok)
  exact (hasRequests_spec first rest requests').1.mpr hmatch

end Ordered

/-! ### Recorded HTTP requests -/

variable {V : Type}

def HasRequestsError.toAssertError : HasRequestsError (ExpectedHTTPRequest V) → AssertError V
  | noExpected => .raised (.typeError "at least one expected request must be provided")
  | couldNotFind expected => .couldNotFind expected
  | raised exc => .raised exc

/-- `bool(expected.matches(recorded))` -/
def ExpectedHTTPRequest.isMatch [BEq V] (py : Python V) (expected : ExpectedHTTPRequest V)
    (recorded : RecordedHTTPRequest V) : Except Exc Bool :=
  (expected.matchesRequest py recorded).map List.isEmpty

theorem findRequests_eq [BEq V] (py : Python V) (nextExpected : ExpectedHTTPRequest V)
    (expectedIter : List (ExpectedHTTPRequest V)) (requests : List (RecordedHTTPRequest V)) :
    findRequests py nextExpected expectedIter requests =
      (matchGreedily (ExpectedHTTPRequest.isMatch py) nextExpected expectedIter
        requests).mapError HasRequestsError.toAssertError := by
  induction requests generalizing nextExpected expectedIter with
  | nil => rfl
  | cons request requests ih =>
    rw [findRequests.eq_def, matchGreedily.eq_def]
    simp only [ExpectedHTTPRequest.isMatch]
    rcases nextExpected.matchesRequest py request with exc | _ | ⟨reason, reasons⟩
    · rfl
    · cases expectedIter with
      | nil => rfl
      | cons following expectedIter => exact ih following expectedIter
    · exact ih nextExpected expectedIter

/-- The assertion over recorded HTTP requests is the one over their `matches`. -/
theorem assertHasRequests_eq [BEq V] (py : Python V)
    (expectedRequests : List (ExpectedHTTPRequest V)) (requests : List (RecordedHTTPRequest V)) :
    assertHasRequests py expectedRequests requests =
      (hasRequests (ExpectedHTTPRequest.isMatch py) expectedRequests requests).mapError
        HasRequestsError.toAssertError := by
  cases expectedRequests with
  | nil => rfl
  | cons first rest =>
    rw [assertHasRequests, hasRequests]
    split
    · rfl
    · exact findRequests_eq py first rest requests

end Yellowbox.RequestCapture
