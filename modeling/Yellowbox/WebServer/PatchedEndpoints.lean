import Yellowbox.WebServer.Registration

/-!
`patch_http_endpoint` and `patch_ws_endpoint` as contexts: an endpoint is added
on entry and a `finally` block removes it. Between the two any events may run.
The removal first raises what is pending, so it is reached exactly when nothing
is pending on the server at the moment the body ends.
-/
namespace Yellowbox.PatchedEndpoints

open StepRuns WebServerState WebServerCalls WebServerHandlers WebServerSteps
open WebServerCallSteps WebServerHandlerSteps Registration

/-- The entry of `with server.patch_http_endpoint(e)` or its websocket sibling. -/
def enterPatchEndpoint (s : ServerId) : EndpointId → Call
  | .http i => .enterPatchHttpEndpoint s i
  | .ws i => .enterPatchWsEndpoint s i

def exitPatchEndpoint (s : ServerId) : EndpointId → Call
  | .http i => .exitPatchHttpEndpoint s i
  | .ws i => .exitPatchWsEndpoint s i

/-- Leaving the `with` block whose body returned or raised: an exception of the
`finally` block replaces the outcome of the body. -/
def leavePatch (cfg : Setup) (s : ServerId) (e : EndpointId) (body : Except Exc Unit) (w : World) :
    World × Except (Exc ⊕ CallError) Unit :=
  match runCall cfg (exitPatchEndpoint s e) w with
  | (.ok (), v) => (v, body.mapError Sum.inl)
  | (.error err, v) => (v, .error (.inr err))

/-- The endpoint that an event is to remove. -/
def removedEndpoint : Event → Option EndpointId
  | .call c => (removes c).map Prod.snd
  | _ => none

/-- The event removes `e`. -/
def Removes (cfg : Setup) (e : EndpointId) (w : World) (ev : Event) : Prop :=
  removedEndpoint ev = some e ∧ (step cfg w ev).2 = .returned

instance (cfg : Setup) (e : EndpointId) (w : World) (ev : Event) :
    Decidable (Removes cfg e w ev) :=
  inferInstanceAs (Decidable (_ ∧ _))

/-- `e` is not among the routes of `s` and is owned by no server. -/
def TakenOut (w : World) (s : ServerId) (e : EndpointId) : Prop :=
  (∀ rt ∈ w.routes s, rt.target ≠ e) ∧ w.owner e = none

instance (w : World) (s : ServerId) (e : EndpointId) : Decidable (TakenOut w s e) :=
  inferInstanceAs (Decidable (_ ∧ _))

variable {cfg : Setup} {w : World} {s : ServerId} {e : EndpointId}

@[simp] theorem adds_enterPatchEndpoint (s : ServerId) (e : EndpointId) :
    adds (enterPatchEndpoint s e) = some (s, e) := by
  cases e <;> rfl

@[simp] theorem removes_exitPatchEndpoint (s : ServerId) (e : EndpointId) :
    removes (exitPatchEndpoint s e) = some (s, e) := by
  cases e <;> rfl

theorem checked_removes {c : Call} (h : removes c = some (s, e)) : checked w c = some s := by
  cases c <;> simp_all [removes, checked]

/-- A returning call that adds makes the server the owner. -/
theorem owner_of_added {c : Call} {v : World} (hc : adds c = some (s, e))
    (hv : CallStep cfg w c (.ok ()) v) : v.owner e = some s := by
  cases hv with
  | entered hclear hv =>
    cases hv with
    | add hc' howner hrt =>
      obtain ⟨rfl, rfl⟩ : s = _ ∧ e = _ := by simpa using hc.symm.trans hc'
      exact Function.update_self ..
    | remove hc' howner hfound =>
      rw [adds_of_removes hc'] at hc
      contradiction
    | patch | captureHttp | captureWs | isAlive | noPatch => simp [adds] at hc
  | exited hclear hv => cases hv <;> simp [adds] at hc

/-- Only an event that removes `e` takes the owner of `e` away. -/
theorem step_owner (ev : Event) (howner : w.owner e = some s) (hkeep : ¬ Removes cfg e w ev) :
    (step cfg w ev).1.owner e = some s := by
  rcases step_cases cfg w ev with ⟨c, result, rfl, hcall, hobs⟩ | ⟨-, hhandler⟩
  · rcases result with err | u
    · rw [(raised_registration hcall).2]
      exact howner
    · have hreturned : (step cfg w (.call c)).2 = .returned := hobs
      generalize (step cfg w (.call c)).1 = v at hcall
      cases hcall with
      | entered hclear hv =>
        cases hv with
        | add hc hnone hrt =>
          rename_i t d rt
          have hed : e ≠ d := by
            rintro rfl
            rw [howner] at hnone
            contradiction
          exact (Function.update_of_ne hed ..).trans howner
        | remove hc hsome hfound =>
          rename_i t d i
          have hed : e ≠ d := by
            rintro rfl
            exact hkeep ⟨by simp [removedEndpoint, hc], hreturned⟩
          exact (Function.update_of_ne hed ..).trans howner
        | patch | captureHttp | captureWs | isAlive | noPatch => exact howner
      | exited hclear hv =>
        rw [(exit_registration hv).2]
        exact howner
  · rw [hhandler.frame.owner]
    exact howner

theorem exec_owner (evs : List Event) (howner : w.owner e = some s)
    (hkeep : Along (step cfg) (fun w ev => ¬ Removes cfg e w ev) w evs) :
    (exec (step cfg) w evs).owner e = some s :=
  exec_invariant_along (step cfg) (fun w ev => ¬ Removes cfg e w ev) (fun w => w.owner e = some s)
    (fun _ ev hkeep howner => step_owner ev howner hkeep) hkeep howner

/-- With nothing pending, removing an endpoint of the server succeeds. -/
theorem remove_clear {c : Call} {result : Except CallError Unit} {v : World} (hreg : Registered w)
    (hc : removes c = some (s, e)) (howner : w.owner e = some s)
    (hclear : w.pendingException s = none) (hv : CallStep cfg w c result v) :
    result = .ok () ∧ v.owner e = none := by
  have hchecked : checked w c = some s := checked_removes hc
  cases hv with
  | pendingFirst hs hx =>
    obtain rfl := Option.some.inj (hchecked.symm.trans hs)
    rw [hclear] at hx
    contradiction
  | refused hclear' herr =>
    cases herr with
    | addedTwice hc' | noRoute hc' =>
      rw [adds_of_removes hc] at hc'
      contradiction
    | notAdded hc' howner' =>
      obtain ⟨rfl, rfl⟩ : s = _ ∧ e = _ := by simpa using hc.symm.trans hc'
      exact absurd howner howner'
    | notFound hc' howner' hfound =>
      have hrefused : Refusal cfg w c _ := .notFound hc' howner' hfound
      exact absurd hrefused (not_refused_notFound hreg)
    | unowned hs =>
      rw [hchecked] at hs
      contradiction
    | noAutoRead | parallel | noCapture => simp [removes] at hc
  | entered hclear' hv =>
    cases hv with
    | add hc' =>
      rw [adds_of_removes hc] at hc'
      contradiction
    | remove hc' howner' hfound =>
      obtain ⟨rfl, rfl⟩ : s = _ ∧ e = _ := by simpa using hc.symm.trans hc'
      exact ⟨rfl, Function.update_self ..⟩
    | patch | captureHttp | captureWs | isAlive | noPatch => simp [removes] at hc
  | exited hclear' hv => cases hv <;> simp [removes] at hc
  | exitedUnowned hs hv => cases hv <;> simp [removes] at hc
  | exitedPending hs hx hv => cases hv <;> simp [removes] at hc

/-- With an exception pending, the removal raises it and nothing else happens. -/
theorem remove_pending {c : Call} {result : Except CallError Unit} {v : World} {x : Exc}
    (hc : removes c = some (s, e)) (hx : w.pendingException s = some x)
    (hv : CallStep cfg w c result v) :
    result = .error (.handlerError x) ∧ v = w.setPending s none := by
  have hchecked : checked w c = some s := checked_removes hc
  have hnot : ¬ Clear w c := by
    intro hclear
    have hnone := hclear s hchecked
    rw [hx] at hnone
    contradiction
  cases hv with
  | pendingFirst hs hx' =>
    obtain rfl := Option.some.inj (hchecked.symm.trans hs)
    obtain rfl := Option.some.inj (hx.symm.trans hx')
    exact ⟨rfl, rfl⟩
  | refused hclear herr => exact absurd hclear hnot
  | entered hclear hv => exact absurd hclear hnot
  | exited hclear hv => exact absurd hclear hnot
  | exitedUnowned hs hv => cases hv <;> simp [removes] at hc
  | exitedPending hs hx' hv => cases hv <;> simp [removes] at hc

theorem takenOut_of_registered (hreg : Registered w) (howner : w.owner e = none) :
    TakenOut w s e := by
  have hcount : routeCount w s e = 0 := by
    rw [hreg s e, howner]
    simp
  refine ⟨?_, howner⟩
  intro rt hrt
  simpa using List.countP_eq_zero.mp hcount rt hrt

/-- An endpoint whose context was entered is in the server. -/
theorem owner_of_entered {cfg : Setup} {w : World} {s : ServerId} {e : EndpointId}
    (h : (step cfg w (.call (enterPatchEndpoint s e))).2 = .returned) :
    (step cfg w (.call (enterPatchEndpoint s e))).1.owner e = some s := by
  obtain ⟨result, hcall, hobs⟩ := call_cases cfg w (enterPatchEndpoint s e)
  rw [hobs, callObs_returned] at h
  subst h
  exact owner_of_added (adds_enterPatchEndpoint s e) hcall

/-- In every run of a program inside `with server.patch_http_endpoint(e)` or
`patch_ws_endpoint(e)` whose body does not itself remove `e`, and for either outcome
of the body: leaving the context takes `e` out of the server if and only if no
exception is pending on the server when the body ends. Then the outcome is that of
the body, and otherwise a `HandlerError` from the pending exception. -/
theorem patch_endpoint_taken_out_iff (cfg : Setup) (w₀ : World) (h₀ : w₀.Fresh)
    (before body : List Event) (s : ServerId) (e : EndpointId) (outcome : Except Exc Unit)
    (w₁ w₂ : World) (hw₁ : w₁ = exec (step cfg) w₀ (before ++ [.call (enterPatchEndpoint s e)]))
    (hentered : (step cfg (exec (step cfg) w₀ before) (.call (enterPatchEndpoint s e))).2 =
      .returned)
    (hw₂ : w₂ = exec (step cfg) w₁ body)
    (hkeep : Along (step cfg) (fun w ev => ¬ Removes cfg e w ev) w₁ body) :
    (TakenOut (leavePatch cfg s e outcome w₂).1 s e ↔ w₂.pendingException s = none) ∧
    (w₂.pendingException s = none →
      (leavePatch cfg s e outcome w₂).2 = outcome.mapError Sum.inl) ∧
    (∀ x, w₂.pendingException s = some x →
      (leavePatch cfg s e outcome w₂).2 = .error (.inr (.handlerError x))) := by
  have howner₁ : w₁.owner e = some s := by
    rw [hw₁, exec_append]
    exact owner_of_entered hentered
  have howner₂ : w₂.owner e = some s := by
    rw [hw₂]
    exact exec_owner body howner₁ hkeep
  have hreg : Registered w₂ := by
    rw [hw₂, hw₁]
    exact exec_registered cfg body (exec_registered cfg _ (registered_of_fresh h₀))
  have hstep := runCall_steps cfg w₂ (exitPatchEndpoint s e)
  have hcall := removes_exitPatchEndpoint s e
  simp only [Steps] at hstep
  unfold leavePatch
  cases hx : w₂.pendingException s with
  | none =>
    obtain ⟨hresult, hnone⟩ := remove_clear hreg hcall howner₂ hx hstep
    have hreg' : Registered (runCall cfg (exitPatchEndpoint s e) w₂).2 :=
      call_registered hreg hstep
    generalize runCall cfg (exitPatchEndpoint s e) w₂ = result at hresult hnone hreg'
    obtain ⟨result, v⟩ := result
    subst hresult
    refine ⟨⟨fun _ => rfl, fun _ => takenOut_of_registered hreg' hnone⟩, fun _ => rfl, ?_⟩
    intro x hx
    contradiction
  | some x =>
    obtain ⟨hresult, hsame⟩ := remove_pending hcall hx hstep
    generalize runCall cfg (exitPatchEndpoint s e) w₂ = result at hresult hsame
    obtain ⟨result, v⟩ := result
    subst hresult hsame
    refine ⟨⟨?_, fun h => by contradiction⟩, fun h => by contradiction, ?_⟩
    · intro hout
      have hnone : w₂.owner e = none := hout.2
      rw [howner₂] at hnone
      contradiction
    · intro y hy
      obtain rfl := Option.some.inj hy
      rfl

/-- A quiet body: entered, one request answered, left. -/
theorem patch_endpoint_taken_out_iff_quiet :
    TakenOut (leavePatch Setup.plain 0 (.http 0) (.ok ())
      (exec (step Setup.plain) (World.new fun _ => .response ⟨200, "hi"⟩)
        [.call (.enterPatchHttpEndpoint 0 0), .request 1 0 0, .body 1 true])).1 0 (.http 0) :=
  (patch_endpoint_taken_out_iff Setup.plain (World.new fun _ => .response ⟨200, "hi"⟩)
    (World.new_fresh _) [] [.request 1 0 0, .body 1 true] 0 (.http 0) (.ok ()) _ _ rfl
    (by decide) rfl (by decide)).1.mpr (by decide)

/-- A request whose side effect raises inside the context leaves the endpoint
behind, for an HTTP endpoint and for a websocket endpoint. -/
theorem patch_endpoint_leaks :
    ((step Setup.plain (World.new fun _ => .callable 0)
        (.call (enterPatchEndpoint 0 (.http 0)))).2 = .returned ∧
      Along (step Setup.plain) (fun w ev => ¬ Removes Setup.plain (.http 0) w ev)
        (exec (step Setup.plain) (World.new fun _ => .callable 0)
          [.call (enterPatchEndpoint 0 (.http 0))])
        [.request 1 0 0, .sideEffect 1 (.error ⟨0, "ValueError()", .exception⟩)] ∧
      ¬ TakenOut (leavePatch Setup.plain 0 (.http 0) (.ok ())
        (exec (step Setup.plain) (World.new fun _ => .callable 0)
          [.call (enterPatchEndpoint 0 (.http 0)), .request 1 0 0,
            .sideEffect 1 (.error ⟨0, "ValueError()", .exception⟩)])).1 0 (.http 0)) ∧
    ((step Setup.plain (World.new fun _ => .callable 0)
        (.call (enterPatchEndpoint 0 (.ws 0)))).2 = .returned ∧
      Along (step Setup.plain) (fun w ev => ¬ Removes Setup.plain (.ws 0) w ev)
        (exec (step Setup.plain) (World.new fun _ => .callable 0)
          [.call (enterPatchEndpoint 0 (.ws 0))])
        [.connect 1 0, .wsSideEffect 1 (.error ⟨0, "ValueError()", .exception⟩)] ∧
      ¬ TakenOut (leavePatch Setup.plain 0 (.ws 0) (.ok ())
        (exec (step Setup.plain) (World.new fun _ => .callable 0)
          [.call (enterPatchEndpoint 0 (.ws 0)), .connect 1 0,
            .wsSideEffect 1 (.error ⟨0, "ValueError()", .exception⟩)])).1 0 (.ws 0)) := by
  decide

end Yellowbox.PatchedEndpoints
