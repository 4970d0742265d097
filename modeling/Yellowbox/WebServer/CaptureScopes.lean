import Yellowbox.Base.ScopedLog
import Yellowbox.WebServer.HandlerSteps

/-!
`capture_calls` of an endpoint of either kind: the main thread enters and exits its
contexts, and what a handler records goes into the lists of those that are active. This is
the scoped log of `ScopedLog`.
-/
namespace Yellowbox.CaptureScopes

open StepRuns ScopedLog
open WebServerState WebServerCalls WebServerHandlers WebServerSteps
open WebServerCallSteps WebServerHandlerSteps

variable {A : Type}

/-- What the capture contexts of endpoint `e` see of an event, where handlers record what
`recorded` says. A context whose entry raises was never entered. -/
def endpointOp (cfg : Setup) (e : EndpointId) (recorded : World → Event → Option A) (w : World)
    (ev : Event) : Option (Op CaptureId A) :=
  match ev with
  | .call (.enterCaptureCalls d c) =>
    if d = e ∧ (step cfg w ev).2 = .returned then some (.enter c) else none
  | .call (.exitCaptureCalls d c) => if d = e then some (.exit c) else none
  | .call _ => none
  | ev => (recorded w ev).map .log

/-- The captures of endpoint `e` as a scoped log, over the lists that it keeps. -/
def endpointLogs (e : EndpointId) (lists : World → CaptureId → List A) (w : World) :
    Logs CaptureId A :=
  ⟨w.requestCaptures e, lists w⟩

/-- The lists of an endpoint: entering a context starts its list, no other call changes any,
and handlers record into those of the active contexts. -/
structure Keeps (cfg : Setup) (e : EndpointId) (recorded : World → Event → Option A)
    (lists : World → CaptureId → List A) : Prop where
  entered : ∀ {w v : World} {k : CaptureId}, EntryEffect cfg w (.enterCaptureCalls e k) v →
    lists v = Function.update (lists w) k []
  entry : ∀ {w v : World} {c : Call}, EntryEffect cfg w c v →
    (∀ k, c ≠ .enterCaptureCalls e k) → lists v = lists w
  exit : ∀ {w v : World} {c : Call}, ExitEffect w c v → lists v = lists w
  setPending : ∀ (w : World) (s : ServerId) (x : Option Exc), lists (w.setPending s x) = lists w
  handler : ∀ (w : World) (ev : Event), (∀ c, ev ≠ .call c) →
    endpointLogs e lists (step cfg w ev).1 =
      (endpointLogs e lists w).advance ((recorded w ev).map .log)

section Calls

variable {cfg : Setup} {w v : World} {e : EndpointId} {recorded : World → Event → Option A}
  {lists : World → CaptureId → List A}

theorem Keeps.pending (h : Keeps cfg e recorded lists) (w : World) (s : ServerId)
    (x : Option Exc) : endpointLogs e lists (w.setPending s x) = endpointLogs e lists w := by
  rw [endpointLogs, h.setPending]
  rfl

/-- Only opening and closing a capture changes the captures of the main thread. -/
theorem Keeps.call (h : Keeps cfg e recorded lists) {c : Call} {result : Except CallError Unit}
    (hcall : CallStep cfg w c result v) (henter : ∀ d k, c ≠ .enterCaptureCalls d k)
    (hexit : ∀ d k, c ≠ .exitCaptureCalls d k) :
    endpointLogs e lists v = endpointLogs e lists w := by
  have hentry : ∀ u, EntryEffect cfg w c u → endpointLogs e lists u = endpointLogs e lists w := by
    intro u hu
    rw [endpointLogs, h.entry hu (henter e)]
    cases hu with
    | add | remove | patch | isAlive | noPatch => rfl
    | captureHttp j k hauto => exact absurd rfl (henter _ k)
    | captureWs j k => exact absurd rfl (henter _ k)
  have hleave : ∀ u, ExitEffect w c u → endpointLogs e lists u = endpointLogs e lists w := by
    intro u hu
    rw [endpointLogs, h.exit hu]
    cases hu with
    | unpatch | stop => rfl
    | uncapture => exact absurd rfl (hexit _ _)
  cases hcall with
  | pendingFirst => exact h.pending ..
  | refused => rfl
  | entered hclear hv => exact hentry v hv
  | exited hclear hv => exact hleave v hv
  | exitedUnowned hs hv => exact hleave v hv
  | @exitedPending u _ _ hs hx hv => exact (h.pending ..).trans (hleave u hv)

theorem entered_captures {d : EndpointId} {k : CaptureId}
    (h : EntryEffect cfg w (.enterCaptureCalls d k) v) :
    v.requestCaptures = Function.update w.requestCaptures d (w.requestCaptures d ++ [k]) := by
  cases h with
  | add hc | remove hc => cases hc
  | captureHttp | captureWs => rfl

theorem Keeps.enter (h : Keeps cfg e recorded lists) (w : World) (d : EndpointId) (k : CaptureId) :
    endpointLogs e lists (step cfg w (.call (.enterCaptureCalls d k))).1 =
      (endpointLogs e lists w).advance
        (endpointOp cfg e recorded w (.call (.enterCaptureCalls d k))) := by
  obtain ⟨result, hcall, hobs⟩ := call_cases cfg w (.enterCaptureCalls d k)
  simp only [endpointOp, hobs]
  generalize (step cfg w (.call (.enterCaptureCalls d k))).1 = v at hcall
  cases hcall with
  | pendingFirst => simp [callObs, Logs.advance, h.pending]
  | refused => simp [callObs, Logs.advance]
  | exited hclear hv => cases hv
  | exitedUnowned hs hv => cases hv
  | exitedPending hs hx hv => cases hv
  | entered hclear hv =>
    by_cases hd : d = e
    · subst hd
      simp [callObs, Logs.advance, Logs.next, endpointLogs, entered_captures hv, h.entered hv]
    · have hother : ∀ k', Call.enterCaptureCalls d k ≠ .enterCaptureCalls e k' := by
        intro k' heq
        exact hd (Call.enterCaptureCalls.inj heq).1
      simp [hd, Logs.advance, endpointLogs, entered_captures hv, h.entry hv hother, Ne.symm hd]

/-- A `capture_calls` that exits in its turn is popped, also when it then raises. -/
theorem Keeps.leave (h : Keeps cfg e recorded lists) (w : World) (d : EndpointId) (k : CaptureId) :
    endpointLogs e lists (step cfg w (.call (.exitCaptureCalls d k))).1 =
      (endpointLogs e lists w).advance
        (endpointOp cfg e recorded w (.call (.exitCaptureCalls d k))) := by
  obtain ⟨result, hcall, hobs⟩ := call_cases cfg w (.exitCaptureCalls d k)
  have hpopped : ∀ u, ExitEffect w (.exitCaptureCalls d k) u → endpointLogs e lists u =
      (endpointLogs e lists w).advance
        (endpointOp cfg e recorded w (.call (.exitCaptureCalls d k))) := by
    intro u hu
    rw [endpointLogs, h.exit hu]
    cases hu with
    | uncapture hlast =>
      by_cases hd : d = e
      · subst hd
        simp [endpointOp, Logs.advance, endpointLogs, Logs.next, World.setCaptures, hlast]
      · simp [endpointOp, Logs.advance, endpointLogs, World.setCaptures, hd, Ne.symm hd]
  generalize (step cfg w (.call (.exitCaptureCalls d k))).1 = v at hcall
  cases hcall with
  | pendingFirst hs hx hfirst => cases hfirst
  | exited hclear hv => exact hpopped v hv
  | exitedUnowned hs hv => exact hpopped v hv
  | @exitedPending u _ _ hs hx hv => exact (h.pending ..).trans (hpopped u hv)
  | entered hclear hv =>
    cases hv with
    | add hc | remove hc => cases hc
  | refused hclear herr =>
    have hlast : (w.requestCaptures d).getLast? ≠ some k := by
      cases herr with
      | addedTwice hc | noRoute hc | notAdded hc | notFound hc => cases hc
      | parallel hlast => exact hlast
      | noCapture k hnone => simp [hnone]
      | unowned hc hfirst => cases hfirst
    by_cases hd : d = e
    · subst hd
      simp [endpointOp, Logs.advance, endpointLogs, Logs.next, hlast]
    · simp [endpointOp, Logs.advance, hd]

/-- Every step of the system is one of the scoped log, or it leaves the log alone. -/
theorem Keeps.step (h : Keeps cfg e recorded lists) (w : World) (ev : Event) :
    endpointLogs e lists (step cfg w ev).1 =
      (endpointLogs e lists w).advance (endpointOp cfg e recorded w ev) := by
  rcases step_cases cfg w ev with ⟨c, result, rfl, hcall, -⟩ | ⟨hnocall, -⟩
  · cases c with
    | enterCaptureCalls d k => exact h.enter w d k
    | exitCaptureCalls d k => exact h.leave w d k
    | _ => exact h.call hcall (fun _ _ h => by cases h) (fun _ _ h => by cases h)
  · rw [h.handler w ev hnocall]
    cases ev with
    | call c => exact absurd rfl (hnocall c)
    | _ => rfl

/-- In every run the captures of an endpoint are those of the scoped log. -/
theorem Keeps.exec (h : Keeps cfg e recorded lists) (w : World) (evs : List Event) :
    endpointLogs e lists (exec (WebServerSteps.step cfg) w evs) = (endpointLogs e lists w).run
      (visible (WebServerSteps.step cfg) (endpointOp cfg e recorded) w evs) := by
  refine exec_projection (WebServerSteps.step cfg) (endpointOp cfg e recorded)
    (endpointLogs e lists) Logs.next ?_ ?_ w evs
  · intro w ev op hop
    rw [h.step, hop]
    rfl
  · intro w ev hop
    rw [h.step, hop]
    rfl

end Calls

section Views

variable {cfg : Setup} {w : World} {e : EndpointId} {recorded : World → Event → Option A}

/-- What an event logs in the captures is what its handler records. -/
theorem endpointOp_logged (hcall : ∀ w c, recorded w (.call c) = none) (cfg : Setup)
    (e : EndpointId) (w : World) (ev : Event) :
    (endpointOp cfg e recorded w ev).bind Op.logged = recorded w ev := by
  cases ev with
  | call c =>
    rw [hcall]
    unfold endpointOp
    split
    · split <;> rfl
    · split <;> rfl
    · rfl
    · rename_i hnot
      exact absurd rfl (hnot c)
  | _ => cases h : recorded w _ <;> simp [endpointOp, h, Op.logged]

/-- A context of the endpoint is entered by the call for it. -/
theorem call_of_enter {ev : Event} {k : CaptureId}
    (hop : endpointOp cfg e recorded w ev = some (.enter k)) :
    ev = .call (.enterCaptureCalls e k) := by
  unfold endpointOp at hop
  split at hop
  · split at hop
    · rename_i hd
      cases hop
      rw [hd.1]
    · cases hop
  · split at hop <;> cases hop
  · cases hop
  · obtain ⟨a, -, ha⟩ := Option.map_eq_some_iff.mp hop
    cases ha

end Views

end Yellowbox.CaptureScopes
