import Yellowbox.WebServer.CaptureScopes

/-!
What the capture contexts of one HTTP endpoint see of a run: every completed request is
appended to the lists of those that are active.
-/
namespace Yellowbox.Recording

open StepRuns ScopedLog
open WebServerState WebServerCalls WebServerHandlers WebServerSteps
open WebServerCallSteps WebServerHandlerSteps CaptureScopes

/-- The request whose handler the event starts or resumes. -/
def handlerOf : Event → Option RequestId
  | .call _ => none
  | .request r _ _ | .sideEffect r _ | .body r _ | .connect r _ | .wsSideEffect r _ => some r

/-- The request or connection that comes in with the event. -/
def arrival : Event → Option RequestId
  | .request r _ _ | .connect r _ => some r
  | _ => none

def arrivals (evs : List Event) : List RequestId := evs.filterMap arrival

/-- The request of endpoint `i` that an event which shows `o` completes. -/
def completionOf (i : HttpId) (w : World) : Event → Obs → Option RecordedRequest
  | .request r j now, .completed _ => if j = i then some ⟨r, now⟩ else none
  | .sideEffect r _, .completed _ | .body r _, .completed _ =>
    match w.handlers r with
    | some (.http j t _) => if j = i then some ⟨r, t⟩ else none
    | _ => none
  | _, _ => none

def completion (cfg : Setup) (i : HttpId) (w : World) (ev : Event) : Option RecordedRequest :=
  completionOf i w ev (step cfg w ev).2

/-- The requests that endpoint `i` completes in a run, in order. -/
def completed (cfg : Setup) (i : HttpId) (w : World) (evs : List Event) : List RecordedRequest :=
  visible (step cfg) (completion cfg i) w evs

/-- What the capture contexts of endpoint `i` see of an event. -/
def captureOp (cfg : Setup) (i : HttpId) (w : World) (ev : Event) :
    Option (Op CaptureId RecordedRequest) :=
  endpointOp cfg (.http i) (completion cfg i) w ev

/-- The entries and exits of captures of endpoint `i` and its completed requests. -/
def captureOps (cfg : Setup) (i : HttpId) (w : World) (evs : List Event) :
    List (Op CaptureId RecordedRequest) :=
  visible (step cfg) (captureOp cfg i) w evs

/-- The captures of endpoint `i` as a scoped log. -/
def capturesOf (i : HttpId) (w : World) : Logs CaptureId RecordedRequest :=
  endpointLogs (.http i) (fun w => w.calls i) w

variable {cfg : Setup} {w : World} {i : HttpId}

theorem call_handlers {c : Call} {result : Except CallError Unit} {v : World}
    (h : CallStep cfg w c result v) : v.handlers = w.handlers := by
  cases h with
  | pendingFirst | refused => rfl
  | entered hclear hv => cases hv <;> rfl
  | exited hclear hv => cases hv <;> rfl
  | exitedUnowned hs hv => cases hv <;> rfl
  | exitedPending hs hx hv => cases hv <;> rfl

/-- An event leaves the handlers of other requests where they are. -/
theorem step_handlers_of_ne (cfg : Setup) {ev : Event} {r : RequestId}
    (hr : handlerOf ev ≠ some r) :
    (step cfg w ev).1.handlers r = w.handlers r := by
  rcases step_cases cfg w ev with ⟨c, result, rfl, hcall, -⟩ | ⟨-, hhandler⟩
  · rw [call_handlers hcall]
  · generalize (step cfg w ev).1 = v at hhandler
    generalize (step cfg w ev).2 = o at hhandler
    have hset : ∀ (r' : RequestId) (h : Option Handler), some r' ≠ some r →
        (w.setHandler r' h).handlers r = w.handlers r := by
      intro r' h hne
      have hne : r ≠ r' := fun heq => hne (congrArg some heq.symm)
      exact Function.update_of_ne hne ..
    cases hhandler with
    | ignored | unowned | refused => rfl
    | awaiting | dropped | uncaught | disconnected | wsEnded | wsDropped | wsUncaught =>
      exact hset _ _ hr
    | raised | wsRaised => exact hset _ _ hr
    | responded _ _ _ _ hv | returned _ hv => cases hv <;> exact hset _ _ hr
    | recorded =>
      rw [appendRecorded_eq]
      exact hset _ _ hr
    | @wsRefused r' i' _ =>
      obtain ⟨lists, hlists⟩ := appendTranscript_eq i' r' (w.requestCaptures (.ws i')) w
      rw [hlists]
    | @wsAwaiting r' i' _ =>
      obtain ⟨lists, hlists⟩ := appendTranscript_eq i' r' (w.requestCaptures (.ws i')) w
      rw [hlists]
      exact hset _ _ hr

theorem exec_handlers_of_ne {evs : List Event} {r : RequestId}
    (hr : ∀ ev ∈ evs, handlerOf ev ≠ some r) :
    (exec (step cfg) w evs).handlers r = w.handlers r := by
  induction evs generalizing w with
  | nil => rfl
  | cons ev evs ih =>
    rw [exec_cons, ih (fun ev' hev' => hr ev' (List.mem_cons_of_mem ev hev'))]
    exact step_handlers_of_ne cfg (hr ev (List.mem_cons_self ..))

/-- A request that is not in flight comes into flight only by its arrival. -/
theorem step_idle {ev : Event} {r : RequestId} (hr : w.handlers r = none)
    (hev : arrival ev ≠ some r) : (step cfg w ev).1.handlers r = none := by
  by_cases hof : handlerOf ev = some r
  · cases ev with
    | call c => cases hof
    | request r' j now => exact absurd hof hev
    | connect r' j => exact absurd hof hev
    | sideEffect r' result | body r' received | wsSideEffect r' result =>
      obtain rfl := Option.some.inj hof
      simp [step, hr]
  · rw [step_handlers_of_ne cfg hof, hr]

/-- A request is completed by a step of a handler. -/
theorem handler_of_completion {ev : Event} {a : RecordedRequest}
    (ha : completion cfg i w ev = some a) :
    ∃ o v, HandlerStep cfg w ev o v ∧ completionOf i w ev o = some a ∧ (step cfg w ev).1 = v := by
  rcases step_cases cfg w ev with ⟨c, result, rfl, -, -⟩ | ⟨-, hhandler⟩
  · cases ha
  · exact ⟨_, _, hhandler, ha, rfl⟩

/-- A completed request came in with this event or was in flight, and is over now. -/
theorem completion_spec {ev : Event} {a : RecordedRequest}
    (ha : completion cfg i w ev = some a) :
    handlerOf ev = some a.request ∧ (step cfg w ev).1.handlers a.request = none ∧
      ((ev = .request a.request i a.timeReceived ∧ w.handlers a.request = none) ∨
        ∃ p, w.handlers a.request = some (.http i a.timeReceived p)) := by
  obtain ⟨o, v, hhandler, ha, hv⟩ := handler_of_completion ha
  rw [hv]
  cases hhandler with
  | unowned | refused | awaiting | raised | dropped | uncaught | disconnected | wsRefused
  | wsAwaiting | wsEnded | wsRaised | wsDropped | wsUncaught => cases ha
  | ignored => cases ev <;> cases ha
  | responded hr howner hclear hf hv =>
    cases hv with
    | body | record => cases ha
    | done hauto hnone =>
      simp only [completionOf] at ha
      split at ha
      · rename_i hj
        cases ha
        exact ⟨rfl, Function.update_self .., Or.inl ⟨by rw [hj], hr⟩⟩
      · cases ha
  | returned hr hv =>
    cases hv with
    | body | record => cases ha
    | done hauto hnone =>
      simp only [completionOf, hr] at ha
      split at ha
      · rename_i hj
        cases ha
        exact ⟨rfl, Function.update_self .., Or.inr ⟨_, by rw [hr, hj]⟩⟩
      · cases ha
  | recorded hr hp =>
    simp only [completionOf, hr] at ha
    split at ha
    · rename_i hj
      cases ha
      rw [appendRecorded_eq]
      exact ⟨rfl, Function.update_self .., Or.inr ⟨_, by rw [hr, hj]⟩⟩
    · cases ha

/-- An HTTP handler in flight was so before the step, or it starts with it. -/
theorem inFlight_origin {ev : Event} {r : RequestId} {j : HttpId} {t : Time} {p : Phase}
    (h : (step cfg w ev).1.handlers r = some (.http j t p)) :
    (∃ p', w.handlers r = some (.http j t p')) ∨ ev = .request r j t := by
  by_cases hr : handlerOf ev = some r
  · rcases step_cases cfg w ev with ⟨c, result, rfl, -, -⟩ | ⟨-, hhandler⟩
    · cases hr
    · generalize (step cfg w ev).1 = v at hhandler h
      generalize (step cfg w ev).2 = o at hhandler
      have hset : ∀ (h' : Option Handler), (w.setHandler r h').handlers r = h' :=
        fun h' => Function.update_self ..
      cases hhandler with
      | ignored | unowned | refused => exact Or.inl ⟨p, h⟩
      | awaiting =>
        cases hr
        rw [hset] at h
        cases h
        exact Or.inr rfl
      | responded _ _ _ _ hv =>
        cases hr
        cases hv <;> rw [hset] at h <;> cases h <;> exact Or.inr rfl
      | returned hr' hv =>
        cases hr
        cases hv <;> rw [hset] at h <;> cases h <;> exact Or.inl ⟨_, hr'⟩
      | raised | wsRaised =>
        cases hr
        simp [World.setPending, World.setHandler] at h
      | dropped | uncaught | disconnected | wsEnded | wsDropped | wsUncaught =>
        cases hr
        simp [World.setHandler] at h
      | recorded =>
        cases hr
        rw [appendRecorded_eq] at h
        simp [World.setCallLists, World.setHandler] at h
      | @wsRefused r' i' _ =>
        obtain ⟨lists, hlists⟩ := appendTranscript_eq i' r' (w.requestCaptures (.ws i')) w
        rw [hlists] at h
        exact Or.inl ⟨p, h⟩
      | @wsAwaiting r' i' _ =>
        cases hr
        simp [World.setHandler] at h
  · rw [step_handlers_of_ne cfg hr] at h
    exact Or.inl ⟨p, h⟩

/-- A handler appends the request that it completes to the active captures. -/
theorem handler_captures {ev : Event} {o : Obs} {v : World} (h : HandlerStep cfg w ev o v) :
    capturesOf i v = (capturesOf i w).advance ((completionOf i w ev o).map .log) := by
  cases h with
  | unowned | refused | awaiting | raised | dropped | uncaught | disconnected | wsEnded
  | wsRaised | wsDropped | wsUncaught => rfl
  | ignored => cases ev <;> rfl
  | @responded r j now _ ret o v hr howner hclear hf hv =>
    cases hv with
    | body | record => rfl
    | done hauto hnone =>
      by_cases hj : j = i
      · subst hj
        simp [completionOf, Logs.advance, capturesOf, endpointLogs, Logs.next, World.setHandler,
          hnone]
      · simp [completionOf, Logs.advance, capturesOf, endpointLogs, World.setHandler, hj]
  | @returned r j t ret o v hr hv =>
    cases hv with
    | body | record => rfl
    | done hauto hnone =>
      by_cases hj : j = i
      · subst hj
        simp [completionOf, Logs.advance, capturesOf, endpointLogs, Logs.next, World.setHandler,
          hr, hnone]
      · simp [completionOf, Logs.advance, capturesOf, endpointLogs, World.setHandler, hr, hj]
  | @recorded r j t ret p hr hp =>
    rw [appendRecorded_eq]
    by_cases hj : j = i
    · subst hj
      simp [completionOf, Logs.advance, capturesOf, endpointLogs, Logs.next, World.setHandler,
        World.setCallLists, hr]
    · have hij : i ≠ j := Ne.symm hj
      simp [completionOf, Logs.advance, capturesOf, endpointLogs, World.setHandler,
        World.setCallLists, hr, hj, hij]
  | @wsRefused r j hr =>
    obtain ⟨lists, hlists⟩ := appendTranscript_eq j r (w.requestCaptures (.ws j)) w
    rw [hlists]
    rfl
  | @wsAwaiting r j hr =>
    obtain ⟨lists, hlists⟩ := appendTranscript_eq j r (w.requestCaptures (.ws j)) w
    rw [hlists]
    rfl

theorem keeps (cfg : Setup) (i : HttpId) :
    Keeps cfg (.http i) (completion cfg i) fun w => w.calls i where
  entered hv := by
    cases hv with
    | add hc | remove hc => cases hc
    | captureHttp => exact Function.update_self ..
  entry hv hother := by
    cases hv with
    | add | remove | patch | captureWs | isAlive | noPatch => rfl
    | captureHttp j k =>
      have hij : i ≠ j := fun heq => hother k (by rw [heq])
      exact Function.update_of_ne hij ..
  exit hv := by cases hv <;> rfl
  setPending _ _ _ := rfl
  handler w ev hnot := by
    rcases step_cases cfg w ev with ⟨c, result, rfl, -, -⟩ | ⟨-, hhandler⟩
    · exact absurd rfl (hnot c)
    · exact handler_captures hhandler

/-- Every step of the system is one of the scoped log, or it leaves the log alone. -/
theorem capturesOf_step (cfg : Setup) (i : HttpId) (w : World) (ev : Event) :
    capturesOf i (step cfg w ev).1 = (capturesOf i w).advance (captureOp cfg i w ev) :=
  (keeps cfg i).step w ev

/-- In every run the captures of an endpoint are those of the scoped log. -/
theorem capturesOf_exec (cfg : Setup) (i : HttpId) (w : World) (evs : List Event) :
    capturesOf i (exec (step cfg) w evs) = (capturesOf i w).run (captureOps cfg i w evs) :=
  (keeps cfg i).exec w evs

/-- What an event logs in the captures is the request that it completes. -/
theorem captureOp_logged (cfg : Setup) (i : HttpId) (w : World) (ev : Event) :
    (captureOp cfg i w ev).bind Op.logged = completion cfg i w ev :=
  endpointOp_logged (fun _ _ => rfl) cfg (.http i) w ev

theorem logged_captureOps (cfg : Setup) (i : HttpId) (w : World) (evs : List Event) :
    logged (captureOps cfg i w evs) = completed cfg i w evs := by
  have hview : (fun w ev => (captureOp cfg i w ev).bind Op.logged) = completion cfg i := by
    funext w ev
    exact captureOp_logged cfg i w ev
  rw [logged, captureOps, filterMap_visible, hview, completed]

/-- The lists of the captures change by a completed request, or by a new context. -/
theorem calls_step (cfg : Setup) (i : HttpId) (w : World) (ev : Event) :
    (∃ a, completion cfg i w ev = some a ∧ ∀ c, (step cfg w ev).1.calls i c =
      w.calls i c ++ List.replicate ((w.requestCaptures (.http i)).count c) a) ∨
    (∃ k, captureOp cfg i w ev = some (.enter k) ∧
      (step cfg w ev).1.calls i = Function.update (w.calls i) k []) ∨
    (completion cfg i w ev = none ∧ (step cfg w ev).1.calls i = w.calls i) := by
  have hstep := congrArg Logs.entries (capturesOf_step cfg i w ev)
  rw [← captureOp_logged]
  cases hop : captureOp cfg i w ev with
  | none =>
    rw [hop] at hstep
    exact Or.inr (Or.inr ⟨rfl, hstep⟩)
  | some op =>
    rw [hop] at hstep
    cases op with
    | enter k => exact Or.inr (Or.inl ⟨k, rfl, hstep⟩)
    | log a => exact Or.inl ⟨a, rfl, fun c => congrFun hstep c⟩
    | exit k =>
      refine Or.inr (Or.inr ⟨rfl, ?_⟩)
      have hentries : ((capturesOf i w).next (.exit k)).entries = w.calls i := by
        unfold Logs.next
        dsimp only
        split <;> rfl
      exact hstep.trans hentries

/-- A completed request is appended once for each occurrence of a capture. -/
theorem calls_of_completion {ev : Event} {a : RecordedRequest}
    (ha : completion cfg i w ev = some a) (c : CaptureId) :
    (step cfg w ev).1.calls i c =
      w.calls i c ++ List.replicate ((w.requestCaptures (.http i)).count c) a := by
  rcases calls_step cfg i w ev with ⟨b, hb, hcalls⟩ | ⟨k, hop, -⟩ | ⟨hnone, -⟩
  · obtain rfl := Option.some.inj (ha.symm.trans hb)
    exact hcalls c
  · rw [← captureOp_logged, hop] at ha
    cases ha
  · rw [ha] at hnone
    cases hnone

/-- Completing a request opens and closes no capture. -/
theorem captures_of_completion {ev : Event} {a : RecordedRequest}
    (ha : completion cfg i w ev = some a) :
    (step cfg w ev).1.requestCaptures = w.requestCaptures := by
  rcases step_cases cfg w ev with ⟨c, result, rfl, -, -⟩ | ⟨-, hhandler⟩
  · cases ha
  · exact hhandler.frame.requestCaptures

theorem completion_body (cfg : Setup) {r : RequestId} {t : Time} {p : Phase} {ret : Response}
    (hr : w.handlers r = some (.http i t p)) (hp : p = .body ret ∨ p = .record ret) :
    completion cfg i w (.body r true) = some ⟨r, t⟩ := by
  rcases hp with rfl | rfl <;> simp [completion, completionOf, step, afterBody, hr]

/-- An entry of a list after a step was there before, or it is the request that the
step completes, in an active capture. -/
theorem mem_calls_step {ev : Event} {c : CaptureId} {b : RecordedRequest}
    (hb : b ∈ (step cfg w ev).1.calls i c) :
    b ∈ w.calls i c ∨
      (completion cfg i w ev = some b ∧ w.requestCaptures (.http i) ≠ []) := by
  rcases calls_step cfg i w ev with ⟨a, ha, hcalls⟩ | ⟨k, -, hcalls⟩ | ⟨-, hcalls⟩
  · rw [hcalls, List.mem_append, List.mem_replicate] at hb
    rcases hb with hb | ⟨hcount, rfl⟩
    · exact Or.inl hb
    · refine Or.inr ⟨ha, ?_⟩
      intro hnone
      rw [hnone] at hcount
      exact hcount rfl
  · rw [hcalls, Function.update_apply] at hb
    split at hb
    · cases hb
    · exact Or.inl hb
  · rw [hcalls] at hb
    exact Or.inl hb

/-- A completed request arrived in the run or was in flight before it. -/
theorem completed_origin (evs : List Event) {a : RecordedRequest}
    (ha : a ∈ completed cfg i w evs) :
    a.request ∈ arrivals evs ∨ ∃ t p, w.handlers a.request = some (.http i t p) := by
  induction evs generalizing w with
  | nil => cases ha
  | cons ev evs ih =>
    have hsub : (arrivals evs).Sublist (arrivals (ev :: evs)) :=
      (List.sublist_cons_self ev evs).filterMap _
    have hlater : a ∈ completed cfg i (step cfg w ev).1 evs →
        a.request ∈ arrivals (ev :: evs) ∨ ∃ t p, w.handlers a.request = some (.http i t p) := by
      intro ha
      rcases ih ha with hin | ⟨t, p, h⟩
      · exact Or.inl (hsub.subset hin)
      · rcases inFlight_origin h with ⟨p', h'⟩ | rfl
        · exact Or.inr ⟨t, p', h'⟩
        · exact Or.inl (List.mem_cons_self ..)
    cases hview : completion cfg i w ev with
    | none =>
      rw [completed, visible_cons_none _ _ _ hview] at ha
      exact hlater ha
    | some b =>
      rw [completed, visible_cons_some _ _ _ hview] at ha
      rcases List.mem_cons.mp ha with rfl | ha
      · obtain ⟨-, -, ⟨rfl, -⟩ | ⟨p, h⟩⟩ := completion_spec hview
        · exact Or.inl (List.mem_cons_self ..)
        · exact Or.inr ⟨_, p, h⟩
      · exact hlater ha

/-- Requests that arrive once are completed at most once. -/
theorem completed_nodup (evs : List Event) (hdistinct : (arrivals evs).Nodup)
    (hidle : ∀ r ∈ arrivals evs, ∀ j t p, w.handlers r ≠ some (.http j t p)) :
    ((completed cfg i w evs).map (·.request)).Nodup := by
  induction evs generalizing w with
  | nil => exact List.nodup_nil
  | cons ev evs ih =>
    have hsub : (arrivals evs).Sublist (arrivals (ev :: evs)) :=
      (List.sublist_cons_self ev evs).filterMap _
    have hidle' : ∀ r ∈ arrivals evs, ∀ j t p,
        (step cfg w ev).1.handlers r ≠ some (.http j t p) := by
      intro r hr j t p h
      rcases inFlight_origin h with ⟨p', h'⟩ | rfl
      · exact hidle r (hsub.subset hr) j t p' h'
      · exact (List.nodup_cons.mp hdistinct).1 hr
    have hnodup := ih (hdistinct.sublist hsub) hidle'
    cases hview : completion cfg i w ev with
    | none =>
      rw [completed, visible_cons_none _ _ _ hview]
      exact hnodup
    | some a =>
      rw [completed, visible_cons_some _ _ _ hview]
      obtain ⟨-, hover, horigin⟩ := completion_spec hview
      refine List.nodup_cons.mpr ⟨?_, hnodup⟩
      intro hmem
      obtain ⟨b, hb, hba⟩ := List.mem_map.mp hmem
      rcases completed_origin evs hb with hin | ⟨t, p, h⟩
      · rw [hba] at hin
        rcases horigin with ⟨rfl, -⟩ | ⟨p, h⟩
        · exact (List.nodup_cons.mp hdistinct).1 hin
        · exact hidle a.request (hsub.subset hin) i _ p h
      · rw [hba, hover] at h
        cases h

end Yellowbox.Recording
