import Yellowbox.WebServer.Recording

/-!
`capture_calls` of one websocket endpoint. A connection is put into the lists of
the active contexts when it begins, before its side effect runs, so the list of
a context holds the connections of its window in the order they began, whatever
becomes of them and in which order they end.
-/
namespace Yellowbox.WsCaptures

open StepRuns ScopedLog
open WebServerState WebServerCalls WebServerHandlers WebServerSteps
open WebServerCallSteps WebServerHandlerSteps CaptureScopes Recording

/-- The connection to endpoint `i` that begins with the event. -/
def begins (i : WsId) (w : World) : Event → Option RequestId
  | .connect r j => if j = i ∧ w.handlers r = none then some r else none
  | _ => none

/-- What the capture contexts of endpoint `i` see of an event. -/
def captureOp (cfg : Setup) (i : WsId) (w : World) (ev : Event) :
    Option (Op CaptureId RequestId) :=
  endpointOp cfg (.ws i) (begins i) w ev

/-- The entries and exits of captures of endpoint `i` and its connections. -/
def captureOps (cfg : Setup) (i : WsId) (w : World) (evs : List Event) :
    List (Op CaptureId RequestId) :=
  visible (step cfg) (captureOp cfg i) w evs

/-- The connection that comes in to endpoint `i` with the event. -/
def connection (i : WsId) : Event → Option RequestId
  | .connect r j => if j = i then some r else none
  | _ => none

def connections (i : WsId) (evs : List Event) : List RequestId := evs.filterMap (connection i)

/-- The captures of endpoint `i` as a scoped log. -/
def capturesOf (i : WsId) (w : World) : Logs CaptureId RequestId :=
  endpointLogs (.ws i) (fun w => w.transcripts i) w

variable {cfg : Setup} {w : World} {i : WsId} {evs : List Event}

/-! ### One step -/

/-- A capture that is active more than once gets the transcript as often. -/
theorem appendTranscript_transcripts (i j : WsId) (r : RequestId) (cs : List CaptureId)
    (w : World) (c : CaptureId) :
    (appendTranscript j r cs w).transcripts i c =
      w.transcripts i c ++ if i = j then List.replicate (cs.count c) r else [] := by
  induction cs generalizing w with
  | nil => simp [appendTranscript]
  | cons d cs ih =>
    rw [appendTranscript, ih]
    by_cases hij : i = j
    · subst hij
      by_cases hc : c = d
      · subst hc
        simp [World.setTranscripts, List.replicate_succ]
      · have hdc : d ≠ c := Ne.symm hc
        simp [World.setTranscripts, hc, List.count_cons_of_ne hdc]
    · simp [World.setTranscripts, hij]

theorem appendTranscript_captures (j : WsId) (r : RequestId) (cs : List CaptureId) (w : World) :
    (appendTranscript j r cs w).requestCaptures = w.requestCaptures := by
  obtain ⟨lists, hlists⟩ := appendTranscript_eq j r cs w
  rw [hlists]

/-- Beginning a connection is a log entry for the captures of its endpoint. -/
theorem capturesOf_appendTranscript (i j : WsId) (r : RequestId) (w : World) :
    capturesOf i (appendTranscript j r (w.requestCaptures (.ws j)) w) =
      if j = i then (capturesOf i w).next (.log r) else capturesOf i w := by
  have hlists : (appendTranscript j r (w.requestCaptures (.ws j)) w).transcripts i =
      fun c => w.transcripts i c ++
        if i = j then List.replicate ((w.requestCaptures (.ws j)).count c) r else [] := by
    funext c
    exact appendTranscript_transcripts i j r _ w c
  rw [capturesOf, endpointLogs, appendTranscript_captures, hlists]
  by_cases hj : j = i
  · subst hj
    simp [Logs.next, capturesOf, endpointLogs]
  · simp [Ne.symm hj, hj, capturesOf, endpointLogs]

/-- A connection is put into the active captures, whether or not it is then refused. -/
theorem connect_captures (r : RequestId) (j : WsId) :
    capturesOf i (step cfg w (.connect r j)).1 =
      (capturesOf i w).advance ((begins i w (.connect r j)).map .log) := by
  cases hr : w.handlers r with
  | some h => simp [step, begins, hr, Logs.advance]
  | none =>
    have hget : capturesOf i (wsGet r j w).1 =
        capturesOf i (appendTranscript j r (w.requestCaptures (.ws j)) w) := by
      unfold wsGet
      dsimp only
      split
      · rfl
      · split <;> rfl
    simp only [step, begins, hr]
    rw [hget, capturesOf_appendTranscript]
    by_cases hj : j = i <;> simp [hj, Logs.advance]

/-- No other event of a handler changes the captures. -/
theorem handler_captures {ev : Event} {o : Obs} {v : World} (h : HandlerStep cfg w ev o v)
    (hconnect : ∀ r j, ev ≠ .connect r j) : capturesOf i v = capturesOf i w := by
  cases h with
  | ignored | unowned | refused | awaiting | raised | dropped | uncaught | disconnected
  | wsEnded | wsRaised | wsDropped | wsUncaught => rfl
  | responded hr howner hclear hf hv => cases hv <;> rfl
  | returned hr hv => cases hv <;> rfl
  | recorded hr hp =>
    rw [appendRecorded_eq]
    rfl
  | wsRefused | wsAwaiting => exact absurd rfl (hconnect _ _)

theorem keeps (cfg : Setup) (i : WsId) :
    Keeps cfg (.ws i) (begins i) fun w => w.transcripts i where
  entered hv := by
    cases hv with
    | add hc | remove hc => cases hc
    | captureWs => exact Function.update_self ..
  entry hv hother := by
    cases hv with
    | add | remove | patch | captureHttp | isAlive | noPatch => rfl
    | captureWs j k =>
      have hij : i ≠ j := fun heq => hother k (by rw [heq])
      exact Function.update_of_ne hij ..
  exit hv := by cases hv <;> rfl
  setPending _ _ _ := rfl
  handler w ev hnot := by
    rcases step_cases cfg w ev with ⟨c, result, rfl, -, -⟩ | ⟨-, hhandler⟩
    · exact absurd rfl (hnot c)
    · cases ev with
      | call c => exact absurd rfl (hnot c)
      | connect r j => exact connect_captures r j
      | _ => exact handler_captures hhandler (fun _ _ h => by cases h)

/-! ### Runs -/

/-- In every run the captures of an endpoint are those of the scoped log. -/
theorem capturesOf_exec (cfg : Setup) (i : WsId) (w : World) (evs : List Event) :
    capturesOf i (exec (step cfg) w evs) = (capturesOf i w).run (captureOps cfg i w evs) :=
  (keeps cfg i).exec w evs

/-- Connections that each come in once are logged as they come in. -/
theorem logged_captureOps (cfg : Setup) (i : WsId) (w : World) (evs : List Event)
    (hdistinct : (arrivals evs).Nodup) (hidle : ∀ r ∈ arrivals evs, w.handlers r = none) :
    logged (captureOps cfg i w evs) = connections i evs := by
  have hview : (fun w ev => (captureOp cfg i w ev).bind Op.logged) = begins i := by
    funext w ev
    exact endpointOp_logged (fun _ _ => rfl) cfg (.ws i) w ev
  rw [logged, captureOps, filterMap_visible, hview]
  induction evs generalizing w with
  | nil => rfl
  | cons ev evs ih =>
    have hsub : (arrivals evs).Sublist (arrivals (ev :: evs)) :=
      (List.sublist_cons_self ev evs).filterMap _
    have hlater : visible (step cfg) (begins i) (step cfg w ev).1 evs = connections i evs := by
      refine ih _ (hdistinct.sublist hsub) fun r hr => step_idle (hidle r (hsub.subset hr)) ?_
      intro harrival
      rw [arrivals, List.filterMap_cons_some harrival] at hdistinct
      exact (List.nodup_cons.mp hdistinct).1 hr
    have hbegins : begins i w ev = connection i ev := by
      cases ev with
      | connect r j => simp [begins, connection, hidle r List.mem_cons_self]
      | _ => rfl
    rw [connections]
    cases h : begins i w ev with
    | none =>
      rw [visible_cons_none _ _ _ h, hlater, List.filterMap_cons_none (hbegins ▸ h), connections]
    | some r =>
      rw [visible_cons_some _ _ _ h, hlater, List.filterMap_cons_some (hbegins ▸ h), connections]

end Yellowbox.WsCaptures
