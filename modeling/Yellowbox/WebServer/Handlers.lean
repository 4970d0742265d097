import Yellowbox.WebServer.Calls

/-!
The handlers that run in the event loop of the server thread. A call of `get`
runs up to its next `await` and is then suspended; what the awaited thing does
is an argument of the function that resumes it. Between two awaits nothing else
runs in the loop, and a main-thread call is a step of its own.
-/
namespace Yellowbox.WebServerHandlers

open WebServerState WebServerCalls

/-- An exception that leaves `get`; the server answers it with status 500. -/
inductive HandlerFailure
  | runtimeError (message : String)
  | attributeError (name : String)
  | clientDisconnect
  | uncaught (ex : Exc)
  deriving DecidableEq

/-- What a step shows to whoever made it: the result of a main-thread call, or
how far a handler came. `completed` is the last `return` of an HTTP `get`,
`refused` its return on a pending exception, `caught` its return from the
`except` block; `closed` ends a websocket `get` that asked for a close code. -/
inductive Obs
  | returned
  | raised (err : CallError)
  | suspended
  | completed (ret : Response)
  | refused (ret : Response)
  | caught (ret : Response)
  | closed (code : Option ℕ)
  | failed (err : HandlerFailure)
  | ignored
  deriving DecidableEq

def httpInternalServerError : ℕ := 500

def wsInternalError : ℕ := 1011

/-- `for c in self._request_captures: c.append(recorded)` -/
def appendRecorded (i : HttpId) (recorded : RecordedRequest) : List CaptureId → World → World
  | [], w => w
  | c :: cs, w => appendRecorded i recorded cs (w.setCalls i c (w.calls i c ++ [recorded]))

/-- `for sink in sinks: sink.append(self.transcript)` -/
def appendTranscript (i : WsId) (r : RequestId) : List CaptureId → World → World
  | [], w => w
  | c :: cs, w => appendTranscript i r cs (w.setTranscripts i c (w.transcripts i c ++ [r]))

/-- The `else` block once the body was read, and `return ret`. -/
def afterBody (r : RequestId) (i : HttpId) (timeReceived : Time) (ret : Response) (w : World) :
    World × Obs :=
  (appendRecorded i ⟨r, timeReceived⟩ (w.requestCaptures (.http i)) (w.setHandler r none),
    .completed ret)

/-- The `else` block of `get`. When `auto_read_body` is off the captures are
looked at before `from_request` reads the body, and appended to afterwards. -/
def afterSideEffect (cfg : Setup) (r : RequestId) (i : HttpId) (timeReceived : Time)
    (ret : Response) (w : World) : World × Obs :=
  if (cfg.http i).autoReadBody then
    (w.setHandler r (some (.http i timeReceived (.body ret))), .suspended)
  else if w.requestCaptures (.http i) ≠ [] then
    (w.setHandler r (some (.http i timeReceived (.record ret))), .suspended)
  else (w.setHandler r none, .completed ret)

/-- The `except Exception` blocks of both `get`: the message they print names the owner. -/
def storeException (e : EndpointId) (ex : Exc) (done : Obs) (w : World) : World × Obs :=
  if ex.isException then
    match w.owner e with
    | none => (w, .failed (.attributeError "__name__"))
    -- the conditions on `self.owner.pending_exception` look at its truth.
    | some s => (w.setPending s ((some ex).filter Exc.truthy), done)
  else (w, .failed (.uncaught ex))

/-- `MockHTTPEndpoint.get` up to its first `await`. -/
def httpGet (cfg : Setup) (r : RequestId) (i : HttpId) (now : Time) (w : World) : World × Obs :=
  match w.owner (.http i) with
  | none => (w, .failed (.runtimeError "endpoint must be assigned to a webserver"))
  | some s =>
    match w.pendingException s with
    | some pending =>
      (w, .refused ⟨httpInternalServerError,
        s!"an exception in the webserver had previously occurred: {pending.repr}"⟩)
    | none =>
      match w.sideEffect (.http i) with
      | .response ret => afterSideEffect cfg r i now ret w
      | .callable _ => (w.setHandler r (some (.http i now .sideEffect)), .suspended)

/-- The side effect awaited by an HTTP `get` returned or raised. -/
def httpSideEffect (cfg : Setup) (r : RequestId) (i : HttpId) (timeReceived : Time)
    (result : Except Exc Response) (w : World) : World × Obs :=
  match result with
  | .ok ret => afterSideEffect cfg r i timeReceived ret w
  | .error ex => storeException (.http i) ex (.caught ⟨httpInternalServerError,
      s!"handler raised an exception: {ex.repr}"⟩) (w.setHandler r none)

/-- What `MockWSEndpoint.get` does with the end of its side effect: the exception
that it does not pass over, and the code it closes with. -/
def wsOutcome (allowAbruptDisconnect : Bool) :
    Except Exc (Option ℕ) → Option Exc × Option ℕ
  | .ok code => (none, code)
  | .error ex =>
    if allowAbruptDisconnect && ex.abrupt then (none, none)
    else (some ex, if ex.isException then some wsInternalError else none)

/-- `RecorderEndpoint.__call__` and `MockWSEndpoint.get` up to its first `await`. -/
def wsGet (r : RequestId) (i : WsId) (w : World) : World × Obs :=
  let w := appendTranscript i r (w.requestCaptures (.ws i)) w
  match w.owner (.ws i) with
  | none => (w, .closed (some wsInternalError))
  | some s =>
    match w.pendingException s with
    | some _ => (w, .closed (some wsInternalError))
    | none => (w.setHandler r (some (.ws i)), .suspended)

/-- The side effect awaited by a websocket `get` returned or raised. -/
def wsSideEffect (cfg : Setup) (r : RequestId) (i : WsId) (result : Except Exc (Option ℕ))
    (w : World) : World × Obs :=
  match wsOutcome (cfg.ws i).allowAbruptDisconnect result with
  | (none, code) => (w.setHandler r none, .closed code)
  | (some ex, code) => storeException (.ws i) ex (.closed code) (w.setHandler r none)

end Yellowbox.WebServerHandlers
