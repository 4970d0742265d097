import Yellowbox.Base.Effects
import Yellowbox.WebServer.State

/-!
The calls a test makes from the main thread: adding and removing endpoints,
patching a side effect, opening and closing a capture, `is_alive` and `stop`.
Every one of them is a single step; the route lock is therefore left out.
-/
namespace Yellowbox.WebServerCalls

open Effects WebServerState

/-- What a main-thread call raises: a `HandlerError` from the exception of a
handler, an error of the library, or an error of starlette's route constructor. -/
inductive CallError
  | handlerError (cause : Exc)
  | runtimeError (message : String)
  | attributeError (name : String)
  | indexError
  | routeError (path : String)
  deriving DecidableEq

def raiseFromPending (s : ServerId) : Act World CallError Unit := do
  let w ← Act.get
  match w.pendingException s with
  | none => pure ()
  | some pending =>
    Act.modify (·.setPending s none)
    Act.raise (.handlerError pending)

/-- `self.owner.raise_from_pending()`, as the methods of an endpoint call it. -/
def ownerRaiseFromPending (e : EndpointId) : Act World CallError Unit := do
  let w ← Act.get
  match w.owner e with
  | none => Act.raise (.attributeError "raise_from_pending")
  | some s => raiseFromPending s

/-- `MockHTTPEndpoint.route`. Starlette's `Route` adds HEAD to the methods of a
route for GET. -/
def route (cfg : Setup) (i : HttpId) : Except CallError Route :=
  let ep := cfg.http i
  let methods := if "GET" ∈ ep.methods then "HEAD" :: ep.methods else ep.methods
  if cfg.compiles ep.ruleString then
    if ep.forbidImplicitHeadVerb && "HEAD" ∉ ep.methods then
      .ok (.route i ep.ruleString ep.name (methods.filter (· ≠ "HEAD")))
    else .ok (.route i ep.ruleString ep.name methods)
  else .error (.routeError ep.ruleString)

/-- `WebSocketRoute(ep.rule_string, ep.endpoint, name=ep.__name__)` -/
def webSocketRoute (cfg : Setup) (i : WsId) : Except CallError Route :=
  let ep := cfg.ws i
  if cfg.compiles ep.ruleString then .ok (.webSocketRoute i ep.ruleString ep.name)
  else .error (.routeError ep.ruleString)

/-- The common body of `add_http_endpoint` and `add_ws_endpoint`. -/
def addEndpoint (s : ServerId) (e : EndpointId) (rt : Except CallError Route) :
    Act World CallError EndpointId := do
  raiseFromPending s
  let w ← Act.get
  Act.raiseIf (w.owner e).isSome (.runtimeError "an endpoint cannot be added twice")
  let rt ← Act.ofExcept rt
  Act.modify (fun w => w.setRoutes s (w.routes s ++ [rt]))
  Act.modify (·.setOwner e (some s))
  pure e

/-- The common body of `remove_http_endpoint` and `remove_ws_endpoint`; `found`
is the test of their search for the route. -/
def removeEndpoint (s : ServerId) (e : EndpointId) (found : Route → Bool) :
    Act World CallError Unit := do
  raiseFromPending s
  let w ← Act.get
  Act.raiseIf (w.owner e != some s) (.runtimeError "endpoint is not added to the server")
  match (w.routes s).findIdx? found with
  | none => Act.raise (.runtimeError "endpoint is not found in the server")
  | some i =>
    Act.modify (fun w => w.setRoutes s ((w.routes s).eraseIdx i))
    Act.modify (·.setOwner e none)

def addHttpEndpoint (cfg : Setup) (s : ServerId) (i : HttpId) : Act World CallError EndpointId :=
  addEndpoint s (.http i) (route cfg i)

def addWsEndpoint (cfg : Setup) (s : ServerId) (i : WsId) : Act World CallError EndpointId :=
  addEndpoint s (.ws i) (webSocketRoute cfg i)

def removeHttpEndpoint (s : ServerId) (i : HttpId) : Act World CallError Unit :=
  removeEndpoint s (.http i) (Route.isRouteOf i)

def removeWsEndpoint (s : ServerId) (i : WsId) : Act World CallError Unit :=
  removeEndpoint s (.ws i) (Route.isWebSocketRouteOf i)

/-- `patch` of either endpoint class; `p` is the returned `EndpointPatch`. -/
def patch (e : EndpointId) (p : PatchId) (sideEffect : SideEffectArg) :
    Act World CallError PatchId := do
  ownerRaiseFromPending e
  let w ← Act.get
  Act.modify (·.setSideEffect e (bindSideEffect e sideEffect))
  Act.modify (·.setPatch p (e, w.sideEffect e))
  pure p

/-- `EndpointPatch.__exit__`. A patch that was never made has no `__exit__`. -/
def exitPatch (p : PatchId) : Act World CallError Unit := do
  let w ← Act.get
  match w.patches p with
  | none => pure ()
  | some (e, restore) =>
    Act.modify (·.setSideEffect e restore)
    ownerRaiseFromPending e

/-- The common body of both `capture_calls` up to the `yield`; `newList` makes
the list `c` that is yielded. -/
def enterCapture (e : EndpointId) (c : CaptureId) (autoReadBody : Bool)
    (newList : World → World) : Act World CallError CaptureId := do
  ownerRaiseFromPending e
  Act.raiseIf (!autoReadBody)
    (.runtimeError "cannot capture calls if auto_read_body is disabled")
  Act.modify newList
  Act.modify (fun w => w.setCaptures e (w.requestCaptures e ++ [c]))
  pure c

/-- `capture_calls` up to the `yield`; that of a websocket endpoint does not look
at `auto_read_body`. -/
def enterCaptureCalls (cfg : Setup) : EndpointId → CaptureId → Act World CallError CaptureId
  | .http i, c => enterCapture (.http i) c (cfg.http i).autoReadBody (·.setCalls i c [])
  | .ws i, c => enterCapture (.ws i) c true (·.setTranscripts i c [])

/-- The `finally` block of either `capture_calls`. -/
def exitCaptureCalls (e : EndpointId) (c : CaptureId) : Act World CallError Unit := do
  let w ← Act.get
  match (w.requestCaptures e).getLast? with
  | none => Act.raise .indexError
  | some last =>
    Act.raiseIf (last != c)
      (.runtimeError "capture_calls contexts cannot be used in parallel")
    Act.modify (fun w => w.setCaptures e (w.requestCaptures e).dropLast)
    ownerRaiseFromPending e

def isAlive (s : ServerId) : Act World CallError Bool := do
  raiseFromPending s
  let w ← Act.get
  pure (w.serveThreadAlive s)

/-- `stop`; `stopped` tells whether the thread ended before the join timed out. -/
def stop (s : ServerId) (stopped : Bool) : Act World CallError Unit := do
  Act.modify (fun w => w.setAlive s (w.serveThreadAlive s && !stopped))
  raiseFromPending s

/-- A main-thread call with its arguments. The entry of `patch_*_endpoint` is
an `add`, its exit a `remove`. -/
inductive Call
  | addHttpEndpoint (s : ServerId) (i : HttpId)
  | removeHttpEndpoint (s : ServerId) (i : HttpId)
  | enterPatchHttpEndpoint (s : ServerId) (i : HttpId)
  | exitPatchHttpEndpoint (s : ServerId) (i : HttpId)
  | addWsEndpoint (s : ServerId) (i : WsId)
  | removeWsEndpoint (s : ServerId) (i : WsId)
  | enterPatchWsEndpoint (s : ServerId) (i : WsId)
  | exitPatchWsEndpoint (s : ServerId) (i : WsId)
  | patch (e : EndpointId) (p : PatchId) (sideEffect : SideEffectArg)
  | exitPatch (p : PatchId)
  | enterCaptureCalls (e : EndpointId) (c : CaptureId)
  | exitCaptureCalls (e : EndpointId) (c : CaptureId)
  | isAlive (s : ServerId)
  | stop (s : ServerId) (stopped : Bool)

def runCall (cfg : Setup) : Call → Act World CallError Unit
  | .addHttpEndpoint s i => discard (addHttpEndpoint cfg s i)
  | .removeHttpEndpoint s i => removeHttpEndpoint s i
  | .enterPatchHttpEndpoint s i => discard (addHttpEndpoint cfg s i)
  | .exitPatchHttpEndpoint s i => removeHttpEndpoint s i
  | .addWsEndpoint s i => discard (addWsEndpoint cfg s i)
  | .removeWsEndpoint s i => removeWsEndpoint s i
  | .enterPatchWsEndpoint s i => discard (addWsEndpoint cfg s i)
  | .exitPatchWsEndpoint s i => removeWsEndpoint s i
  | .patch e p sideEffect => discard (patch e p sideEffect)
  | .exitPatch p => exitPatch p
  | .enterCaptureCalls e c => discard (enterCaptureCalls cfg e c)
  | .exitCaptureCalls e c => exitCaptureCalls e c
  | .isAlive s => discard (isAlive s)
  | .stop s stopped => stop s stopped

section Results

variable {w : World} {s : ServerId} {e : EndpointId}

theorem raiseFromPending_none (h : w.pendingException s = none) :
    raiseFromPending s w = (.ok (), w) := by
  simp only [raiseFromPending, Act.get_bind, h]
  rfl

theorem raiseFromPending_some {x : Exc} (h : w.pendingException s = some x) :
    raiseFromPending s w = (.error (.handlerError x), w.setPending s none) := by
  simp only [raiseFromPending, Act.get_bind, h]
  rfl

theorem ownerRaiseFromPending_none (h : w.owner e = none) :
    ownerRaiseFromPending e w = (.error (.attributeError "raise_from_pending"), w) := by
  simp only [ownerRaiseFromPending, Act.get_bind, h]
  rfl

theorem ownerRaiseFromPending_some (h : w.owner e = some s) :
    ownerRaiseFromPending e w = raiseFromPending s w := by
  simp only [ownerRaiseFromPending, Act.get_bind, h]

theorem addEndpoint_pending {x : Exc} (rt : Except CallError Route)
    (h : w.pendingException s = some x) :
    addEndpoint s e rt w = (.error (.handlerError x), w.setPending s none) :=
  Act.bind_error (raiseFromPending_some h)

theorem addEndpoint_apply (rt : Except CallError Route) (h : w.pendingException s = none) :
    addEndpoint s e rt w =
      if (w.owner e).isSome then
        (.error (.runtimeError "an endpoint cannot be added twice"), w)
      else
        match rt with
        | .error err => (.error err, w)
        | .ok rt => (.ok e, (w.setRoutes s (w.routes s ++ [rt])).setOwner e (some s)) := by
  rw [addEndpoint, Act.bind_ok (raiseFromPending_none h), Act.get_bind, Act.raiseIf_bind]
  split
  · rfl
  · cases rt <;> rfl

theorem removeEndpoint_pending {x : Exc} (found : Route → Bool)
    (h : w.pendingException s = some x) :
    removeEndpoint s e found w = (.error (.handlerError x), w.setPending s none) :=
  Act.bind_error (raiseFromPending_some h)

theorem removeEndpoint_apply (found : Route → Bool) (h : w.pendingException s = none) :
    removeEndpoint s e found w =
      if w.owner e != some s then
        (.error (.runtimeError "endpoint is not added to the server"), w)
      else
        match (w.routes s).findIdx? found with
        | none => (.error (.runtimeError "endpoint is not found in the server"), w)
        | some i => (.ok (), (w.setRoutes s ((w.routes s).eraseIdx i)).setOwner e none) := by
  rw [removeEndpoint, Act.bind_ok (raiseFromPending_none h), Act.get_bind, Act.raiseIf_bind]
  split
  · rfl
  · cases (w.routes s).findIdx? found <;> rfl

end Results

end Yellowbox.WebServerCalls
