import Mathlib.Logic.Function.Basic
import Mathlib.Data.Nat.Notation

/-!
The objects of the web server extra: servers, HTTP and websocket endpoints, the
routes of a server's starlette application, the lists that capture calls, and
the handlers suspended in the server thread's event loop. What the constructors
fix is a record of `Setup`; an attribute that later changes is a map of `World`
from objects to values, so that two names of one object see the same value.
-/
namespace Yellowbox.WebServerState

abbrev ServerId := ℕ
abbrev HttpId := ℕ
abbrev WsId := ℕ
abbrev RequestId := ℕ
abbrev CaptureId := ℕ
abbrev PatchId := ℕ
abbrev Time := ℕ

/-- An endpoint object of either class. -/
inductive EndpointId
  | http (i : HttpId)
  | ws (i : WsId)
  deriving DecidableEq

/-- What the handlers tell apart by its class: a disconnect (`WebSocketDisconnect` or
`ConnectionClosed`), any other `Exception`, one of a class with a `__bool__` or a `__len__` by
which it is false, and a `BaseException` that is none, such as `asyncio.CancelledError` or
what `pytest.fail` raises. -/
inductive ExcClass
  | disconnect
  | exception
  | falsy
  | baseException
  deriving DecidableEq

structure Exc where
  id : ℕ
  repr : String
  cls : ExcClass
  deriving DecidableEq

namespace Exc

/-- `isinstance(ex, (WebSocketDisconnect, ConnectionClosed))` -/
def abrupt (ex : Exc) : Bool := ex.cls == .disconnect

/-- `isinstance(ex, Exception)` -/
def isException (ex : Exc) : Bool := ex.cls != .baseException

/-- `bool(ex)` -/
def truthy (ex : Exc) : Bool := ex.cls != .falsy

end Exc

structure Response where
  status : ℕ
  content : String
  deriving DecidableEq

/-- A bound side effect: a fixed response or an async function. What an async
function does is decided by the event loop, see `Event.sideEffect`. -/
inductive SideEffect
  | response (ret : Response)
  | callable (f : ℕ)
  deriving DecidableEq

/-- A side effect as the caller gives it: `factory` is a callable marked with
`__side_effect_factory__`. -/
inductive SideEffectArg
  | plain (sideEffect : SideEffect)
  | factory (make : EndpointId → SideEffect)

def bindSideEffect (endpoint : EndpointId) : SideEffectArg → SideEffect
  | .plain sideEffect => sideEffect
  | .factory make => make endpoint

/-- `methods` are in upper case, as `__init__` stores them. -/
structure MockHTTPEndpoint where
  name : String
  methods : List String
  ruleString : String
  autoReadBody : Bool := true
  forbidImplicitHeadVerb : Bool := true

structure MockWSEndpoint where
  name : String
  ruleString : String
  allowAbruptDisconnect : Bool := true

/-- A starlette `Route`, whose endpoint is the bound method `get` of an HTTP
endpoint, or a `WebSocketRoute`, whose app is the `endpoint` attribute of a
websocket endpoint. -/
inductive Route
  | route (get : HttpId) (path name : String) (methods : List String)
  | webSocketRoute (app : WsId) (path name : String)
  deriving DecidableEq

namespace Route

def target : Route → EndpointId
  | route i _ _ _ => .http i
  | webSocketRoute i _ _ => .ws i

/-- `isinstance(route, Route) and route.endpoint == endpoint.get` -/
def isRouteOf (i : HttpId) : Route → Bool
  | route j _ _ _ => j == i
  | webSocketRoute _ _ _ => false

/-- `isinstance(route, WebSocketRoute) and route.app == endpoint.endpoint` -/
def isWebSocketRouteOf (i : WsId) : Route → Bool
  | route _ _ _ _ => false
  | webSocketRoute j _ _ => j == i

theorem isRouteOf_iff (i : HttpId) (rt : Route) :
    rt.isRouteOf i = true ↔ rt.target = .http i := by
  cases rt <;> simp [isRouteOf, target]

theorem isWebSocketRouteOf_iff (i : WsId) (rt : Route) :
    rt.isWebSocketRouteOf i = true ↔ rt.target = .ws i := by
  cases rt <;> simp [isWebSocketRouteOf, target]

end Route

/-- A captured request. The other fields of the record are read off the request. -/
structure RecordedRequest where
  request : RequestId
  timeReceived : Time
  deriving DecidableEq

/-- Where a call of `MockHTTPEndpoint.get` is suspended: at the side effect, at
`await request.body()`, or at the read of the body by `from_request`. -/
inductive Phase
  | sideEffect
  | body (ret : Response)
  | record (ret : Response)
  deriving DecidableEq

/-- A suspended call of an endpoint's `get`. -/
inductive Handler
  | http (endpoint : HttpId) (timeReceived : Time) (phase : Phase)
  | ws (endpoint : WsId)
  deriving DecidableEq

/-- What is fixed by the constructors. `compiles` tells for which rule strings
the route constructors of starlette do not raise. -/
structure Setup where
  http : HttpId → MockHTTPEndpoint
  ws : WsId → MockWSEndpoint
  compiles : String → Bool

structure World where
  routes : ServerId → List Route
  /-- What a server has pending; an exception that is false counts as none. -/
  pendingException : ServerId → Option Exc
  serveThreadAlive : ServerId → Bool
  owner : EndpointId → Option ServerId
  sideEffect : EndpointId → SideEffect
  requestCaptures : EndpointId → List CaptureId
  patches : PatchId → Option (EndpointId × SideEffect)
  calls : HttpId → CaptureId → List RecordedRequest
  transcripts : WsId → CaptureId → List RequestId
  handlers : RequestId → Option Handler

/-- Endpoints and servers as constructed: nothing is added, pending, captured or
in flight. -/
structure World.Fresh (w : World) : Prop where
  routes : ∀ s, w.routes s = []
  pendingException : ∀ s, w.pendingException s = none
  owner : ∀ e, w.owner e = none
  requestCaptures : ∀ e, w.requestCaptures e = []
  calls : ∀ i c, w.calls i c = []
  handlers : ∀ r, w.handlers r = none

/-- A world of started servers in which endpoint `e` has side effect `f e`. -/
def World.new (f : EndpointId → SideEffect) : World where
  routes _ := []
  pendingException _ := none
  serveThreadAlive _ := true
  owner _ := none
  sideEffect := f
  requestCaptures _ := []
  patches _ := none
  calls _ _ := []
  transcripts _ _ := []
  handlers _ := none

/-- Endpoints of one name, method and rule string, with the defaults of `http_endpoint`. -/
def Setup.plain : Setup where
  http _ := { name := "foo", methods := ["GET"], ruleString := "/foo" }
  ws _ := { name := "bar", ruleString := "/bar" }
  compiles _ := true

theorem World.new_fresh (f : EndpointId → SideEffect) : (World.new f).Fresh :=
  ⟨fun _ => rfl, fun _ => rfl, fun _ => rfl, fun _ => rfl, fun _ _ => rfl, fun _ => rfl⟩

namespace World

def setPending (w : World) (s : ServerId) (x : Option Exc) : World :=
  { w with pendingException := Function.update w.pendingException s x }

def setRoutes (w : World) (s : ServerId) (rts : List Route) : World :=
  { w with routes := Function.update w.routes s rts }

def setOwner (w : World) (e : EndpointId) (s : Option ServerId) : World :=
  { w with owner := Function.update w.owner e s }

def setSideEffect (w : World) (e : EndpointId) (f : SideEffect) : World :=
  { w with sideEffect := Function.update w.sideEffect e f }

def setCaptures (w : World) (e : EndpointId) (cs : List CaptureId) : World :=
  { w with requestCaptures := Function.update w.requestCaptures e cs }

def setPatch (w : World) (p : PatchId) (restore : EndpointId × SideEffect) : World :=
  { w with patches := Function.update w.patches p (some restore) }

def setAlive (w : World) (s : ServerId) (alive : Bool) : World :=
  { w with serveThreadAlive := Function.update w.serveThreadAlive s alive }

def setHandler (w : World) (r : RequestId) (h : Option Handler) : World :=
  { w with handlers := Function.update w.handlers r h }

def setCallLists (w : World) (i : HttpId) (l : CaptureId → List RecordedRequest) : World :=
  { w with calls := Function.update w.calls i l }

def setCalls (w : World) (i : HttpId) (c : CaptureId) (l : List RecordedRequest) : World :=
  w.setCallLists i (Function.update (w.calls i) c l)

def setTranscripts (w : World) (i : WsId) (c : CaptureId) (l : List RequestId) : World :=
  { w with transcripts := Function.update w.transcripts i (Function.update (w.transcripts i) c l) }

end World

end Yellowbox.WebServerState
