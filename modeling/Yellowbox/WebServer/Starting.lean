import Mathlib.Algebra.Order.Group.Nat
import Yellowbox.WebServer.ClassEndpoints
import Yellowbox.WebServer.Registration

/-!
`WebServer.start`: the main thread starts the server thread, serves an endpoint for its
own ping until a retry has reached it, and then adds the endpoints of the class. Between
its calls the server thread runs handlers, in any order, or ends.
-/
namespace Yellowbox.Starting

open Effects Dicts StepRuns WebServerState WebServerCalls WebServerHandlers WebServerSteps
open WebServerCallSteps WebServerHandlerSteps ClassEndpoints Registration

inductive StartError
  | call (err : CallError)
  | retry (name : String)
  | construct (name : String)
  | setattr (name : String)
  deriving DecidableEq

/-- Where the main thread is inside `start`: before it starts the server thread, on
either side of the retries, and before the `k`-th template of the class. -/
inductive Point
  | checking
  | entering
  | waiting
  | leaving (retried : Except String Unit)
  | adding (k : ℕ)

inductive Place
  | inside (p : Point)
  | returned
  | raised (p : Point) (err : StartError)

/-- `http_endpoint("GET", "/__yellowbox/ping", side_effect=PlainTextResponse(""))` -/
def pingEndpoint : MockHTTPEndpoint where
  name := "GET /__yellowbox/ping"
  methods := ["GET"]
  ruleString := "/__yellowbox/ping"

/-- The endpoint objects of one call of `start`: the one it constructs for its ping and,
for each template of the class, the one that `construct` gives. Under its name in the class
stands whether `construct` raises instead, and whether setting the attribute does. -/
structure StartUp (cfg : Setup) where
  server : ServerId
  ping : HttpId
  templates : Templates HttpId WsId
  construct : String → Except String Unit
  setattr : String → Except String Unit
  pingFields : cfg.http ping = pingEndpoint

/-- The server as the main thread sees it; `threadStarted` is for its thread object. -/
structure Site where
  world : World
  threadStarted : Bool
  attributes : Dict String EndpointId
  place : Place

def endpoint : EndpointTemplate HttpId WsId → EndpointId
  | .http i => .http i
  | .ws i => .ws i

def routeOf (cfg : Setup) : EndpointTemplate HttpId WsId → Except CallError Route
  | .http i => route cfg i
  | .ws i => webSocketRoute cfg i

def addTemplate (cfg : Setup) (s : ServerId) :
    EndpointTemplate HttpId WsId → Act World CallError EndpointId
  | .http i => addHttpEndpoint cfg s i
  | .ws i => addWsEndpoint cfg s i

def Site.go (site : Site) (place : Place) : Site := { site with place }

def Site.setWorld (site : Site) (world : World) : Site := { site with world }

def Site.setAttribute (site : Site) (name : String) (e : EndpointId) : Site :=
  { site with attributes := site.attributes.set name e }

def Site.startThread (site : Site) (s : ServerId) : Site :=
  { site with world := site.world.setAlive s true, threadStarted := true }

/-- A call at the point `p`; what it raises comes out of `start`. -/
def Site.call {α : Type} (site : Site) (p : Point) (act : Act World CallError α)
    (next : α → Site → Site) : Site :=
  match act site.world with
  | (.error err, w) => (site.setWorld w).go (.raised p (.call err))
  | (.ok a, w) => next a (site.setWorld w)

/-- What the `with` block of the ping ends with, once the ping is taken out. -/
def afterPing : Except String Unit → Place
  | .ok () => .inside (.adding 0)
  | .error name => .raised .waiting (.retry name)

/-- A round of the loop over the templates of the class. -/
def Site.round {cfg : Setup} (su : StartUp cfg) (k : ℕ)
    (entry : String × EndpointTemplate HttpId WsId) (site : Site) : Site :=
  match su.construct entry.1 with
  | .error name => site.go (.raised (.adding k) (.construct name))
  | .ok () =>
    site.call (.adding k) (addTemplate cfg su.server entry.2) fun e site =>
      match su.setattr entry.1 with
      | .error name => site.go (.raised (.adding k) (.setattr name))
      | .ok () => (site.setAttribute entry.1 e).go (.inside (.adding (k + 1)))

/-- The next step of the main thread; `retried` is what the retries end with. -/
def mainStep (cfg : Setup) (su : StartUp cfg) (retried : Except String Unit) (site : Site) : Site :=
  match site.place with
  | .returned | .raised _ _ => site
  | .inside .checking =>
    if site.world.serveThreadAlive su.server then
      site.go (.raised .checking (.call (.runtimeError "thread cannot be started twice")))
    else if site.threadStarted then
      site.go (.raised .checking (.call (.runtimeError "threads can only be started once")))
    else (site.startThread su.server).go (.inside .entering)
  | .inside .entering =>
    site.call .entering (addHttpEndpoint cfg su.server su.ping) fun _ site =>
      site.go (.inside .waiting)
  | .inside .waiting => site.go (.inside (.leaving retried))
  | .inside (.leaving retried) =>
    site.call (.leaving retried) (removeHttpEndpoint su.server su.ping) fun _ site =>
      site.go (afterPing retried)
  | .inside (.adding k) =>
    match su.templates.entries[k]? with
    | none => site.go .returned
    | some entry => site.round su k entry

/-- A step of either thread. The main thread makes no call of its own meanwhile. -/
inductive StartEvent
  | main (retried : Except String Unit)
  | serve (ev : Event)
  | threadEnds

def serveStep (cfg : Setup) (w : World) : Event → World
  | .call _ => w
  | ev => (step cfg w ev).1

def startStep (cfg : Setup) (su : StartUp cfg) (site : Site) : StartEvent → Site × Unit
  | .main retried => (mainStep cfg su retried site, ())
  | .serve ev => (site.setWorld (serveStep cfg site.world ev), ())
  | .threadEnds => (site.setWorld (site.world.setAlive su.server false), ())

/-! ### What the server has at each place -/

namespace StartUp

variable {cfg : Setup} (su : StartUp cfg)

/-- The ping is among the routes, also where taking it out has raised. -/
def pingedAt : Place → Bool
  | .inside .waiting | .inside (.leaving _) | .raised (.leaving _) _ => true
  | _ => false

/-- The templates of the class whose endpoints are attributes of the server. -/
def namedAt : Place → List (String × EndpointTemplate HttpId WsId)
  | .inside (.adding k) | .raised (.adding k) _ => su.templates.entries.take k
  | .returned => su.templates.entries
  | _ => []

/-- The templates of the class that have been added: one more where setting the attribute
has raised. -/
def addedAt : Place → List (String × EndpointTemplate HttpId WsId)
  | .raised (.adding k) (.setattr _) => su.templates.entries.take (k + 1)
  | place => su.namedAt place

def routesAt (place : Place) : List (Except CallError Route) :=
  (if pingedAt place then [route cfg su.ping] else []) ++
    (su.addedAt place).map fun entry => routeOf cfg entry.2

def ownedAt (place : Place) : List EndpointId :=
  (if pingedAt place then [.http su.ping] else []) ++
    (su.addedAt place).map fun entry => endpoint entry.2

def attributesAt (attributes : Dict String EndpointId) (place : Place) : Dict String EndpointId :=
  (su.namedAt place).foldl (fun d entry => d.set entry.1 (endpoint entry.2)) attributes

/-- What may come out at each point. No endpoint is found to be added already, or not to
be there. -/
inductive RaisedAt : Point → StartError → Prop
  | aliveAlready : RaisedAt .checking (.call (.runtimeError "thread cannot be started twice"))
  | startedAlready :
      RaisedAt .checking (.call (.runtimeError "threads can only be started once"))
  | pingPending (x : Exc) : RaisedAt .entering (.call (.handlerError x))
  | pingRoute {err : CallError} (h : route cfg su.ping = .error err) :
      RaisedAt .entering (.call err)
  | notReached (name : String) : RaisedAt .waiting (.retry name)
  | leftPending (retried : Except String Unit) (x : Exc) :
      RaisedAt (.leaving retried) (.call (.handlerError x))
  | notConstructed {k : ℕ} {entry : String × EndpointTemplate HttpId WsId} {name : String}
      (hk : su.templates.entries[k]? = some entry) (h : su.construct entry.1 = .error name) :
      RaisedAt (.adding k) (.construct name)
  | addPending (k : ℕ) (x : Exc) : RaisedAt (.adding k) (.call (.handlerError x))
  | addRoute {k : ℕ} {entry : String × EndpointTemplate HttpId WsId} {err : CallError}
      (hk : su.templates.entries[k]? = some entry) (h : routeOf cfg entry.2 = .error err) :
      RaisedAt (.adding k) (.call err)
  | notSet {k : ℕ} {entry : String × EndpointTemplate HttpId WsId} {name : String}
      (hk : su.templates.entries[k]? = some entry) (h : su.setattr entry.1 = .error name) :
      RaisedAt (.adding k) (.setattr name)

/-- The endpoints are new objects. -/
structure Unused (w : World) : Prop where
  registered : Registered w
  nodup : (EndpointId.http su.ping :: su.templates.entries.map fun entry => endpoint entry.2).Nodup
  ping : w.owner (.http su.ping) = none
  templates : ∀ entry ∈ su.templates.entries, w.owner (endpoint entry.2) = none

end StartUp

def Place.checks : Place → Bool
  | .inside .checking | .raised .checking _ => true
  | _ => false

/-- The routes of the server and its endpoints, grown from those of `w₀`. -/
structure Serves {cfg : Setup} (su : StartUp cfg) (w₀ w : World) (place : Place) : Prop where
  routes : (w.routes su.server).map Except.ok =
    (w₀.routes su.server).map Except.ok ++ su.routesAt place
  others : ∀ t, t ≠ su.server → w.routes t = w₀.routes t
  owner : ∀ e, w.owner e = if e ∈ su.ownedAt place then some su.server else w₀.owner e

/-- What a run has made of the site it started at. -/
structure Reached {cfg : Setup} (su : StartUp cfg) (site₀ site : Site) : Prop where
  serves : Serves su site₀.world site.world site.place
  attributes : site.attributes = su.attributesAt site₀.attributes site.place
  thread : site.threadStarted = (site₀.threadStarted || !site.place.checks)
  once : site₀.threadStarted = true → site.place.checks = true
  error : ∀ p err, site.place = .raised p err → su.RaisedAt p err

/-! ### The calls -/

section Calls

variable {cfg : Setup} {w : World} {s : ServerId} {e : EndpointId}

/-- Adding an endpoint that nobody owns. -/
theorem add_cases (s : ServerId) (rt : Except CallError Route) (howner : w.owner e = none) :
    (∃ x, w.pendingException s = some x ∧
        addEndpoint s e rt w = (.error (.handlerError x), w.setPending s none)) ∨
      (∃ err, rt = .error err ∧ addEndpoint s e rt w = (.error err, w)) ∨
      ∃ r, rt = .ok r ∧ addEndpoint s e rt w =
        (.ok e, (w.setRoutes s (w.routes s ++ [r])).setOwner e (some s)) := by
  cases hx : w.pendingException s with
  | some x => exact Or.inl ⟨x, rfl, addEndpoint_pending rt hx⟩
  | none =>
    have hadd := addEndpoint_apply rt hx (e := e)
    simp only [howner, Option.isSome_none, Bool.false_eq_true, if_false] at hadd
    cases rt with
    | error err => exact Or.inr (Or.inl ⟨err, rfl, hadd⟩)
    | ok r => exact Or.inr (Or.inr ⟨r, rfl, hadd⟩)

/-- Removing an endpoint whose route is the last one. -/
theorem remove_cases {found : Route → Bool} {before : List Route} {rt : Route}
    (howner : w.owner e = some s) (hroutes : w.routes s = before ++ [rt])
    (hbefore : ∀ r ∈ before, found r = false) (hrt : found rt = true) :
    (∃ x, w.pendingException s = some x ∧
        removeEndpoint s e found w = (.error (.handlerError x), w.setPending s none)) ∨
      removeEndpoint s e found w = (.ok (), (w.setRoutes s before).setOwner e none) := by
  cases hx : w.pendingException s with
  | some x => exact Or.inl ⟨x, rfl, removeEndpoint_pending found hx⟩
  | none =>
    have hremove := removeEndpoint_apply found hx (e := e)
    have hindex : (before ++ [rt]).findIdx? found = some before.length := by
      rw [List.findIdx?_append, List.findIdx?_eq_none_iff.mpr hbefore, List.findIdx?_singleton,
        hrt]
      simp
    have herase : (before ++ [rt]).eraseIdx before.length = before := by
      rw [List.eraseIdx_append_of_length_le le_rfl, Nat.sub_self]
      exact List.append_nil before
    rw [hroutes, hindex] at hremove
    simp only [howner, bne_self_eq_false, Bool.false_eq_true, if_false, herase] at hremove
    exact Or.inr hremove

theorem addTemplate_eq (cfg : Setup) (s : ServerId) (template : EndpointTemplate HttpId WsId) :
    addTemplate cfg s template = addEndpoint s (endpoint template) (routeOf cfg template) := by
  cases template <;> rfl

/-- No handler changes who owns what. -/
theorem serveStep_frame (cfg : Setup) (w : World) (ev : Event) :
    HandlerFrame w (serveStep cfg w ev) := by
  rcases step_cases cfg w ev with ⟨c, result, rfl, -, -⟩ | ⟨hnot, hstep⟩
  · exact .refl w
  · cases ev with
    | call c => exact absurd rfl (hnot c)
    | request | sideEffect | body | connect | wsSideEffect => exact hstep.frame

theorem handlerStep_alive {ev : Event} {o : Obs} {v : World} (h : HandlerStep cfg w ev o v) :
    v.serveThreadAlive = w.serveThreadAlive := by
  have hresumed : ∀ {r i t ret o v}, Resumed cfg w r i t ret o v →
      v.serveThreadAlive = w.serveThreadAlive := by
    intro r i t ret o v hv
    cases hv <;> rfl
  have htranscript : ∀ (r : RequestId) (i : WsId),
      (appendTranscript i r (w.requestCaptures (.ws i)) w).serveThreadAlive =
        w.serveThreadAlive := by
    intro r i
    obtain ⟨lists, hlists⟩ := appendTranscript_eq i r (w.requestCaptures (.ws i)) w
    rw [hlists]
  cases h with
  | ignored | unowned | refused | awaiting | dropped | uncaught | disconnected => rfl
  | wsEnded | wsDropped | wsUncaught | raised | wsRaised => rfl
  | responded hr howner hclear hf hv => exact hresumed hv
  | returned hr hv => exact hresumed hv
  | recorded hr hp =>
    rw [appendRecorded_eq]
    rfl
  | wsRefused hr => exact htranscript _ _
  | wsAwaiting hr => exact htranscript _ _

theorem serveStep_alive (cfg : Setup) (w : World) (ev : Event) :
    (serveStep cfg w ev).serveThreadAlive = w.serveThreadAlive := by
  rcases step_cases cfg w ev with ⟨c, result, rfl, -, -⟩ | ⟨hnot, hstep⟩
  · rfl
  · cases ev with
    | call c => exact absurd rfl (hnot c)
    | request | sideEffect | body | connect | wsSideEffect => exact handlerStep_alive hstep

end Calls

/-! ### One step -/

section Growing

variable {cfg : Setup} {su : StartUp cfg} {w₀ w v : World} {place place' : Place}

theorem Serves.congr (h : Serves su w₀ w place) (hroutes : v.routes = w.routes)
    (howner : v.owner = w.owner) (hping : StartUp.pingedAt place' = StartUp.pingedAt place)
    (hadded : su.addedAt place' = su.addedAt place) : Serves su w₀ v place' where
  routes := by
    rw [hroutes, h.routes, StartUp.routesAt, StartUp.routesAt, hping, hadded]
  others t ht := by
    rw [hroutes]
    exact h.others t ht
  owner e := by
    rw [howner, h.owner, StartUp.ownedAt, StartUp.ownedAt, hping, hadded]

theorem Serves.add (h : Serves su w₀ w place) {e : EndpointId} {r : Route}
    (hroutes : su.routesAt place' = su.routesAt place ++ [.ok r])
    (howned : su.ownedAt place' = su.ownedAt place ++ [e]) :
    Serves su w₀ ((w.setRoutes su.server (w.routes su.server ++ [r])).setOwner e (some su.server))
      place' where
  routes := by
    change (Function.update w.routes su.server _ su.server).map Except.ok = _
    rw [Function.update_self, List.map_append, h.routes, hroutes, List.append_assoc]
    rfl
  others t ht := by
    change Function.update w.routes su.server _ t = _
    rw [Function.update_of_ne ht]
    exact h.others t ht
  owner d := by
    change Function.update w.owner e _ d = _
    simp only [howned, List.mem_append, List.mem_singleton]
    by_cases hd : d = e
    · rw [hd, Function.update_self, if_pos (Or.inr rfl)]
    · rw [Function.update_of_ne hd, h.owner]
      exact if_congr (or_iff_left hd).symm rfl rfl

/-- With the ping alone added, its route is the last one. -/
theorem Serves.pinged (h : Serves su w₀ w place) (hping : StartUp.pingedAt place = true)
    (hadded : su.addedAt place = []) :
    ∃ rt, route cfg su.ping = .ok rt ∧ w.routes su.server = w₀.routes su.server ++ [rt] ∧
      w.owner (.http su.ping) = some su.server := by
  have hroutes := h.routes
  rw [StartUp.routesAt, hping, hadded, if_pos rfl, List.map_nil, List.append_nil] at hroutes
  obtain ⟨before, last, heq, hbefore, hlast⟩ := List.map_eq_append_iff.mp hroutes
  have hinj : Function.Injective (Except.ok : Route → Except CallError Route) :=
    fun _ _ => Except.ok.inj
  obtain ⟨rt, rest, rfl, hrt, hrest⟩ := List.map_eq_cons_iff.mp hlast
  rw [List.map_eq_nil_iff] at hrest
  subst hrest
  refine ⟨rt, hrt.symm, ?_, ?_⟩
  · rw [heq, List.map_injective_iff.mpr hinj hbefore]
  · rw [h.owner, StartUp.ownedAt, hping, if_pos rfl, if_pos (by simp)]

theorem Serves.unping (h : Serves su w₀ w place) (hping : StartUp.pingedAt place = true)
    (hadded : su.addedAt place = []) (hunowned : w₀.owner (.http su.ping) = none)
    (hping' : StartUp.pingedAt place' = false) (hadded' : su.addedAt place' = []) :
    Serves su w₀ ((w.setRoutes su.server (w₀.routes su.server)).setOwner (.http su.ping) none)
      place' where
  routes := by
    change (Function.update w.routes su.server _ su.server).map Except.ok = _
    rw [Function.update_self, StartUp.routesAt, hping', hadded']
    simp
  others t ht := by
    change Function.update w.routes su.server _ t = _
    rw [Function.update_of_ne ht]
    exact h.others t ht
  owner d := by
    change Function.update w.owner _ _ d = _
    rw [StartUp.ownedAt, hping', hadded']
    by_cases hd : d = .http su.ping
    · rw [hd, Function.update_self, hunowned]
      simp
    · rw [Function.update_of_ne hd, h.owner, StartUp.ownedAt, hping, hadded]
      simp [hd]

end Growing

section Steps

variable {cfg : Setup} {su : StartUp cfg} {site₀ site : Site} {w : World} {place : Place}

theorem Site.call_ok {α : Type} {p : Point} {act : Act World CallError α} {a : α}
    {next : α → Site → Site} (h : act site.world = (.ok a, w)) :
    site.call p act next = next a (site.setWorld w) := by
  simp only [Site.call, h]

theorem Site.call_error {α : Type} {p : Point} {act : Act World CallError α} {err : CallError}
    {next : α → Site → Site} (h : act site.world = (.error err, w)) :
    site.call p act next = (site.setWorld w).go (.raised p (.call err)) := by
  simp only [Site.call, h]

/-- A step that leaves the endpoints alone. -/
theorem Reached.go (h : Reached su site₀ site) (hroutes : w.routes = site.world.routes)
    (howner : w.owner = site.world.owner)
    (hping : StartUp.pingedAt place = StartUp.pingedAt site.place)
    (hadded : su.addedAt place = su.addedAt site.place)
    (hnamed : su.namedAt place = su.namedAt site.place)
    (hchecks : place.checks = site.place.checks)
    (herror : ∀ p err, place = .raised p err → su.RaisedAt p err) :
    Reached su site₀ ((site.setWorld w).go place) where
  serves := h.serves.congr hroutes howner hping hadded
  attributes := by
    change site.attributes = _
    rw [h.attributes, StartUp.attributesAt, StartUp.attributesAt]
    exact congrArg _ hnamed.symm
  thread := by
    change site.threadStarted = (site₀.threadStarted || !place.checks)
    rw [hchecks]
    exact h.thread
  once hstarted := hchecks.trans (h.once hstarted)
  error := herror

/-- What is raised before a change is made leaves things as they are. -/
theorem Reached.raise {p : Point} {err : StartError} (h : Reached su site₀ site)
    (hplace : site.place = .inside p) (hp : p ≠ .waiting) (hroutes : w.routes = site.world.routes)
    (howner : w.owner = site.world.owner) (herror : su.RaisedAt p err)
    (hearly : ∀ name, err ≠ .setattr name) :
    Reached su site₀ ((site.setWorld w).go (.raised p err)) := by
  have hadded : su.addedAt (.raised p err) = su.addedAt site.place := by
    rw [hplace]
    cases err with
    | setattr name => exact absurd rfl (hearly name)
    | call | retry | construct => cases p <;> rfl
  have herrors : ∀ q e, Place.raised p err = .raised q e → su.RaisedAt q e := by
    rintro q e heq
    cases heq
    exact herror
  cases p with
  | waiting => exact absurd rfl hp
  | checking | entering | leaving | adding =>
    exact h.go hroutes howner (by rw [hplace]; rfl) hadded (by rw [hplace]; rfl)
      (by rw [hplace]; rfl) herrors

theorem checking_reached (h : Reached su site₀ site) (hplace : site.place = .inside .checking)
    (hnew : site.threadStarted = false) :
    Reached su site₀ ((site.startThread su.server).go (.inside .entering)) where
  serves := by
    refine h.serves.congr rfl rfl ?_ ?_ <;> rw [hplace] <;> rfl
  attributes := by
    have hattributes := h.attributes
    rw [hplace] at hattributes
    exact hattributes
  thread := (Bool.or_true site₀.threadStarted).symm
  once hstarted := by
    have hthread := h.thread
    rw [hnew, hstarted] at hthread
    cases hthread
  error := by
    rintro p err ⟨⟩

/-- The ping is not owned yet. -/
theorem Reached.ping_unowned (h : Reached su site₀ site) (hunused : su.Unused site₀.world)
    (hplace : site.place = .inside .entering) : site.world.owner (.http su.ping) = none := by
  rw [h.serves.owner, hplace, hunused.ping]
  rfl

theorem take_succ {k : ℕ} {entry : String × EndpointTemplate HttpId WsId}
    (hk : su.templates.entries[k]? = some entry) :
    su.templates.entries.take (k + 1) = su.templates.entries.take k ++ [entry] := by
  rw [List.take_add_one, hk]
  rfl

/-- The templates come with endpoints of their own. -/
theorem Reached.template_unowned (h : Reached su site₀ site) (hunused : su.Unused site₀.world)
    {k : ℕ} (hplace : site.place = .inside (.adding k))
    {entry : String × EndpointTemplate HttpId WsId} (hk : su.templates.entries[k]? = some entry) :
    site.world.owner (endpoint entry.2) = none := by
  have hnodup := (List.nodup_cons.mp hunused.nodup).2
  have hsplit := List.take_append_drop (k + 1) su.templates.entries
  rw [take_succ hk] at hsplit
  rw [← hsplit, List.map_append, List.map_append] at hnodup
  have hnew := List.nodup_append.mp (List.nodup_append.mp hnodup).1
  rw [h.serves.owner, hplace, if_neg]
  · exact hunused.templates entry (List.mem_of_getElem? hk)
  · intro hmem
    exact hnew.2.2 _ hmem _ (List.mem_singleton_self _) rfl

/-- Taking the ping out finds its route, which is the last one, or raises what is pending. -/
theorem Reached.ping_leaves (h : Reached su site₀ site) (hunused : su.Unused site₀.world)
    {retried : Except String Unit} (hplace : site.place = .inside (.leaving retried)) :
    (∃ x, site.world.pendingException su.server = some x ∧
        removeHttpEndpoint su.server su.ping site.world =
          (.error (.handlerError x), site.world.setPending su.server none)) ∨
      removeHttpEndpoint su.server su.ping site.world =
        (.ok (), (site.world.setRoutes su.server (site₀.world.routes su.server)).setOwner
          (.http su.ping) none) := by
  have hping : StartUp.pingedAt site.place = true := by rw [hplace]; rfl
  have hadded : su.addedAt site.place = [] := by rw [hplace]; rfl
  obtain ⟨rt, hrt, hroutes, howner⟩ := h.serves.pinged hping hadded
  have hbefore : ∀ r ∈ site₀.world.routes su.server, r.isRouteOf su.ping = false := by
    intro r hr
    have hcount := hunused.registered su.server (.http su.ping)
    rw [hunused.ping, if_neg (by simp), routeCount, List.countP_eq_zero] at hcount
    have htarget := hcount r hr
    rw [decide_eq_true_iff, ← Route.isRouteOf_iff] at htarget
    exact Bool.eq_false_of_not_eq_true htarget
  have hlast : rt.isRouteOf su.ping = true :=
    (Route.isRouteOf_iff su.ping rt).mpr (route_target hrt)
  exact remove_cases howner hroutes hbefore hlast

theorem entering_reached (hunused : su.Unused site₀.world) (h : Reached su site₀ site)
    (hplace : site.place = .inside .entering) :
    Reached su site₀ (site.call .entering (addHttpEndpoint cfg su.server su.ping)
      fun _ site => site.go (.inside .waiting)) := by
  have howner := h.ping_unowned hunused hplace
  change Reached su site₀
    (site.call .entering (addEndpoint su.server (.http su.ping) (route cfg su.ping)) _)
  rcases add_cases su.server (route cfg su.ping) howner with ⟨x, -, hcall⟩ | ⟨err, hrt, hcall⟩ |
    ⟨rt, hrt, hcall⟩
  · rw [Site.call_error hcall]
    exact h.raise hplace Point.noConfusion rfl rfl (.pingPending x) fun _ => StartError.noConfusion
  · rw [Site.call_error hcall]
    exact h.raise hplace Point.noConfusion rfl rfl (.pingRoute hrt) fun _ => StartError.noConfusion
  · rw [Site.call_ok hcall]
    have hattributes := h.attributes
    have hthread := h.thread
    have honce := h.once
    rw [hplace] at hattributes hthread honce
    refine ⟨h.serves.add ?_ ?_, hattributes, hthread, honce, ?_⟩
    · rw [hplace, ← hrt]
      rfl
    · rw [hplace]
      rfl
    · rintro p err ⟨⟩

theorem leaving_reached (hunused : su.Unused site₀.world) (h : Reached su site₀ site)
    {retried : Except String Unit} (hplace : site.place = .inside (.leaving retried)) :
    Reached su site₀ (site.call (.leaving retried) (removeHttpEndpoint su.server su.ping)
      fun _ site => site.go (afterPing retried)) := by
  have hping : StartUp.pingedAt site.place = true := by rw [hplace]; rfl
  have hadded : su.addedAt site.place = [] := by rw [hplace]; rfl
  rcases h.ping_leaves hunused hplace with ⟨x, -, hcall⟩ | hcall
  · rw [Site.call_error hcall]
    exact h.raise hplace Point.noConfusion rfl rfl (.leftPending retried x)
      fun _ => StartError.noConfusion
  · rw [Site.call_ok hcall]
    have hattributes := h.attributes
    have hthread := h.thread
    have honce := h.once
    rw [hplace] at hattributes hthread honce
    have hplaces : StartUp.pingedAt (afterPing retried) = false ∧
        su.addedAt (afterPing retried) = [] ∧ su.namedAt (afterPing retried) = [] ∧
        (afterPing retried).checks = false := by
      cases retried <;> exact ⟨rfl, rfl, rfl, rfl⟩
    obtain ⟨hpinged', hadded', hnamed', hchecks⟩ := hplaces
    refine ⟨h.serves.unping hping hadded hunused.ping hpinged' hadded', ?_, ?_,
      fun hstarted => hchecks.trans (honce hstarted), ?_⟩
    · change site.attributes = su.attributesAt site₀.attributes (afterPing retried)
      rw [StartUp.attributesAt, hnamed']
      exact hattributes
    · change site.threadStarted = (site₀.threadStarted || !(afterPing retried).checks)
      rw [hchecks]
      exact hthread
    · intro p err herr
      cases retried with
      | ok => cases herr
      | error name =>
        cases herr
        exact .notReached name

theorem adding_reached (hunused : su.Unused site₀.world) (h : Reached su site₀ site) {k : ℕ}
    (hplace : site.place = .inside (.adding k)) {entry : String × EndpointTemplate HttpId WsId}
    (hk : su.templates.entries[k]? = some entry) : Reached su site₀ (site.round su k entry) := by
  have howner := h.template_unowned hunused hplace hk
  rw [Site.round]
  split
  · rename_i name hconstruct
    exact h.raise (w := site.world) hplace Point.noConfusion rfl rfl
      (.notConstructed hk hconstruct) fun _ => StartError.noConfusion
  · rw [addTemplate_eq]
    rcases add_cases su.server (routeOf cfg entry.2) howner with ⟨x, -, hcall⟩ | ⟨err, hrt, hcall⟩ |
      ⟨rt, hrt, hcall⟩
    · rw [Site.call_error hcall]
      exact h.raise hplace Point.noConfusion rfl rfl (.addPending k x)
        fun _ => StartError.noConfusion
    · rw [Site.call_error hcall]
      exact h.raise hplace Point.noConfusion rfl rfl (.addRoute hk hrt)
        fun _ => StartError.noConfusion
    · rw [Site.call_ok hcall]
      have htake := take_succ hk
      -- the endpoint is added, whether or not its attribute can be set
      have hserves : ∀ place', StartUp.pingedAt place' = false →
          su.addedAt place' = su.templates.entries.take (k + 1) →
          Serves su site₀.world ((site.world.setRoutes su.server
            (site.world.routes su.server ++ [rt])).setOwner (endpoint entry.2) (some su.server))
            place' := by
        intro place' hpinged hadded
        refine h.serves.add ?_ ?_
        · rw [StartUp.routesAt, StartUp.routesAt, hplace, hpinged, hadded, htake, List.map_append,
            ← hrt]
          rfl
        · rw [StartUp.ownedAt, StartUp.ownedAt, hplace, hpinged, hadded, htake, List.map_append]
          rfl
      have hattributes := h.attributes
      have hthread := h.thread
      have honce := h.once
      rw [hplace] at hattributes hthread honce
      split
      · rename_i name hset
        refine ⟨hserves _ rfl rfl, hattributes, hthread, honce, ?_⟩
        rintro p err ⟨⟩
        exact .notSet hk hset
      · refine ⟨hserves _ rfl rfl, ?_, hthread, honce, ?_⟩
        · change site.attributes.set entry.1 (endpoint entry.2) =
            (su.templates.entries.take (k + 1)).foldl _ _
          rw [htake, List.foldl_append, hattributes]
          rfl
        · rintro p err ⟨⟩

theorem mainStep_reached (hunused : su.Unused site₀.world) (retried : Except String Unit)
    (h : Reached su site₀ site) : Reached su site₀ (mainStep cfg su retried site) := by
  rw [mainStep]
  split
  · exact h
  · exact h
  · rename_i hplace
    split_ifs with halive hstarted
    · exact h.raise hplace Point.noConfusion rfl rfl .aliveAlready fun _ => StartError.noConfusion
    · exact h.raise hplace Point.noConfusion rfl rfl .startedAlready
        fun _ => StartError.noConfusion
    · exact checking_reached h hplace (Bool.eq_false_of_not_eq_true hstarted)
  · rename_i hplace
    exact entering_reached hunused h hplace
  · rename_i hplace
    refine h.go rfl rfl ?_ ?_ ?_ ?_ ?_
    · rw [hplace]; rfl
    · rw [hplace]; rfl
    · rw [hplace]; rfl
    · rw [hplace]; rfl
    · rintro p err ⟨⟩
  · rename_i retried' hplace
    exact leaving_reached hunused h hplace
  · rename_i k hplace
    split
    · rename_i hk
      have hentries : su.templates.entries.take k = su.templates.entries :=
        List.take_of_length_le (List.getElem?_eq_none_iff.mp hk)
      refine h.go rfl rfl ?_ ?_ ?_ ?_ ?_
      · rw [hplace]; rfl
      · rw [hplace]; exact hentries.symm
      · rw [hplace]; exact hentries.symm
      · rw [hplace]; rfl
      · rintro p err ⟨⟩
    · rename_i entry hk
      exact adding_reached hunused h hplace hk

/-! ### A run -/

theorem startStep_reached (hunused : su.Unused site₀.world) (ev : StartEvent)
    (h : Reached su site₀ site) : Reached su site₀ (startStep cfg su site ev).1 := by
  have hstays : ∀ w, w.routes = site.world.routes → w.owner = site.world.owner →
      Reached su site₀ (site.setWorld w) := fun w hroutes howner =>
    ⟨h.serves.congr hroutes howner rfl rfl, h.attributes, h.thread, h.once, h.error⟩
  cases ev with
  | main retried => exact mainStep_reached hunused retried h
  | serve ev =>
    have hframe := serveStep_frame cfg site.world ev
    exact hstays _ hframe.routes hframe.owner
  | threadEnds => exact hstays _ rfl rfl

/-- The main thread's steps that are still to come. -/
def remaining (su : StartUp cfg) : Place → ℕ
  | .inside .checking => su.templates.entries.length + 5
  | .inside .entering => su.templates.entries.length + 4
  | .inside .waiting => su.templates.entries.length + 3
  | .inside (.leaving _) => su.templates.entries.length + 2
  | .inside (.adding k) => su.templates.entries.length - k + 1
  | .returned | .raised _ _ => 0

theorem Site.call_remaining {α : Type} {p : Point} {act : Act World CallError α}
    {next : α → Site → Site} {n : ℕ}
    (h : ∀ a w, remaining su (next a (site.setWorld w)).place ≤ n) :
    remaining su (site.call p act next).place ≤ n := by
  rcases hcall : act site.world with ⟨err | a, w⟩
  · rw [Site.call_error hcall]
    exact Nat.zero_le n
  · rw [Site.call_ok hcall]
    exact h a w

theorem round_remaining {k : ℕ} {entry : String × EndpointTemplate HttpId WsId}
    (hk : su.templates.entries[k]? = some entry) :
    remaining su (site.round su k entry).place ≤ su.templates.entries.length - k := by
  have hlt := (List.getElem?_eq_some_iff.mp hk).1
  rw [Site.round]
  split
  · exact Nat.zero_le _
  · refine Site.call_remaining fun _ _ => ?_
    split
    · exact Nat.zero_le _
    · change su.templates.entries.length - (k + 1) + 1 ≤ _
      omega

theorem mainStep_remaining (su : StartUp cfg) (site : Site) (retried : Except String Unit) :
    remaining su (mainStep cfg su retried site).place ≤ remaining su site.place - 1 := by
  rw [mainStep]
  split
  · rename_i hplace
    rw [hplace]
    exact le_rfl
  · rename_i hplace
    rw [hplace]
    exact le_rfl
  · rename_i hplace
    rw [hplace]
    split_ifs
    · exact Nat.zero_le _
    · exact Nat.zero_le _
    · exact le_rfl
  · rename_i hplace
    rw [hplace]
    exact Site.call_remaining fun _ _ => le_rfl
  · rename_i hplace
    rw [hplace]
    exact le_rfl
  · rename_i retried' hplace
    rw [hplace]
    refine Site.call_remaining fun _ _ => ?_
    cases retried' with
    | ok => exact le_rfl
    | error => exact Nat.zero_le _
  · rename_i k hplace
    rw [hplace]
    split
    · exact Nat.zero_le _
    · rename_i entry hk
      exact round_remaining hk

def StartEvent.isMain : StartEvent → Bool
  | .main _ => true
  | .serve _ | .threadEnds => false

theorem exec_remaining (su : StartUp cfg) (site : Site) (evs : List StartEvent) :
    remaining su (exec (startStep cfg su) site evs).place ≤
      remaining su site.place - evs.countP StartEvent.isMain := by
  induction evs generalizing site with
  | nil => exact le_rfl
  | cons ev evs ih =>
    have hrest := ih (startStep cfg su site ev).1
    rw [exec_cons, List.countP_cons]
    cases ev with
    | main retried =>
      have hstep := mainStep_remaining su site retried
      change remaining su (exec (startStep cfg su) (mainStep cfg su retried site) evs).place ≤ _
      change remaining su (exec (startStep cfg su) (mainStep cfg su retried site) evs).place ≤
        remaining su (mainStep cfg su retried site).place - _ at hrest
      simp only [StartEvent.isMain, if_true]
      omega
    | serve | threadEnds => exact hrest

def Place.over : Place → Bool
  | .returned | .raised _ _ => true
  | .inside _ => false

theorem over_of_remaining (su : StartUp cfg) (h : remaining su place = 0) : place.over = true := by
  cases place with
  | returned | raised => rfl
  | inside p => cases p <;> cases h

/-! ### A quiet run -/

/-- At its steps the main thread finds no exception pending, and the retries succeed. -/
def Quiet (su : StartUp cfg) (site : Site) : StartEvent → Prop
  | .main retried => site.world.pendingException su.server = none ∧ retried = .ok ()
  | .serve _ | .threadEnds => True

/-- The endpoints can be constructed, routed and set. -/
structure Usable (su : StartUp cfg) : Prop where
  ping : ∃ rt, route cfg su.ping = .ok rt
  templates : ∀ entry ∈ su.templates.entries, su.construct entry.1 = .ok () ∧
    (∃ rt, routeOf cfg entry.2 = .ok rt) ∧ su.setattr entry.1 = .ok ()

/-- Nothing has been raised, and nothing is on its way out. -/
def Place.fine : Place → Bool
  | .raised _ _ | .inside (.leaving (.error _)) => false
  | _ => true

/-- The server thread is still to be started, where that comes next. -/
def Startable (su : StartUp cfg) (site : Site) : Prop :=
  site.place = .inside .checking → site.world.serveThreadAlive su.server = false ∧
    site.threadStarted = false

theorem mainStep_fine (hunused : su.Unused site₀.world) (husable : Usable su)
    (h : Reached su site₀ site) (hpending : site.world.pendingException su.server = none)
    (hstartable : Startable su site) (hfine : site.place.fine = true) :
    (mainStep cfg su (.ok ()) site).place.fine = true := by
  have hnothing : ∀ x, site.world.pendingException su.server ≠ some x := by
    intro x hx
    rw [hpending] at hx
    cases hx
  rw [mainStep]
  split
  · exact hfine
  · exact hfine
  · rename_i hplace
    obtain ⟨halive, hnew⟩ := hstartable hplace
    rw [halive, hnew, if_neg Bool.false_ne_true, if_neg Bool.false_ne_true]
    rfl
  · rename_i hplace
    obtain ⟨r, hr⟩ := husable.ping
    rcases add_cases su.server (route cfg su.ping) (h.ping_unowned hunused hplace) with
      ⟨x, hx, -⟩ | ⟨err, hrt, -⟩ | ⟨rt, -, hcall⟩
    · exact absurd hx (hnothing x)
    · rw [hr] at hrt
      cases hrt
    · have hadd : addHttpEndpoint cfg su.server su.ping site.world = _ := hcall
      rw [Site.call_ok hadd]
      rfl
  · rfl
  · rename_i retried hplace
    rw [hplace] at hfine
    cases retried with
    | error => cases hfine
    | ok =>
      rcases h.ping_leaves hunused hplace with ⟨x, hx, -⟩ | hcall
      · exact absurd hx (hnothing x)
      · rw [Site.call_ok hcall]
        rfl
  · rename_i k hplace
    split
    · rfl
    · rename_i entry hk
      obtain ⟨hconstruct, ⟨r, hr⟩, hset⟩ := husable.templates entry (List.mem_of_getElem? hk)
      simp only [Site.round, hconstruct, hset]
      rw [addTemplate_eq]
      rcases add_cases su.server (routeOf cfg entry.2) (h.template_unowned hunused hplace hk) with
        ⟨x, hx, -⟩ | ⟨err, hrt, -⟩ | ⟨rt, -, hcall⟩
      · exact absurd hx (hnothing x)
      · rw [hr] at hrt
        cases hrt
      · rw [Site.call_ok hcall]
        rfl

/-- The main thread does not come back to its first point. -/
theorem mainStep_checking (su : StartUp cfg) (site : Site) (retried : Except String Unit) :
    (mainStep cfg su retried site).place ≠ .inside .checking := by
  intro h
  have hrank := mainStep_remaining su site retried
  have hbound : remaining su site.place ≤ su.templates.entries.length + 5 := by
    cases site.place with
    | inside p => cases p <;> simp only [remaining] <;> omega
    | returned | raised => exact Nat.zero_le _
  rw [h] at hrank
  change su.templates.entries.length + 5 ≤ _ at hrank
  omega

theorem exec_fine (hunused : su.Unused site₀.world) (husable : Usable su)
    (h₀ : Reached su site₀ site) (hstartable : Startable su site) (hfine : site.place.fine = true)
    {evs : List StartEvent} (hquiet : Along (startStep cfg su) (Quiet su) site evs) :
    (exec (startStep cfg su) site evs).place.fine = true := by
  have hrun := exec_invariant_along (startStep cfg su) (Quiet su)
    (fun site => Reached su site₀ site ∧ Startable su site ∧ site.place.fine = true)
    (fun site ev hev ⟨h, hstartable, hfine⟩ => by
      refine ⟨startStep_reached hunused ev h, ?_, ?_⟩
      · cases ev with
        | main retried => exact fun hplace => absurd hplace (mainStep_checking su site retried)
        | serve ev =>
          intro hplace
          have hbefore := hstartable hplace
          refine ⟨?_, hbefore.2⟩
          change (serveStep cfg site.world ev).serveThreadAlive su.server = false
          rw [serveStep_alive]
          exact hbefore.1
        | threadEnds =>
          intro hplace
          exact ⟨Function.update_self .., (hstartable hplace).2⟩
      · cases ev with
        | main retried =>
          obtain ⟨hpending, rfl⟩ := hev
          exact mainStep_fine hunused husable h hpending hstartable hfine
        | serve | threadEnds => exact hfine)
    hquiet ⟨h₀, hstartable, hfine⟩
  exact hrun.2.2

end Steps

/-- In every run of `start`, and wherever the main thread is in it: the routes of the
server are those it had, then that of the ping from its entry until it is taken out,
and then those of the class up to here, in their order; the same holds of the owners and
of the attributes. What is raised is an exception that was pending, what the retries end
with, an error of a route, or what constructing an endpoint or setting its attribute
raises, and it leaves all that at the point where it is raised. A thread that was started
before is not started again. `start` ends after as many steps as it has calls, and if
nothing goes wrong it returns. -/
theorem start_spec (cfg : Setup) (su : StartUp cfg) (site₀ site : Site) (evs : List StartEvent)
    (hplace : site₀.place = .inside .checking) (hunused : su.Unused site₀.world)
    (hsite : site = exec (startStep cfg su) site₀ evs) :
    Reached su site₀ site ∧
    (su.templates.entries.length + 5 ≤ evs.countP StartEvent.isMain → site.place.over = true) ∧
    (Usable su → Startable su site₀ → Along (startStep cfg su) (Quiet su) site₀ evs →
      site.place.over = true → site.place = .returned) := by
  have hreached₀ : Reached su site₀ site₀ := by
    refine ⟨⟨?_, fun _ _ => rfl, fun e => ?_⟩, ?_, ?_, ?_, ?_⟩
    · rw [hplace]
      exact (List.append_nil _).symm
    · rw [hplace]
      rfl
    · rw [hplace]
      rfl
    · rw [hplace]
      exact (Bool.or_false _).symm
    · rw [hplace]
      exact fun _ => rfl
    · intro p err herr
      rw [hplace] at herr
      cases herr
  subst hsite
  refine ⟨?_, fun hmain => ?_, fun husable hstartable hquiet hover => ?_⟩
  · exact exec_invariant (startStep cfg su) (Reached su site₀)
      (fun _ ev h => startStep_reached hunused ev h) evs hreached₀
  · have hrank := exec_remaining su site₀ evs
    rw [hplace] at hrank
    change _ ≤ su.templates.entries.length + 5 - _ at hrank
    exact over_of_remaining su (by omega)
  · have hfine₀ : site₀.place.fine = true := by
      rw [hplace]
      rfl
    have hfine := exec_fine hunused husable hreached₀ hstartable hfine₀ hquiet
    generalize (exec (startStep cfg su) site₀ evs).place = place at hover hfine
    cases place with
    | returned => rfl
    | inside p => cases hover
    | raised p err => cases hfine

/-- Object `0` is the ping, and every other endpoint is a plain one. -/
def Setup.pinged : Setup :=
  { Setup.plain with http := fun i => if i = 0 then pingEndpoint else Setup.plain.http i }

def twoTemplates : Templates HttpId WsId where
  entries := [("hello", .http 1), ("chat", .ws 0)]
  nodup := by decide

def twoEndpoints : StartUp Setup.pinged :=
  ⟨0, 0, twoTemplates, fun _ => .ok (), fun _ => .ok (), rfl⟩

def unstarted : Site where
  world := (World.new fun _ => .response ⟨200, ""⟩).setAlive 0 false
  threadStarted := false
  attributes := Dict.empty
  place := .inside .checking

/-- The ping is requested while the main thread retries. -/
theorem start_spec_two : ∃ site, site.place = .returned ∧
    site = exec (startStep Setup.pinged twoEndpoints) unstarted
      [.main (.ok ()), .main (.ok ()), .serve (.request 7 0 1), .main (.ok ()), .main (.ok ()),
        .serve (.body 7 true), .main (.ok ()), .main (.ok ()), .main (.ok ())] ∧
    Reached twoEndpoints unstarted site := by
  have hunused : twoEndpoints.Unused unstarted.world := by
    refine ⟨registered_of_fresh ?_, by decide, rfl, fun _ _ => rfl⟩
    exact ⟨fun _ => rfl, fun _ => rfl, fun _ => rfl, fun _ => rfl, fun _ _ => rfl, fun _ => rfl⟩
  have hspec := start_spec Setup.pinged twoEndpoints unstarted _
    [.main (.ok ()), .main (.ok ()), .serve (.request 7 0 1), .main (.ok ()), .main (.ok ()),
      .serve (.body 7 true), .main (.ok ()), .main (.ok ()), .main (.ok ())] rfl hunused rfl
  have husable : Usable twoEndpoints := by
    refine ⟨⟨_, rfl⟩, fun entry hentry => ?_⟩
    rcases List.mem_pair.mp hentry with rfl | rfl
    · exact ⟨rfl, ⟨_, rfl⟩, rfl⟩
    · exact ⟨rfl, ⟨_, rfl⟩, rfl⟩
  refine ⟨_, hspec.2.2 husable (fun _ => ⟨rfl, rfl⟩) ?_ (hspec.2.1 (by decide)), rfl, hspec.1⟩
  exact ⟨⟨rfl, rfl⟩, ⟨rfl, rfl⟩, trivial, ⟨rfl, rfl⟩, ⟨rfl, rfl⟩, trivial, ⟨rfl, rfl⟩,
    ⟨rfl, rfl⟩, ⟨rfl, rfl⟩, trivial⟩

end Yellowbox.Starting
