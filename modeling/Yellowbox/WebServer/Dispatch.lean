import Yellowbox.WebServer.Registration

/-!
Which endpoint a request comes to. Starlette goes through the routes of a server, so what
answers depends on the order in which the endpoints were added, on what was removed
meanwhile, and on the methods that `route` gives to a route.
-/
namespace Yellowbox.Dispatch

open StepRuns WebServerState WebServerCalls WebServerHandlers WebServerSteps
open WebServerCallSteps WebServerHandlerSteps Registration

/-! ### The router of starlette -/

inductive Scope
  | http (method path : String)
  | webSocket (path : String)
  deriving DecidableEq

inductive Match
  | no
  | pathOnly
  | full
  deriving DecidableEq

/-- Where no path fits, starlette answers by itself. -/
inductive Answer
  | endpoint (e : EndpointId)
  | methodNotAllowed
  | unrouted
  deriving DecidableEq

/-- `route.matches(scope)`; `compiled` tells whether a path fits a rule string. A route
without methods matches every method. -/
def routeMatches (compiled : String → String → Bool) : Scope → Route → Match
  | .http method path, .route _ ruleString _ methods =>
    if !compiled ruleString path then .no
    else if !methods.isEmpty && method ∉ methods then .pathOnly
    else .full
  | .webSocket path, .webSocketRoute _ ruleString _ =>
    if compiled ruleString path then .full else .no
  | .http _ _, .webSocketRoute _ _ _ | .webSocket _, .route _ _ _ _ => .no

/-- What is known of the router: the first route that matches handles the request, and
where only paths fit the method is refused. -/
structure RoutesInOrder (compiled : String → String → Bool)
    (router : List Route → Scope → Answer) : Prop where
  full : ∀ {routes scope before rt after}, routes = before ++ rt :: after →
    routeMatches compiled scope rt = .full →
    (∀ rt' ∈ before, routeMatches compiled scope rt' ≠ .full) →
    router routes scope = .endpoint rt.target
  pathOnly : ∀ {routes scope rt}, (∀ rt' ∈ routes, routeMatches compiled scope rt' ≠ .full) →
    rt ∈ routes → routeMatches compiled scope rt = .pathOnly →
    router routes scope = .methodNotAllowed
  no : ∀ {routes scope}, (∀ rt ∈ routes, routeMatches compiled scope rt = .no) →
    router routes scope = .unrouted

/-- A router that goes through the routes with the first whose path fits in hand. -/
def loopRouter (compiled : String → String → Bool) (scope : Scope) :
    Answer → List Route → Answer
  | seen, [] => seen
  | seen, rt :: routes =>
    match routeMatches compiled scope rt with
    | .full => .endpoint rt.target
    | .pathOnly => loopRouter compiled scope .methodNotAllowed routes
    | .no => loopRouter compiled scope seen routes

section LoopRouter

variable {compiled : String → String → Bool} {scope : Scope}

theorem loopRouter_of_no {routes : List Route} (seen : Answer)
    (h : ∀ rt ∈ routes, routeMatches compiled scope rt = .no) :
    loopRouter compiled scope seen routes = seen := by
  induction routes with
  | nil => rfl
  | cons rt routes ih =>
    obtain ⟨hrt, hroutes⟩ := List.forall_mem_cons.mp h
    rw [loopRouter, hrt]
    exact ih hroutes

theorem loopRouter_of_pathOnly {routes : List Route} {seen : Answer}
    (h : ∀ rt ∈ routes, routeMatches compiled scope rt ≠ .full)
    (hpath : seen = .methodNotAllowed ∨
      ∃ rt ∈ routes, routeMatches compiled scope rt = .pathOnly) :
    loopRouter compiled scope seen routes = .methodNotAllowed := by
  induction routes generalizing seen with
  | nil => exact hpath.resolve_right fun ⟨_, hmem, _⟩ => absurd hmem List.not_mem_nil
  | cons rt routes ih =>
    obtain ⟨hrt, hroutes⟩ := List.forall_mem_cons.mp h
    rw [loopRouter]
    cases hkind : routeMatches compiled scope rt with
    | full => exact absurd hkind hrt
    | pathOnly => exact ih hroutes (.inl rfl)
    | no =>
      refine ih hroutes (hpath.imp_right fun ⟨rt', hmem, hrt'⟩ => ⟨rt', ?_, hrt'⟩)
      refine (List.mem_cons.mp hmem).resolve_left ?_
      rintro rfl
      rw [hkind] at hrt'
      cases hrt'

theorem loopRouter_of_full {before after : List Route} {rt : Route} (seen : Answer)
    (hrt : routeMatches compiled scope rt = .full)
    (hbefore : ∀ rt' ∈ before, routeMatches compiled scope rt' ≠ .full) :
    loopRouter compiled scope seen (before ++ rt :: after) = .endpoint rt.target := by
  induction before generalizing seen with
  | nil => rw [List.nil_append, loopRouter, hrt]
  | cons rt' before ih =>
    obtain ⟨hrt', hrest⟩ := List.forall_mem_cons.mp hbefore
    rw [List.cons_append, loopRouter]
    cases hkind : routeMatches compiled scope rt' with
    | full => exact absurd hkind hrt'
    | pathOnly => exact ih _ hrest
    | no => exact ih _ hrest

theorem loopRouter_inOrder (compiled : String → String → Bool) :
    RoutesInOrder compiled fun routes scope => loopRouter compiled scope .unrouted routes where
  full := by
    rintro routes scope before rt after rfl hrt hbefore
    exact loopRouter_of_full _ hrt hbefore
  pathOnly := fun hnone hmem hrt => loopRouter_of_pathOnly hnone (.inr ⟨_, hmem, hrt⟩)
  no := fun hno => loopRouter_of_no _ hno

end LoopRouter

/-! ### What is registered -/

inductive Change
  | add (s : ServerId) (e : EndpointId)
  | remove (s : ServerId) (e : EndpointId)

/-- The change of what is registered that a step makes, if it is a call that returns. -/
def registration (cfg : Setup) (w : World) : Event → Option Change
  | .call c =>
    if (step cfg w (.call c)).2 = .returned then
      ((adds c).map fun p => .add p.1 p.2).or ((removes c).map fun p => .remove p.1 p.2)
    else none
  | _ => none

/-- The endpoints of each server, in the order in which they were added. -/
def register (endpoints : ServerId → List EndpointId) :
    Change → ServerId → List EndpointId
  | .add s e => Function.update endpoints s (endpoints s ++ [e])
  | .remove s e => Function.update endpoints s ((endpoints s).erase e)

def registered (cfg : Setup) (w : World) (evs : List Event) : ServerId → List EndpointId :=
  (visible (step cfg) (registration cfg) w evs).foldl register fun _ => []

/-! ### What an endpoint answers -/

/-- The endpoint is of the kind of the request, and the path fits its rule. -/
def FitsPath (cfg : Setup) (compiled : String → String → Bool) : Scope → EndpointId → Prop
  | .http _ path, .http i => compiled (cfg.http i).ruleString path = true
  | .webSocket path, .ws i => compiled (cfg.ws i).ruleString path = true
  | .http _ _, .ws _ | .webSocket _, .http _ => False

/-- HEAD is among the methods, or comes with GET where that is not forbidden. -/
def AllowsMethod (ep : MockHTTPEndpoint) (method : String) : Prop :=
  ep.methods = [] ∨ method ∈ ep.methods ∨
    method = "HEAD" ∧ "GET" ∈ ep.methods ∧ ep.forbidImplicitHeadVerb = false

def Accepts (cfg : Setup) (compiled : String → String → Bool) (scope : Scope) (e : EndpointId) :
    Prop :=
  FitsPath cfg compiled scope e ∧
    match scope, e with
    | .http method _, .http i => AllowsMethod (cfg.http i) method
    | _, _ => True

/-- What answers a request to a server with these endpoints, in the order in which they
were added: the first that accepts it. -/
inductive Answers (cfg : Setup) (compiled : String → String → Bool) (endpoints : List EndpointId)
    (scope : Scope) : Answer → Prop
  | endpoint {before after : List EndpointId} {e : EndpointId}
      (hsplit : endpoints = before ++ e :: after) (haccepts : Accepts cfg compiled scope e)
      (hbefore : ∀ d ∈ before, ¬Accepts cfg compiled scope d) :
      Answers cfg compiled endpoints scope (.endpoint e)
  | methodNotAllowed (hnone : ∀ d ∈ endpoints, ¬Accepts cfg compiled scope d)
      (hfits : ∃ d ∈ endpoints, FitsPath cfg compiled scope d) :
      Answers cfg compiled endpoints scope .methodNotAllowed
  | unrouted (hnone : ∀ d ∈ endpoints, ¬FitsPath cfg compiled scope d) :
      Answers cfg compiled endpoints scope .unrouted

/-! ### The routes are the registrations -/

section Registered

variable {cfg : Setup} {w v : World} {c : Call}

/-- What a call that returns makes of the routes. -/
inductive RoutesAfter (w : World) (c : Call) : (ServerId → List Route) → Prop
  | added {s : ServerId} {e : EndpointId} {rt : Route} (hc : adds c = some (s, e))
      (hrt : rt.target = e) : RoutesAfter w c (Function.update w.routes s (w.routes s ++ [rt]))
  | removed {s : ServerId} {e : EndpointId} {i : ℕ} (hc : removes c = some (s, e))
      (hfound : (w.routes s).findIdx? (fun rt => decide (rt.target = e)) = some i) :
      RoutesAfter w c (Function.update w.routes s ((w.routes s).eraseIdx i))
  | same (hadds : adds c = none) (hremoves : removes c = none) : RoutesAfter w c w.routes

theorem routesAfter_of_returned (h : CallStep cfg w c (.ok ()) v) : RoutesAfter w c v.routes := by
  cases h with
  | entered hclear hv =>
    cases hv with
    | add hc howner hrt => exact .added hc hrt
    | remove hc howner hfound => exact .removed hc hfound
    | patch | captureHttp | captureWs | isAlive | noPatch => exact .same rfl rfl
  | exited hclear hv => cases hv <;> exact .same rfl rfl

def targets (w : World) (s : ServerId) : List EndpointId := (w.routes s).map Route.target

theorem map_update (f : ServerId → List Route) (s : ServerId) (l : List Route) :
    (fun t => (Function.update f s l t).map Route.target) =
      Function.update (fun t => (f t).map Route.target) s (l.map Route.target) := by
  funext t
  by_cases ht : t = s
  · subst ht
    rw [Function.update_self, Function.update_self]
  · rw [Function.update_of_ne ht, Function.update_of_ne ht]

theorem map_eraseIdx_found {e : EndpointId} {l : List Route} {i : ℕ}
    (h : l.findIdx? (fun rt => decide (rt.target = e)) = some i) :
    (l.eraseIdx i).map Route.target = (l.map Route.target).erase e := by
  have herase : l.eraseP (fun rt => decide (rt.target = e)) = l.eraseIdx i := by
    rw [List.eraseP_eq_eraseIdx, h]
  rw [← herase, List.erase_eq_eraseP, List.eraseP_map]
  congr 2
  funext rt
  exact Bool.eq_iff_iff.mpr (decide_eq_true_iff.trans (eq_comm.trans beq_iff_eq.symm))

theorem targets_step (cfg : Setup) (w : World) (ev : Event) :
    targets (step cfg w ev).1 =
      ((registration cfg w ev).map (register (targets w))).getD (targets w) := by
  rcases step_cases cfg w ev with ⟨c, result, rfl, hcall, hobs⟩ | ⟨hnot, hhandler⟩
  · cases result with
    | error err =>
      have hroutes := (raised_registration hcall).1
      rw [registration, hobs, if_neg (by simp [callObs])]
      funext s
      rw [targets, hroutes]
      rfl
    | ok u =>
      rw [registration, hobs, if_pos (callObs_returned.mpr rfl)]
      have hafter := routesAfter_of_returned hcall
      generalize hroutes : (step cfg w (.call c)).1.routes = routes at hafter
      have htargets : targets (step cfg w (.call c)).1 =
          fun s => (routes s).map Route.target := by
        funext s
        rw [targets, hroutes]
      rw [htargets]
      cases hafter with
      | added hc hrt =>
        rw [hc, map_update, List.map_append, List.map_singleton, hrt]
        rfl
      | removed hc hfound =>
        rw [adds_of_removes hc, hc, map_update, map_eraseIdx_found hfound]
        rfl
      | same hadds hremoves =>
        rw [hadds, hremoves]
        rfl
  · have hnone : registration cfg w ev = none := by
      cases ev with
      | call c => exact absurd rfl (hnot c)
      | request | sideEffect | body | connect | wsSideEffect => rfl
    rw [hnone]
    funext s
    rw [targets, hhandler.frame.routes]
    rfl

/-- Along a run the routes are those of what was added and not removed since, in order. -/
theorem targets_exec (cfg : Setup) {w : World} (hw : w.Fresh) (evs : List Event) :
    targets (exec (step cfg) w evs) = registered cfg w evs := by
  have hstart : targets w = fun _ => [] := by
    funext s
    rw [targets, hw.routes]
    rfl
  rw [registered, ← hstart]
  refine exec_projection (step cfg) (registration cfg) targets register ?_ ?_ w evs
  · intro v ev r hr
    rw [targets_step, hr]
    rfl
  · intro v ev hnone
    rw [targets_step, hnone]
    rfl

end Registered

/-! ### The router and the endpoints -/

section Router

variable {cfg : Setup} {compiled : String → String → Bool} {scope : Scope}

def routeFor (cfg : Setup) : EndpointId → Except CallError Route
  | .http i => route cfg i
  | .ws i => webSocketRoute cfg i

/-- Every route is the one that its endpoint gives. -/
def Built (cfg : Setup) (routes : List Route) : Prop :=
  ∀ rt ∈ routes, routeFor cfg rt.target = .ok rt

/-- The methods of a route are those that its endpoint allows. -/
theorem route_ok {i : HttpId} {rt : Route} (h : route cfg i = .ok rt) :
    ∃ methods, rt = .route i (cfg.http i).ruleString (cfg.http i).name methods ∧
      ∀ method, (methods = [] ∨ method ∈ methods) ↔ AllowsMethod (cfg.http i) method := by
  dsimp only [route] at h
  split at h
  · split at h
    · rename_i hforbid
      obtain ⟨hforbid, hhead⟩ := Bool.and_eq_true_iff.mp hforbid
      have hhead : "HEAD" ∉ (cfg.http i).methods := of_decide_eq_true hhead
      have hkept : (cfg.http i).methods.filter (fun method => decide (method ≠ "HEAD")) =
          (cfg.http i).methods := by
        refine List.filter_eq_self.mpr fun method hmethod => decide_eq_true ?_
        rintro rfl
        exact hhead hmethod
      have hmethods : (if "GET" ∈ (cfg.http i).methods then "HEAD" :: (cfg.http i).methods
          else (cfg.http i).methods).filter (fun method => decide (method ≠ "HEAD")) =
          (cfg.http i).methods := by
        split
        · rw [List.filter_cons_of_neg (by simp), hkept]
        · exact hkept
      rw [hmethods] at h
      obtain rfl := Except.ok.inj h
      refine ⟨_, rfl, fun method => ?_⟩
      simp [AllowsMethod, hforbid]
    · rename_i hforbid
      obtain rfl := Except.ok.inj h
      refine ⟨_, rfl, fun method => ?_⟩
      have hallowed : (cfg.http i).forbidImplicitHeadVerb = false ∨
          "HEAD" ∈ (cfg.http i).methods := by
        simpa [Bool.and_eq_true_iff, imp_iff_not_or] using hforbid
      split
      · rename_i hget
        have hne : (cfg.http i).methods ≠ [] := List.ne_nil_of_mem hget
        simp only [AllowsMethod, List.cons_ne_nil, List.mem_cons, hne, hget, false_or, true_and]
        constructor
        · rintro (rfl | hmem)
          · exact hallowed.elim (fun h => Or.inr ⟨rfl, h⟩) Or.inl
          · exact Or.inl hmem
        · exact fun h => h.elim Or.inr fun hhead => Or.inl hhead.1
      · rename_i hget
        simp [AllowsMethod, hget]
  · cases h

theorem webSocketRoute_ok {i : WsId} {rt : Route} (h : webSocketRoute cfg i = .ok rt) :
    rt = .webSocketRoute i (cfg.ws i).ruleString (cfg.ws i).name := by
  dsimp only [webSocketRoute] at h
  split at h
  · exact (Except.ok.inj h).symm
  · cases h

/-- What the routes of an endpoint match, by what the endpoint accepts. -/
theorem matches_iff (compiled : String → String → Bool) (scope : Scope) {rt : Route}
    (h : routeFor cfg rt.target = .ok rt) :
    (routeMatches compiled scope rt = .full ↔ Accepts cfg compiled scope rt.target) ∧
      (routeMatches compiled scope rt = .no ↔ ¬FitsPath cfg compiled scope rt.target) := by
  cases rt with
  | route i path name methods =>
    obtain ⟨methods', heq, hallowed⟩ := route_ok h
    cases heq
    cases scope with
    | webSocket path' => simp [routeMatches, Accepts, FitsPath, Route.target]
    | http method path' =>
      have hmethod : (!methods.isEmpty && decide (method ∉ methods)) = false ↔
          AllowsMethod (cfg.http i) method := by
        rw [← hallowed method]
        by_cases hempty : methods = [] <;> simp [hempty]
      cases hpath : compiled (cfg.http i).ruleString path' with
      | false => simp [routeMatches, Accepts, FitsPath, Route.target, hpath]
      | true =>
        simp only [routeMatches, Accepts, FitsPath, Route.target, hpath, ← hmethod]
        cases !methods.isEmpty && decide (method ∉ methods) <;> simp
  | webSocketRoute i path name =>
    cases webSocketRoute_ok h
    cases scope with
    | http method path' => simp [routeMatches, Accepts, FitsPath, Route.target]
    | webSocket path' =>
      cases hpath : compiled (cfg.ws i).ruleString path' <;>
        simp [routeMatches, Accepts, FitsPath, Route.target, hpath]

theorem runCall_adds {c : Call} {s : ServerId} {e : EndpointId} (h : adds c = some (s, e)) :
    runCall cfg c = discard (addEndpoint s e (routeFor cfg e)) := by
  cases c <;> cases h <;> rfl

theorem add_built {w : World} {s : ServerId} (e : EndpointId) (h : ∀ t, Built cfg (w.routes t))
    (t : ServerId) : Built cfg ((addEndpoint s e (routeFor cfg e) w).2.routes t) := by
  cases hx : w.pendingException s with
  | some x =>
    rw [addEndpoint_pending _ hx]
    exact h t
  | none =>
    rw [addEndpoint_apply _ hx]
    split
    · exact h t
    · cases hrt : routeFor cfg e with
      | error err => exact h t
      | ok rt =>
        have htarget : rt.target = e := by
          cases e with
          | http i => exact route_target hrt
          | ws i => exact webSocketRoute_target hrt
        change Built cfg (Function.update w.routes s (w.routes s ++ [rt]) t)
        by_cases hts : t = s
        · subst hts
          rw [Function.update_self]
          intro rt' hmem
          rcases List.mem_append.mp hmem with hmem | hmem
          · exact h t rt' hmem
          · rw [List.mem_singleton.mp hmem, htarget]
            exact hrt
        · rw [Function.update_of_ne hts]
          exact h t

theorem step_built (w : World) (ev : Event) (h : ∀ t, Built cfg (w.routes t)) (t : ServerId) :
    Built cfg ((step cfg w ev).1.routes t) := by
  rcases step_cases cfg w ev with ⟨c, result, rfl, hcall, -⟩ | ⟨-, hhandler⟩
  · cases hadds : adds c with
    | some p =>
      obtain ⟨s, e⟩ := p
      rw [step_call, runCall_adds hadds, Effects.Act.discard_apply]
      exact add_built e h t
    | none =>
      cases result with
      | error err =>
        rw [(raised_registration hcall).1]
        exact h t
      | ok u =>
        have hafter := routesAfter_of_returned hcall
        generalize (step cfg w (.call c)).1.routes = routes at hafter
        cases hafter with
        | added hc hrt =>
          rw [hadds] at hc
          cases hc
        | @removed s e i hc hfound =>
          by_cases hts : t = s
          · subst hts
            rw [Function.update_self]
            exact fun rt hrt => h t rt ((List.eraseIdx_sublist _ _).subset hrt)
          · rw [Function.update_of_ne hts]
            exact h t
        | same => exact h t
  · rw [hhandler.frame.routes]
    exact h t

theorem exec_built (cfg : Setup) {w : World} (hw : w.Fresh) (evs : List Event) (s : ServerId) :
    Built cfg ((exec (step cfg) w evs).routes s) := by
  refine exec_invariant (step cfg) (fun v => ∀ t, Built cfg (v.routes t)) step_built evs ?_ s
  intro t
  rw [hw.routes]
  exact List.forall_mem_nil _

/-- What the router answers, by the endpoints of the routes alone. -/
theorem router_answers {router : List Route → Scope → Answer}
    (hrouter : RoutesInOrder compiled router) {routes : List Route} (h : Built cfg routes)
    (scope : Scope) :
    Answers cfg compiled (routes.map Route.target) scope (router routes scope) := by
  have hnotFull : ∀ {rts : List Route}, rts ⊆ routes →
      (∀ rt ∈ rts, routeMatches compiled scope rt ≠ .full) →
        ∀ d ∈ rts.map Route.target, ¬Accepts cfg compiled scope d := by
    intro rts hrts hnone d hd haccepts
    obtain ⟨rt, hrt, rfl⟩ := List.mem_map.mp hd
    exact hnone rt hrt ((matches_iff compiled scope (h rt (hrts hrt))).1.mpr haccepts)
  by_cases hfull : ∃ rt ∈ routes, routeMatches compiled scope rt = .full
  · obtain ⟨rt, hfind⟩ := Option.isSome_iff_exists.mp
      ((List.find?_isSome (p := fun rt => decide (routeMatches compiled scope rt = .full))).mpr
        (hfull.imp fun _ hrt => ⟨hrt.1, decide_eq_true hrt.2⟩))
    obtain ⟨hmatch, before, after, hsplit, hbefore⟩ := List.find?_eq_some_iff_append.mp hfind
    have hmatch : routeMatches compiled scope rt = .full := of_decide_eq_true hmatch
    have hbefore : ∀ rt' ∈ before, routeMatches compiled scope rt' ≠ .full := by
      intro rt' hrt'
      simpa using hbefore rt' hrt'
    have hmem : rt ∈ routes := List.mem_of_find?_eq_some hfind
    have hbeforeIn : before ⊆ routes := hsplit ▸ List.subset_append_left _ _
    have htargets : routes.map Route.target =
        before.map Route.target ++ rt.target :: after.map Route.target := by
      rw [hsplit, List.map_append, List.map_cons]
    rw [hrouter.full hsplit hmatch hbefore]
    exact .endpoint htargets ((matches_iff compiled scope (h rt hmem)).1.mp hmatch)
      (hnotFull hbeforeIn hbefore)
  · have hnone : ∀ rt ∈ routes, routeMatches compiled scope rt ≠ .full :=
      fun rt hrt hmatch => hfull ⟨rt, hrt, hmatch⟩
    by_cases hpath : ∃ rt ∈ routes, routeMatches compiled scope rt = .pathOnly
    · obtain ⟨rt, hrt, hmatch⟩ := hpath
      rw [hrouter.pathOnly hnone hrt hmatch]
      refine .methodNotAllowed (hnotFull (List.Subset.refl _) hnone)
        ⟨rt.target, List.mem_map_of_mem hrt, not_not.mp ?_⟩
      rw [← (matches_iff compiled scope (h rt hrt)).2, hmatch]
      exact Match.noConfusion
    · have hno : ∀ rt ∈ routes, routeMatches compiled scope rt = .no := by
        intro rt hrt
        cases hkind : routeMatches compiled scope rt with
        | no => rfl
        | pathOnly => exact absurd ⟨rt, hrt, hkind⟩ hpath
        | full => exact absurd hkind (hnone rt hrt)
      rw [hrouter.no hno]
      refine .unrouted fun d hd => ?_
      obtain ⟨rt, hrt, rfl⟩ := List.mem_map.mp hd
      exact (matches_iff compiled scope (h rt hrt)).2.mp (hno rt hrt)

/-- There is one answer. -/
theorem answers_unique {endpoints : List EndpointId} {a a' : Answer}
    (h : Answers cfg compiled endpoints scope a) (h' : Answers cfg compiled endpoints scope a') :
    a = a' := by
  have hfirst : ∀ {before after e}, endpoints = before ++ e :: after →
      Accepts cfg compiled scope e → ∃ d ∈ endpoints, Accepts cfg compiled scope d := by
    rintro before after e rfl he
    exact ⟨e, by simp, he⟩
  cases h with
  | endpoint hsplit haccepts hbefore =>
    obtain ⟨d, hd, haccepted⟩ := hfirst hsplit haccepts
    cases h' with
    | endpoint hsplit' haccepts' hbefore' =>
      classical
      have hfind : ∀ {before after e}, endpoints = before ++ e :: after →
          Accepts cfg compiled scope e → (∀ d ∈ before, ¬Accepts cfg compiled scope d) →
            endpoints.find? (fun d => decide (Accepts cfg compiled scope d)) = some e := by
        intro before after e hsplit haccepts hbefore
        refine List.find?_eq_some_iff_append.mpr ⟨decide_eq_true haccepts, _, _, hsplit, ?_⟩
        exact fun d hd => by simpa using hbefore d hd
      have hone := hfind hsplit haccepts hbefore
      have hother := hfind hsplit' haccepts' hbefore'
      exact congrArg Answer.endpoint (Option.some.inj (hone.symm.trans hother))
    | methodNotAllowed hnone => exact absurd haccepted (hnone d hd)
    | unrouted hnone => exact absurd haccepted.1 (hnone d hd)
  | methodNotAllowed hnone hsome =>
    obtain ⟨d, hd, hfit⟩ := hsome
    cases h' with
    | endpoint hsplit haccepts =>
      obtain ⟨d', hd', haccepted⟩ := hfirst hsplit haccepts
      exact absurd haccepted (hnone d' hd')
    | methodNotAllowed => rfl
    | unrouted hnone' => exact absurd hfit (hnone' d hd)
  | unrouted hnone =>
    cases h' with
    | endpoint hsplit haccepts =>
      obtain ⟨d', hd', haccepted⟩ := hfirst hsplit haccepts
      exact absurd haccepted.1 (hnone d' hd')
    | methodNotAllowed hnone' hsome' =>
      obtain ⟨d', hd', hfit⟩ := hsome'
      exact absurd hfit (hnone d' hd')
    | unrouted => rfl

end Router

/-- The endpoints that are registered are those that the server owns, each once. -/
theorem registered_owned (cfg : Setup) {w : World} (hw : w.Fresh) (evs : List Event)
    (s : ServerId) :
    (registered cfg w evs s).Nodup ∧
      ∀ e, e ∈ registered cfg w evs s ↔ (exec (step cfg) w evs).owner e = some s := by
  have hreg : Registered (exec (step cfg) w evs) :=
    exec_registered cfg evs (registered_of_fresh hw)
  have hcount : ∀ e, (registered cfg w evs s).count e =
      if (exec (step cfg) w evs).owner e = some s then 1 else 0 := by
    intro e
    rw [← hreg s e, ← targets_exec cfg hw, targets, List.count, List.countP_map, routeCount]
    congr 1
  constructor
  · refine List.nodup_iff_count.mpr fun e => ?_
    rw [hcount]
    split <;> omega
  · intro e
    rw [← List.count_pos_iff, hcount]
    split
    · rename_i howner
      exact iff_of_true Nat.one_pos howner
    · rename_i howner
      exact iff_of_false (Nat.lt_irrefl 0) howner

/-- In every run, whatever the calls raise and the handlers do meanwhile: a request to a
server is answered by the first endpoint that accepts it among those that it owns, in the
order in which they were added; a HEAD request is accepted along with GET only where that
is not forbidden. -/
theorem dispatch_follows_registrations (cfg : Setup) (compiled : String → String → Bool)
    (router : List Route → Scope → Answer) (hrouter : RoutesInOrder compiled router)
    (w₀ w : World) (h₀ : w₀.Fresh) (evs : List Event) (hw : w = exec (step cfg) w₀ evs)
    (s : ServerId) (scope : Scope) (answer : Answer) :
    (router (w.routes s) scope = answer ↔
      Answers cfg compiled (registered cfg w₀ evs s) scope answer) ∧
    (registered cfg w₀ evs s).Nodup ∧
    ∀ e, e ∈ registered cfg w₀ evs s ↔ w.owner e = some s := by
  subst hw
  have hanswers := router_answers hrouter (exec_built cfg h₀ evs s) scope
  have htargets : ((exec (step cfg) w₀ evs).routes s).map Route.target =
      registered cfg w₀ evs s := congrFun (targets_exec cfg h₀ evs) s
  rw [htargets] at hanswers
  refine ⟨⟨?_, fun h => answers_unique hanswers h⟩, registered_owned cfg h₀ evs s⟩
  rintro rfl
  exact hanswers

theorem dispatch_follows_registrations_removed :
    let evs : List Event := [.call (.addHttpEndpoint 0 0), .call (.addHttpEndpoint 0 1),
      .call (.removeHttpEndpoint 0 0)]
    let endpoints := registered Setup.plain (World.new fun _ => .callable 0) evs 0
    Answers Setup.plain (fun rule path => rule == path) endpoints (.http "GET" "/foo")
        (.endpoint (.http 1)) ∧
      Answers Setup.plain (fun rule path => rule == path) endpoints (.http "HEAD" "/foo")
        .methodNotAllowed := by
  intro evs endpoints
  have h := dispatch_follows_registrations Setup.plain (fun rule path => rule == path) _
    (loopRouter_inOrder _) (World.new fun _ => .callable 0) _ (World.new_fresh _) evs rfl 0
  exact ⟨(h _ _).1.mp (by decide), (h _ _).1.mp (by decide)⟩

end Yellowbox.Dispatch
