import Yellowbox.HttpService.ActiveHandlers

/-!
Requests and the patches that are in force. Which callback is run, or which error answers,
is decided by the active handlers that match; but the router takes the parameters off the
path that it looks for, and it puts the names of the handlers into a format and into a status
line, and does not get to the callback or to the answer for every name.
-/
namespace Yellowbox.HttpService.Routing

open ActiveHandlers Cuts Dicts PercentFormat

variable {R : Type}

/-- The active handlers of a service that match a request. -/
def matching (re : Regexes R) (w : World R) (i : Nat) (method path : String) :
    List (RoutedHandler R) :=
  (active w i).filter fun handler => handler.method = method ∧ handler.routeMatch re path

/-- A callback is run exactly if one handler matches, and it is that of the handler; the
answer is 404 if there is none, and 500 if there are several. -/
structure Follows (matching : List (RoutedHandler R)) (answer : Answer R) : Prop where
  runs : (∃ handler, answer = .callback handler) ↔ matching.length = 1
  matched : ∀ handler, answer = .callback handler → handler ∈ matching
  notFound : matching = [] → ∃ message, answer = .error 404 message
  several : 1 < matching.length → ∃ message, answer = .error 500 message

/-- The name of the one handler that matches can be formatted, and the names of several
be encoded. -/
structure NamesFit (matching : List (RoutedHandler R)) : Prop where
  formatted : ∀ handler, matching = [handler] →
    (formatNoArgs ("routed to " ++ handler.name)).isSome = true
  encoded : 1 < matching.length → ∀ handler ∈ matching, latin1 handler.name = true

/-- What matches one path and what matches another is the same as far as it is none, one
handler, or several. -/
structure Alike (matching parsed : List (RoutedHandler R)) : Prop where
  none : matching = [] ↔ parsed = []
  one : ∀ handler, matching = [handler] ↔ parsed = [handler]

theorem latin1_names (names : List String) :
    latin1 ("mock server matched multiple routes: " ++ ", ".intercalate names) = true ↔
      ∀ name ∈ names, latin1 name = true := by
  have htext : latin1 "mock server matched multiple routes: " = true := by decide +kernel
  have hsep : (", ".toList.all fun c => c.toNat < 256) = true := by decide +kernel
  unfold latin1 at htext ⊢
  rw [String.toList_append, List.all_append, htext, Bool.true_and, String.toList_intercalate,
    all_intercalate _ hsep, List.all_map, List.all_eq_true]
  rfl

theorem sendError_of_latin1 {message : String} (code : Nat) (h : latin1 message = true) :
    (sendError code message : Answer R) = .error code message := if_pos h

/-- Latin-1 names without `%` fit, however many match. -/
theorem namesFit_of_plain {matching : List (RoutedHandler R)}
    (h : ∀ handler ∈ matching, '%' ∉ handler.name.toList ∧ latin1 handler.name = true) :
    NamesFit matching := by
  refine ⟨fun handler heq => ?_, fun _ handler hmem => (h handler hmem).2⟩
  have hname := (h handler (heq ▸ List.mem_singleton_self handler)).1
  have hpre : '%' ∉ "routed to ".toList := by decide +kernel
  rw [formatNoArgs_of_not_mem]
  · rfl
  · rw [String.toList_append, List.mem_append, not_or]
    exact ⟨hpre, hname⟩

theorem route_one (handler : RoutedHandler R) :
    route [handler] = match formatNoArgs ("routed to " ++ handler.name) with
      | some _ => .callback handler
      | none => .raised .formatError := rfl

theorem route_several (handler next : RoutedHandler R) (rest : List (RoutedHandler R)) :
    route (handler :: next :: rest) =
      sendError 500 ("mock server matched multiple routes: " ++
        ", ".intercalate ((handler :: next :: rest).map (·.name))) := rfl

theorem none_one_or_several (l : List (RoutedHandler R)) :
    l = [] ∨ (∃ handler, l = [handler]) ∨ 1 < l.length := by
  match l with
  | [] => exact Or.inl rfl
  | [handler] => exact Or.inr (Or.inl ⟨handler, rfl⟩)
  | _ :: _ :: _ => exact Or.inr (Or.inr (by simp))

/-- Handlers whose names fit are routed to as they are to be. -/
theorem route_follows {matched : List (RoutedHandler R)} (h : NamesFit matched) :
    Follows matched (route matched) := by
  match matched with
  | [] =>
    have hanswer : (route [] : Answer R) = .error 404 "mock server matched no routes" :=
      sendError_of_latin1 404 (by simp [latin1])
    rw [hanswer]
    exact ⟨by simp, by simp, fun _ => ⟨_, rfl⟩, by simp⟩
  | [handler] =>
    obtain ⟨text, hformat⟩ := Option.isSome_iff_exists.mp (h.formatted handler rfl)
    rw [route_one, hformat]
    exact ⟨by simp, by simp, by simp, by simp⟩
  | handler :: next :: rest =>
    have hnames := latin1_names ((handler :: next :: rest).map (·.name))
    rw [List.forall_mem_map] at hnames
    rw [route_several, sendError_of_latin1 500 (hnames.mpr (h.encoded (by simp)))]
    exact ⟨by simp, by simp, by simp, fun _ => ⟨_, rfl⟩⟩

/-- Where the names do not fit, the router raises and nothing is answered. -/
theorem route_raised {matched : List (RoutedHandler R)} (h : ¬NamesFit matched) :
    ∃ error, route matched = .raised error := by
  match matched with
  | [] => exact absurd ⟨by simp, by simp⟩ h
  | [handler] =>
    rw [route_one]
    cases hformat : formatNoArgs ("routed to " ++ handler.name) with
    | none => exact ⟨_, rfl⟩
    | some text =>
      refine absurd ⟨fun handler' heq => ?_, by simp⟩ h
      cases heq
      rw [hformat, Option.isSome_some]
  | handler :: next :: rest =>
    have hnames := latin1_names ((handler :: next :: rest).map (·.name))
    rw [List.forall_mem_map] at hnames
    exact ⟨_, if_neg fun hlatin => h ⟨by simp, fun _ => hnames.mp hlatin⟩⟩

/-- A request that is not answered follows nothing. -/
theorem not_follows_raised (matching : List (RoutedHandler R)) (error : Exc) :
    ¬Follows matching (.raised error) := by
  intro h
  rcases none_one_or_several matching with hnil | ⟨handler, rfl⟩ | hseveral
  · obtain ⟨message, hanswer⟩ := h.notFound hnil
    cases hanswer
  · obtain ⟨run, hanswer⟩ := h.runs.mpr List.length_singleton
    cases hanswer
  · obtain ⟨message, hanswer⟩ := h.several hseveral
    cases hanswer

section Alike

variable {l l' : List (RoutedHandler R)} {answer : Answer R}

theorem Alike.rfl : Alike l l := ⟨Iff.rfl, fun _ => Iff.rfl⟩

theorem Alike.length_eq_one_iff (h : Alike l l') : l.length = 1 ↔ l'.length = 1 := by
  rw [List.length_eq_one_iff, List.length_eq_one_iff]
  exact exists_congr h.one

theorem Alike.several_iff (h : Alike l l') : 1 < l.length ↔ 1 < l'.length := by
  have hnone : l.length = 0 ↔ l'.length = 0 := by
    rw [List.length_eq_zero_iff, List.length_eq_zero_iff]
    exact h.none
  have hone := h.length_eq_one_iff
  omega

/-- An answer that follows what matches follows whatever is alike. -/
theorem Follows.alike (h : Follows l' answer) (halike : Alike l l') : Follows l answer where
  runs := h.runs.trans halike.length_eq_one_iff.symm
  matched handler hanswer := by
    have hone := h.runs.mp ⟨handler, hanswer⟩
    obtain ⟨only, rfl⟩ := List.length_eq_one_iff.mp hone
    rw [(halike.one only).mpr rfl]
    exact h.matched handler hanswer
  notFound hnil := h.notFound (halike.none.mp hnil)
  several hlength := h.several (halike.several_iff.mp hlength)

/-- Two lists of handlers that one answer follows are alike. -/
theorem Follows.unique (h : Follows l answer) (h' : Follows l' answer) : Alike l l' := by
  have hone : l.length = 1 ↔ l'.length = 1 := h.runs.symm.trans h'.runs
  have hnone : ∀ {l l' : List (RoutedHandler R)}, Follows l answer → Follows l' answer →
      (l.length = 1 ↔ l'.length = 1) → l = [] → l' = [] := by
    intro l l' h h' hone hnil
    rcases none_one_or_several l' with hnil' | ⟨handler, hsingle⟩ | hseveral
    · exact hnil'
    · rw [hnil, hsingle] at hone
      exact absurd (hone.mpr List.length_singleton) (by simp)
    · obtain ⟨message, hanswer⟩ := h.notFound hnil
      obtain ⟨message', hanswer'⟩ := h'.several hseveral
      rw [hanswer] at hanswer'
      cases hanswer'
  have hsingle : ∀ {l l' : List (RoutedHandler R)} {handler}, Follows l answer →
      Follows l' answer → (l.length = 1 ↔ l'.length = 1) → l = [handler] → l' = [handler] := by
    intro l l' handler h h' hone heq
    obtain ⟨run, hrun⟩ := h.runs.mpr (by rw [heq]; exact List.length_singleton)
    obtain ⟨only, hl'⟩ := List.length_eq_one_iff.mp
      (hone.mp (by rw [heq]; exact List.length_singleton))
    have hmem := h.matched run hrun
    have hmem' := h'.matched run hrun
    rw [heq, List.mem_singleton] at hmem
    rw [hl', List.mem_singleton] at hmem'
    rw [hl', ← hmem', hmem]
  exact ⟨⟨hnone h h' hone, hnone h' h hone.symm⟩,
    fun handler => ⟨hsingle h h' hone, hsingle h' h hone.symm⟩⟩

/-- A request is answered as what matches its path asks for exactly if that is alike to what
the router finds, and the names of that fit. -/
theorem route_follows_iff (matching parsed : List (RoutedHandler R)) :
    Follows matching (route parsed) ↔ Alike matching parsed ∧ NamesFit parsed := by
  by_cases hfit : NamesFit parsed
  · have hfollows := route_follows hfit
    exact ⟨fun h => ⟨h.unique hfollows, hfit⟩, fun h => hfollows.alike h.1⟩
  · obtain ⟨error, hraised⟩ := route_raised hfit
    rw [hraised]
    exact iff_of_false (not_follows_raised matching error) fun h => hfit h.2

end Alike

section Orders

variable {l l' : List (RoutedHandler R)}

theorem Alike.perm {matching : List (RoutedHandler R)} (h : Alike matching l) (hperm : l.Perm l') :
    Alike matching l' where
  none := h.none.trans ⟨fun hnil => (hnil ▸ hperm).nil_eq.symm, fun hnil => (hnil ▸ hperm).eq_nil⟩
  one handler := (h.one handler).trans
    ⟨fun heq => List.perm_singleton.mp (heq ▸ hperm).symm,
      fun heq => List.perm_singleton.mp (heq ▸ hperm)⟩

theorem NamesFit.perm (h : NamesFit l) (hperm : l.Perm l') : NamesFit l' where
  formatted handler heq := h.formatted handler (List.perm_singleton.mp (heq ▸ hperm))
  encoded hlength handler hmem :=
    h.encoded (hperm.length_eq ▸ hlength) handler (hperm.mem_iff.mpr hmem)

end Orders

/-- What a class holds of handlers that match, in the order of its set, is what is active. -/
theorem candidates_perm {w : World R} (h : Inv w) (re : Regexes R) {i : Nat} {cls : RouterClass R}
    (hcls : w.services[i]? = some cls) (method path : String) :
    ((cls.handlers method).filter fun handler => handler.routeMatch re path).Perm
      (matching re w i method path) := by
  have hfilter := (h.routes i cls hcls method).filter fun handler => handler.routeMatch re path
  rw [List.filter_filter] at hfilter
  rw [matching]
  simpa only [Bool.decide_and, Bool.decide_eq_true, Bool.and_comm] using hfilter

/-- The order of a set does not show in the kind of the answer. -/
theorem respond_follows_iff {w : World R} (h : Inv w) (re : Regexes R) {i : Nat}
    {cls : RouterClass R} (hcls : w.services[i]? = some cls) (method path target : String) :
    Follows (matching re w i method path) (cls.respond re method target) ↔
      Alike (matching re w i method path) (matching re w i method (parsedPath target)) ∧
        NamesFit (matching re w i method (parsedPath target)) := by
  have hperm := candidates_perm h re hcls method (parsedPath target)
  rw [RouterClass.respond, route_follows_iff]
  exact and_congr ⟨fun halike => halike.perm hperm, fun halike => halike.perm hperm.symm⟩
    ⟨fun hfit => hfit.perm hperm, fun hfit => hfit.perm hperm.symm⟩

/-- In every reachable world the handlers of a service are those of its entered and not yet
exited contexts, each made from its context; leaving a context takes away nothing else; and
a request for a path is routed by those that match it exactly if what matches the path that
the router parses is alike to that, and the names of those allow it. -/
theorem routing_follows_patches [DecidableEq R] (re : Regexes R) (events : List (Event R)) :
    (∀ i (cls : RouterClass R), (run re events).services[i]? = some cls → ∀ method,
      (cls.handlers method).Perm
        ((active (run re events) i).filter fun handler => handler.method = method)) ∧
      (∀ context ∈ (run re events).contexts, ∀ handler, context.status = .entered handler →
        handler.method = context.method ∧ handler.route = context.route) ∧
      (∀ c context handler, (run re events).contexts[c]? = some context →
        context.status = .entered handler →
        LeavesOthers re (run re events) c context handler) ∧
      ∀ i (cls : RouterClass R), (run re events).services[i]? = some cls →
        ∀ (method rest : String) (query : Option String),
          let path := "/" ++ rest
          let parsed := parsedPath (target path query)
          Follows (matching re (run re events) i method path)
              (cls.respond re method (target path query)) ↔
            Alike (matching re (run re events) i method path)
              (matching re (run re events) i method parsed) ∧
            NamesFit (matching re (run re events) i method parsed) := by
  have hinv := inv_run re events
  refine ⟨hinv.routes, hinv.own, fun c context handler hcontext hentered => ?_,
    fun i cls hcls method rest query => ?_⟩
  · exact hinv.leaves hcontext hentered
  · exact respond_follows_iff hinv re hcls method _ _

def noRegexes : Regexes Empty := ⟨fun _ _ => false, fun _ => ""⟩

/-- The route that `start` patches while it waits for the server. -/
def healthRoute : List (Event Empty) :=
  [.newService, .patchRoute 0 "GET" (.text "/health") none none, .enter 0]

def healthClass : RouterClass Empty :=
  ⟨Dict.ofPairs [("GET", [⟨"GET", "/health", .text "/health", 0⟩])]⟩

theorem routing_follows_patches_health :
    Follows (matching noRegexes (run noRegexes healthRoute) 0 "GET" "/health")
      (healthClass.respond noRegexes "GET" "/health") := by
  have hparsed : parsedPath (target ("/" ++ "health") none) = "/health" :=
    parsedPath_target (by decide) (by decide) none
  have h := (routing_follows_patches noRegexes healthRoute).2.2.2 0 healthClass rfl "GET" "health"
    none
  refine h.mpr ?_
  rw [hparsed]
  exact ⟨.rfl, namesFit_of_plain (by decide +kernel)⟩

/-- A service on which one route is patched for a side effect without a name. -/
def patchedRoute (path : String) : List (Event Empty) :=
  [.newService, .patchRoute 0 "GET" (.text path) none none, .enter 0]

/-- Requests for the one active route. The name `/a%20b` is not fit to be a format, and the
callback is not run; the route `/a;b` is not found, since `;b` is taken for parameters. -/
theorem percent_route_not_run :
    ¬(∀ (re : Regexes Empty) (events : List (Event Empty)) (i : Nat) (cls : RouterClass Empty),
      (run re events).services[i]? = some cls → ∀ method rest query,
        Follows (matching re (run re events) i method ("/" ++ rest))
          (cls.respond re method (target ("/" ++ rest) query))) ∧
      (run noRegexes (patchedRoute "/a%20b")).services.map (·.respond noRegexes "GET" "/a%20b") =
        [.raised .formatError] ∧
      (run noRegexes (patchedRoute "/a;b")).services.map (·.respond noRegexes "GET" "/a;b") =
        [.error 404 "mock server matched no routes"] := by
  have hanswer : (run noRegexes (patchedRoute "/a%20b")).services.map
      (·.respond noRegexes "GET" "/a%20b") = [.raised .formatError] := by decide +kernel
  have hmatching : (matching noRegexes (run noRegexes (patchedRoute "/a%20b")) 0 "GET"
      "/a%20b").length = 1 := by decide +kernel
  refine ⟨fun h => ?_, hanswer, by decide +kernel⟩
  obtain ⟨cls, hservices, hraised⟩ := List.map_eq_singleton_iff.mp hanswer
  have hfollows := h noRegexes (patchedRoute "/a%20b") 0 cls (by rw [hservices]; rfl) "GET"
    "a%20b" none
  obtain ⟨handler, hcallback⟩ := hfollows.runs.mpr hmatching
  have htarget : cls.respond noRegexes "GET" (target ("/" ++ "a%20b") none) =
      .raised .formatError := hraised
  rw [htarget] at hcallback
  cases hcallback

end Yellowbox.HttpService.Routing
