import Yellowbox.WebServer.HandlerSteps

/-!
An endpoint's owner and the route lists of the servers are two copies of one
fact. They agree in every state that the calls and the handlers can reach, for
any number of servers and of endpoints of both kinds, whatever the calls raise.
-/
namespace Yellowbox.Registration

open StepRuns WebServerState WebServerCalls WebServerHandlers WebServerSteps
open WebServerCallSteps WebServerHandlerSteps

/-- The number of routes for `e` in the route list of `s`. -/
def routeCount (w : World) (s : ServerId) (e : EndpointId) : ℕ :=
  (w.routes s).countP fun rt => decide (rt.target = e)

/-- Every server has one route for each endpoint it owns and none for the others. -/
def Registered (w : World) : Prop :=
  ∀ s e, routeCount w s e = if w.owner e = some s then 1 else 0

theorem registered_of_fresh {w : World} (h : w.Fresh) : Registered w := by
  intro s e
  simp [routeCount, h.routes, h.owner]

theorem registered_congr {w v : World} (hroutes : v.routes = w.routes) (howner : v.owner = w.owner)
    (h : Registered w) : Registered v := by
  intro s e
  rw [routeCount, hroutes, howner]
  exact h s e

/-- The first element that is found is the one taken out. -/
theorem eraseIdx_found {α : Type*} {p : α → Bool} {l : List α} {i : ℕ}
    (h : l.findIdx? p = some i) :
    ∃ pre a post, p a = true ∧ l = pre ++ a :: post ∧ l.eraseIdx i = pre ++ post := by
  have herase : l.eraseP p = l.eraseIdx i := by rw [List.eraseP_eq_eraseIdx, h]
  have hmem : ∃ a ∈ l, p a = true := by
    have hi : l.findIdx? p ≠ none := by simp [h]
    rw [ne_eq, List.findIdx?_eq_none_iff] at hi
    push Not at hi
    obtain ⟨a, ha, hp⟩ := hi
    exact ⟨a, ha, by simpa using hp⟩
  obtain ⟨a, ha, hp⟩ := hmem
  obtain ⟨b, pre, post, -, hb, hl, her⟩ := List.exists_of_eraseP ha hp
  exact ⟨pre, b, post, hb, hl, herase.symm.trans her⟩

theorem registered_add {w : World} {s : ServerId} {e : EndpointId} {rt : Route}
    (h : Registered w) (howner : w.owner e = none) (hrt : rt.target = e) :
    Registered ((w.setRoutes s (w.routes s ++ [rt])).setOwner e (some s)) := by
  intro t d
  have hold := h t d
  simp only [routeCount] at hold ⊢
  simp only [World.setRoutes, World.setOwner, Function.update_apply]
  by_cases hts : t = s
  · subst hts
    rw [if_pos rfl, List.countP_append, hold]
    by_cases hde : d = e
    · subst hde
      simp [howner, hrt]
    · have hed : rt.target ≠ d := by
        rw [hrt]
        exact Ne.symm hde
      simp [hde, hed]
  · rw [if_neg hts, hold]
    by_cases hde : d = e
    · subst hde
      have hst : s ≠ t := Ne.symm hts
      simp [howner, hst]
    · simp [hde]

theorem registered_remove {w : World} {s : ServerId} {e : EndpointId} {i : ℕ}
    (h : Registered w) (howner : w.owner e = some s)
    (hfound : (w.routes s).findIdx? (fun rt => decide (rt.target = e)) = some i) :
    Registered ((w.setRoutes s ((w.routes s).eraseIdx i)).setOwner e none) := by
  obtain ⟨pre, rt, post, hrt, hl, herase⟩ := eraseIdx_found hfound
  have hrt : rt.target = e := of_decide_eq_true hrt
  intro t d
  have hold := h t d
  simp only [routeCount] at hold ⊢
  simp only [World.setRoutes, World.setOwner, Function.update_apply]
  by_cases hts : t = s
  · subst hts
    rw [if_pos rfl, herase, List.countP_append]
    rw [hl, List.countP_append, List.countP_cons] at hold
    by_cases hde : d = e
    · subst hde
      rw [howner, if_pos rfl, hrt, if_pos (decide_eq_true rfl)] at hold
      rw [if_pos rfl, if_neg (by simp)]
      omega
    · have hed : rt.target ≠ d := by
        rw [hrt]
        exact Ne.symm hde
      simpa [hde, hed] using hold
  · rw [if_neg hts, hold]
    by_cases hde : d = e
    · subst hde
      have hst : s ≠ t := Ne.symm hts
      simp [howner, hst]
    · simp [hde]

theorem entry_registered {cfg : Setup} {w v : World} {c : Call} (h : Registered w)
    (hv : EntryEffect cfg w c v) : Registered v := by
  cases hv with
  | add hc howner hrt => exact registered_add h howner hrt
  | remove hc howner hfound => exact registered_remove h howner hfound
  | patch e p f => exact registered_congr rfl rfl h
  | captureHttp i c hauto => exact registered_congr rfl rfl h
  | captureWs i c => exact registered_congr rfl rfl h
  | isAlive s => exact h
  | noPatch hp => exact h

/-- A call that exits something leaves the registrations alone. -/
theorem exit_registration {w v : World} {c : Call} (hv : ExitEffect w c v) :
    v.routes = w.routes ∧ v.owner = w.owner := by
  cases hv <;> exact ⟨rfl, rfl⟩

/-- A call that raises leaves the registrations alone. -/
theorem raised_registration {cfg : Setup} {w v : World} {c : Call} {err : CallError}
    (h : CallStep cfg w c (.error err) v) : v.routes = w.routes ∧ v.owner = w.owner := by
  cases h with
  | pendingFirst hs hx => exact ⟨rfl, rfl⟩
  | refused hclear herr => exact ⟨rfl, rfl⟩
  | exitedUnowned hs hv => exact exit_registration hv
  | exitedPending hs hx hv =>
    obtain ⟨hroutes, howner⟩ := exit_registration hv
    exact ⟨hroutes, howner⟩

theorem call_registered {cfg : Setup} {w v : World} {c : Call} {result : Except CallError Unit}
    (h : Registered w) (hv : CallStep cfg w c result v) : Registered v := by
  cases result with
  | error err =>
    obtain ⟨hroutes, howner⟩ := raised_registration hv
    exact registered_congr hroutes howner h
  | ok u =>
    cases hv with
    | entered hclear hv => exact entry_registered h hv
    | exited hclear hv =>
      obtain ⟨hroutes, howner⟩ := exit_registration hv
      exact registered_congr hroutes howner h

theorem step_registered (cfg : Setup) (w : World) (ev : Event) (h : Registered w) :
    Registered (step cfg w ev).1 := by
  rcases step_cases cfg w ev with ⟨c, result, rfl, hcall, -⟩ | ⟨-, hhandler⟩
  · exact call_registered h hcall
  · exact registered_congr hhandler.frame.routes hhandler.frame.owner h

theorem exec_registered (cfg : Setup) {w : World} (evs : List Event) (h : Registered w) :
    Registered (exec (step cfg) w evs) :=
  exec_invariant (step cfg) Registered (step_registered cfg) evs h

/-- The search of a `remove` for its route does not come back empty. -/
theorem not_refused_notFound {cfg : Setup} {w : World} {c : Call} (h : Registered w) :
    ¬ Refusal cfg w c (.runtimeError "endpoint is not found in the server") := by
  intro hrefused
  generalize herr : CallError.runtimeError "endpoint is not found in the server" = err at hrefused
  cases hrefused with
  | notFound hc howner hfound =>
    rename_i s e
    have hcount := h s e
    rw [if_pos howner, routeCount, List.countP_eq_zero.mpr] at hcount
    · contradiction
    · intro rt hrt
      simpa using hfound rt hrt
  | addedTwice | notAdded | noAutoRead | parallel => simp at herr
  | noRoute | unowned | noCapture => contradiction

/-- In every reachable state an endpoint has owner `s` exactly when the route
list of `s` holds one route for it, and then no other server holds one; the
'not found' branch is never taken, and a call that raises changes neither. -/
theorem registration_invariant (cfg : Setup) (w₀ : World) (h₀ : w₀.Fresh) (evs : List Event) :
    (∀ e s, (exec (step cfg) w₀ evs).owner e = some s ↔
      routeCount (exec (step cfg) w₀ evs) s e = 1) ∧
    (∀ e s t, (exec (step cfg) w₀ evs).owner e = some s → t ≠ s →
      routeCount (exec (step cfg) w₀ evs) t e = 0) ∧
    (∀ c, (step cfg (exec (step cfg) w₀ evs) (.call c)).2 ≠
      .raised (.runtimeError "endpoint is not found in the server")) ∧
    (∀ c err, (step cfg (exec (step cfg) w₀ evs) (.call c)).2 = .raised err →
      (step cfg (exec (step cfg) w₀ evs) (.call c)).1.routes =
        (exec (step cfg) w₀ evs).routes ∧
      (step cfg (exec (step cfg) w₀ evs) (.call c)).1.owner =
        (exec (step cfg) w₀ evs).owner) := by
  have hreg : Registered (exec (step cfg) w₀ evs) :=
    exec_registered cfg evs (registered_of_fresh h₀)
  generalize exec (step cfg) w₀ evs = w at hreg
  refine ⟨?_, ?_, ?_, ?_⟩
  · intro e s
    rw [hreg s e]
    by_cases howner : w.owner e = some s <;> simp [howner]
  · intro e s t howner hts
    have hst : s ≠ t := Ne.symm hts
    rw [hreg t e, howner]
    simp [hst]
  · intro c hraised
    obtain ⟨result, hcall, hobs⟩ := call_cases cfg w c
    rw [hobs, callObs_raised] at hraised
    subst hraised
    generalize (step cfg w (.call c)).1 = v at hcall
    cases hcall with
    | refused hclear herr => exact not_refused_notFound hreg herr
  · intro c err hraised
    obtain ⟨result, hcall, hobs⟩ := call_cases cfg w c
    rw [hobs, callObs_raised] at hraised
    subst hraised
    exact raised_registration hcall

/-- Two servers, an endpoint of each kind, one of them moved. -/
theorem registration_invariant_moved :
    routeCount (exec (step Setup.plain) (World.new fun _ => .callable 0)
      [.call (.addHttpEndpoint 0 0), .call (.addWsEndpoint 0 0), .call (.removeWsEndpoint 0 0),
        .call (.enterPatchWsEndpoint 1 0)]) 0 (.ws 0) = 0 :=
  (registration_invariant Setup.plain (World.new fun _ => .callable 0) (World.new_fresh _)
    [.call (.addHttpEndpoint 0 0), .call (.addWsEndpoint 0 0), .call (.removeWsEndpoint 0 0),
      .call (.enterPatchWsEndpoint 1 0)]).2.1 (.ws 0) 1 0 (by decide) (by decide)

end Yellowbox.Registration
