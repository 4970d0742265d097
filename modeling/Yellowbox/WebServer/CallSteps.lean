import Yellowbox.WebServer.Calls

/-!
Everything a main-thread call can do, stated once. A call raises the pending
exception of the server it checks, or it is refused, or it has its effect. A call
that enters something checks before its effect and a call that exits something
checks after it, so only the latter can both have an effect and raise.
-/
namespace Yellowbox.WebServerCallSteps

open Effects WebServerState WebServerCalls

/-- The server whose pending exception the call raises, if it gets that far. -/
def checked (w : World) : Call → Option ServerId
  | .addHttpEndpoint s _ | .removeHttpEndpoint s _ => some s
  | .enterPatchHttpEndpoint s _ | .exitPatchHttpEndpoint s _ => some s
  | .addWsEndpoint s _ | .removeWsEndpoint s _ => some s
  | .enterPatchWsEndpoint s _ | .exitPatchWsEndpoint s _ => some s
  | .patch e _ _ => w.owner e
  | .exitPatch p => (w.patches p).bind fun restore => w.owner restore.1
  | .enterCaptureCalls e _ => w.owner e
  | .exitCaptureCalls e c => if (w.requestCaptures e).getLast? = some c then w.owner e else none
  | .isAlive s | .stop s _ => some s

/-- The server and the endpoint of a call that adds. -/
def adds : Call → Option (ServerId × EndpointId)
  | .addHttpEndpoint s i | .enterPatchHttpEndpoint s i => some (s, .http i)
  | .addWsEndpoint s i | .enterPatchWsEndpoint s i => some (s, .ws i)
  | _ => none

/-- The server and the endpoint of a call that removes. -/
def removes : Call → Option (ServerId × EndpointId)
  | .removeHttpEndpoint s i | .exitPatchHttpEndpoint s i => some (s, .http i)
  | .removeWsEndpoint s i | .exitPatchWsEndpoint s i => some (s, .ws i)
  | _ => none

theorem adds_of_removes {c : Call} {p : ServerId × EndpointId} (h : removes c = some p) :
    adds c = none := by
  cases c <;> first | rfl | cases h

/-- The call checks before it has its effect. -/
def checksFirst : Call → Bool
  | .exitPatch _ | .exitCaptureCalls _ _ | .stop _ _ => false
  | _ => true

/-- The effect of a call that enters something, made once nothing is pending. -/
inductive EntryEffect (cfg : Setup) (w : World) : Call → World → Prop
  | add {c : Call} {s : ServerId} {e : EndpointId} {rt : Route} (hc : adds c = some (s, e))
      (howner : w.owner e = none) (hrt : rt.target = e) :
      EntryEffect cfg w c ((w.setRoutes s (w.routes s ++ [rt])).setOwner e (some s))
  | remove {c : Call} {s : ServerId} {e : EndpointId} {i : ℕ} (hc : removes c = some (s, e))
      (howner : w.owner e = some s)
      (hfound : (w.routes s).findIdx? (fun rt => decide (rt.target = e)) = some i) :
      EntryEffect cfg w c ((w.setRoutes s ((w.routes s).eraseIdx i)).setOwner e none)
  | patch (e : EndpointId) (p : PatchId) (sideEffect : SideEffectArg) :
      EntryEffect cfg w (.patch e p sideEffect)
        ((w.setSideEffect e (bindSideEffect e sideEffect)).setPatch p (e, w.sideEffect e))
  | captureHttp (i : HttpId) (c : CaptureId) (hauto : (cfg.http i).autoReadBody = true) :
      EntryEffect cfg w (.enterCaptureCalls (.http i) c)
        ((w.setCalls i c []).setCaptures (.http i) (w.requestCaptures (.http i) ++ [c]))
  | captureWs (i : WsId) (c : CaptureId) :
      EntryEffect cfg w (.enterCaptureCalls (.ws i) c)
        ((w.setTranscripts i c []).setCaptures (.ws i) (w.requestCaptures (.ws i) ++ [c]))
  | isAlive (s : ServerId) : EntryEffect cfg w (.isAlive s) w
  | noPatch {p : PatchId} (hp : w.patches p = none) : EntryEffect cfg w (.exitPatch p) w

/-- The effect of a call that exits something, made before it checks. -/
inductive ExitEffect (w : World) : Call → World → Prop
  | unpatch {p : PatchId} {e : EndpointId} {f : SideEffect} (hp : w.patches p = some (e, f)) :
      ExitEffect w (.exitPatch p) (w.setSideEffect e f)
  | uncapture {e : EndpointId} {c : CaptureId} (hlast : (w.requestCaptures e).getLast? = some c) :
      ExitEffect w (.exitCaptureCalls e c) (w.setCaptures e (w.requestCaptures e).dropLast)
  | stop (s : ServerId) (stopped : Bool) :
      ExitEffect w (.stop s stopped) (w.setAlive s (w.serveThreadAlive s && !stopped))

/-- Why a call that leaves the state alone raises an error of its own. -/
inductive Refusal (cfg : Setup) (w : World) : Call → CallError → Prop
  | addedTwice {c : Call} {s : ServerId} {e : EndpointId} (hc : adds c = some (s, e))
      (howner : w.owner e ≠ none) :
      Refusal cfg w c (.runtimeError "an endpoint cannot be added twice")
  | noRoute {c : Call} {s : ServerId} {e : EndpointId} (hc : adds c = some (s, e))
      (path : String) : Refusal cfg w c (.routeError path)
  | notAdded {c : Call} {s : ServerId} {e : EndpointId} (hc : removes c = some (s, e))
      (howner : w.owner e ≠ some s) :
      Refusal cfg w c (.runtimeError "endpoint is not added to the server")
  | notFound {c : Call} {s : ServerId} {e : EndpointId} (hc : removes c = some (s, e))
      (howner : w.owner e = some s) (hfound : ∀ rt ∈ w.routes s, rt.target ≠ e) :
      Refusal cfg w c (.runtimeError "endpoint is not found in the server")
  | unowned {c : Call} (hc : checked w c = none) (hfirst : checksFirst c = true) :
      Refusal cfg w c (.attributeError "raise_from_pending")
  | noAutoRead {i : HttpId} (c : CaptureId) (hauto : (cfg.http i).autoReadBody = false) :
      Refusal cfg w (.enterCaptureCalls (.http i) c)
        (.runtimeError "cannot capture calls if auto_read_body is disabled")
  | parallel {e : EndpointId} {c : CaptureId} (hlast : (w.requestCaptures e).getLast? ≠ some c) :
      Refusal cfg w (.exitCaptureCalls e c)
        (.runtimeError "capture_calls contexts cannot be used in parallel")
  | noCapture {e : EndpointId} (c : CaptureId) (hcaptures : w.requestCaptures e = []) :
      Refusal cfg w (.exitCaptureCalls e c) .indexError

/-- The call checks no server, or one that has nothing pending. -/
def Clear (w : World) (c : Call) : Prop := ∀ s, checked w c = some s → w.pendingException s = none

/-- Everything a call can do, with its result. -/
inductive CallStep (cfg : Setup) (w : World) (c : Call) : Except CallError Unit → World → Prop
  | pendingFirst {s : ServerId} {x : Exc} (hs : checked w c = some s)
      (hx : w.pendingException s = some x) (hfirst : checksFirst c = true) :
      CallStep cfg w c (.error (.handlerError x)) (w.setPending s none)
  | refused {err : CallError} (hclear : Clear w c) (herr : Refusal cfg w c err) :
      CallStep cfg w c (.error err) w
  | entered {v : World} (hclear : Clear w c) (hv : EntryEffect cfg w c v) :
      CallStep cfg w c (.ok ()) v
  | exited {v : World} (hclear : Clear w c) (hv : ExitEffect w c v) :
      CallStep cfg w c (.ok ()) v
  | exitedUnowned {v : World} (hs : checked w c = none) (hv : ExitEffect w c v) :
      CallStep cfg w c (.error (.attributeError "raise_from_pending")) v
  | exitedPending {v : World} {s : ServerId} {x : Exc} (hs : checked w c = some s)
      (hx : w.pendingException s = some x) (hv : ExitEffect w c v) :
      CallStep cfg w c (.error (.handlerError x)) (v.setPending s none)

/-- A result of a call, as the pair that `runCall` gives. -/
def Steps (cfg : Setup) (w : World) (c : Call) (result : Except CallError Unit × World) : Prop :=
  CallStep cfg w c result.1 result.2

variable {cfg : Setup} {w : World} {c : Call} {s : ServerId} {e : EndpointId}

theorem clear_of_checked (hs : checked w c = some s) (h : w.pendingException s = none) :
    Clear w c := by
  intro t ht
  have hst : t = s := Option.some.inj (ht.symm.trans hs)
  rw [hst]
  exact h

theorem clear_of_unchecked (hs : checked w c = none) : Clear w c := by
  intro t ht
  rw [hs] at ht
  contradiction

theorem checksFirst_of_adds (hc : adds c = some (s, e)) : checksFirst c = true := by
  cases c <;> first | rfl | cases hc

theorem checksFirst_of_removes (hc : removes c = some (s, e)) : checksFirst c = true := by
  cases c <;> first | rfl | cases hc

theorem route_target {i : HttpId} {rt : Route} (h : route cfg i = .ok rt) :
    rt.target = .http i := by
  dsimp only [route] at h
  split at h
  · split at h <;> cases h <;> rfl
  · cases h

theorem webSocketRoute_target {i : WsId} {rt : Route} (h : webSocketRoute cfg i = .ok rt) :
    rt.target = .ws i := by
  dsimp only [webSocketRoute] at h
  split at h <;> cases h
  rfl

theorem route_error {i : HttpId} {err : CallError} (h : route cfg i = .error err) :
    ∃ path, err = .routeError path := by
  dsimp only [route] at h
  split at h
  · split at h <;> cases h
  · cases h
    exact ⟨_, rfl⟩

theorem webSocketRoute_error {i : WsId} {err : CallError} (h : webSocketRoute cfg i = .error err) :
    ∃ path, err = .routeError path := by
  dsimp only [webSocketRoute] at h
  split at h <;> cases h
  exact ⟨_, rfl⟩

theorem add_steps {rt : Except CallError Route} (hc : adds c = some (s, e))
    (hs : checked w c = some s) (htarget : ∀ r, rt = .ok r → r.target = e)
    (herror : ∀ err, rt = .error err → ∃ path, err = .routeError path) :
    Steps cfg w c (discard (addEndpoint s e rt) w) := by
  rw [Act.discard_apply]
  cases hx : w.pendingException s with
  | some x =>
    rw [addEndpoint_pending rt hx]
    exact .pendingFirst hs hx (checksFirst_of_adds hc)
  | none =>
    have hclear := clear_of_checked hs hx
    rw [addEndpoint_apply rt hx]
    split
    · rename_i howner
      exact .refused hclear (.addedTwice hc (Option.isSome_iff_ne_none.mp howner))
    · rename_i howner
      cases hrt : rt with
      | error err =>
        obtain ⟨path, rfl⟩ := herror err hrt
        exact .refused hclear (.noRoute hc path)
      | ok r =>
        have hnone : w.owner e = none := by simpa using howner
        exact .entered hclear (.add hc hnone (htarget r hrt))

theorem remove_steps {found : Route → Bool} (hc : removes c = some (s, e))
    (hs : checked w c = some s) (hfound : ∀ rt, found rt = true ↔ rt.target = e) :
    Steps cfg w c (removeEndpoint s e found w) := by
  have heq : found = fun rt => decide (rt.target = e) := by
    funext rt
    exact Bool.eq_iff_iff.mpr ((hfound rt).trans decide_eq_true_iff.symm)
  cases hx : w.pendingException s with
  | some x =>
    rw [removeEndpoint_pending found hx]
    exact .pendingFirst hs hx (checksFirst_of_removes hc)
  | none =>
    have hclear := clear_of_checked hs hx
    rw [removeEndpoint_apply found hx]
    split
    · rename_i howner
      exact .refused hclear (.notAdded hc (by simpa using howner))
    · rename_i howner
      have howner : w.owner e = some s := by simpa using howner
      rw [heq]
      cases hi : (w.routes s).findIdx? (fun rt => decide (rt.target = e)) with
      | none =>
        refine .refused hclear (.notFound hc howner ?_)
        intro rt hrt
        simpa using List.findIdx?_eq_none_iff.mp hi rt hrt
      | some i => exact .entered hclear (.remove hc howner hi)

theorem patch_steps (e : EndpointId) (p : PatchId) (f : SideEffectArg) :
    Steps cfg w (.patch e p f) (discard (patch e p f) w) := by
  rw [Act.discard_apply]
  cases ho : w.owner e with
  | none =>
    rw [patch, Act.bind_error (ownerRaiseFromPending_none ho)]
    exact .refused (clear_of_unchecked ho) (.unowned ho rfl)
  | some s =>
    cases hx : w.pendingException s with
    | some x =>
      rw [patch, Act.bind_error ((ownerRaiseFromPending_some ho).trans (raiseFromPending_some hx))]
      exact .pendingFirst ho hx rfl
    | none =>
      rw [patch, Act.bind_ok ((ownerRaiseFromPending_some ho).trans (raiseFromPending_none hx))]
      exact .entered (clear_of_checked ho hx) (.patch e p f)

theorem capture_steps {k : CaptureId} {autoReadBody : Bool} {newList : World → World}
    (hs : checked w c = w.owner e) (hfirst : checksFirst c = true)
    (hnew : autoReadBody = true → EntryEffect cfg w c
      ((newList w).setCaptures e ((newList w).requestCaptures e ++ [k])))
    (hrefuse : autoReadBody = false → Refusal cfg w c
      (.runtimeError "cannot capture calls if auto_read_body is disabled")) :
    Steps cfg w c (discard (enterCapture e k autoReadBody newList) w) := by
  rw [Act.discard_apply]
  cases ho : w.owner e with
  | none =>
    rw [enterCapture, Act.bind_error (ownerRaiseFromPending_none ho)]
    exact .refused (clear_of_unchecked (hs.trans ho)) (.unowned (hs.trans ho) hfirst)
  | some s =>
    cases hx : w.pendingException s with
    | some x =>
      rw [enterCapture,
        Act.bind_error ((ownerRaiseFromPending_some ho).trans (raiseFromPending_some hx))]
      exact .pendingFirst (hs.trans ho) hx hfirst
    | none =>
      have hclear := clear_of_checked (hs.trans ho) hx
      rw [enterCapture,
        Act.bind_ok ((ownerRaiseFromPending_some ho).trans (raiseFromPending_none hx)),
        Act.raiseIf_bind]
      cases autoReadBody with
      | true => exact .entered hclear (hnew rfl)
      | false => exact .refused hclear (hrefuse rfl)

/-- An exit has its effect and then checks the owner of its endpoint. -/
theorem exit_steps {v : World} (hv : ExitEffect w c v) (hs : checked w c = w.owner e)
    (howner : v.owner = w.owner) (hpending : v.pendingException = w.pendingException) :
    Steps cfg w c (ownerRaiseFromPending e v) := by
  cases ho : w.owner e with
  | none =>
    rw [ownerRaiseFromPending_none (by rw [howner]; exact ho)]
    exact .exitedUnowned (hs.trans ho) hv
  | some s =>
    rw [ownerRaiseFromPending_some (by rw [howner]; exact ho)]
    cases hx : w.pendingException s with
    | some x =>
      rw [raiseFromPending_some (by rw [hpending]; exact hx)]
      exact .exitedPending (hs.trans ho) hx hv
    | none =>
      rw [raiseFromPending_none (by rw [hpending]; exact hx)]
      exact .exited (clear_of_checked (hs.trans ho) hx) hv

theorem exitPatch_steps (p : PatchId) : Steps cfg w (.exitPatch p) (exitPatch p w) := by
  rw [exitPatch, Act.get_bind]
  cases hp : w.patches p with
  | none =>
    have hs : checked w (.exitPatch p) = none := by simp [checked, hp]
    exact .entered (clear_of_unchecked hs) (.noPatch hp)
  | some restore =>
    obtain ⟨e, f⟩ := restore
    have hs : checked w (.exitPatch p) = w.owner e := by simp [checked, hp]
    exact exit_steps (.unpatch hp) hs rfl rfl

theorem exitCaptureCalls_steps (e : EndpointId) (k : CaptureId) :
    Steps cfg w (.exitCaptureCalls e k) (exitCaptureCalls e k w) := by
  rw [exitCaptureCalls, Act.get_bind]
  cases hlast : (w.requestCaptures e).getLast? with
  | none =>
    have hs : checked w (.exitCaptureCalls e k) = none := by simp [checked, hlast]
    exact .refused (clear_of_unchecked hs) (.noCapture k (List.getLast?_eq_none_iff.mp hlast))
  | some last =>
    simp only [Act.raiseIf_bind]
    by_cases heq : last = k
    · subst heq
      have hs : checked w (.exitCaptureCalls e last) = w.owner e := by simp [checked, hlast]
      rw [if_neg (by simp)]
      exact exit_steps (.uncapture hlast) hs rfl rfl
    · have hne : (w.requestCaptures e).getLast? ≠ some k := by
        rw [hlast]
        exact fun h => heq (Option.some.inj h)
      have hs : checked w (.exitCaptureCalls e k) = none := by simp [checked, hne]
      rw [if_pos (by simpa using heq)]
      exact .refused (clear_of_unchecked hs) (.parallel hne)

theorem isAlive_steps (s : ServerId) : Steps cfg w (.isAlive s) (discard (isAlive s) w) := by
  rw [Act.discard_apply]
  cases hx : w.pendingException s with
  | some x =>
    rw [isAlive, Act.bind_error (raiseFromPending_some hx)]
    exact .pendingFirst rfl hx rfl
  | none =>
    rw [isAlive, Act.bind_ok (raiseFromPending_none hx)]
    exact .entered (clear_of_checked rfl hx) (.isAlive s)

theorem stop_steps (s : ServerId) (stopped : Bool) :
    Steps cfg w (.stop s stopped) (stop s stopped w) := by
  rw [stop, Act.modify_bind]
  have hsame : (w.setAlive s (w.serveThreadAlive s && !stopped)).pendingException s =
      w.pendingException s := rfl
  cases hx : w.pendingException s with
  | some x =>
    rw [raiseFromPending_some (hsame.trans hx)]
    exact .exitedPending rfl hx (.stop s stopped)
  | none =>
    rw [raiseFromPending_none (hsame.trans hx)]
    exact .exited (clear_of_checked rfl hx) (.stop s stopped)

/-- The inversion of `runCall`. -/
theorem runCall_steps (cfg : Setup) (w : World) (c : Call) : Steps cfg w c (runCall cfg c w) := by
  cases c with
  | addHttpEndpoint s i | enterPatchHttpEndpoint s i =>
    exact add_steps rfl rfl (fun _ => route_target) (fun _ => route_error)
  | addWsEndpoint s i | enterPatchWsEndpoint s i =>
    exact add_steps rfl rfl (fun _ => webSocketRoute_target) (fun _ => webSocketRoute_error)
  | removeHttpEndpoint s i | exitPatchHttpEndpoint s i =>
    exact remove_steps rfl rfl (Route.isRouteOf_iff i)
  | removeWsEndpoint s i | exitPatchWsEndpoint s i =>
    exact remove_steps rfl rfl (Route.isWebSocketRouteOf_iff i)
  | patch e p f => exact patch_steps e p f
  | exitPatch p => exact exitPatch_steps p
  | enterCaptureCalls e k =>
    cases e with
    | http i => exact capture_steps rfl rfl (.captureHttp i k) (.noAutoRead k)
    | ws i => exact capture_steps rfl rfl (fun _ => .captureWs i k) (fun h => Bool.noConfusion h)
  | exitCaptureCalls e k => exact exitCaptureCalls_steps e k
  | isAlive s => exact isAlive_steps s
  | stop s stopped => exact stop_steps s stopped

end Yellowbox.WebServerCallSteps
