import Mathlib.Data.List.Count
import Yellowbox.WebServer.CallSteps
import Yellowbox.WebServer.Steps

/-!
Everything a handler of the server thread can do between two awaits, stated
once, and with `CallSteps` everything that one step of the system can do.
-/
namespace Yellowbox.WebServerHandlerSteps

open WebServerState WebServerCalls WebServerHandlers WebServerSteps WebServerCallSteps

/-- How an HTTP handler goes on from its side effect with the response `ret`. -/
inductive Resumed (cfg : Setup) (w : World) (r : RequestId) (i : HttpId) (t : Time)
    (ret : Response) : Obs → World → Prop
  | body (hauto : (cfg.http i).autoReadBody = true) :
      Resumed cfg w r i t ret .suspended (w.setHandler r (some (.http i t (.body ret))))
  | record (hauto : (cfg.http i).autoReadBody = false) :
      Resumed cfg w r i t ret .suspended (w.setHandler r (some (.http i t (.record ret))))
  | done (hauto : (cfg.http i).autoReadBody = false) (hnone : w.requestCaptures (.http i) = []) :
      Resumed cfg w r i t ret (.completed ret) (w.setHandler r none)

/-- Everything that the event of a handler can do, with what it shows. -/
inductive HandlerStep (cfg : Setup) (w : World) : Event → Obs → World → Prop
  | ignored {ev : Event} : HandlerStep cfg w ev .ignored w
  | unowned {r : RequestId} {i : HttpId} {now : Time} (hr : w.handlers r = none)
      (howner : w.owner (.http i) = none) :
      HandlerStep cfg w (.request r i now)
        (.failed (.runtimeError "endpoint must be assigned to a webserver")) w
  | refused {r : RequestId} {i : HttpId} {now : Time} {s : ServerId} {x : Exc} {ret : Response}
      (hr : w.handlers r = none) (howner : w.owner (.http i) = some s)
      (hx : w.pendingException s = some x) :
      HandlerStep cfg w (.request r i now) (.refused ret) w
  | awaiting {r : RequestId} {i : HttpId} {now : Time} {s : ServerId} {f : ℕ}
      (hr : w.handlers r = none) (howner : w.owner (.http i) = some s)
      (hclear : w.pendingException s = none) (hf : w.sideEffect (.http i) = .callable f) :
      HandlerStep cfg w (.request r i now) .suspended
        (w.setHandler r (some (.http i now .sideEffect)))
  | responded {r : RequestId} {i : HttpId} {now : Time} {s : ServerId} {ret : Response}
      {o : Obs} {v : World} (hr : w.handlers r = none) (howner : w.owner (.http i) = some s)
      (hclear : w.pendingException s = none) (hf : w.sideEffect (.http i) = .response ret)
      (hv : Resumed cfg w r i now ret o v) : HandlerStep cfg w (.request r i now) o v
  | returned {r : RequestId} {i : HttpId} {t : Time} {ret : Response} {o : Obs} {v : World}
      (hr : w.handlers r = some (.http i t .sideEffect)) (hv : Resumed cfg w r i t ret o v) :
      HandlerStep cfg w (.sideEffect r (.ok ret)) o v
  | raised {r : RequestId} {i : HttpId} {t : Time} {s : ServerId} {x : Exc} {ret : Response}
      (hr : w.handlers r = some (.http i t .sideEffect)) (hx : x.isException = true)
      (howner : w.owner (.http i) = some s) :
      HandlerStep cfg w (.sideEffect r (.error x)) (.caught ret)
        ((w.setHandler r none).setPending s ((some x).filter Exc.truthy))
  | dropped {r : RequestId} {i : HttpId} {t : Time} {x : Exc}
      (hr : w.handlers r = some (.http i t .sideEffect)) (howner : w.owner (.http i) = none) :
      HandlerStep cfg w (.sideEffect r (.error x)) (.failed (.attributeError "__name__"))
        (w.setHandler r none)
  | uncaught {r : RequestId} {i : HttpId} {t : Time} {x : Exc}
      (hr : w.handlers r = some (.http i t .sideEffect)) (hx : x.isException = false) :
      HandlerStep cfg w (.sideEffect r (.error x)) (.failed (.uncaught x)) (w.setHandler r none)
  | recorded {r : RequestId} {i : HttpId} {t : Time} {ret : Response} {p : Phase}
      (hr : w.handlers r = some (.http i t p)) (hp : p = .body ret ∨ p = .record ret) :
      HandlerStep cfg w (.body r true) (.completed ret)
        (appendRecorded i ⟨r, t⟩ (w.requestCaptures (.http i)) (w.setHandler r none))
  | disconnected {r : RequestId} {i : HttpId} {t : Time} {ret : Response} {p : Phase}
      (hr : w.handlers r = some (.http i t p)) (hp : p = .body ret ∨ p = .record ret) :
      HandlerStep cfg w (.body r false) (.failed .clientDisconnect) (w.setHandler r none)
  | wsRefused {r : RequestId} {i : WsId} (hr : w.handlers r = none) :
      HandlerStep cfg w (.connect r i) (.closed (some wsInternalError))
        (appendTranscript i r (w.requestCaptures (.ws i)) w)
  | wsAwaiting {r : RequestId} {i : WsId} (hr : w.handlers r = none) :
      HandlerStep cfg w (.connect r i) .suspended
        ((appendTranscript i r (w.requestCaptures (.ws i)) w).setHandler r (some (.ws i)))
  | wsEnded {r : RequestId} {i : WsId} {result : Except Exc (Option ℕ)} {code : Option ℕ}
      (hr : w.handlers r = some (.ws i))
      (hresult : wsOutcome (cfg.ws i).allowAbruptDisconnect result = (none, code)) :
      HandlerStep cfg w (.wsSideEffect r result) (.closed code) (w.setHandler r none)
  | wsRaised {r : RequestId} {i : WsId} {s : ServerId} {result : Except Exc (Option ℕ)} {x : Exc}
      {code : Option ℕ} (hr : w.handlers r = some (.ws i)) (hx : x.isException = true)
      (howner : w.owner (.ws i) = some s)
      (hresult : wsOutcome (cfg.ws i).allowAbruptDisconnect result = (some x, code)) :
      HandlerStep cfg w (.wsSideEffect r result) (.closed code)
        ((w.setHandler r none).setPending s ((some x).filter Exc.truthy))
  | wsDropped {r : RequestId} {i : WsId} {result : Except Exc (Option ℕ)} {x : Exc}
      {code : Option ℕ} (hr : w.handlers r = some (.ws i)) (howner : w.owner (.ws i) = none)
      (hresult : wsOutcome (cfg.ws i).allowAbruptDisconnect result = (some x, code)) :
      HandlerStep cfg w (.wsSideEffect r result) (.failed (.attributeError "__name__"))
        (w.setHandler r none)
  | wsUncaught {r : RequestId} {i : WsId} {result : Except Exc (Option ℕ)} {x : Exc}
      {code : Option ℕ} (hr : w.handlers r = some (.ws i)) (hx : x.isException = false)
      (hresult : wsOutcome (cfg.ws i).allowAbruptDisconnect result = (some x, code)) :
      HandlerStep cfg w (.wsSideEffect r result) (.failed (.uncaught x)) (w.setHandler r none)

/-- The loop over the active captures appends once for each occurrence. -/
theorem appendRecorded_eq (i : HttpId) (recorded : RecordedRequest) (cs : List CaptureId)
    (w : World) :
    appendRecorded i recorded cs w =
      w.setCallLists i fun c => w.calls i c ++ List.replicate (cs.count c) recorded := by
  induction cs generalizing w with
  | nil => simp [appendRecorded, World.setCallLists]
  | cons d cs ih =>
    have hcalls : (fun c => (w.setCalls i d (w.calls i d ++ [recorded])).calls i c ++
        List.replicate (cs.count c) recorded) =
        fun c => w.calls i c ++ List.replicate ((d :: cs).count c) recorded := by
      funext c
      by_cases hc : c = d
      · subst hc
        simp [World.setCalls, World.setCallLists, List.replicate_succ]
      · have hdc : d ≠ c := Ne.symm hc
        simp [World.setCalls, World.setCallLists, hc, List.count_cons_of_ne hdc]
    rw [appendRecorded, ih, hcalls]
    simp [World.setCalls, World.setCallLists]

/-- The transcript lists are all that the sinks of a connection change. -/
theorem appendTranscript_eq (i : WsId) (r : RequestId) (cs : List CaptureId) (w : World) :
    ∃ lists, appendTranscript i r cs w = { w with transcripts := lists } := by
  induction cs generalizing w with
  | nil => exact ⟨w.transcripts, rfl⟩
  | cons c cs ih => exact ih (w.setTranscripts i c (w.transcripts i c ++ [r]))

variable {cfg : Setup} {w : World}

theorem afterSideEffect_resumed (r : RequestId) (i : HttpId) (t : Time) (ret : Response) :
    Resumed cfg w r i t ret (afterSideEffect cfg r i t ret w).2
      (afterSideEffect cfg r i t ret w).1 := by
  unfold afterSideEffect
  by_cases hauto : (cfg.http i).autoReadBody = true
  · rw [if_pos hauto]
    exact .body hauto
  · have hauto' : (cfg.http i).autoReadBody = false := by simpa using hauto
    rw [if_neg hauto]
    by_cases hne : w.requestCaptures (.http i) ≠ []
    · rw [if_pos hne]
      exact .record hauto'
    · rw [if_neg hne]
      exact .done hauto' (not_not.mp hne)

theorem request_steps (r : RequestId) (i : HttpId) (now : Time) :
    HandlerStep cfg w (.request r i now) (step cfg w (.request r i now)).2
      (step cfg w (.request r i now)).1 := by
  simp only [step]
  cases hr : w.handlers r with
  | some h => exact .ignored
  | none =>
    simp only [httpGet]
    cases howner : w.owner (.http i) with
    | none => exact .unowned hr howner
    | some s =>
      simp only
      cases hx : w.pendingException s with
      | some x => exact .refused hr howner hx
      | none =>
        simp only
        cases hf : w.sideEffect (.http i) with
        | response ret => exact .responded hr howner hx hf (afterSideEffect_resumed r i now ret)
        | callable f => exact .awaiting hr howner hx hf

theorem sideEffect_steps (r : RequestId) (result : Except Exc Response) :
    HandlerStep cfg w (.sideEffect r result) (step cfg w (.sideEffect r result)).2
      (step cfg w (.sideEffect r result)).1 := by
  simp only [step]
  split
  · rename_i i t hr
    cases result with
    | ok ret => exact .returned hr (afterSideEffect_resumed r i t ret)
    | error x =>
      cases hx : x.isException with
      | false =>
        simp only [httpSideEffect, storeException, hx, Bool.false_eq_true, if_false]
        exact .uncaught hr hx
      | true =>
        simp only [httpSideEffect, storeException, hx, if_true, World.setHandler]
        cases howner : w.owner (.http i) with
        | none => exact .dropped hr howner
        | some s => exact .raised hr hx howner
  · exact .ignored

theorem body_steps (r : RequestId) (received : Bool) :
    HandlerStep cfg w (.body r received) (step cfg w (.body r received)).2
      (step cfg w (.body r received)).1 := by
  simp only [step]
  split
  · rename_i i t ret hr
    cases received with
    | true => exact .recorded hr (Or.inl rfl)
    | false => exact .disconnected hr (Or.inl rfl)
  · rename_i i t ret hr
    cases received with
    | true => exact .recorded hr (Or.inr rfl)
    | false => exact .disconnected hr (Or.inr rfl)
  · exact .ignored

theorem connect_steps (r : RequestId) (i : WsId) :
    HandlerStep cfg w (.connect r i) (step cfg w (.connect r i)).2
      (step cfg w (.connect r i)).1 := by
  simp only [step]
  cases hr : w.handlers r with
  | some h => exact .ignored
  | none =>
    simp only [wsGet]
    split
    · exact .wsRefused hr
    · split
      · exact .wsRefused hr
      · exact .wsAwaiting hr

theorem wsSideEffect_steps (r : RequestId) (result : Except Exc (Option ℕ)) :
    HandlerStep cfg w (.wsSideEffect r result) (step cfg w (.wsSideEffect r result)).2
      (step cfg w (.wsSideEffect r result)).1 := by
  simp only [step]
  split
  · rename_i i hr
    simp only [wsSideEffect]
    split
    · rename_i code hresult
      exact .wsEnded hr hresult
    · rename_i x code hresult
      cases hx : x.isException with
      | false =>
        simp only [storeException, hx, Bool.false_eq_true, if_false]
        exact .wsUncaught hr hx hresult
      | true =>
        simp only [storeException, hx, if_true, World.setHandler]
        cases howner : w.owner (.ws i) with
        | none => exact .wsDropped hr howner hresult
        | some s => exact .wsRaised hr hx howner hresult
  · exact .ignored

/-- What no handler changes. -/
structure HandlerFrame (w v : World) : Prop where
  routes : v.routes = w.routes
  owner : v.owner = w.owner
  sideEffect : v.sideEffect = w.sideEffect
  requestCaptures : v.requestCaptures = w.requestCaptures
  patches : v.patches = w.patches

theorem HandlerFrame.refl (w : World) : HandlerFrame w w := ⟨rfl, rfl, rfl, rfl, rfl⟩

theorem HandlerFrame.setHandler (r : RequestId) (h : Option Handler) :
    HandlerFrame w (w.setHandler r h) := ⟨rfl, rfl, rfl, rfl, rfl⟩

theorem HandlerFrame.setPending {v : World} (h : HandlerFrame w v) (s : ServerId)
    (x : Option Exc) : HandlerFrame w (v.setPending s x) :=
  ⟨h.routes, h.owner, h.sideEffect, h.requestCaptures, h.patches⟩

theorem Resumed.frame {r : RequestId} {i : HttpId} {t : Time} {ret : Response} {o : Obs}
    {v : World} (h : Resumed cfg w r i t ret o v) : HandlerFrame w v := by
  cases h <;> exact .setHandler r _

theorem HandlerStep.frame {ev : Event} {o : Obs} {v : World} (h : HandlerStep cfg w ev o v) :
    HandlerFrame w v := by
  cases h with
  | ignored | unowned | refused => exact .refl w
  | awaiting | dropped | uncaught | disconnected | wsEnded | wsDropped | wsUncaught =>
    exact .setHandler _ _
  | responded hr howner hclear hf hv => exact hv.frame
  | returned hr hv => exact hv.frame
  | raised hr hx howner => exact .setPending (.setHandler _ _) _ _
  | wsRaised hr hx howner hresult => exact .setPending (.setHandler _ _) _ _
  | recorded hr hp =>
    rw [appendRecorded_eq]
    exact ⟨rfl, rfl, rfl, rfl, rfl⟩
  | @wsRefused r i hr =>
    obtain ⟨lists, hlists⟩ := appendTranscript_eq i r (w.requestCaptures (.ws i)) w
    rw [hlists]
    exact ⟨rfl, rfl, rfl, rfl, rfl⟩
  | @wsAwaiting r i hr =>
    obtain ⟨lists, hlists⟩ := appendTranscript_eq i r (w.requestCaptures (.ws i)) w
    rw [hlists]
    exact ⟨rfl, rfl, rfl, rfl, rfl⟩

/-- What a call shows is its result. -/
def callObs : Except CallError Unit → Obs
  | .ok () => .returned
  | .error err => .raised err

theorem callObs_raised {result : Except CallError Unit} {err : CallError} :
    callObs result = .raised err ↔ result = .error err := by
  rcases result with _ | _ <;> simp [callObs]

theorem callObs_returned {result : Except CallError Unit} :
    callObs result = .returned ↔ result = .ok () := by
  rcases result with _ | _ <;> simp [callObs]

theorem step_call (c : Call) :
    step cfg w (.call c) = ((runCall cfg c w).2, callObs (runCall cfg c w).1) := by
  simp only [step]
  rcases runCall cfg c w with ⟨_ | _, _⟩ <;> rfl

/-- Everything that a step made by a main-thread call can do. -/
theorem call_cases (cfg : Setup) (w : World) (c : Call) :
    ∃ result, CallStep cfg w c result (step cfg w (.call c)).1 ∧
      (step cfg w (.call c)).2 = callObs result := by
  rw [step_call]
  exact ⟨(runCall cfg c w).1, runCall_steps cfg w c, rfl⟩

/-- Everything that one step of the system can do. -/
theorem step_cases (cfg : Setup) (w : World) (ev : Event) :
    (∃ c result, ev = .call c ∧ CallStep cfg w c result (step cfg w ev).1 ∧
      (step cfg w ev).2 = callObs result) ∨
    ((∀ c, ev ≠ .call c) ∧ HandlerStep cfg w ev (step cfg w ev).2 (step cfg w ev).1) := by
  cases ev with
  | call c =>
    obtain ⟨result, hcall, hobs⟩ := call_cases cfg w c
    exact Or.inl ⟨c, result, rfl, hcall, hobs⟩
  | request r i now => exact Or.inr ⟨fun _ h => Event.noConfusion h, request_steps r i now⟩
  | sideEffect r result => exact Or.inr ⟨fun _ h => Event.noConfusion h, sideEffect_steps r result⟩
  | body r received => exact Or.inr ⟨fun _ h => Event.noConfusion h, body_steps r received⟩
  | connect r i => exact Or.inr ⟨fun _ h => Event.noConfusion h, connect_steps r i⟩
  | wsSideEffect r result =>
    exact Or.inr ⟨fun _ h => Event.noConfusion h, wsSideEffect_steps r result⟩

end Yellowbox.WebServerHandlerSteps
