import Yellowbox.WebServer.HandlerSteps

/-!
Programs of the main thread that enter and leave `patch` and `capture_calls` only by
`with`. Their syntax is nested by construction; between any two steps the server thread
may run, and a program may look at everything before it goes on. What a scope changes
of the side effects and of the active captures is undone however the scope is left.
-/
namespace Yellowbox.WebServerScopes

open Effects WebServerState WebServerCalls WebServerSteps WebServerCallSteps
open WebServerHandlerSteps

/-- What a program raises: the error of a call, or an exception of its own. -/
inductive Raised
  | call (err : CallError)
  | own (ex : Exc)

/-- The calls that enter or exit a patch or a capture. -/
def isScoped : Call → Bool
  | .patch _ _ _ | .exitPatch _ | .enterCaptureCalls _ _ | .exitCaptureCalls _ _ => true
  | _ => false

/-- What stands after `with`, inside the patches of `live`. `brokenPatch` is a patch by a
side effect factory that raises. -/
inductive Scope (live : List PatchId)
  | patch (e : EndpointId) (p : PatchId) (hp : p ∉ live) (sideEffect : SideEffectArg)
  | brokenPatch (e : EndpointId) (ex : Exc)
  | captureCalls (e : EndpointId) (c : CaptureId)

namespace Scope

variable {live : List PatchId}

/-- The patches that are live in the body: an `EndpointPatch` object is a new one. -/
def inner : Scope live → List PatchId
  | patch _ p _ _ => p :: live
  | brokenPatch _ _ | captureCalls _ _ => live

def endpoint : Scope live → EndpointId
  | patch e _ _ _ | brokenPatch e _ | captureCalls e _ => e

end Scope

/-- A program inside the patches of `live`. -/
inductive Program : List PatchId → Type
  | pass {live : List PatchId} : Program live
  | raise {live : List PatchId} (err : Raised) : Program live
  | call {live : List PatchId} (c : Call) (hc : isScoped c = false) : Program live
  | serve {live : List PatchId} (ev : Event) (hev : ∀ c, ev ≠ .call c) : Program live
  | seq {live : List PatchId} (first second : Program live) : Program live
  | tryExcept {live : List PatchId} (body : Program live) (handler : Raised → Program live) :
      Program live
  | look {live : List PatchId} (next : World → Program live) : Program live
  | withScope {live : List PatchId} (scope : Scope live) (body : Program scope.inner) :
      Program live

/-- What the library does, as a statement of a program. -/
def statement (x : Act World CallError Unit) : Act World Raised Unit := fun w =>
  ((x w).1.mapError .call, (x w).2)

namespace Scope

variable {live : List PatchId}

/-- Up to the body. A factory is called after the check and before the assignment. -/
def enter (cfg : Setup) : Scope live → Act World Raised Unit
  | patch e p _ sideEffect => statement (runCall cfg (.patch e p sideEffect))
  | brokenPatch e ex => statement (ownerRaiseFromPending e) >>= fun _ => Act.raise (.own ex)
  | captureCalls e c => statement (runCall cfg (.enterCaptureCalls e c))

/-- From the body on; a patch that was not made has no exit. -/
def exit (cfg : Setup) : Scope live → Act World Raised Unit
  | patch _ p _ _ => statement (runCall cfg (.exitPatch p))
  | brokenPatch _ _ => pure ()
  | captureCalls e c => statement (runCall cfg (.exitCaptureCalls e c))

end Scope

def Program.run (cfg : Setup) {live : List PatchId} : Program live → Act World Raised Unit
  | .pass => pure ()
  | .raise err => Act.raise err
  | .call c _ => statement (runCall cfg c)
  | .serve ev _ => Act.modify fun w => (step cfg w ev).1
  | .seq first second => first.run cfg >>= fun _ => second.run cfg
  | .tryExcept body handler => Act.handle (body.run cfg) fun err => (handler err).run cfg
  | .look next => Act.get >>= fun w => (next w).run cfg
  | .withScope scope body => Act.withScope (scope.enter cfg) (scope.exit cfg) (body.run cfg)

/-- The side effects, the active captures and the live patches are as in `w`. -/
structure Restored (live : List PatchId) (w v : World) : Prop where
  sideEffect : v.sideEffect = w.sideEffect
  requestCaptures : v.requestCaptures = w.requestCaptures
  patches : ∀ p ∈ live, v.patches p = w.patches p

variable {cfg : Setup} {live : List PatchId} {w v u : World}

theorem Restored.refl (live : List PatchId) (w : World) : Restored live w w :=
  ⟨rfl, rfl, fun _ _ => rfl⟩

theorem Restored.trans (h : Restored live w v) (h' : Restored live v u) : Restored live w u where
  sideEffect := h'.sideEffect.trans h.sideEffect
  requestCaptures := h'.requestCaptures.trans h.requestCaptures
  patches p hp := (h'.patches p hp).trans (h.patches p hp)

theorem HandlerFrame.restored (h : HandlerFrame w v) (live : List PatchId) :
    Restored live w v where
  sideEffect := h.sideEffect
  requestCaptures := h.requestCaptures
  patches p _ := congrFun h.patches p

theorem restored_setPending (s : ServerId) (x : Option Exc) :
    Restored live w (w.setPending s x) := ⟨rfl, rfl, fun _ _ => rfl⟩

theorem entryEffect_restored {c : Call} (hc : isScoped c = false) (h : EntryEffect cfg w c v) :
    Restored live w v := by
  cases h with
  | add | remove => exact ⟨rfl, rfl, fun _ _ => rfl⟩
  | isAlive => exact .refl live w
  | patch | captureHttp | captureWs | noPatch => simp [isScoped] at hc

theorem exitEffect_restored {c : Call} (hc : isScoped c = false) (h : ExitEffect w c v) :
    Restored live w v := by
  cases h with
  | stop => exact ⟨rfl, rfl, fun _ _ => rfl⟩
  | unpatch | uncapture => simp [isScoped] at hc

theorem callStep_restored {c : Call} {result : Except CallError Unit} (hc : isScoped c = false)
    (h : CallStep cfg w c result v) : Restored live w v := by
  cases h with
  | pendingFirst => exact restored_setPending _ _
  | refused => exact .refl live w
  | entered hclear hv => exact entryEffect_restored hc hv
  | exited hclear hv => exact exitEffect_restored hc hv
  | exitedUnowned hs hv => exact exitEffect_restored hc hv
  | exitedPending hs hx hv => exact (exitEffect_restored hc hv).trans (restored_setPending _ _)

theorem statement_ok {x : Act World CallError Unit} (h : statement x w = (.ok (), v)) :
    x w = (.ok (), v) := by
  unfold statement at h
  rcases hx : x w with ⟨err | _, t⟩
  · rw [hx] at h
    cases h
  · rw [hx] at h
    cases h
    rfl

theorem statement_error {x : Act World CallError Unit} {err : Raised}
    (h : statement x w = (.error err, v)) : ∃ callError, x w = (.error callError, v) := by
  unfold statement at h
  rcases hx : x w with ⟨callError | _, t⟩
  · rw [hx] at h
    cases h
    exact ⟨callError, rfl⟩
  · rw [hx] at h
    cases h

theorem exitEffect_checksLast {c : Call} (h : ExitEffect w c v) : checksFirst c = false := by
  cases h <;> rfl

/-- A call that checks first and raises has had no effect. -/
theorem callStep_raised {c : Call} {err : CallError} (hfirst : checksFirst c = true)
    (h : CallStep cfg w c (.error err) v) (live : List PatchId) : Restored live w v := by
  cases h with
  | pendingFirst => exact restored_setPending _ _
  | refused => exact .refl live w
  | exitedUnowned hs hv => simp [exitEffect_checksLast hv] at hfirst
  | exitedPending hs hx hv => simp [exitEffect_checksLast hv] at hfirst

/-- A call that checks last and is not refused has its effect, whether it raises or not. -/
theorem callStep_exited {c : Call} {result : Except CallError Unit}
    (hlast : checksFirst c = false) (hentry : ∀ t, ¬ EntryEffect cfg w c t)
    (hrefusal : ∀ err, ¬ Refusal cfg w c err) (h : CallStep cfg w c result v) :
    ∃ t, ExitEffect w c t ∧ ∀ live, Restored live t v := by
  cases h with
  | pendingFirst hs hx hfirst => simp [hlast] at hfirst
  | refused hclear herr => exact absurd herr (hrefusal _)
  | entered hclear hv => exact absurd hv (hentry _)
  | exited hclear hv => exact ⟨v, hv, fun live => .refl live v⟩
  | exitedUnowned hs hv => exact ⟨v, hv, fun live => .refl live v⟩
  | exitedPending hs hx hv => exact ⟨_, hv, fun live => restored_setPending _ _⟩

theorem entryEffect_exitPatch {p : PatchId} (h : EntryEffect cfg w (.exitPatch p) v) :
    w.patches p = none := by
  cases h with
  | add hc => simp [adds] at hc
  | remove hc => simp [removes] at hc
  | noPatch hp => exact hp

theorem not_refusal_exitPatch {p : PatchId} (err : CallError) :
    ¬ Refusal cfg w (.exitPatch p) err := by
  intro h
  cases h with
  | addedTwice hc | noRoute hc => simp [adds] at hc
  | notAdded hc | notFound hc => simp [removes] at hc
  | unowned hs hfirst => simp [checksFirst] at hfirst

theorem not_entryEffect_exitCaptureCalls {e : EndpointId} {c : CaptureId} (v : World) :
    ¬ EntryEffect cfg w (.exitCaptureCalls e c) v := by
  intro h
  cases h with
  | add hc => simp [adds] at hc
  | remove hc => simp [removes] at hc

theorem refusal_exitCaptureCalls {e : EndpointId} {c : CaptureId} {err : CallError}
    (h : Refusal cfg w (.exitCaptureCalls e c) err) :
    (w.requestCaptures e).getLast? ≠ some c := by
  cases h with
  | addedTwice hc | noRoute hc => simp [adds] at hc
  | notAdded hc | notFound hc => simp [removes] at hc
  | unowned hs hfirst => simp [checksFirst] at hfirst
  | parallel hlast => exact hlast
  | noCapture c hcaptures => simp [hcaptures]

theorem exitPatch_effect (cfg : Setup) {p : PatchId} {e : EndpointId} {f : SideEffect}
    (hp : w.patches p = some (e, f)) (live : List PatchId) :
    Restored live (w.setSideEffect e f) (runCall cfg (.exitPatch p) w).2 := by
  have hentry : ∀ t, ¬ EntryEffect cfg w (.exitPatch p) t := by
    intro t ht
    have hnone := entryEffect_exitPatch ht
    rw [hp] at hnone
    contradiction
  obtain ⟨t, ht, hrestored⟩ := callStep_exited rfl hentry not_refusal_exitPatch
    (runCall_steps cfg w (.exitPatch p))
  cases ht with
  | @unpatch p e' f' hp' =>
    have hsame : (e, f) = (e', f') := Option.some.inj (hp.symm.trans hp')
    cases hsame
    exact hrestored live

theorem exitCaptureCalls_effect (cfg : Setup) {e : EndpointId} {c : CaptureId} {cs : List CaptureId}
    (hcaptures : w.requestCaptures e = cs ++ [c]) (live : List PatchId) :
    Restored live (w.setCaptures e cs) (runCall cfg (.exitCaptureCalls e c) w).2 := by
  have hlast : (w.requestCaptures e).getLast? = some c := by simp [hcaptures]
  obtain ⟨t, ht, hrestored⟩ := callStep_exited rfl not_entryEffect_exitCaptureCalls
    (fun err herr => refusal_exitCaptureCalls herr hlast)
    (runCall_steps cfg w (.exitCaptureCalls e c))
  cases ht with
  | uncapture =>
    have hdrop : (w.requestCaptures e).dropLast = cs := by simp [hcaptures]
    rw [hdrop] at hrestored
    exact hrestored live

theorem ownerRaiseFromPending_restored (e : EndpointId) (live : List PatchId) (w : World) :
    Restored live w (ownerRaiseFromPending e w).2 := by
  cases ho : w.owner e with
  | none =>
    rw [ownerRaiseFromPending_none ho]
    exact .refl live w
  | some s =>
    rw [ownerRaiseFromPending_some ho]
    cases hx : w.pendingException s with
    | none =>
      rw [raiseFromPending_none hx]
      exact .refl live w
    | some x =>
      rw [raiseFromPending_some hx]
      exact restored_setPending s none

/-- A patch was made, things stayed as they were then, and its side effect is put back. -/
theorem unpatched_restored {e : EndpointId} {p : PatchId} {f : SideEffect}
    {restore : EndpointId × SideEffect} (hp : p ∉ live)
    (hbody : Restored (p :: live) ((w.setSideEffect e f).setPatch p restore) u) :
    Restored live w (u.setSideEffect e (w.sideEffect e)) := by
  refine ⟨?_, hbody.requestCaptures, ?_⟩
  · show Function.update u.sideEffect e (w.sideEffect e) = w.sideEffect
    rw [hbody.sideEffect]
    show Function.update (Function.update w.sideEffect e f) e (w.sideEffect e) = w.sideEffect
    rw [Function.update_idem, Function.update_eq_self]
  · intro q hq
    have hne : q ≠ p := fun heq => hp (heq ▸ hq)
    calc
      u.patches q = Function.update w.patches p (some restore) q :=
        hbody.patches q (List.mem_cons_of_mem p hq)
      _ = w.patches q := Function.update_of_ne hne _ _

/-- A capture was opened, things stayed as they were then, and it is taken off the stack. -/
theorem uncaptured_restored {e : EndpointId} {cs : List CaptureId}
    (hsideEffect : v.sideEffect = w.sideEffect) (hpatches : v.patches = w.patches)
    (hcaptures : v.requestCaptures = Function.update w.requestCaptures e cs)
    (hbody : Restored live v u) : Restored live w (u.setCaptures e (w.requestCaptures e)) := by
  refine ⟨hbody.sideEffect.trans hsideEffect, ?_, ?_⟩
  · show Function.update u.requestCaptures e (w.requestCaptures e) = w.requestCaptures
    rw [hbody.requestCaptures, hcaptures, Function.update_idem, Function.update_eq_self]
  · intro q hq
    exact (hbody.patches q hq).trans (congrFun hpatches q)

namespace Scope

/-- What the entry of a scope in the state `w` did. -/
def Entered (w t : World) : Scope live → Prop
  | patch e p _ sideEffect =>
    t = (w.setSideEffect e (bindSideEffect e sideEffect)).setPatch p (e, w.sideEffect e)
  | brokenPatch _ _ => False
  | captureCalls e c =>
    t.sideEffect = w.sideEffect ∧ t.patches = w.patches ∧
      t.requestCaptures =
        Function.update w.requestCaptures e (w.requestCaptures e ++ [c])

theorem brokenPatch_enter (cfg : Setup) (live : List PatchId) (e : EndpointId) (ex : Exc)
    (w : World) :
    ∃ err, (brokenPatch e ex : Scope live).enter cfg w =
      (.error err, (ownerRaiseFromPending e w).2) :=
  Act.bind_raise (statement (ownerRaiseFromPending e)) (.own ex) w

theorem enter_raised (scope : Scope live) {err : Raised}
    (h : scope.enter cfg w = (.error err, v)) : Restored live w v := by
  have hcall : ∀ {c : Call}, checksFirst c = true →
      statement (runCall cfg c) w = (.error err, v) → Restored live w v := by
    intro c hfirst hraise
    obtain ⟨callError, hcall⟩ := statement_error hraise
    have hstep := runCall_steps cfg w c
    rw [hcall] at hstep
    exact callStep_raised hfirst hstep live
  cases scope with
  | patch e p hp sideEffect => exact hcall rfl h
  | captureCalls e c => exact hcall rfl h
  | brokenPatch e ex =>
    obtain ⟨err', hbind⟩ := brokenPatch_enter cfg live e ex w
    have hv : (ownerRaiseFromPending e w).2 = v := congrArg Prod.snd (hbind.symm.trans h)
    rw [← hv]
    exact ownerRaiseFromPending_restored e live w

theorem enter_entered (scope : Scope live) (h : scope.enter cfg w = (.ok (), v)) :
    scope.Entered w v := by
  cases scope with
  | patch e p hp sideEffect =>
    have hstep := runCall_steps cfg w (.patch e p sideEffect)
    rw [statement_ok h] at hstep
    cases hstep with
    | entered hclear hv =>
      cases hv with
      | add hc => simp [adds] at hc
      | remove hc => simp [removes] at hc
      | patch => rfl
    | exited hclear hv => cases hv
  | brokenPatch e ex =>
    obtain ⟨err, hbind⟩ := brokenPatch_enter cfg live e ex w
    have hresult := congrArg Prod.fst (hbind.symm.trans h)
    contradiction
  | captureCalls e c =>
    have hstep := runCall_steps cfg w (.enterCaptureCalls e c)
    rw [statement_ok h] at hstep
    cases hstep with
    | entered hclear hv =>
      cases hv with
      | add hc => simp [adds] at hc
      | remove hc => simp [removes] at hc
      | captureHttp | captureWs => exact ⟨rfl, rfl, rfl⟩
    | exited hclear hv => cases hv

/-- What the entry did is undone by the exit, whatever the body did in between. -/
theorem exit_restored (scope : Scope live) (hentry : scope.Entered w v)
    (hbody : Restored scope.inner v u) : Restored live w (scope.exit cfg u).2 := by
  cases scope with
  | brokenPatch e ex => exact hentry.elim
  | patch e p hp sideEffect =>
    have hv : v = (w.setSideEffect e (bindSideEffect e sideEffect)).setPatch p
      (e, w.sideEffect e) := hentry
    subst hv
    have hlive : u.patches p = some (e, w.sideEffect e) := by
      rw [hbody.patches p List.mem_cons_self]
      exact Function.update_self ..
    exact (unpatched_restored hp hbody).trans (exitPatch_effect cfg hlive live)
  | captureCalls e c =>
    obtain ⟨hsideEffect, hpatches, hcaptures⟩ := hentry
    have hstack : u.requestCaptures e = w.requestCaptures e ++ [c] := by
      rw [hbody.requestCaptures, hcaptures]
      exact Function.update_self ..
    exact (uncaptured_restored hsideEffect hpatches hcaptures hbody).trans
      (exitCaptureCalls_effect cfg hstack live)

end Scope

theorem keeps_restored {x : Act World Raised Unit} (hx : ∀ w, Restored live w (x w).2)
    (w : World) : Act.Keeps (Restored live w) x := by
  intro s hs
  exact hs.trans (hx s)

theorem withScope_restored (cfg : Setup) (scope : Scope live) {body : Act World Raised Unit}
    (hbody : ∀ t, Restored scope.inner t (body t).2) (w : World) :
    Restored live w (Act.withScope (scope.enter cfg) (scope.exit cfg) body w).2 := by
  have hkeep : Act.Keeps (Restored live w)
      (Act.withScope (scope.enter cfg) (scope.exit cfg) body) := by
    apply Act.keeps_withScope
    · intro s err t hs hraise
      exact hs.trans (scope.enter_raised hraise)
    · intro s _ t hs hentry
      exact hs.trans (scope.exit_restored (scope.enter_entered hentry) (hbody t))
  exact hkeep w (.refl live w)

/-- Induction on the program; a scope goes back to the state it was entered in. -/
theorem run_restored (cfg : Setup) (prog : Program live) (w : World) :
    Restored live w (prog.run cfg w).2 := by
  induction prog generalizing w with
  | pass | raise err => exact .refl _ w
  | call c hc => exact callStep_restored hc (runCall_steps cfg w c)
  | serve ev hev =>
    rcases step_cases cfg w ev with ⟨c, result, hcall, -, -⟩ | ⟨-, hstep⟩
    · exact absurd hcall (hev c)
    · exact HandlerFrame.restored hstep.frame _
  | seq first second hfirst hsecond =>
    have hkeep := Act.keeps_bind (keeps_restored hfirst w) fun _ => keeps_restored hsecond w
    exact hkeep w (.refl _ w)
  | tryExcept body handler hbody hhandler =>
    have hkeep := Act.keeps_handle (keeps_restored hbody w)
      fun err => keeps_restored (hhandler err) w
    exact hkeep w (.refl _ w)
  | look next hnext => exact hnext w w
  | withScope scope body hbody => exact withScope_restored cfg scope hbody w

/-- A scope in any state, with any program as its body, also one that raises. -/
theorem scope_undone (cfg : Setup) (scope : Scope live) (body : Program scope.inner) (w : World) :
    let v := ((Program.withScope scope body).run cfg w).2
    v.sideEffect = w.sideEffect ∧ v.requestCaptures = w.requestCaptures ∧
      ∀ err t, scope.enter cfg w = (.error err, t) →
        t.sideEffect = w.sideEffect ∧ t.requestCaptures = w.requestCaptures := by
  intro v
  have hleft : Restored live w v := run_restored cfg (.withScope scope body) w
  refine ⟨hleft.sideEffect, hleft.requestCaptures, ?_⟩
  intro err t hraise
  have hraised := scope.enter_raised hraise
  exact ⟨hraised.sideEffect, hraised.requestCaptures⟩

end Yellowbox.WebServerScopes
