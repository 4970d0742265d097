import Yellowbox.WebServer.HandlerSteps

/-!
The way of an exception from a side effect to the main thread: the handler stores
it in `pending_exception` of the server, and the next call that checks the server
raises a `HandlerError` from it. There is one slot, and a request is refused while
it is taken; but requests that started before can still fail and store theirs.
-/
namespace Yellowbox.PendingExceptions

open StepRuns WebServerState WebServerCalls WebServerHandlers WebServerSteps
open WebServerCallSteps WebServerHandlerSteps

/-- The endpoint and the exception, when the event makes a side effect raise and
the handler is to store it. -/
def failure (cfg : Setup) (w : World) : Event → Option (EndpointId × Exc)
  | .sideEffect r (.error x) =>
    match w.handlers r with
    | some (.http i _ .sideEffect) => some (.http i, x)
    | _ => none
  | .wsSideEffect r result =>
    match w.handlers r with
    | some (.ws i) =>
      (wsOutcome (cfg.ws i).allowAbruptDisconnect result).1.map fun x => (.ws i, x)
    | _ => none
  | _ => none

/-- The exceptions that were the cause of a `HandlerError` raised by a call. -/
def causes (tr : List (Event × Obs)) : List Exc :=
  tr.filterMap fun
    | (.call _, .raised (.handlerError x)) => some x
    | _ => none

/-- If the event makes a side effect raise, what it raises is an `Exception` and true, its
endpoint is still owned by a server, and that server has nothing pending. -/
def SlotFree (cfg : Setup) (w : World) (ev : Event) : Prop :=
  match failure cfg w ev with
  | none => True
  | some (e, x) =>
    match w.owner e with
    | none => False
    | some s => (x.isException = true ∧ x.truthy = true) ∧ w.pendingException s = none

instance (cfg : Setup) (w : World) (ev : Event) : Decidable (SlotFree cfg w ev) := by
  unfold SlotFree
  split
  · infer_instance
  · split <;> infer_instance

/-- Along the events `x` stays pending on `s` until it is the cause of a
`HandlerError`, and it is one once a call has checked `s`. -/
def ReachesMain (cfg : Setup) (s : ServerId) (x : Exc) (w : World) (evs : List Event) : Prop :=
  ∀ mid rest, evs = mid ++ rest →
    ((exec (step cfg) w mid).pendingException s = some x ∨ x ∈ causes (trace (step cfg) w mid)) ∧
    (∀ pre c post, mid = pre ++ .call c :: post →
      checked (exec (step cfg) w pre) c = some s → x ∈ causes (trace (step cfg) w mid))

/-- Every exception that a side effect raises in the run is stored as the pending
exception of a server and reaches the main thread from there. -/
def NoneLost (cfg : Setup) (w : World) (evs : List Event) : Prop :=
  ∀ pre ev post e x, evs = pre ++ ev :: post →
    failure cfg (exec (step cfg) w pre) ev = some (e, x) →
    ∃ s, (exec (step cfg) w (pre ++ [ev])).pendingException s = some x ∧
      ReachesMain cfg s x (exec (step cfg) w (pre ++ [ev])) post

variable {cfg : Setup} {w : World} {s : ServerId} {x : Exc}

theorem causes_cons (entry : Event × Obs) (tr : List (Event × Obs)) :
    causes (entry :: tr) = causes [entry] ++ causes tr :=
  List.filterMap_append (l := [entry])

theorem mem_causes_of_mem_tail {entry : Event × Obs} {tr : List (Event × Obs)}
    (h : x ∈ causes tr) : x ∈ causes (entry :: tr) := by
  rw [causes_cons]
  exact List.mem_append_right _ h

theorem mem_causes_head {c : Call} {o : Obs} (tr : List (Event × Obs))
    (h : o = .raised (.handlerError x)) : x ∈ causes ((.call c, o) :: tr) := by
  rw [causes_cons, h]
  exact List.mem_append_left _ (by simp [causes])

/-- The effects of a call leave the pending exceptions alone. -/
theorem entry_pending {c : Call} {v : World} (hv : EntryEffect cfg w c v) :
    v.pendingException = w.pendingException := by
  cases hv <;> rfl

theorem exit_pending {c : Call} {v : World} (hv : ExitEffect w c v) :
    v.pendingException = w.pendingException := by
  cases hv <;> rfl

/-- A handler stores an exception only in the slot of the owner of its endpoint. -/
theorem handler_pending {ev : Event} {o : Obs} {v : World} (h : HandlerStep cfg w ev o v) :
    v.pendingException = w.pendingException ∨
      ∃ e t y, failure cfg w ev = some (e, y) ∧ w.owner e = some t ∧
        v.pendingException =
          Function.update w.pendingException t ((some y).filter Exc.truthy) := by
  cases h with
  | ignored | unowned | refused | awaiting | dropped | uncaught | disconnected | wsEnded
  | wsDropped | wsUncaught => exact Or.inl rfl
  | responded hr howner hclear hf hv | returned hr hv => cases hv <;> exact Or.inl rfl
  | raised hr hx howner =>
    rename_i r i t t' y ret
    exact Or.inr ⟨.http i, t', y, by simp [failure, hr], howner, rfl⟩
  | wsRaised hr hx howner hresult =>
    rename_i r i t result y code
    exact Or.inr ⟨.ws i, t, y, by simp [failure, hr, hresult], howner, rfl⟩
  | recorded hr hp =>
    rw [appendRecorded_eq]
    exact Or.inl rfl
  | wsRefused hr =>
    rename_i r i
    obtain ⟨lists, hlists⟩ := appendTranscript_eq i r (w.requestCaptures (.ws i)) w
    rw [hlists]
    exact Or.inl rfl
  | wsAwaiting hr =>
    rename_i r i
    obtain ⟨lists, hlists⟩ := appendTranscript_eq i r (w.requestCaptures (.ws i)) w
    rw [hlists]
    exact Or.inl rfl

/-- What a call does to the slots: it raises the exception of the server that it checks
and empties that slot, or it raises no `HandlerError` and leaves them alone. -/
theorem call_pending (cfg : Setup) (w : World) (c : Call) :
    (∃ t y, checked w c = some t ∧ w.pendingException t = some y ∧
      (step cfg w (.call c)).2 = .raised (.handlerError y) ∧
      (step cfg w (.call c)).1.pendingException = Function.update w.pendingException t none) ∨
    (Clear w c ∧ (∀ y, (step cfg w (.call c)).2 ≠ .raised (.handlerError y)) ∧
      (step cfg w (.call c)).1.pendingException = w.pendingException) := by
  obtain ⟨result, hcall, hobs⟩ := call_cases cfg w c
  simp only [hobs, ne_eq, callObs_raised]
  generalize (step cfg w (.call c)).1 = v at hcall
  cases hcall with
  | pendingFirst ht hy => exact Or.inl ⟨_, _, ht, hy, rfl, rfl⟩
  | exitedPending ht hy hv =>
    refine Or.inl ⟨_, _, ht, hy, rfl, ?_⟩
    simp only [World.setPending, exit_pending hv]
  | refused hclear herr =>
    refine Or.inr ⟨hclear, ?_, rfl⟩
    intro y hraised
    cases hraised
    cases herr
  | entered hclear hv => exact Or.inr ⟨hclear, (fun y h => by cases h), entry_pending hv⟩
  | exited hclear hv => exact Or.inr ⟨hclear, (fun y h => by cases h), exit_pending hv⟩
  | exitedUnowned hs hv =>
    exact Or.inr ⟨clear_of_unchecked hs, (fun y h => by cases h), exit_pending hv⟩

/-- A call that checks a server with an exception pending raises it. -/
theorem checked_raises {c : Call} (hs : checked w c = some s)
    (hx : w.pendingException s = some x) :
    (step cfg w (.call c)).2 = .raised (.handlerError x) := by
  rcases call_pending cfg w c with ⟨t, y, ht, hy, hraised, -⟩ | ⟨hclear, -, -⟩
  · obtain rfl := Option.some.inj (hs.symm.trans ht)
    obtain rfl := Option.some.inj (hx.symm.trans hy)
    exact hraised
  · have hnone := hclear s hs
    rw [hx] at hnone
    contradiction

/-- A call takes an exception out of its slot only by raising it. -/
theorem call_keeps_pending (c : Call) (hx : w.pendingException s = some x) :
    (step cfg w (.call c)).1.pendingException s = some x ∨
      (step cfg w (.call c)).2 = .raised (.handlerError x) := by
  rcases call_pending cfg w c with ⟨t, y, ht, hy, hraised, hslots⟩ | ⟨-, -, hslots⟩
  · by_cases hst : s = t
    · subst hst
      obtain rfl := Option.some.inj (hx.symm.trans hy)
      exact Or.inr hraised
    · apply Or.inl
      rw [hslots, Function.update_of_ne hst]
      exact hx
  · apply Or.inl
    rw [hslots]
    exact hx

/-- A pending exception stays in its slot or is raised by a call. -/
theorem step_keeps_pending {ev : Event} (hfree : SlotFree cfg w ev)
    (hx : w.pendingException s = some x) :
    (step cfg w ev).1.pendingException s = some x ∨
      ∃ c, ev = .call c ∧ (step cfg w ev).2 = .raised (.handlerError x) := by
  rcases step_cases cfg w ev with ⟨c, result, rfl, -, -⟩ | ⟨-, hhandler⟩
  · rcases call_keeps_pending c hx with hkept | hraised
    · exact Or.inl hkept
    · exact Or.inr ⟨c, rfl, hraised⟩
  · apply Or.inl
    rcases handler_pending hhandler with hsame | ⟨e, t, y, hfail, howner, hstored⟩
    · rw [hsame]
      exact hx
    · have hnone : w.pendingException t = none := by
        simp only [SlotFree, hfail, howner] at hfree
        exact hfree.2
      have hst : s ≠ t := by
        rintro rfl
        rw [hx] at hnone
        contradiction
      rw [hstored, Function.update_of_ne hst]
      exact hx

/-- With its slot free, an exception that a side effect raises is stored. -/
theorem failure_stored {ev : Event} {e : EndpointId} (hfree : SlotFree cfg w ev)
    (hfail : failure cfg w ev = some (e, x)) :
    ∃ s, w.owner e = some s ∧ (step cfg w ev).1.pendingException s = some x := by
  cases howner : w.owner e with
  | none => simp [SlotFree, hfail, howner] at hfree
  | some s =>
    refine ⟨s, rfl, ?_⟩
    have hx : x.isException = true ∧ x.truthy = true := by
      simp only [SlotFree, hfail, howner] at hfree
      exact hfree.1
    unfold failure at hfail
    split at hfail
    · rename_i r y
      split at hfail
      · rename_i i t hr
        obtain ⟨rfl, rfl⟩ : EndpointId.http i = e ∧ y = x := by simpa using hfail
        simp [step, hr, httpSideEffect, storeException, hx, World.setHandler, howner,
          World.setPending, Option.filter_some]
      · contradiction
    · rename_i r result
      split at hfail
      · rename_i i hr
        obtain ⟨y, hy, heq⟩ := Option.map_eq_some_iff.mp hfail
        obtain ⟨rfl, rfl⟩ : EndpointId.ws i = e ∧ y = x := by simpa using heq
        have hresult : wsOutcome (cfg.ws i).allowAbruptDisconnect result =
            (some y, (wsOutcome (cfg.ws i).allowAbruptDisconnect result).2) :=
          Prod.ext hy rfl
        simp only [step, hr, wsSideEffect]
        rw [hresult]
        simp [storeException, hx, World.setHandler, howner, World.setPending,
          Option.filter_some]
      · contradiction
    · contradiction

theorem reachesMain_of_pending {evs : List Event} (hfree : Along (step cfg) (SlotFree cfg) w evs)
    (hx : w.pendingException s = some x) : ReachesMain cfg s x w evs := by
  rintro mid rest rfl
  replace hfree := ((along_append (step cfg) (SlotFree cfg) w mid rest).mp hfree).1
  induction mid generalizing w with
  | nil =>
    refine ⟨Or.inl hx, ?_⟩
    intro pre c post hsplit
    simp at hsplit
  | cons ev mid ih =>
    simp only [exec_cons, trace_cons]
    rcases step_keeps_pending hfree.1 hx with hkept | ⟨c, rfl, hraised⟩
    · obtain ⟨hreach, hchecked⟩ := ih hkept hfree.2
      refine ⟨hreach.imp_right mem_causes_of_mem_tail, ?_⟩
      intro pre c post hsplit hs
      cases pre with
      | nil =>
        obtain ⟨rfl, rfl⟩ := List.cons.inj hsplit
        exact mem_causes_head _ (checked_raises hs hx)
      | cons ev' pre =>
        obtain ⟨rfl, rfl⟩ := List.cons.inj hsplit
        exact mem_causes_of_mem_tail (hchecked pre c post rfl hs)
    · have hmem := mem_causes_head (c := c)
        (trace (step cfg) (step cfg w (.call c)).1 mid) hraised
      exact ⟨Or.inr hmem, fun _ _ _ _ _ => hmem⟩

/-- No exception of a side effect is lost in a run in which, whenever one is raised, it is
an `Exception` and true, its endpoint is still owned and the owner has nothing pending. -/
theorem none_lost (cfg : Setup) (w₀ : World) (evs : List Event)
    (hfree : Along (step cfg) (SlotFree cfg) w₀ evs) : NoneLost cfg w₀ evs := by
  rintro pre ev post e x rfl hfail
  obtain ⟨-, hev, hpost⟩ := (along_append (step cfg) (SlotFree cfg) w₀ pre (ev :: post)).mp hfree
  obtain ⟨s, -, hstored⟩ := failure_stored hev hfail
  rw [exec_append]
  exact ⟨s, hstored, reachesMain_of_pending hpost hstored⟩

/-- One request fails and `is_alive` is called. -/
theorem none_lost_single :
    NoneLost Setup.plain (World.new fun _ => .callable 0)
      [.call (.addHttpEndpoint 0 0), .request 1 0 0,
        .sideEffect 1 (.error ⟨1, "ValueError()", .exception⟩), .call (.isAlive 0)] :=
  none_lost Setup.plain _ _ (by decide)

/-- Two requests in flight both fail, and the second exception takes the place of the
first; or the endpoint is removed while its request is in flight, and the handler fails at
printing its message; or a side effect calls `pytest.fail`, which no handler catches. -/
theorem exceptions_lost :
    ¬ NoneLost Setup.plain (World.new fun _ => .callable 0)
      [.call (.addHttpEndpoint 0 0), .request 1 0 0, .request 2 0 1,
        .sideEffect 1 (.error ⟨1, "ValueError()", .exception⟩),
        .sideEffect 2 (.error ⟨2, "KeyError()", .exception⟩),
        .call (.isAlive 0), .call (.isAlive 0)] ∧
    ¬ NoneLost Setup.plain (World.new fun _ => .callable 0)
      [.call (.addHttpEndpoint 0 0), .request 1 0 0, .call (.removeHttpEndpoint 0 0),
        .sideEffect 1 (.error ⟨1, "ValueError()", .exception⟩), .call (.isAlive 0)] ∧
    ¬ NoneLost Setup.plain (World.new fun _ => .callable 0)
      [.call (.addHttpEndpoint 0 0), .request 1 0 0,
        .sideEffect 1 (.error ⟨1, "Failed()", .baseException⟩), .call (.isAlive 0)] := by
  refine ⟨?_, ?_, ?_⟩
  · intro h
    obtain ⟨s, hstored, hreach⟩ := h [.call (.addHttpEndpoint 0 0), .request 1 0 0, .request 2 0 1]
      (.sideEffect 1 (.error ⟨1, "ValueError()", .exception⟩)) _ (.http 0) _ rfl rfl
    -- only server 0 has a slot that was ever written
    have hs : s = 0 := by
      by_contra hne
      have hnone := Function.update_of_ne hne
        (some (⟨1, "ValueError()", .exception⟩ : Exc)) fun _ => none
      exact absurd (hnone.symm.trans hstored) (by simp)
    subst hs
    obtain ⟨hmain, -⟩ := hreach _ [] (List.append_nil _).symm
    revert hmain
    decide
  · intro h
    obtain ⟨s, hstored, -⟩ := h
      [.call (.addHttpEndpoint 0 0), .request 1 0 0, .call (.removeHttpEndpoint 0 0)]
      (.sideEffect 1 (.error ⟨1, "ValueError()", .exception⟩)) _ (.http 0) _ rfl rfl
    have hnone : none = some (⟨1, "ValueError()", .exception⟩ : Exc) := hstored
    contradiction
  · intro h
    obtain ⟨s, hstored, -⟩ := h [.call (.addHttpEndpoint 0 0), .request 1 0 0]
      (.sideEffect 1 (.error ⟨1, "Failed()", .baseException⟩)) _ (.http 0) _ rfl rfl
    have hnone : none = some (⟨1, "Failed()", .baseException⟩ : Exc) := hstored
    contradiction

/-- An exception that is nowhere pending and that the event does not make a side effect
raise is not raised by the event, and is nowhere pending after it. -/
theorem step_nowhere {ev : Event} (hnowhere : ∀ s, w.pendingException s ≠ some x)
    (hagain : ∀ e, failure cfg w ev ≠ some (e, x)) :
    x ∉ causes [(ev, (step cfg w ev).2)] ∧ ∀ s, (step cfg w ev).1.pendingException s ≠ some x := by
  rcases step_cases cfg w ev with ⟨c, result, rfl, -, -⟩ | ⟨hnocall, hhandler⟩
  · rcases call_pending cfg w c with ⟨t, y, -, hy, hraised, hslots⟩ | ⟨-, hquiet, hslots⟩
    · have hxy : x ≠ y := by
        rintro rfl
        exact hnowhere t hy
      refine ⟨by simp [causes, hraised, hxy], ?_⟩
      intro s
      rw [hslots, Function.update_apply]
      split
      · simp
      · exact hnowhere s
    · rw [hslots]
      refine ⟨?_, hnowhere⟩
      unfold causes
      rw [List.mem_filterMap]
      rintro ⟨entry, hentry, hcause⟩
      obtain rfl := List.mem_singleton.mp hentry
      split at hcause
      · rename_i c' y heq
        exact hquiet y (congrArg Prod.snd heq)
      · cases hcause
  · constructor
    · cases ev with
      | call c => exact absurd rfl (hnocall c)
      | request | sideEffect | body | connect | wsSideEffect => simp [causes]
    · intro s
      rcases handler_pending hhandler with hsame | ⟨e, t, y, hfail, -, hstored⟩
      · rw [hsame]
        exact hnowhere s
      · have hyx : y ≠ x := by
          rintro rfl
          exact hagain e hfail
        rw [hstored, Function.update_apply]
        split
        · simp [Option.filter_eq_some_iff, hyx]
        · exact hnowhere s

/-- An exception that is nowhere pending and is not raised again by a side effect
never reaches the main thread. -/
theorem lost_for_good (cfg : Setup) (w : World) (x : Exc) (evs : List Event)
    (hnowhere : ∀ s, w.pendingException s ≠ some x)
    (hagain : Along (step cfg) (fun w ev => ∀ e, failure cfg w ev ≠ some (e, x)) w evs) :
    x ∉ causes (trace (step cfg) w evs) := by
  induction evs generalizing w with
  | nil => simp [causes]
  | cons ev evs ih =>
    obtain ⟨hquiet, hnowhere'⟩ := step_nowhere hnowhere hagain.1
    rw [trace_cons, causes_cons, List.mem_append, not_or]
    exact ⟨hquiet, ih _ hnowhere' hagain.2⟩

end Yellowbox.PendingExceptions
