import Yellowbox.HttpService.Patches

/-!
The active handlers of a service: those of its entered and not yet exited contexts. In every
reachable world they are what the class of the service holds, so leaving a context finds
its handler there and takes no other away.
-/
namespace Yellowbox.HttpService.ActiveHandlers

open Dicts Effects StepRuns

/-- What a function picks from a list, around one of its places. -/
theorem filterMap_set {α β : Type} (f : α → Option β) {l : List α} {c : Nat} {a : α}
    (h : l[c]? = some a) :
    ∃ before later, l.filterMap f = before ++ ((f a).toList ++ later) ∧
      ∀ a', (l.set c a').filterMap f = before ++ ((f a').toList ++ later) := by
  induction l generalizing c with
  | nil => cases h
  | cons x l ih =>
    have hcons : ∀ (y : α) (l' : List α),
        (y :: l').filterMap f = (f y).toList ++ l'.filterMap f := by
      intro y l'
      rw [List.filterMap_cons]
      cases f y <;> rfl
    cases c with
    | zero =>
      cases h
      exact ⟨[], l.filterMap f, hcons _ _, fun a' => hcons a' l⟩
    | succ c =>
      obtain ⟨before, later, hl, hset⟩ := ih h
      refine ⟨(f x).toList ++ before, later, ?_, fun a' => ?_⟩
      · rw [hcons, hl, List.append_assoc]
      · rw [List.set_cons_succ, hcons, hset, List.append_assoc]

variable {R : Type}

/-- The handler of a context of this service that is entered and not exited. -/
def activeIn (i : Nat) (context : Context R) : Option (RoutedHandler R) :=
  if context.service = i then context.status.handler? else none

/-- The handlers of the entered and not yet exited contexts of a service. -/
def active (w : World R) (i : Nat) : List (RoutedHandler R) := w.contexts.filterMap (activeIn i)

structure Inv (w : World R) : Prop where
  routes : ∀ i (cls : RouterClass R), w.services[i]? = some cls → ∀ method,
    (cls.handlers method).Perm ((active w i).filter fun handler => handler.method = method)
  own : ∀ context ∈ w.contexts, ∀ handler, context.status = .entered handler →
    handler.method = context.method ∧ handler.route = context.route
  known : ∀ context ∈ w.contexts, context.service < w.services.length
  fresh : ∀ i, ∀ handler ∈ active w i, handler.callback < w.callbacks

section Contexts

variable {w : World R} {c : Nat} {context : Context R} {handler : RoutedHandler R}

theorem active_set_of_ne (h : w.contexts[c]? = some context) (status : Status R) {i : Nat}
    (hi : i ≠ context.service) :
    (w.contexts.set c { context with status := status }).filterMap (activeIn i) = active w i := by
  obtain ⟨before, later, hl, hset⟩ := filterMap_set (activeIn i) h
  have hnone : activeIn i context = none := if_neg (Ne.symm hi)
  have hnone' : activeIn i { context with status := status } = none := if_neg (Ne.symm hi)
  rw [active, hl, hset, hnone, hnone']

/-- A context that is not entered has a place for its handler. -/
theorem active_set (h : w.contexts[c]? = some context) :
    ∃ before later,
      active w context.service = before ++ (context.status.handler?.toList ++ later) ∧
      ∀ status, (w.contexts.set c { context with status := status }).filterMap
        (activeIn context.service) = before ++ (status.handler?.toList ++ later) := by
  obtain ⟨before, later, hl, hset⟩ := filterMap_set (activeIn context.service) h
  refine ⟨before, later, ?_, fun status => ?_⟩
  · rw [active, hl, activeIn, if_pos rfl]
  · rw [hset, activeIn, if_pos rfl]

theorem active_entered (h : w.contexts[c]? = some context) (hcreated : context.status = .created)
    (handler : RoutedHandler R) :
    ((w.contexts.set c { context with status := .entered handler }).filterMap
      (activeIn context.service)).Perm (handler :: active w context.service) := by
  obtain ⟨before, later, hl, hset⟩ := active_set h
  rw [hset, hl, hcreated]
  exact List.perm_middle

theorem active_exited (h : w.contexts[c]? = some context)
    (hentered : context.status = .entered handler) :
    (active w context.service).Perm
      (handler :: (w.contexts.set c { context with status := .exited }).filterMap
        (activeIn context.service)) := by
  obtain ⟨before, later, hl, hset⟩ := active_set h
  rw [hset, hl, hentered]
  exact List.perm_middle

end Contexts

/-! ### The invariant -/

section Invariant

variable {re : Regexes R} {w : World R} {c : Nat} {context : Context R} {cls : RouterClass R}
  {handler : RoutedHandler R}

theorem inv_empty : Inv (World.empty : World R) where
  routes _ _ h := by cases h
  own _ h := by cases h
  known _ h := by cases h
  fresh _ _ h := by cases h

theorem Inv.active_eq_nil (h : Inv w) {i : Nat} (hi : w.services.length ≤ i) : active w i = [] := by
  refine List.filterMap_eq_nil_iff.mpr fun context hcontext => if_neg fun hservice => ?_
  have hlt := h.known context hcontext
  omega

theorem Inv.newService (h : Inv w) : Inv w.newService where
  routes i cls hcls method := by
    change (w.services ++ [RouterClass.initSubclass])[i]? = some cls at hcls
    rcases Nat.lt_or_ge i w.services.length with hi | hi
    · rw [List.getElem?_append_left hi] at hcls
      exact h.routes i cls hcls method
    · rw [List.getElem?_append_right hi] at hcls
      -- The class of a new service is empty, and no context is for it.
      have hmem : cls ∈ [RouterClass.initSubclass] := List.mem_of_getElem? hcls
      rw [List.mem_singleton.mp hmem]
      change List.Perm [] ((active w i).filter _)
      rw [h.active_eq_nil hi]
      exact .nil
  own := h.own
  known context hcontext := by
    rw [World.newService, List.length_append]
    exact Nat.lt_add_right _ (h.known context hcontext)
  fresh := h.fresh

/-- The world with one more context, which is not entered. -/
theorem Inv.patchRoute (h : Inv w) (hcreated : context.status = .created)
    (hservice : context.service < w.services.length) :
    Inv { w with contexts := w.contexts ++ [context] } := by
  have hactive : ∀ i, active { w with contexts := w.contexts ++ [context] } i = active w i := by
    intro i
    have hnone : activeIn i context = none := by
      rw [activeIn, hcreated]
      exact ite_self none
    change (w.contexts ++ [context]).filterMap (activeIn i) = _
    rw [List.filterMap_append, List.filterMap_cons_none hnone, List.filterMap_nil, List.append_nil]
    rfl
  have hmem : ∀ {P : Context R → Prop}, (∀ context' ∈ w.contexts, P context') → P context →
      ∀ context' ∈ w.contexts ++ [context], P context' := by
    intro P hall hlast context' hcontext'
    rcases List.mem_append.mp hcontext' with hold | hnew
    · exact hall context' hold
    · rwa [List.mem_singleton.mp hnew]
  refine ⟨fun i cls hcls method => ?_, hmem h.own fun handler hentered => ?_, hmem h.known hservice,
    fun i handler hhandler => ?_⟩
  · rw [hactive]
    exact h.routes i cls hcls method
  · rw [hcreated] at hentered
    cases hentered
  · rw [hactive] at hhandler
    exact h.fresh i handler hhandler

/-- The callback of a handler that is entered is a new object. -/
theorem Inv.not_mem_handlers (h : Inv w) {i : Nat} (hcls : w.services[i]? = some cls)
    (method : String) (hcallback : handler.callback = w.callbacks) :
    handler ∉ cls.handlers method := by
  intro hmem
  have hactive := List.mem_of_mem_filter ((h.routes i cls hcls method).mem_iff.mp hmem)
  have hlt := h.fresh i handler hactive
  omega

/-- A context and the class of its service change together. -/
theorem Inv.change (h : Inv w) (hcontext : w.contexts[c]? = some context)
    (hcls : w.services[context.service]? = some cls) {cls' : RouterClass R} {status : Status R}
    {callbacks : Nat} (hle : w.callbacks ≤ callbacks)
    (hroutes : ∀ method, (cls'.handlers method).Perm
      (((w.contexts.set c { context with status := status }).filterMap
        (activeIn context.service)).filter fun handler => handler.method = method))
    (hown : ∀ handler, status = .entered handler →
      handler.method = context.method ∧ handler.route = context.route)
    (hfresh : ∀ handler ∈ (w.contexts.set c { context with status := status }).filterMap
      (activeIn context.service), handler.callback < callbacks) :
    Inv ⟨w.services.set context.service cls',
      w.contexts.set c { context with status := status }, callbacks⟩ := by
  have hcontexts : ∀ {P : Context R → Prop}, (∀ context' ∈ w.contexts, P context') →
      P { context with status := status } →
      ∀ context' ∈ w.contexts.set c { context with status := status }, P context' := by
    intro P hall hnew context' hcontext'
    rcases List.mem_or_eq_of_mem_set hcontext' with hold | heq
    · exact hall context' hold
    · rwa [heq]
  have hservice : context.service < w.services.length := (List.getElem?_eq_some_iff.mp hcls).1
  refine ⟨fun i cls'' hcls'' method => ?_, hcontexts h.own hown, ?_, fun i handler hhandler => ?_⟩
  · by_cases hi : i = context.service
    · subst hi
      rw [List.getElem?_set_self hservice] at hcls''
      rw [← Option.some.inj hcls'']
      exact hroutes method
    · rw [List.getElem?_set_ne (Ne.symm hi)] at hcls''
      change List.Perm _ (((w.contexts.set c { context with status := status }).filterMap
        (activeIn i)).filter _)
      rw [active_set_of_ne hcontext status hi]
      exact h.routes i cls'' hcls'' method
  · rw [List.length_set]
    exact hcontexts h.known hservice
  · by_cases hi : i = context.service
    · subst hi
      exact hfresh handler hhandler
    · change handler ∈ (w.contexts.set c { context with status := status }).filterMap
        (activeIn i) at hhandler
      rw [active_set_of_ne hcontext status hi] at hhandler
      exact Nat.lt_of_lt_of_le (h.fresh i handler hhandler) hle

variable [DecidableEq R]

omit [DecidableEq R] in
theorem filter_method_cons (handler : RoutedHandler R) (l : List (RoutedHandler R))
    (method : String) :
    (handler :: l).filter (fun handler => handler.method = method) =
      if method = handler.method then handler :: l.filter fun handler => handler.method = method
      else l.filter fun handler => handler.method = method := by
  by_cases hmethod : method = handler.method
  · subst hmethod
    simp
  · rw [if_neg hmethod, List.filter_cons_of_neg (by simpa using Ne.symm hmethod)]

theorem Inv.enter (h : Inv w) (hcontext : w.contexts[c]? = some context)
    (hcreated : context.status = .created) (hcls : w.services[context.service]? = some cls) :
    Inv (w.enter re c context cls) := by
  have hactive := active_entered hcontext hcreated (context.handler re w.callbacks)
  refine h.change hcontext hcls (Nat.le_succ w.callbacks) (fun method => ?_) (fun handler heq => ?_)
    fun handler hhandler => ?_
  · have hroutes := h.routes context.service cls hcls method
    refine List.Perm.trans ?_ (hactive.filter _).symm
    rw [handlers_addRoute (h.not_mem_handlers hcls _ rfl), filter_method_cons]
    by_cases hmethod : method = (context.handler re w.callbacks).method
    · rw [if_pos hmethod, if_pos hmethod]
      exact hroutes.cons _
    · rw [if_neg hmethod, if_neg hmethod]
      exact hroutes
  · cases heq
    exact ⟨rfl, rfl⟩
  · rcases List.mem_cons.mp (hactive.mem_iff.mp hhandler) with heq | hold
    · rw [heq]
      exact Nat.lt_succ_self w.callbacks
    · exact Nat.lt_succ_of_lt (h.fresh context.service handler hold)

theorem Inv.exit (h : Inv w) (hcontext : w.contexts[c]? = some context)
    (hentered : context.status = .entered handler)
    (hcls : w.services[context.service]? = some cls) :
    Inv (w.exit c context handler cls).1 := by
  have hactive := active_exited hcontext hentered
  change Inv (w.change context.service (RouterClass.delRoute handler cls).2 c
    { context with status := .exited })
  refine h.change hcontext hcls (Nat.le_refl w.callbacks) (fun method => ?_) (fun handler heq => ?_)
    fun handler hhandler => ?_
  · have hroutes := (h.routes context.service cls hcls method).trans (hactive.filter _)
    rw [filter_method_cons] at hroutes
    rw [handlers_delRoute]
    by_cases hmethod : method = handler.method
    · rw [if_pos hmethod] at hroutes ⊢
      have herased := hroutes.erase handler
      rwa [List.erase_cons_head] at herased
    · rw [if_neg hmethod] at hroutes ⊢
      exact hroutes
  · cases heq
  · exact h.fresh context.service handler
      (hactive.mem_iff.mpr (List.mem_cons_of_mem _ hhandler))

theorem Inv.step (h : Inv w) (event : Event R) : Inv (step re w event).1 := by
  cases event with
  | newService => exact h.newService
  | patchRoute service method route sideEffectName name =>
    rw [HttpService.step]
    split
    · rename_i hservice
      exact h.patchRoute rfl hservice
    · exact h
  | enter c =>
    rw [HttpService.step]
    split
    · exact h
    · rename_i context hcontext
      split
      · rename_i cls hcreated hcls
        exact h.enter hcontext hcreated hcls
      · exact h
      · exact h
      · exact h
  | exit c =>
    rw [HttpService.step]
    split
    · exact h
    · rename_i context hcontext
      split
      · rename_i handler cls hentered hcls
        exact h.exit hcontext hentered hcls
      · exact h
      · exact h
      · exact h

theorem inv_run (re : Regexes R) (events : List (Event R)) : Inv (run re events) :=
  exec_invariant (HttpService.step re) Inv (fun _ event h => h.step event) events inv_empty

end Invariant

/-! ### Leaving a context -/

/-- Leaving this context returns, and takes its handler from its service and nothing from
any other context or service. -/
structure LeavesOthers (re : Regexes R) [DecidableEq R] (w : World R) (c : Nat)
    (context : Context R) (handler : RoutedHandler R) : Prop where
  returns : (step re w (.exit c)).2 = .returned
  removed : ∃ cls cls', w.services[context.service]? = some cls ∧
    (step re w (.exit c)).1.services[context.service]? = some cls' ∧
    ∀ method, cls'.handlers method = (cls.handlers method).erase handler
  services : ∀ i, i ≠ context.service →
    (step re w (.exit c)).1.services[i]? = w.services[i]?
  contexts : ∀ c', c' ≠ c → (step re w (.exit c)).1.contexts[c']? = w.contexts[c']?

section Leaving

variable [DecidableEq R] {re : Regexes R} {w : World R} {c : Nat} {context : Context R}
  {handler : RoutedHandler R}

theorem step_exit {cls : RouterClass R} (hcontext : w.contexts[c]? = some context)
    (hentered : context.status = .entered handler)
    (hcls : w.services[context.service]? = some cls) :
    step re w (.exit c) = w.exit c context handler cls := by
  simp only [step, hcontext, hentered, hcls]

omit [DecidableEq R] in
/-- The handler of an entered context is in the class of its service. -/
theorem Inv.mem_handlers {cls : RouterClass R} (h : Inv w)
    (hcontext : w.contexts[c]? = some context)
    (hentered : context.status = .entered handler)
    (hcls : w.services[context.service]? = some cls) :
    handler ∈ cls.handlers handler.method := by
  have hactive : handler ∈ active w context.service :=
    (active_exited hcontext hentered).mem_iff.mpr List.mem_cons_self
  exact (h.routes _ cls hcls _).mem_iff.mpr (List.mem_filter.mpr ⟨hactive, decide_eq_true rfl⟩)

theorem Inv.leaves (h : Inv w) (hcontext : w.contexts[c]? = some context)
    (hentered : context.status = .entered handler) : LeavesOthers re w c context handler := by
  have hservice := h.known context (List.mem_of_getElem? hcontext)
  obtain ⟨cls, hcls⟩ : ∃ cls, w.services[context.service]? = some cls :=
    ⟨_, List.getElem?_eq_getElem hservice⟩
  have hstep : HttpService.step re w (.exit c) = w.exit c context handler cls :=
    step_exit hcontext hentered hcls
  refine ⟨?_, ⟨cls, (RouterClass.delRoute handler cls).2, hcls, ?_, fun method => ?_⟩,
    fun i hi => ?_, fun c' hc' => ?_⟩
  · have hdel : RouterClass.delRoute handler cls = (.ok (), (RouterClass.delRoute handler cls).2) :=
      Prod.ext (delRoute_ok (h.mem_handlers hcontext hentered hcls)) rfl
    rw [hstep, World.exit, hdel]
  · rw [hstep]
    exact List.getElem?_set_self hservice
  · rw [handlers_delRoute]
    by_cases hmethod : method = handler.method
    · rw [if_pos hmethod]
    · rw [if_neg hmethod, List.erase_of_not_mem]
      intro hmem
      have hfiltered := (h.routes _ _ hcls method).mem_iff.mp hmem
      exact hmethod (of_decide_eq_true (List.mem_filter.mp hfiltered).2).symm
  · rw [hstep]
    exact List.getElem?_set_ne (Ne.symm hi)
  · rw [hstep]
    exact List.getElem?_set_ne (Ne.symm hc')

end Leaving

end Yellowbox.HttpService.ActiveHandlers
