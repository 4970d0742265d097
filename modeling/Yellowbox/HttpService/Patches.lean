import Yellowbox.Base.StepRuns
import Yellowbox.HttpService.Handlers

/-!
The contexts that `patch_route` makes, over any number of services. A context adds its
handler to the class of its service on entry and removes it on exit.
-/
namespace Yellowbox.HttpService

open Dicts Effects StepRuns

/-- The generator of a context manager: not begun, at its `yield`, or at its end. -/
inductive Status (R : Type)
  | created
  | entered (handler : RoutedHandler R)
  | exited

/-- A call of `patch_route`, with the `__name__` of the side effect if it has one. -/
structure Context (R : Type) where
  service : Nat
  method : String
  route : Route R
  sideEffectName : Option String
  name : Option String
  status : Status R

/-- The services made so far, each by the class that its `__init__` makes, the contexts in
the order in which they were made, and how many callbacks were. -/
structure World (R : Type) where
  services : List (RouterClass R)
  contexts : List (Context R)
  callbacks : Nat

inductive Event (R : Type)
  | newService
  | patchRoute (service : Nat) (method : String) (route : Route R)
      (sideEffectName name : Option String)
  | enter (context : Nat)
  | exit (context : Nat)

/-- How an event ends; `ignored` is for one that no program can bring about. -/
inductive Observed
  | returned
  | raised (error : Exc)
  | ignored
  deriving DecidableEq

variable {R : Type}

def Status.handler? : Status R → Option (RoutedHandler R)
  | created | exited => none
  | entered handler => some handler

def World.empty : World R := ⟨[], [], 0⟩

namespace Context

/-- `name or getattr(side_effect, "__name__", None) or str(route)` -/
def handlerName (re : Regexes R) (context : Context R) : String :=
  ((context.name.filter (· ≠ "")).or (context.sideEffectName.filter (· ≠ ""))).getD
    (context.route.str re)

/-- The handler that is made on entry, for a callback that is a new object. -/
def handler (re : Regexes R) (context : Context R) (callback : Nat) : RoutedHandler R where
  method := context.method
  name := context.handlerName re
  route := context.route
  callback := callback

end Context

variable [DecidableEq R]

namespace World

def newService (w : World R) : World R :=
  { w with services := w.services ++ [RouterClass.initSubclass] }

/-- The world after the class of the `i`th service and the context `c` have changed. -/
def change (w : World R) (i : Nat) (cls : RouterClass R) (c : Nat) (context : Context R) :
    World R :=
  { w with services := w.services.set i cls, contexts := w.contexts.set c context }

/-- The part of `_helper` up to its `yield`. -/
def enter (re : Regexes R) (w : World R) (c : Nat) (context : Context R) (cls : RouterClass R) :
    World R :=
  let handler := context.handler re w.callbacks
  let w := w.change context.service (RouterClass.addRoute handler cls).2 c
    { context with status := .entered handler }
  { w with callbacks := w.callbacks + 1 }

/-- The `finally` block of `_helper`. -/
def exit (w : World R) (c : Nat) (context : Context R) (handler : RoutedHandler R)
    (cls : RouterClass R) : World R × Observed :=
  let (r, cls') := RouterClass.delRoute handler cls
  (w.change context.service cls' c { context with status := .exited },
    match r with
    | .ok () => .returned
    | .error e => .raised e)

end World

def step (re : Regexes R) (w : World R) : Event R → World R × Observed
  | .newService => (w.newService, .returned)
  | .patchRoute service method route sideEffectName name =>
    if service < w.services.length then
      ({ w with
          contexts := w.contexts ++
            [⟨service, method, route, sideEffectName, name, .created⟩] },
        .returned)
    else (w, .ignored)
  | .enter c =>
    match w.contexts[c]? with
    | none => (w, .ignored)
    | some context =>
      match context.status, w.services[context.service]? with
      | .created, some cls => (w.enter re c context cls, .returned)
      | .created, none => (w, .ignored)
      -- A context manager made from a generator can be entered once.
      | .entered _, _ | .exited, _ => (w, .raised .attributeError)
  | .exit c =>
    match w.contexts[c]? with
    | none => (w, .ignored)
    | some context =>
      match context.status, w.services[context.service]? with
      | .entered handler, some cls => w.exit c context handler cls
      | .entered _, none | .created, _ | .exited, _ => (w, .ignored)

/-- The world after these events. -/
def run (re : Regexes R) (events : List (Event R)) : World R := exec (step re) World.empty events

end Yellowbox.HttpService
