import Yellowbox.Base.Dicts
import Yellowbox.Base.Effects
import Yellowbox.Base.PercentFormat
import Yellowbox.Base.UrlPaths

/-!
The handlers of an `HttpService` and the class that routes requests to them. Each service
has a class of its own, whose sets of handlers are filled and emptied by `patch_route`.
-/
namespace Yellowbox.HttpService

open Dicts Effects PercentFormat

/-- What the routes use of `re`, and the text of a compiled pattern. -/
structure Regexes (R : Type) where
  fullmatch : R → String → Bool
  str : R → String

inductive Route (R : Type)
  | text (path : String)
  | pattern (regex : R)
  deriving DecidableEq

/-- A named tuple; two functions are equal if they are the same object, which is what
`callback` stands for. -/
structure RoutedHandler (R : Type) where
  method : String
  name : String
  route : Route R
  callback : Nat
  deriving DecidableEq

/-- What may be raised; a format raises a `TypeError` or a `ValueError`. -/
inductive Exc
  | keyError
  | attributeError
  | unicodeEncodeError
  | formatError
  deriving DecidableEq

variable {R : Type}

/-- `str(route)` -/
def Route.str (re : Regexes R) : Route R → String
  | text path => path
  | pattern regex => re.str regex

/-- Whether there is a match, for a path that is a string or a pattern. -/
def RoutedHandler.routeMatch (re : Regexes R) (handler : RoutedHandler R) (path : String) : Bool :=
  match handler.route with
  | .text route => route == path
  | .pattern regex => re.fullmatch regex path

/-- A subclass of `RouterHTTPRequestHandler`. A set of handlers is given by its elements in
some order, which only the text of an error shows. -/
structure RouterClass (R : Type) where
  routesByMethod : Dict String (List (RoutedHandler R))

namespace RouterClass

/-- `__init_subclass__` -/
def initSubclass : RouterClass R := ⟨Dict.empty⟩

/-- `cls.routes_by_method[method]`, of a `defaultdict(set)`. -/
def handlers (cls : RouterClass R) (method : String) : List (RoutedHandler R) :=
  (cls.routesByMethod.get? method).getD []

variable [DecidableEq R]

def addRoute (handler : RoutedHandler R) : Act (RouterClass R) Exc Unit :=
  Act.modify fun cls =>
    ⟨cls.routesByMethod.set handler.method ((cls.handlers handler.method).insert handler)⟩

/-- `set.remove` raises for a handler that is not there; the set stays in the dict. -/
def delRoute (handler : RoutedHandler R) : Act (RouterClass R) Exc Unit := do
  let cls ← Act.get
  Act.modify fun _ =>
    ⟨cls.routesByMethod.set handler.method ((cls.handlers handler.method).erase handler)⟩
  Act.raiseIf (decide (handler ∉ cls.handlers handler.method)) .keyError

end RouterClass

/-! ### Requests -/

/-- How a request ends: `send_error` answers it, a callback is run, or the router raises
and there is no answer. -/
inductive Answer (R : Type)
  | error (code : Nat) (message : String)
  | callback (routed : RoutedHandler R)
  | raised (error : Exc)
  deriving DecidableEq

/-- Whether a status line with this text can be encoded. -/
def latin1 (text : String) : Bool := text.toList.all fun c => c.toNat < 256

/-- `self.send_error(code, message)` -/
def sendError (code : Nat) (message : String) : Answer R :=
  if latin1 message then .error code message else .raised .unicodeEncodeError

/-- `_do`, with the handlers that match. -/
def route (matched : List (RoutedHandler R)) : Answer R :=
  match matched with
  | [] => sendError 404 "mock server matched no routes"
  | [routed] =>
    -- `self.log_message(f"routed to {routed.name}")`, whose argument is a format.
    match formatNoArgs ("routed to " ++ routed.name) with
    | some _ => .callback routed
    | none => .raised .formatError
  | _ =>
    sendError 500
      ("mock server matched multiple routes: " ++ ", ".intercalate (matched.map (·.name)))

/-- The target of a request for a path, with a query or without. -/
def target (path : String) (query : Option String) : String :=
  path ++ (query.map ("?" ++ ·)).getD ""

/-- `self.path`: `parse_request` makes one slash of those that the target begins with. -/
def selfPath (target : String) : List Char :=
  if "//".toList.isPrefixOf target.toList then '/' :: target.toList.dropWhile (· = '/')
  else target.toList

/-- `self.parse_url().path` -/
def parsedPath (target : String) : String := String.ofList (UrlPaths.urlPath (selfPath target))

/-- `_do` for a request with this method and target; the target of a request for a path
begins with a slash, and has no white space. -/
def RouterClass.respond (re : Regexes R) (cls : RouterClass R) (command target : String) :
    Answer R :=
  route ((cls.handlers command).filter fun candidate =>
    candidate.routeMatch re (parsedPath target))

/-! ### What the classes do with handlers -/

section Targets

variable {rest : String}

theorem selfPath_cons (h : rest.toList.head? ≠ some '/') (query : Option String) :
    selfPath (target ("/" ++ rest) query) =
      '/' :: rest.toList ++ ((query.map ("?" ++ ·)).getD "").toList := by
  have htext : (target ("/" ++ rest) query).toList =
      '/' :: rest.toList ++ ((query.map ("?" ++ ·)).getD "").toList := by
    simp [target, String.toList_append]
  rw [selfPath, htext]
  refine if_neg fun hslashes => ?_
  cases hrest : rest.toList with
  | nil => cases query <;> simp [hrest] at hslashes
  | cons c text =>
    rw [hrest] at h hslashes
    have hc : '/' = c := by simpa using hslashes
    exact h (congrArg some hc.symm)

/-- A path that begins with one slash and has none of the marks of a URL is the path that the
router looks for. -/
theorem parsedPath_target (hslash : rest.toList.head? ≠ some '/')
    (hplain : '#' ∉ rest.toList ∧ '?' ∉ rest.toList ∧ ';' ∉ rest.toList)
    (query : Option String) : parsedPath (target ("/" ++ rest) query) = "/" ++ rest := by
  have hmarks : ∀ c, c ≠ '/' → c ∉ rest.toList → c ∉ '/' :: rest.toList := by
    intro c hc hnot
    rw [List.mem_cons, not_or]
    exact ⟨hc, hnot⟩
  have hfragment := hmarks _ (by decide) hplain.1
  have hquery := hmarks _ (by decide) hplain.2.1
  have hparams := hmarks _ (by decide) hplain.2.2
  have hpath : UrlPaths.urlPath ('/' :: rest.toList ++ ((query.map ("?" ++ ·)).getD "").toList) =
      '/' :: rest.toList := by
    cases query with
    | none =>
      rw [Option.map_none, Option.getD_none, String.toList_empty, List.append_nil]
      exact UrlPaths.urlPath_of_not_mem hfragment hquery hparams
    | some text =>
      rw [Option.map_some, Option.getD_some, String.toList_append]
      exact UrlPaths.urlPath_query hfragment hquery hparams text.toList
  rw [parsedPath, selfPath_cons hslash, hpath]
  apply String.toList_injective
  simp [String.toList_append]

end Targets

section Classes

variable [DecidableEq R] {cls : RouterClass R} {handler : RoutedHandler R}

omit [DecidableEq R] in
theorem handlers_set (method method' : String) (l : List (RoutedHandler R)) :
    RouterClass.handlers ⟨cls.routesByMethod.set method l⟩ method' =
      if method' = method then l else cls.handlers method' := by
  unfold RouterClass.handlers
  by_cases hmethod : method' = method
  · rw [if_pos hmethod, hmethod, Dict.get?_set_self]
    rfl
  · rw [if_neg hmethod, Dict.get?_set_of_ne _ hmethod]

theorem handlers_addRoute (hnew : handler ∉ cls.handlers handler.method) (method : String) :
    (RouterClass.addRoute handler cls).2.handlers method =
      if method = handler.method then handler :: cls.handlers method
      else cls.handlers method := by
  refine (handlers_set handler.method method _).trans ?_
  by_cases hmethod : method = handler.method
  · rw [if_pos hmethod, if_pos hmethod, List.insert_of_not_mem hnew, hmethod]
  · rw [if_neg hmethod, if_neg hmethod]

theorem handlers_delRoute (method : String) :
    (RouterClass.delRoute handler cls).2.handlers method =
      if method = handler.method then (cls.handlers method).erase handler
      else cls.handlers method := by
  have hset : (RouterClass.delRoute handler cls).2 =
      ⟨cls.routesByMethod.set handler.method ((cls.handlers handler.method).erase handler)⟩ := by
    simp only [RouterClass.delRoute, Act.get_bind, Act.modify_bind, Act.raiseIf]
    split <;> rfl
  rw [hset, handlers_set]
  by_cases hmethod : method = handler.method
  · rw [if_pos hmethod, if_pos hmethod, hmethod]
  · rw [if_neg hmethod, if_neg hmethod]

theorem delRoute_ok (h : handler ∈ cls.handlers handler.method) :
    (RouterClass.delRoute handler cls).1 = .ok () := by
  simp only [RouterClass.delRoute, Act.get_bind, Act.modify_bind, Act.raiseIf, h, not_true,
    decide_false, Bool.false_eq_true, if_false]

end Classes

end Yellowbox.HttpService
