import Yellowbox.Base.Dicts
import Yellowbox.Base.Effects
import Yellowbox.Base.StepRuns

/-!
The routes of a `WebsocketService`: exact paths, and regular expressions of which the
one that comes last in the dictionary wins. A new side effect for a regex that is there
leaves it in its old place, so a regex bound after it still wins where both match.
-/
namespace Yellowbox.WebsocketService.Routes

open Dicts Effects

/-- What the routes use of `re`. -/
structure Regexes (R : Type) where
  compile : String → Option R
  fullmatch : R → String → Bool

/-- The argument `path`, which may also be an object that is no text. -/
inductive PathArg
  | omitted
  | text (path : String)
  | other

/-- The argument `regex`. -/
inductive RegexArg (R : Type)
  | omitted
  | text (pattern : String)
  | compiled (pattern : R)

def PathArg.truthy : PathArg → Bool
  | omitted => false
  | text path => path ≠ ""
  | other => true

/-- What compiling a regex gives, unless there is none. -/
def RegexArg.given {R : Type} (re : Regexes R) : RegexArg R → Option (Option R)
  | omitted => none
  | text pattern => if pattern = "" then none else some (re.compile pattern)
  | compiled pattern => some (some pattern)

/-- An exact path or a compiled regex. -/
inductive Key (R : Type)
  | path (text : String)
  | regex (pattern : R)

inductive Exc (R : Type)
  | valueError (message : String)
  | typeError (message : String)
  | reError
  | runtimeError (route : Key R)
  | keyError

variable {R S : Type}

/-- `_routes` and `_re_routes`, with the side effects that the generators are made of. Of
other objects `_to_generator` makes none, and `add` has then not touched the table. -/
structure Table (R S : Type) where
  routes : Dict String S
  reRoutes : Dict R S

def Table.empty : Table R S := ⟨Dict.empty, Dict.empty⟩

/-- The key that the arguments of a call select, after its checks; `notText` is for a
path that is no text. -/
def selectKey (re : Regexes R) (notText : Exc R) (path : PathArg) (regex : RegexArg R) :
    Except (Exc R) (Key R) :=
  match path.truthy, regex.given re with
  | true, some _ => .error (.valueError "Only one of path or regex can be specified.")
  | false, none => .error (.valueError "path or regex must be specified.")
  | false, some none => .error .reError
  | false, some (some pattern) => .ok (.regex pattern)
  | true, none =>
    match path with
    | .text path => .ok (.path path)
    | .omitted | .other => .error notText

variable [DecidableEq R]

namespace Table

/-- `_get_generator(path)` -/
def getGenerator (re : Regexes R) (t : Table R S) (path : String) : Option S :=
  match t.routes.get? path with
  | some callback => some callback
  | none => (t.reRoutes.entries.reverse.find? fun item => re.fullmatch item.1 path).map Prod.snd

/-- `path in self._routes or regex in self._re_routes` -/
def Has (t : Table R S) : Key R → Prop
  | .path text => text ∈ t.routes.keys
  | .regex pattern => pattern ∈ t.reRoutes.keys

instance (t : Table R S) : DecidablePred t.Has
  | .path text => inferInstanceAs (Decidable (text ∈ t.routes.keys))
  | .regex pattern => inferInstanceAs (Decidable (pattern ∈ t.reRoutes.keys))

/-- `self._routes[path] = gen`, or `self._re_routes[regex] = gen`. -/
def place (t : Table R S) (key : Key R) (sideEffect : S) : Table R S :=
  match key with
  | .path text => { t with routes := t.routes.set text sideEffect }
  | .regex pattern => { t with reRoutes := t.reRoutes.set pattern sideEffect }

/-- `del self._routes[path]`, or `del self._re_routes[regex]`. -/
def drop (t : Table R S) (key : Key R) : Table R S :=
  match key with
  | .path text => { t with routes := t.routes.erase text }
  | .regex pattern => { t with reRoutes := t.reRoutes.erase pattern }

end Table

namespace Service

variable (re : Regexes R)

/-- `add(side_effect, path, regex=regex, _overwrite=overwrite)` -/
def addWith (overwrite : Bool) (sideEffect : S) (path : PathArg) (regex : RegexArg R) :
    Act (Table R S) (Exc R) Unit := do
  let key ← Act.ofExcept (selectKey re (.typeError "path must be a string.") path regex)
  let t ← Act.get
  Act.raiseIf (!overwrite && decide (t.Has key)) (.runtimeError key)
  Act.modify fun t => t.place key sideEffect

def add (sideEffect : S) (path : PathArg) (regex : RegexArg R) :
    Act (Table R S) (Exc R) Unit :=
  addWith re false sideEffect path regex

def set (sideEffect : S) (path : PathArg) (regex : RegexArg R) :
    Act (Table R S) (Exc R) Unit :=
  addWith re true sideEffect path regex

def remove (path : PathArg) (regex : RegexArg R) : Act (Table R S) (Exc R) Unit := do
  let key ← Act.ofExcept (selectKey re .keyError path regex)
  let t ← Act.get
  Act.raiseIf (!decide (t.Has key)) .keyError
  Act.modify fun t => t.drop key

def clear : Act (Table R S) (Exc R) Unit := Act.modify fun _ => Table.empty

/-- What may be called on the service; a `patch` is entered by an `add` and left by a
`remove`. -/
inductive Call (R S : Type)
  | add (sideEffect : S) (path : PathArg) (regex : RegexArg R)
  | set (sideEffect : S) (path : PathArg) (regex : RegexArg R)
  | remove (path : PathArg) (regex : RegexArg R)
  | clear
  | enterPatch (sideEffect : S) (path : PathArg) (regex : RegexArg R)
  | exitPatch (path : PathArg) (regex : RegexArg R)

def call : Call R S → Act (Table R S) (Exc R) Unit
  | .add sideEffect path regex => add re sideEffect path regex
  | .set sideEffect path regex => set re sideEffect path regex
  | .remove path regex => remove re path regex
  | .clear => clear
  | .enterPatch sideEffect path regex => add re sideEffect path regex
  | .exitPatch path regex => remove re path regex

/-- The table after a call, and how the call ended. -/
def step (t : Table R S) (c : Call R S) : Table R S × Except (Exc R) Unit :=
  ((call re c t).2, (call re c t).1)

/-- The table of a service after these calls, some of which may have raised. -/
def run (calls : List (Call R S)) : Table R S := StepRuns.exec (step re) Table.empty calls

end Service

end Yellowbox.WebsocketService.Routes
