import Mathlib.Data.Int.Notation
import Mathlib.Data.List.Infix

/-!
The values that Python's `json.loads` gives, with the operations of their Python types
that take part in deciding what a program does with them, and the lines of a text.
-/
namespace Yellowbox.Json

/-- A decoded value: `None`, a `bool`, an `int`, a `float` (by its `repr`), a `str`, a
`list` or a `dict`. -/
inductive Value
  | null
  | bool (b : Bool)
  | int (n : ℤ)
  | float (repr : String)
  | str (text : String)
  | arr (items : List Value)
  | obj (fields : List (String × Value))
  deriving Repr

namespace Value

def isNull : Value → Bool
  | null => true
  | bool _ | int _ | float _ | str _ | arr _ | obj _ => false

/-- `bool(value)` -/
def truthy : Value → Bool
  | null => false
  | bool b => b
  | int n => n ≠ 0
  | float repr => repr ≠ "0.0" && repr ≠ "-0.0"
  | str text => text ≠ ""
  | arr items => !items.isEmpty
  | obj fields => !fields.isEmpty

/-- `value.get(key)`, which only a `dict` has. -/
def get? (key : String) : Value → Option Value
  | obj fields => some ((fields.lookup key).getD null)
  | null | bool _ | int _ | float _ | str _ | arr _ => none

def isStr (key : String) : Value → Bool
  | str text => text = key
  | null | bool _ | int _ | float _ | arr _ | obj _ => false

/-- `key in value`; `none` is the `TypeError` of what is no container. -/
def contains? (key : String) : Value → Option Bool
  | obj fields => some (fields.any fun field => field.1 = key)
  | arr items => some (items.any (isStr key))
  | str text => some (decide (key.toList <:+: text.toList))
  | null | bool _ | int _ | float _ => none

/-- `value[key]` for a `key` the value contains; `none` is the `TypeError` of what is
indexed by numbers. -/
def subscript? (key : String) : Value → Option Value
  | obj fields => fields.lookup key
  | null | bool _ | int _ | float _ | str _ | arr _ => none

end Value

/-- The characters at which `str.splitlines` ends a line. -/
def isLineBoundary (c : Char) : Bool :=
  c ∈ ['\n', '\r', '\x0b', '\x0c', '\x1c', '\x1d', '\x1e', '\u0085', '\u2028', '\u2029']

/-- `text.splitlines()` with the line read so far, in reverse; a carriage return and the
line feed after it are one boundary, and there is no line after the last one. -/
def splitlinesFrom : List Char → List Char → List String
  | [], [] => []
  | line, [] => [String.ofList line.reverse]
  | line, '\r' :: '\n' :: rest => String.ofList line.reverse :: splitlinesFrom [] rest
  | line, c :: rest =>
    if isLineBoundary c then
      String.ofList line.reverse :: splitlinesFrom [] rest
    else
      splitlinesFrom (c :: line) rest

def splitlines (text : String) : List String := splitlinesFrom [] text.toList

example : splitlines "a\r\nb\n\nc" = ["a", "b", "", "c"] := by decide

end Yellowbox.Json
