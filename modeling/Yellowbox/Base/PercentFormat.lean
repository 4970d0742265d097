import Mathlib.Tactic.Common

/-!
Python's `format % ()`. Two percent signs stand for one; every other conversion specifier
asks for an argument, and there is none.
-/
namespace Yellowbox.PercentFormat

/-- The characters of `format % ()`, unless it raises: a `TypeError` if an argument is asked
for, a `ValueError` if the format ends within a specifier. -/
def scan : List Char → Option (List Char)
  | [] => some []
  | ['%'] => none
  | '%' :: c :: cs => if c = '%' then (scan cs).map ('%' :: ·) else none
  | c :: cs => (scan cs).map (c :: ·)

/-- `format % ()` -/
def formatNoArgs (format : String) : Option String := (scan format.toList).map String.ofList

theorem scan_cons {c : Char} (h : c ≠ '%') (cs : List Char) :
    scan (c :: cs) = (scan cs).map (c :: ·) := by
  rw [scan]
  · rintro rfl
    exact absurd rfl h
  · rintro c' cs' rfl
    exact absurd rfl h

theorem scan_of_not_mem {cs : List Char} (h : '%' ∉ cs) : scan cs = some cs := by
  induction cs with
  | nil => rfl
  | cons c cs ih =>
    rw [List.mem_cons, not_or] at h
    rw [scan_cons (Ne.symm h.1), ih h.2]
    rfl

/-- A format without `%` is its own text. -/
theorem formatNoArgs_of_not_mem {format : String} (h : '%' ∉ format.toList) :
    formatNoArgs format = some format := by
  rw [formatNoArgs, scan_of_not_mem h, Option.map_some, String.ofList_toList]

example : formatNoArgs "/100%%" = some "/100%" := by decide +kernel

end Yellowbox.PercentFormat
