import Mathlib.Data.Int.Notation
import Mathlib.Data.Nat.Notation
import Mathlib.Tactic.Common

/-!
Python's `int(text)` for ASCII texts within its limit of 4300 digits: blanks around it, a
sign, and decimal digits with single underscores between them. What `str` writes for a
number is read back.
-/
namespace Yellowbox.Decimals

def blank (c : Char) : Bool := c ∈ [' ', '\t', '\n', '\r', '\x0b', '\x0c']

def strip (text : List Char) : List Char :=
  ((text.dropWhile blank).reverse.dropWhile blank).reverse

/-- The number so far with the digits of the text behind it. `digit` says that the last
character was one: an underscore follows a digit, and the text ends with a digit. -/
def digitsFrom (digit : Bool) (n : ℕ) : List Char → Option ℕ
  | [] => if digit then some n else none
  | c :: text =>
    if c.isDigit then digitsFrom true (10 * n + (c.toNat - '0'.toNat)) text
    else if digit && c == '_' then digitsFrom false n text
    else none

/-- `int(text)`, where `none` is a `ValueError`. -/
def int (text : List Char) : Option ℤ :=
  match strip text with
  | '-' :: digits => (digitsFrom false 0 digits).map fun n => -n
  | '+' :: digits => (digitsFrom false 0 digits).map fun n => n
  | digits => (digitsFrom false 0 digits).map fun n => n

theorem not_blank_of_isDigit {c : Char} (h : c.isDigit = true) : blank c = false := by
  rw [blank, decide_eq_false_iff_not]
  intro hmem
  simp only [List.mem_cons, List.not_mem_nil, or_false] at hmem
  rcases hmem with rfl | rfl | rfl | rfl | rfl | rfl <;> revert h <;> decide

theorem dropWhile_blank {text : List Char} (h : ∀ c ∈ text, c.isDigit = true) :
    text.dropWhile blank = text := by
  cases text with
  | nil => rfl
  | cons c text =>
    have hblank := not_blank_of_isDigit (h c List.mem_cons_self)
    exact List.dropWhile_cons_of_neg (by simp [hblank])

theorem strip_digits {text : List Char} (h : ∀ c ∈ text, c.isDigit = true) :
    strip text = text := by
  rw [strip, dropWhile_blank h, dropWhile_blank fun c hc => h c (List.mem_reverse.mp hc),
    List.reverse_reverse]

theorem digitsFrom_digits {text : List Char} (h : ∀ c ∈ text, c.isDigit = true) (n : ℕ) :
    digitsFrom true n text = some (Nat.ofDigitChars 10 text n) := by
  induction text generalizing n with
  | nil => rfl
  | cons c text ih =>
    rw [List.forall_mem_cons] at h
    rw [digitsFrom, if_pos h.1, ih h.2, Nat.ofDigitChars_cons]

theorem int_digits {text : List Char} (hne : text ≠ []) (h : ∀ c ∈ text, c.isDigit = true) :
    int text = some ((Nat.ofDigitChars 10 text 0 : ℕ) : ℤ) := by
  obtain ⟨c, digits, rfl⟩ := List.exists_cons_of_ne_nil hne
  have hc := h c List.mem_cons_self
  have hread : digitsFrom false 0 (c :: digits) =
      some (Nat.ofDigitChars 10 (c :: digits) 0) := by
    rw [digitsFrom, if_pos hc, digitsFrom_digits fun d hd => h d (List.mem_cons_of_mem _ hd),
      Nat.ofDigitChars_cons]
  have hminus : c ≠ '-' := by
    rintro rfl
    exact absurd hc (by decide)
  have hplus : c ≠ '+' := by
    rintro rfl
    exact absurd hc (by decide)
  rw [int, strip_digits h]
  split
  · rename_i heq
    exact absurd (List.cons.inj heq).1 hminus
  · rename_i heq
    exact absurd (List.cons.inj heq).1 hplus
  · rw [hread]
    rfl

/-- `int(str(n)) == n` -/
theorem int_toDigits (n : ℕ) : int (Nat.toDigits 10 n) = some (n : ℤ) := by
  have hdigits : ∀ c ∈ Nat.toDigits 10 n, c.isDigit = true := fun c hc =>
    Nat.isDigit_of_mem_toDigits (by decide) (by decide) hc
  rw [int_digits Nat.toDigits_ne_nil hdigits, Nat.ofDigitChars_ten_toDigits]

end Yellowbox.Decimals
