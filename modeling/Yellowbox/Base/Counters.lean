import Mathlib.Data.Int.Notation
import Yellowbox.Base.Dicts

/-!
Python's `collections.Counter`: a `dict` of integers in which a missing key counts 0.
A difference of two counters that goes below 0 nowhere is the inclusion of the counted
multisets.
-/
namespace Yellowbox.Counters

open Dicts

abbrev Counter (α : Type*) := Dict α ℤ

namespace Counter

variable {α : Type*} [DecidableEq α]

/-- `c[a]` -/
def count (c : Counter α) (a : α) : ℤ := (c.get? a).getD 0

/-- `c[a] += n` -/
def add (c : Counter α) (a : α) (n : ℤ) : Counter α := c.set a (c.count a + n)

/-- `Counter(items)` -/
def ofList (items : List α) : Counter α := items.foldl (fun c a => c.add a 1) Dict.empty

/-- `c.subtract(c')` -/
def subtract (c c' : Counter α) : Counter α :=
  c'.entries.foldl (fun c entry => c.add entry.1 (-entry.2)) c

/-- `next((a for (a, n) in c.items() if n < 0), None)` -/
def firstNegative (c : Counter α) : Option α :=
  (c.entries.find? fun entry => entry.2 < 0).map Prod.fst

theorem count_add_self (c : Counter α) (a : α) (n : ℤ) : (c.add a n).count a = c.count a + n := by
  rw [count, add, Dict.get?_set_self, Option.getD_some]

theorem count_add_of_ne (c : Counter α) {a b : α} (h : b ≠ a) (n : ℤ) :
    (c.add a n).count b = c.count b := by
  rw [count, add, Dict.get?_set_of_ne c h, count]

theorem count_empty (a : α) : count (Dict.empty : Counter α) a = 0 := rfl

theorem count_foldl_add (items : List α) (c : Counter α) (a : α) :
    (items.foldl (fun c b => c.add b 1) c).count a = c.count a + items.count a := by
  induction items generalizing c with
  | nil => simp
  | cons b items ih =>
    rw [List.foldl_cons, ih, List.count_cons]
    by_cases h : b = a
    · subst h
      rw [count_add_self]
      simp only [beq_self_eq_true, if_true]
      omega
    · rw [count_add_of_ne c (Ne.symm h)]
      simp [h]

theorem count_ofList (items : List α) (a : α) : (ofList items).count a = items.count a := by
  rw [ofList, count_foldl_add, count_empty, Int.zero_add]

theorem count_subtract (c c' : Counter α) (a : α) :
    (c.subtract c').count a = c.count a - c'.count a := by
  obtain ⟨entries, hnodup⟩ := c'
  show (entries.foldl (fun c entry => c.add entry.1 (-entry.2)) c).count a =
    c.count a - (entries.lookup a).getD 0
  induction entries generalizing c with
  | nil => simp
  | cons entry entries ih =>
    obtain ⟨hnot, hnodup⟩ := List.nodup_cons.mp hnodup
    rw [List.foldl_cons, ih _ hnodup, List.lookup_cons]
    by_cases h : a = entry.1
    · have habsent : entries.lookup a = none := by
        apply List.lookup_eq_none_iff.mpr
        intro other hother
        rw [bne_iff_ne]
        intro heq
        apply hnot
        rw [← h, heq]
        exact List.mem_map_of_mem hother
      subst h
      rw [count_add_self, habsent]
      simp [Int.sub_eq_add_neg]
    · have hbeq : (a == entry.1) = false := beq_eq_false_iff_ne.mpr h
      rw [count_add_of_ne c h, hbeq]

theorem firstNegative_eq_none_iff (c : Counter α) :
    c.firstNegative = none ↔ ∀ a, 0 ≤ c.count a := by
  have hentries : c.firstNegative = none ↔ ∀ entry ∈ c.entries, 0 ≤ entry.2 := by
    simp [firstNegative]
  rw [hentries]
  constructor
  · intro h a
    cases ha : c.get? a with
    | none => simp [count, ha]
    | some n =>
      have hn := h (a, n) (Dict.mem_entries_iff.mpr ha)
      simpa [count, ha] using hn
  · rintro h ⟨a, n⟩ hmem
    have hcount := h a
    rw [count, Dict.mem_entries_iff.mp hmem] at hcount
    exact hcount

/-- Subtracting goes below 0 nowhere when the subtracted items are all there. -/
theorem firstNegative_subtract_iff (items others : List α) :
    ((ofList others).subtract (ofList items)).firstNegative = none ↔
      ∀ a, items.count a ≤ others.count a := by
  rw [firstNegative_eq_none_iff]
  constructor
  · intro h a
    have hcount := h a
    rw [count_subtract, count_ofList, count_ofList] at hcount
    omega
  · intro h a
    have hcount := h a
    rw [count_subtract, count_ofList, count_ofList]
    omega

end Counter

end Yellowbox.Counters
