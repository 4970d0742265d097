import Mathlib.Algebra.GroupWithZero.Nat
import Mathlib.Data.List.Infix
import Mathlib.Tactic.Common
import Yellowbox.Base.StreamSplit

/-!
How many lines a separator completes, in a stream and in the pieces of a stream that are
split one by one. A separator that does not overlap itself is missed exactly where it
straddles the end of a piece.
-/
namespace Yellowbox.SplitCounts

open StreamSplit

variable {α : Type*}

/-- Nothing that the separator begins with is also what it ends with. -/
def Unbordered (sep : List α) : Prop := ∀ u, u ≠ [] → u <+: sep → u <:+ sep → u = sep

/-- No separator straddles the end of a piece. -/
def NoneStraddles (sep : List α) (pieces : List (List α)) : Prop :=
  ∀ before after, pieces = before ++ after → ¬ Straddles sep before.flatten after.flatten

/-- A stream in one piece is not cut. -/
theorem noneStraddles_singleton (sep piece : List α) : NoneStraddles sep [piece] := by
  rintro before after heq ⟨u, v, hu, hv, -, hxs, hys⟩
  rcases List.singleton_eq_append_iff.mp heq with ⟨rfl, -⟩ | ⟨-, rfl⟩
  · exact hu (List.suffix_nil.mp hxs)
  · exact hv (List.prefix_nil.mp hys)

section Unbordered

variable {sep xs ys : List α}

theorem Unbordered.not_straddles_left (hsep : Unbordered sep) {zs : List α}
    (hzs : zs <+: sep ∨ sep <+: zs) : ¬ Straddles sep xs zs := by
  rintro ⟨u, v, hu, hv, heq, -, hvzs⟩
  have hlength : v.length < sep.length := by
    have hpos := List.length_pos_of_ne_nil hu
    rw [heq, List.length_append]
    omega
  have hbegins : v <+: sep := by
    rcases hzs with hzs | hzs
    · exact hvzs.trans hzs
    · exact List.prefix_of_prefix_length_le hvzs hzs (Nat.le_of_lt hlength)
  have hwhole := hsep v hv hbegins ⟨u, heq.symm⟩
  rw [hwhole] at hlength
  exact Nat.lt_irrefl _ hlength

theorem Unbordered.not_straddles_right (hsep : Unbordered sep) {zs : List α}
    (hzs : zs <:+ sep) : ¬ Straddles sep zs ys := by
  rintro ⟨u, v, hu, hv, heq, huzs, -⟩
  have hwhole := hsep u hu ⟨v, heq.symm⟩ (huzs.trans hzs)
  have hpos := List.length_pos_of_ne_nil hv
  have hlength := congrArg List.length heq
  rw [List.length_append, hwhole] at hlength
  omega

end Unbordered

variable [DecidableEq α]

/-- The number of separators that a split finds. -/
def count (sep xs : List α) : ℕ := (completeLines sep xs).length

variable {sep xs ys : List α}

theorem length_splitAt (sep xs : List α) : (splitAt sep xs).length = count sep xs + 1 := by
  rw [splitAt_eq, List.length_append]
  rfl

theorem count_append (h : ¬ Straddles sep xs ys) :
    count sep (xs ++ ys) = count sep xs + count sep ys := by
  have hlength := congrArg List.length (splitAt_append h)
  rw [length_splitAt, List.length_append, List.length_modifyHead, length_splitAt] at hlength
  unfold count at *
  omega

/-- No line is complete exactly when no separator occurs. -/
theorem count_eq_zero_iff (hsep : sep ≠ []) : count sep xs = 0 ↔ ¬ sep <:+: xs := by
  have hone : count sep xs = 0 ↔ (splitAt sep xs).length = 1 := by
    rw [length_splitAt]
    omega
  rw [hone]
  clear hone
  induction xs with
  | nil =>
    have hnil : ¬ sep <:+: [] := fun hinfix => hsep (List.eq_nil_of_infix_nil hinfix)
    exact iff_of_true rfl hnil
  | cons x xs ih =>
    rw [splitAt, List.infix_cons_iff]
    by_cases hbegins : sep <+: x :: xs
    · have hpos := List.length_pos_of_ne_nil (splitSkip_ne_nil sep (sep.length - 1) xs)
      rw [splitSkip_of_begins hbegins, List.length_cons]
      refine iff_of_false (by omega) ?_
      intro hnot
      exact hnot (.inl hbegins)
    · rw [splitSkip_of_not_begins hbegins, List.length_modifyHead]
      have hrest : (splitSkip sep 0 xs).length = 1 ↔ ¬ sep <:+: xs := ih
      rw [hrest]
      tauto

theorem count_of_shorter (h : xs.length < sep.length) : count sep xs = 0 := by
  have hsep : sep ≠ [] := by
    rintro rfl
    exact absurd h (Nat.not_lt_zero _)
  apply (count_eq_zero_iff hsep).mpr
  intro hinfix
  exact absurd hinfix.length_le (Nat.not_le_of_lt h)

theorem splitSkip_length_append (sep xs ys : List α) :
    splitSkip sep xs.length (xs ++ ys) = splitAt sep ys := by
  induction xs with
  | nil => rfl
  | cons x xs ih => exact ih

theorem count_separator_append (hsep : sep ≠ []) (ys : List α) :
    count sep (sep ++ ys) = count sep ys + 1 := by
  obtain ⟨x, xs, rfl⟩ := List.exists_cons_of_ne_nil hsep
  have hsplit : splitAt (x :: xs) (x :: xs ++ ys) = [] :: splitAt (x :: xs) ys := by
    have hbegins : x :: xs <+: x :: (xs ++ ys) := List.prefix_append (x :: xs) ys
    rw [splitAt, List.cons_append, splitSkip_of_begins hbegins, List.length_cons,
      Nat.add_sub_cancel, splitSkip_length_append]
  have hlength := congrArg List.length hsplit
  rw [length_splitAt, List.length_cons, length_splitAt] at hlength
  omega

/-- A separator that does not overlap itself is missed where the stream is cut inside it. -/
theorem count_append_of_straddles (hsep : Unbordered sep) (h : Straddles sep xs ys) :
    count sep (xs ++ ys) = count sep xs + count sep ys + 1 := by
  obtain ⟨u, v, hu, hv, heq, ⟨before, rfl⟩, ⟨after, rfl⟩⟩ := h
  have hlength : sep.length = u.length + v.length := by rw [heq, List.length_append]
  have hupos := List.length_pos_of_ne_nil hu
  have hvpos := List.length_pos_of_ne_nil hv
  have hne : sep ≠ [] := List.ne_nil_of_length_pos (by omega)
  have hucount : count sep u = 0 := count_of_shorter (by omega)
  have hvcount : count sep v = 0 := count_of_shorter (by omega)
  have hleft : count sep (before ++ u) = count sep before := by
    rw [count_append (hsep.not_straddles_left (.inl ⟨v, heq.symm⟩)), hucount, Nat.add_zero]
  have hright : count sep (v ++ after) = count sep after := by
    rw [count_append (hsep.not_straddles_right ⟨u, heq.symm⟩), hvcount, Nat.zero_add]
  have hwhole : before ++ u ++ (v ++ after) = before ++ (sep ++ after) := by
    simp [heq]
  rw [hwhole, count_append (hsep.not_straddles_left (.inr (List.prefix_append sep after))),
    count_separator_append hne, hleft, hright]
  omega

theorem sum_count_le (hsep : Unbordered sep) (pieces : List (List α)) :
    (pieces.map (count sep)).sum ≤ count sep pieces.flatten := by
  induction pieces with
  | nil => exact Nat.zero_le _
  | cons piece pieces ih =>
    rw [List.map_cons, List.sum_cons, List.flatten_cons]
    by_cases h : Straddles sep piece pieces.flatten
    · rw [count_append_of_straddles hsep h]
      omega
    · rw [count_append h]
      omega

/-- The pieces complete fewer lines than the stream where a separator straddles. -/
theorem sum_count_lt (hsep : Unbordered sep) {pieces : List (List α)}
    (h : ¬ NoneStraddles sep pieces) :
    (pieces.map (count sep)).sum < count sep pieces.flatten := by
  obtain ⟨before, after, rfl, hstraddles⟩ : ∃ before after, pieces = before ++ after ∧
      Straddles sep before.flatten after.flatten := by
    simpa [NoneStraddles] using h
  have hbefore := sum_count_le hsep before
  have hafter := sum_count_le hsep after
  rw [List.map_append, List.sum_append, List.flatten_append,
    count_append_of_straddles hsep hstraddles]
  omega

end Yellowbox.SplitCounts
