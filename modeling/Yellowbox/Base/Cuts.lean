import Mathlib.Algebra.BigOperators.Group.List.Basic
import Mathlib.Algebra.GroupWithZero.Nat
import Mathlib.Algebra.Order.BigOperators.Group.List
import Mathlib.Algebra.Order.Group.Nat
import Mathlib.Data.List.Count
import Mathlib.Tactic.Common

/-!
Texts cut at delimiters: at the first one, as Python's `str.partition`, and at all of
them, as `str.split`. Neither makes or loses a character, so lengths tell when a piece
had a delimiter of its own.
-/
namespace Yellowbox.Cuts

variable {α β : Type*} [DecidableEq α] {sep : α} {before after text : List α}

/-- What comes before the first separator, and what follows it, if there is one. -/
def cut (sep : α) : List α → List α × Option (List α)
  | [] => ([], none)
  | x :: xs => if x = sep then ([], some xs) else (x :: (cut sep xs).1, (cut sep xs).2)

theorem cut_append (h : sep ∉ before) (after : List α) :
    cut sep (before ++ sep :: after) = (before, some after) := by
  induction before with
  | nil => exact if_pos rfl
  | cons x before ih =>
    rw [List.mem_cons, not_or] at h
    rw [List.cons_append, cut, if_neg (Ne.symm h.1), ih h.2]

theorem cut_of_not_mem (h : sep ∉ text) : cut sep text = (text, none) := by
  induction text with
  | nil => rfl
  | cons x text ih =>
    rw [List.mem_cons, not_or] at h
    rw [cut, if_neg (Ne.symm h.1), ih h.2]

theorem cut_append_left (h : sep ∉ before) (text : List α) :
    cut sep (before ++ text) = (before ++ (cut sep text).1, (cut sep text).2) := by
  induction before with
  | nil => rfl
  | cons x before ih =>
    rw [List.mem_cons, not_or] at h
    rw [List.cons_append, cut, if_neg (Ne.symm h.1), ih h.2, List.cons_append]

theorem cut_isPrefix (sep : α) (text : List α) : (cut sep text).1 <+: text := by
  induction text with
  | nil => exact List.nil_prefix
  | cons x text ih =>
    rw [cut]
    split
    · exact List.nil_prefix
    · exact List.cons_prefix_cons.mpr ⟨rfl, ih⟩

theorem not_mem_cut (sep : α) (text : List α) : sep ∉ (cut sep text).1 := by
  induction text with
  | nil => exact List.not_mem_nil
  | cons x text ih =>
    rw [cut]
    split
    · exact List.not_mem_nil
    · rename_i hx
      exact List.not_mem_cons_of_ne_of_not_mem (Ne.symm hx) ih

/-- What is behind a separator has no part in the first piece. -/
theorem length_cut_lt (h : sep ∈ before) (after : List α) :
    (cut sep (before ++ after)).1.length < before.length := by
  induction before with
  | nil => simp at h
  | cons x before ih =>
    rw [List.cons_append, cut]
    by_cases hx : x = sep
    · rw [if_pos hx]
      exact Nat.succ_pos _
    · rw [if_neg hx]
      have hmem : sep ∈ before := (List.mem_cons.mp h).resolve_left (Ne.symm hx)
      exact Nat.succ_lt_succ (ih hmem)

theorem length_cut_append_le (before after : List α) :
    (cut sep (before ++ sep :: after)).1.length ≤ before.length := by
  by_cases h : sep ∈ before
  · exact (length_cut_lt h _).le
  · rw [cut_append h]

/-- The two pieces and the separator are the whole text. -/
theorem length_cut_add (h : (cut sep text).2 = some after) :
    (cut sep text).1.length + 1 + after.length = text.length := by
  induction text with
  | nil => cases h
  | cons x text ih =>
    rw [cut] at h ⊢
    by_cases hx : x = sep
    · rw [if_pos hx] at h ⊢
      cases h
      simp [Nat.add_comm]
    · rw [if_neg hx] at h ⊢
      have hrest := ih h
      simp only [List.length_cons]
      omega

omit [DecidableEq α] in
theorem isPrefixOf?_eq_some_iff [BEq α] [LawfulBEq α] :
    before.isPrefixOf? text = some after ↔ text = before ++ after := by
  induction before generalizing text with
  | nil => simp [List.isPrefixOf?]
  | cons x before ih =>
    cases text with
    | nil => simp [List.isPrefixOf?]
    | cons y text =>
      by_cases hxy : x = y
      · simp [List.isPrefixOf?, hxy, ih]
      · simp [List.isPrefixOf?, hxy, Ne.symm hxy]

/-! ### Pieces that are joined -/

omit [DecidableEq α] in
/-- Joined pieces weigh what they do with a separator each, but for the last one. -/
theorem sum_intercalate (weight : α → ℕ) {pieces : List (List α)} (h : pieces ≠ []) :
    (([sep].intercalate pieces).map weight).sum + weight sep =
      (pieces.map fun piece => (piece.map weight).sum + weight sep).sum := by
  induction pieces with
  | nil => exact absurd rfl h
  | cons piece rest ih =>
    cases rest with
    | nil => simp
    | cons next rest =>
      have hrest := ih (List.cons_ne_nil _ _)
      rw [List.intercalate_cons_cons, List.map_cons, List.sum_cons, ← hrest]
      simp only [List.map_append, List.sum_append, List.map_singleton, List.sum_singleton]
      omega

omit [DecidableEq α] in
theorem length_intercalate {pieces : List (List α)} (h : pieces ≠ []) :
    ([sep].intercalate pieces).length + 1 = (pieces.map fun piece => piece.length + 1).sum := by
  simpa using sum_intercalate (fun _ : α => 1) h

theorem count_intercalate {pieces : List (List α)} (h : pieces ≠ []) :
    ([sep].intercalate pieces).count sep + 1 =
      (pieces.map fun piece => piece.count sep).sum + pieces.length := by
  induction pieces with
  | nil => exact absurd rfl h
  | cons piece rest ih =>
    cases rest with
    | nil => simp
    | cons next rest =>
      have hrest := ih (List.cons_ne_nil _ _)
      rw [List.intercalate_cons_cons, List.map_cons, List.sum_cons, List.length_cons]
      simp only [List.count_append, List.count_singleton_self]
      omega

omit [DecidableEq α] in
theorem all_intercalate (p : α → Bool) {sep : List α} (hsep : sep.all p = true)
    (pieces : List (List α)) :
    (sep.intercalate pieces).all p = pieces.all fun piece => piece.all p := by
  induction pieces with
  | nil => rfl
  | cons piece pieces ih =>
    cases pieces with
    | nil => simp
    | cons next rest =>
      rw [List.intercalate_cons_cons, List.all_append, List.all_append, hsep, ih, Bool.and_true]
      rfl

/-- The pieces have no characters but those of the text. -/
theorem not_mem_of_mem_splitOn {c : α} (hc : c ≠ sep) (h : c ∉ text) :
    ∀ piece ∈ text.splitOn sep, c ∉ piece := by
  have hsep : [sep].all (fun d => decide (d ≠ c)) = true := by simpa using Ne.symm hc
  have htext : text.all (fun d => decide (d ≠ c)) = true := by
    refine List.all_eq_true.mpr fun d hd => decide_eq_true ?_
    rintro rfl
    exact h hd
  have hjoined : [sep].intercalate (text.splitOn sep) = text := List.intercalate_splitOn sep
  rw [← hjoined, all_intercalate _ hsep, List.all_eq_true] at htext
  intro piece hpiece hmem
  exact of_decide_eq_true (List.all_eq_true.mp (htext piece hpiece) c hmem) rfl

/-- The pieces of a text, each with one place for its separator, make up the text. -/
theorem sum_splitOn (text : List α) :
    ((text.splitOn sep).map fun piece => piece.length + 1).sum = text.length + 1 := by
  rw [← length_intercalate (List.splitOn_ne_nil _ _), List.intercalate_splitOn]

theorem length_splitOn (text : List α) : (text.splitOn sep).length = text.count sep + 1 := by
  induction text with
  | nil => rfl
  | cons x text ih =>
    rw [List.splitOn_cons_eq_if_modifyHead, List.count_cons]
    by_cases hx : x = sep
    · simp [hx, ih]
    · simp [hx, ih]

/-- Pieces that are not taken apart when their text is split had no separator. -/
theorem not_mem_of_length_splitOn {pieces : List (List α)} (hne : pieces ≠ [])
    (h : (([sep].intercalate pieces).splitOn sep).length = pieces.length) :
    ∀ piece ∈ pieces, sep ∉ piece := by
  have hcount : ([sep].intercalate pieces).count sep + 1 = _ := count_intercalate hne
  rw [length_splitOn] at h
  have hzero : (pieces.map fun piece => piece.count sep).sum = 0 := by omega
  intro piece hpiece
  have hmem : piece.count sep ∈ pieces.map fun piece => piece.count sep :=
    List.mem_map_of_mem hpiece
  have hpart := List.single_le_sum (fun _ _ => Nat.zero_le _) _ hmem
  exact List.count_eq_zero.mp (Nat.le_zero.mp (hzero ▸ hpart))

/-! ### What is read from the pieces -/

variable {γ : Type*} {read : β → Option γ} {weight : γ → ℕ} {room : β → ℕ}

/-- What is read weighs no more than the pieces, and as much only if every piece was
read and is filled. -/
theorem sum_filterMap_le {pieces : List β} (hroom : ∀ piece ∈ pieces, 0 < room piece)
    (hread : ∀ piece ∈ pieces, ∀ value ∈ read piece, weight value ≤ room piece) :
    ((pieces.filterMap read).map weight).sum ≤ (pieces.map room).sum ∧
      ((pieces.map room).sum ≤ ((pieces.filterMap read).map weight).sum →
        ∀ piece ∈ pieces, ∃ value, read piece = some value ∧ weight value = room piece) := by
  induction pieces with
  | nil => exact ⟨Nat.le_refl _, fun _ _ hmem => absurd hmem List.not_mem_nil⟩
  | cons piece pieces ih =>
    rw [List.forall_mem_cons] at hroom hread
    obtain ⟨hle, htight⟩ := ih hroom.2 hread.2
    cases hpiece : read piece with
    | none =>
      rw [List.filterMap_cons_none hpiece, List.map_cons, List.sum_cons]
      have hpos := hroom.1
      exact ⟨by omega, fun hge => absurd hge (by omega)⟩
    | some value =>
      have hvalue := hread.1 value hpiece
      rw [List.filterMap_cons_some hpiece, List.map_cons, List.sum_cons, List.map_cons,
        List.sum_cons]
      refine ⟨by omega, fun hge => List.forall_mem_cons.mpr ⟨⟨value, hpiece, by omega⟩, ?_⟩⟩
      exact htight (by omega)

/-- If all of a list is among what is read, and it weighs as much as the pieces, then
nothing else is read and no piece is lost. -/
theorem perm_of_sum_le {pieces : List β} {values : List γ} (hweight : ∀ value, 0 < weight value)
    (hroom : ∀ piece ∈ pieces, 0 < room piece)
    (hread : ∀ piece ∈ pieces, ∀ value ∈ read piece, weight value ≤ room piece)
    (hsub : values.Subperm (pieces.filterMap read))
    (hsum : (pieces.map room).sum ≤ (values.map weight).sum) :
    (pieces.filterMap read).Perm values ∧
      ∀ piece ∈ pieces, ∃ value, read piece = some value ∧ weight value = room piece := by
  obtain ⟨hle, htight⟩ := sum_filterMap_le hroom hread
  obtain ⟨found, hfound, hsublist⟩ := hsub
  obtain ⟨extra, hextra⟩ := hsublist.exists_perm_append
  have hall : (pieces.filterMap read).Perm (values ++ extra) :=
    hextra.trans (hfound.append_right extra)
  have hsplit := (hall.map weight).sum_eq
  rw [List.map_append, List.sum_append] at hsplit
  have hnil : extra = [] := by
    cases extra with
    | nil => rfl
    | cons value extra =>
      have hpos := hweight value
      rw [List.map_cons, List.sum_cons] at hsplit
      omega
  subst hnil
  rw [List.append_nil] at hall
  exact ⟨hall, htight (hsum.trans (hall.map weight).sum_eq.ge)⟩

/-- Sums of bounded terms agree only if the terms do. -/
theorem eq_of_sum_le {l : List β} {f g : β → ℕ} (hle : ∀ b ∈ l, f b ≤ g b)
    (hsum : (l.map g).sum ≤ (l.map f).sum) : ∀ b ∈ l, f b = g b := by
  intro b hb
  refine (hle b hb).antisymm (not_lt.mp fun hlt => ?_)
  exact absurd hsum (not_le.mpr (List.sum_lt_sum f g hle ⟨b, hb, hlt⟩))

end Yellowbox.Cuts
