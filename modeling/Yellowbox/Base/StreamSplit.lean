import Mathlib.Data.List.Basic
import Mathlib.Data.List.TakeWhile

/-!
Lines of a stream that arrives in pieces. A line is complete once its separator
was seen; what follows the last separator is the rest, and a piece that arrives
is split together with the rest of what came before it.
-/
namespace Yellowbox.StreamSplit

variable {α : Type*}

/-- A separator begins in `xs` and ends in `ys`. -/
def Straddles (sep xs ys : List α) : Prop :=
  ∃ u v, u ≠ [] ∧ v ≠ [] ∧ sep = u ++ v ∧ u <:+ xs ∧ v <+: ys

section Straddles

variable {sep xs ys : List α}

theorem Straddles.of_tail {x : α} (h : Straddles sep xs ys) : Straddles sep (x :: xs) ys := by
  obtain ⟨u, v, hu, hv, hsep, hxs, hys⟩ := h
  exact ⟨u, v, hu, hv, hsep, hxs.trans (List.suffix_cons x xs), hys⟩

theorem Straddles.mono {zs : List α} (h : Straddles sep xs ys) (hbegins : ys <+: zs) :
    Straddles sep xs zs := by
  obtain ⟨u, v, hu, hv, hsep, hxs, hys⟩ := h
  exact ⟨u, v, hu, hv, hsep, hxs, hys.trans hbegins⟩

/-- A straddling separator is one of the whole. -/
theorem Straddles.infix (h : Straddles sep xs ys) : sep <:+: xs ++ ys := by
  obtain ⟨u, v, -, -, rfl, ⟨before, rfl⟩, ⟨after, rfl⟩⟩ := h
  exact ⟨before, after, by simp⟩

theorem not_straddles_singleton (d : α) (xs ys : List α) : ¬ Straddles [d] xs ys := by
  rintro ⟨u, v, hu, hv, hsep, -, -⟩
  have hlength := congrArg List.length hsep
  rw [List.length_append, List.length_singleton] at hlength
  have hupos := List.length_pos_of_ne_nil hu
  have hvpos := List.length_pos_of_ne_nil hv
  omega

theorem prefix_append_iff (h : ¬ Straddles sep xs ys) (hxs : xs ≠ []) :
    sep <+: xs ++ ys ↔ sep <+: xs := by
  constructor
  · rintro ⟨after, hafter⟩
    rcases List.append_eq_append_iff.mp hafter with ⟨v, rfl, -⟩ | ⟨v, hsep, hys⟩
    · exact List.prefix_append sep v
    · by_cases hv : v = []
      · rw [hv, List.append_nil] at hsep
        exact ⟨[], (List.append_nil sep).trans hsep⟩
      · exact absurd ⟨xs, v, hxs, hv, hsep, List.suffix_refl xs, after, hys.symm⟩ h
  · intro hbegins
    exact hbegins.trans (List.prefix_append xs ys)

end Straddles

variable [DecidableEq α]

/-- Split at the occurrences of `sep`, found from left to right; `skip` symbols of an
occurrence are still to be passed over. -/
def splitSkip (sep : List α) : ℕ → List α → List (List α)
  | _, [] => [[]]
  | skip + 1, _ :: xs => splitSkip sep skip xs
  | 0, x :: xs =>
    if sep.isPrefixOf (x :: xs) then [] :: splitSkip sep (sep.length - 1) xs
    else (splitSkip sep 0 xs).modifyHead (List.cons x)

/-- Split at a non-empty separator. -/
def splitAt (sep xs : List α) : List (List α) := splitSkip sep 0 xs

theorem splitSkip_ne_nil (sep : List α) (skip : ℕ) (xs : List α) : splitSkip sep skip xs ≠ [] := by
  induction xs generalizing skip with
  | nil => cases skip <;> simp [splitSkip]
  | cons x xs ih =>
    cases skip with
    | succ skip => exact ih skip
    | zero =>
      unfold splitSkip
      split
      · simp
      · simpa using ih 0

theorem splitSkip_of_begins {sep xs : List α} {x : α} (h : sep <+: x :: xs) :
    splitSkip sep 0 (x :: xs) = [] :: splitSkip sep (sep.length - 1) xs := by
  rw [splitSkip, if_pos (List.isPrefixOf_iff_prefix.mpr h)]

theorem splitSkip_of_not_begins {sep xs : List α} {x : α} (h : ¬ sep <+: x :: xs) :
    splitSkip sep 0 (x :: xs) = (splitSkip sep 0 xs).modifyHead (List.cons x) := by
  rw [splitSkip, if_neg fun hbegins => h (List.isPrefixOf_iff_prefix.mp hbegins)]

theorem splitAt_ne_nil (sep xs : List α) : splitAt sep xs ≠ [] := splitSkip_ne_nil sep 0 xs

/-- A separator of one symbol. -/
theorem splitAt_singleton (d : α) (xs : List α) : splitAt [d] xs = xs.splitOn d := by
  induction xs with
  | nil => rfl
  | cons x xs ih =>
    unfold splitAt splitSkip
    rw [List.splitOn_cons_eq_if_modifyHead, ← ih]
    by_cases hx : x = d
    · simp [hx, splitAt]
    · have hdx : d ≠ x := Ne.symm hx
      simp [hx, hdx, splitAt]

/-- The complete lines of a stream. -/
def completeLines (sep xs : List α) : List (List α) := (splitAt sep xs).dropLast

/-- What follows the last separator. -/
def remainder (sep xs : List α) : List α := (splitAt sep xs).getLastD []

section Straddling

variable {sep xs ys : List α}

theorem splitAt_eq (sep xs : List α) :
    splitAt sep xs = completeLines sep xs ++ [remainder sep xs] := by
  have hne := splitAt_ne_nil sep xs
  rw [completeLines, remainder, List.getLastD_eq_getLast?, List.getLast?_eq_some_getLast hne,
    Option.getD_some]
  exact (List.dropLast_append_getLast hne).symm

theorem eq_of_splitAt {ls : List (List α)} {r : List α} (h : splitAt sep xs = ls ++ [r]) :
    completeLines sep xs = ls ∧ remainder sep xs = r := by
  rw [splitAt_eq] at h
  obtain ⟨hls, hr⟩ := List.append_inj' h rfl
  exact ⟨hls, List.cons.inj hr |>.1⟩

/-- Where no separator straddles the end of `xs`, what comes after is split by itself. -/
theorem splitSkip_append {skip : ℕ} (h : ¬ Straddles sep xs ys) (hskip : skip ≤ xs.length)
    {ls : List (List α)} {r : List α} (hxs : splitSkip sep skip xs = ls ++ [r]) :
    splitSkip sep skip (xs ++ ys) = ls ++ (splitAt sep ys).modifyHead (r ++ ·) := by
  induction xs generalizing skip ls r with
  | nil =>
    obtain rfl : skip = 0 := Nat.le_zero.mp hskip
    obtain ⟨rfl, hr⟩ := List.append_inj' (show [] ++ [[]] = ls ++ [r] from hxs) rfl
    cases hr
    cases hys : splitAt sep ys with
    | nil => exact absurd hys (splitAt_ne_nil sep ys)
    | cons first others => exact hys
  | cons x xs ih =>
    have htail : ¬ Straddles sep xs ys := fun hstraddles => h hstraddles.of_tail
    cases skip with
    | succ skip => exact ih htail (Nat.le_of_succ_le_succ hskip) hxs
    | zero =>
      have hbegins := prefix_append_iff h (List.cons_ne_nil x xs)
      rw [List.cons_append] at hbegins ⊢
      by_cases hsep : sep <+: x :: xs
      · rw [splitSkip_of_begins hsep] at hxs
        rw [splitSkip_of_begins (hbegins.mpr hsep)]
        cases ls with
        | nil =>
          have hnil := (List.cons.inj hxs).2
          exact absurd hnil (splitSkip_ne_nil sep _ xs)
        | cons l ls =>
          obtain ⟨rfl, hrest⟩ := List.cons.inj hxs
          have hlength := hsep.length_le
          rw [List.length_cons] at hlength
          rw [ih htail (by omega) hrest, List.cons_append]
      · rw [splitSkip_of_not_begins hsep] at hxs
        rw [splitSkip_of_not_begins fun hboth => hsep (hbegins.mp hboth)]
        cases hrest : splitSkip sep 0 xs with
        | nil => exact absurd hrest (splitSkip_ne_nil sep 0 xs)
        | cons first others =>
          rw [hrest, List.modifyHead_cons] at hxs
          cases ls with
          | nil =>
            obtain ⟨rfl, rfl⟩ := List.cons.inj hxs
            rw [ih htail (Nat.zero_le _) (show _ = [] ++ [first] from hrest), List.nil_append,
              List.nil_append, List.modifyHead_modifyHead]
            rfl
          | cons l ls =>
            obtain ⟨rfl, rfl⟩ := List.cons.inj hxs
            rw [ih htail (Nat.zero_le _) (show _ = (first :: ls) ++ [r] from hrest)]
            rfl

theorem splitAt_append (h : ¬ Straddles sep xs ys) :
    splitAt sep (xs ++ ys) =
      completeLines sep xs ++ (splitAt sep ys).modifyHead (remainder sep xs ++ ·) :=
  splitSkip_append h (Nat.zero_le _) (splitAt_eq sep xs)

/-- A piece without a separator completes no line. -/
theorem completeLines_append_single (h : ¬ Straddles sep xs ys) {piece : List α}
    (hys : splitAt sep ys = [piece]) :
    completeLines sep (xs ++ ys) = completeLines sep xs ∧
      remainder sep (xs ++ ys) = remainder sep xs ++ piece := by
  apply eq_of_splitAt
  rw [splitAt_append h, hys]
  rfl

/-- A piece with separators completes the line that was begun and those inside it. -/
theorem completeLines_append_cons (h : ¬ Straddles sep xs ys) {first : List α}
    {others : List (List α)} (hys : splitAt sep ys = first :: others) (hne : others ≠ []) :
    completeLines sep (xs ++ ys) =
        completeLines sep xs ++ (remainder sep xs ++ first) :: others.dropLast ∧
      remainder sep (xs ++ ys) = others.getLast hne := by
  apply eq_of_splitAt
  rw [splitAt_append h, hys, List.append_assoc, List.cons_append, List.dropLast_append_getLast hne]
  rfl

theorem completeLines_prefix_append (h : ¬ Straddles sep xs ys) :
    completeLines sep xs <+: completeLines sep (xs ++ ys) := by
  cases hys : splitAt sep ys with
  | nil => exact absurd hys (splitAt_ne_nil sep ys)
  | cons first others =>
    cases others with
    | nil =>
      exact ⟨[], (List.append_nil _).trans (completeLines_append_single h hys).1.symm⟩
    | cons second others =>
      rw [(completeLines_append_cons h hys (List.cons_ne_nil second others)).1]
      exact List.prefix_append _ _

end Straddling

/-! Lines that end in a single symbol. -/

/-- The complete lines of a stream. -/
def lines (d : α) (xs : List α) : List (List α) := (xs.splitOn d).dropLast

/-- What follows the last separator. -/
def rest (d : α) (xs : List α) : List α := (xs.splitOn d).getLastD []

theorem completeLines_singleton (d : α) (xs : List α) : completeLines [d] xs = lines d xs := by
  rw [completeLines, splitAt_singleton, lines]

theorem remainder_singleton (d : α) (xs : List α) : remainder [d] xs = rest d xs := by
  rw [remainder, splitAt_singleton, rest]

theorem lines_prefix_append (d : α) (xs ys : List α) : lines d xs <+: lines d (xs ++ ys) := by
  rw [← completeLines_singleton, ← completeLines_singleton]
  exact completeLines_prefix_append (not_straddles_singleton d xs ys)

section Parsing

variable {β ε ρ : Type*} (parse : β → Except ε ρ)

/-- Parse up to the first failure: the records, and the failure. -/
def parseAll : List β → List ρ × Option ε
  | [] => ([], none)
  | l :: ls =>
    match parse l with
    | .ok r => (r :: (parseAll ls).1, (parseAll ls).2)
    | .error e => ([], some e)

/-- The parses of the longest prefix all of which parses. -/
def parsed (ls : List β) : List ρ :=
  (ls.takeWhile fun l => (parse l).isOk).filterMap fun l => (parse l).toOption

/-- Everything parses. -/
def Parses (ls : List β) : Prop := ∀ l ∈ ls, (parse l).isOk = true

instance (ls : List β) : Decidable (Parses parse ls) :=
  inferInstanceAs (Decidable (∀ l ∈ ls, (parse l).isOk = true))

theorem parseAll_fst (ls : List β) : (parseAll parse ls).1 = parsed parse ls := by
  induction ls with
  | nil => rfl
  | cons l ls ih =>
    unfold parseAll
    cases h : parse l with
    | ok r => simpa [parsed, h, Except.isOk, Except.toBool, Except.toOption] using ih
    | error e => simp [parsed, h, Except.isOk, Except.toBool]

theorem parseAll_snd (ls : List β) : (parseAll parse ls).2 = none ↔ Parses parse ls := by
  induction ls with
  | nil => simp [parseAll, Parses]
  | cons l ls ih =>
    unfold parseAll
    cases h : parse l with
    | ok r => simpa [Parses, h, Except.isOk, Except.toBool] using ih
    | error e => simp [Parses, h, Except.isOk, Except.toBool]

theorem parses_append (ls ls' : List β) :
    Parses parse (ls ++ ls') ↔ Parses parse ls ∧ Parses parse ls' :=
  List.forall_mem_append

theorem parsed_append {ls : List β} (ls' : List β) (h : Parses parse ls) :
    parsed parse (ls ++ ls') = parsed parse ls ++ parsed parse ls' := by
  unfold parsed
  rw [List.takeWhile_append_of_pos h, List.filterMap_append, List.takeWhile_eq_self_iff.mpr h]

/-- Nothing is parsed after the first failure. -/
theorem parsed_append_of_not {ls : List β} (ls' : List β) (h : ¬ Parses parse ls) :
    parsed parse (ls ++ ls') = parsed parse ls := by
  have hlength : (ls.takeWhile fun l => (parse l).isOk).length ≠ ls.length := by
    intro heq
    have hall := (List.takeWhile_prefix fun l => (parse l).isOk).eq_of_length heq
    exact h (List.takeWhile_eq_self_iff.mp hall)
  unfold parsed
  rw [List.takeWhile_append, if_neg hlength]

theorem length_parsed_le (ls : List β) : (parsed parse ls).length ≤ ls.length := by
  unfold parsed
  exact (List.length_filterMap_le _ _).trans (List.takeWhile_sublist _).length_le

theorem length_parsed {ls : List β} (h : Parses parse ls) :
    (parsed parse ls).length = ls.length := by
  unfold parsed
  rw [List.takeWhile_eq_self_iff.mpr h]
  induction ls with
  | nil => rfl
  | cons l ls ih =>
    obtain ⟨hl, hls⟩ := List.forall_mem_cons.mp h
    cases hparse : parse l with
    | ok r => simpa [hparse, Except.toOption] using ih hls
    | error e => simp [hparse, Except.isOk, Except.toBool] at hl

end Parsing

end Yellowbox.StreamSplit
