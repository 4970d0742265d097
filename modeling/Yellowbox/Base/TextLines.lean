import Yellowbox.Base.Json

/-!
`str.splitlines` on lines that an encoder has ended with CR LF. Every other line
boundary inside such a line ends a piece of its own, so the pieces count the
boundary characters.
-/
namespace Yellowbox.Json

/-- What `splitlines` makes of a terminated line, with the piece read so far in reverse. -/
def pieces : List Char → List Char → List String
  | line, [] => [String.ofList line.reverse]
  | line, c :: rest =>
    if isLineBoundary c then
      String.ofList line.reverse :: pieces [] rest
    else
      pieces (c :: line) rest

theorem splitlinesFrom_cons {c : Char} (h : c ≠ '\r') (line rest : List Char) :
    splitlinesFrom line (c :: rest) =
      if isLineBoundary c then
        String.ofList line.reverse :: splitlinesFrom [] rest
      else
        splitlinesFrom (c :: line) rest := by
  rw [splitlinesFrom]
  intro rest' hc
  exact absurd hc h

theorem splitlinesFrom_crlf {text : List Char} (h : '\r' ∉ text) (line rest : List Char) :
    splitlinesFrom line (text ++ '\r' :: '\n' :: rest) =
      pieces line text ++ splitlinesFrom [] rest := by
  induction text generalizing line with
  | nil =>
    rw [List.nil_append, splitlinesFrom, pieces]
    rfl
  | cons c text ih =>
    have hc : c ≠ '\r' := fun hc => h (hc ▸ List.mem_cons_self ..)
    have htext : '\r' ∉ text := fun hmem => h (List.mem_cons_of_mem c hmem)
    rw [List.cons_append, splitlinesFrom_cons hc, pieces]
    cases isLineBoundary c with
    | true => simp only [if_true, ih htext, List.cons_append]
    | false => simp only [Bool.false_eq_true, if_false, ih htext]

/-- Every boundary character inside a line makes one piece more. -/
theorem length_pieces (line text : List Char) :
    (pieces line text).length = text.countP isLineBoundary + 1 := by
  induction text generalizing line with
  | nil => rfl
  | cons c text ih =>
    rw [pieces, List.countP_cons]
    cases isLineBoundary c with
    | true => simp [ih]
    | false => simp [ih]

theorem pieces_of_none {text : List Char} (h : ∀ c ∈ text, isLineBoundary c = false)
    (line : List Char) : pieces line text = [String.ofList (line.reverse ++ text)] := by
  induction text generalizing line with
  | nil => rw [pieces, List.append_nil]
  | cons c text ih =>
    rw [pieces, h c (List.mem_cons_self ..)]
    simp only [Bool.false_eq_true, if_false]
    rw [ih fun c hc => h c (List.mem_cons_of_mem _ hc), List.reverse_cons, List.append_assoc,
      List.singleton_append]

/-- A line and its end, as an encoder writes it. -/
def terminated (text : String) : String := text ++ "\r\n"

theorem splitlines_terminated {texts : List String} (h : ∀ text ∈ texts, '\r' ∉ text.toList) :
    splitlines (String.join (texts.map terminated)) =
      texts.flatMap fun text => pieces [] text.toList := by
  rw [splitlines, String.toList_join, List.flatMap_map]
  induction texts with
  | nil => rfl
  | cons text texts ih =>
    have htext : '\r' ∉ text.toList := h text (List.mem_cons_self ..)
    have hchars : (terminated text).toList = text.toList ++ ['\r', '\n'] := by
      rw [terminated, String.toList_append]
      rfl
    rw [List.flatMap_cons, List.flatMap_cons, hchars, List.append_assoc, List.cons_append,
      List.cons_append, List.nil_append, splitlinesFrom_crlf htext,
      ih fun t ht => h t (List.mem_cons_of_mem text ht)]

/-- Lines that each give at least one piece, and as many pieces as lines. -/
theorem length_flatMap_eq_iff {α β : Type} {f : α → List β} {l : List α}
    (h : ∀ a ∈ l, 1 ≤ (f a).length) :
    (l.flatMap f).length = l.length ↔ ∀ a ∈ l, (f a).length = 1 := by
  have hle : ∀ l : List α, (∀ a ∈ l, 1 ≤ (f a).length) → l.length ≤ (l.flatMap f).length := by
    intro l h
    induction l with
    | nil => exact Nat.le_refl 0
    | cons a l ih =>
      have hrest := ih fun b hb => h b (List.mem_cons_of_mem a hb)
      have ha := h a (List.mem_cons_self ..)
      rw [List.flatMap_cons, List.length_append, List.length_cons]
      omega
  induction l with
  | nil => simp
  | cons a l ih =>
    have hrest : ∀ b ∈ l, 1 ≤ (f b).length := fun b hb => h b (List.mem_cons_of_mem a hb)
    have ha := h a (List.mem_cons_self ..)
    have hlength := hle l hrest
    have hiff := ih hrest
    rw [List.flatMap_cons, List.length_append, List.length_cons, List.forall_mem_cons]
    constructor
    · intro heq
      exact ⟨by omega, hiff.mp (by omega)⟩
    · rintro ⟨hone, hones⟩
      have heq := hiff.mpr hones
      omega

/-- There are as many pieces as lines exactly when no line has a boundary. -/
theorem length_flatMap_pieces {texts : List String} :
    (texts.flatMap fun text => pieces [] text.toList).length = texts.length ↔
      ∀ text ∈ texts, ∀ c ∈ text.toList, isLineBoundary c = false := by
  rw [length_flatMap_eq_iff fun text _ => by rw [length_pieces]; omega]
  refine forall₂_congr fun text _ => ?_
  rw [length_pieces]
  simp [List.countP_eq_zero]

theorem flatMap_pieces {texts : List String}
    (h : ∀ text ∈ texts, ∀ c ∈ text.toList, isLineBoundary c = false) :
    (texts.flatMap fun text => pieces [] text.toList) = texts := by
  induction texts with
  | nil => rfl
  | cons text texts ih =>
    rw [List.flatMap_cons, pieces_of_none (h text (List.mem_cons_self ..)),
      ih fun t ht => h t (List.mem_cons_of_mem text ht)]
    simp

end Yellowbox.Json
