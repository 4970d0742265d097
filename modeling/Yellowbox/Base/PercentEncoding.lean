import Mathlib.Data.List.Infix

/-!
Percent-decoding, as Python's `urllib.parse.unquote` does it. A run of escapes is read
as UTF-8, with U+FFFD for every part that is not; a percent sign that begins no escape
stays as it is. Decoding never makes a text longer, and each escape makes it shorter.
-/
namespace Yellowbox.PercentEncoding

/-! ### UTF-8 with replacement -/

/-- The ranges of the continuation bytes that a lead byte asks for. -/
def continuations (lead : UInt8) : Option (List (UInt8 × UInt8)) :=
  if lead < 0x80 then some []
  else if lead < 0xC2 then none
  else if lead < 0xE0 then some [(0x80, 0xBF)]
  else if lead = 0xE0 then some [(0xA0, 0xBF), (0x80, 0xBF)]
  else if lead = 0xED then some [(0x80, 0x9F), (0x80, 0xBF)]
  else if lead < 0xF0 then some [(0x80, 0xBF), (0x80, 0xBF)]
  else if lead = 0xF0 then some [(0x90, 0xBF), (0x80, 0xBF), (0x80, 0xBF)]
  else if lead < 0xF4 then some [(0x80, 0xBF), (0x80, 0xBF), (0x80, 0xBF)]
  else if lead = 0xF4 then some [(0x80, 0x8F), (0x80, 0xBF), (0x80, 0xBF)]
  else none

/-- The bits of a lead byte that belong to the code point. -/
def leadBits (lead : UInt8) : ℕ :=
  if lead < 0xE0 then lead.toNat % 0x20
  else if lead < 0xF0 then lead.toNat % 0x10
  else lead.toNat % 0x08

/-- Between two characters, or inside one of which so many bytes are still to come. -/
inductive Utf8State
  | idle
  | inside (code : ℕ) (next : UInt8 × UInt8) (later : List (UInt8 × UInt8))

namespace Utf8State

/-- A byte that begins a character, or stands for no character. -/
def lead (byte : UInt8) : List Char × Utf8State :=
  match continuations byte with
  | none => (['\uFFFD'], idle)
  | some [] => ([Char.ofNat byte.toNat], idle)
  | some (next :: later) => ([], inside (leadBits byte) next later)

/-- One byte; a character that it does not continue is replaced up to there. -/
def feed (byte : UInt8) : Utf8State → List Char × Utf8State
  | idle => lead byte
  | inside code next later =>
    if next.1 ≤ byte ∧ byte ≤ next.2 then
      match later with
      | [] => ([Char.ofNat (code * 0x40 + byte.toNat % 0x40)], idle)
      | after :: later => ([], inside (code * 0x40 + byte.toNat % 0x40) after later)
    else
      ('\uFFFD' :: (lead byte).1, (lead byte).2)

/-- What the end of the bytes leaves of the character begun. -/
def finish : Utf8State → List Char
  | idle => []
  | inside .. => ['\uFFFD']

end Utf8State

def decodeFrom : Utf8State → List UInt8 → List Char
  | s, [] => s.finish
  | s, byte :: bytes => (s.feed byte).1 ++ decodeFrom (s.feed byte).2 bytes

/-- `bytes.decode("utf-8", "replace")` -/
def decodeReplacing (bytes : List UInt8) : List Char := decodeFrom .idle bytes

example : decodeReplacing [0xE2, 0x82, 0xAC, 0xE2, 0x82, 0x41] = ['€', '\uFFFD', 'A'] := by decide

theorem length_lead (byte : UInt8) :
    (Utf8State.lead byte).1.length + (Utf8State.lead byte).2.finish.length = 1 := by
  unfold Utf8State.lead
  split <;> rfl

theorem length_feed (s : Utf8State) (byte : UInt8) :
    (s.feed byte).1.length + (s.feed byte).2.finish.length ≤ s.finish.length + 1 := by
  have hlead := length_lead byte
  cases s with
  | idle => exact Nat.le_trans (Nat.le_of_eq hlead) (Nat.le_add_left ..)
  | inside code next later =>
    by_cases hnext : next.1 ≤ byte ∧ byte ≤ next.2
    · cases later <;> simp [Utf8State.feed, hnext, Utf8State.finish]
    · have hfeed : (Utf8State.inside code next later).feed byte =
          ('\uFFFD' :: (Utf8State.lead byte).1, (Utf8State.lead byte).2) := if_neg hnext
      rw [hfeed]
      show (Utf8State.lead byte).1.length + 1 + (Utf8State.lead byte).2.finish.length ≤ 2
      omega

/-- There is at most one character for each byte. -/
theorem length_decodeFrom_le (s : Utf8State) (bytes : List UInt8) :
    (decodeFrom s bytes).length ≤ s.finish.length + bytes.length := by
  induction bytes generalizing s with
  | nil => exact Nat.le_refl _
  | cons byte bytes ih =>
    have hfeed := length_feed s byte
    have hrest := ih (s.feed byte).2
    rw [decodeFrom, List.length_append, List.length_cons]
    omega

theorem length_decodeReplacing_le (bytes : List UInt8) :
    (decodeReplacing bytes).length ≤ bytes.length :=
  (length_decodeFrom_le .idle bytes).trans_eq (Nat.zero_add _)

/-! ### Escapes -/

def hexDigit (c : Char) : Option ℕ :=
  if '0' ≤ c ∧ c ≤ '9' then some (c.toNat - 48)
  else if 'A' ≤ c ∧ c ≤ 'F' then some (c.toNat - 55)
  else if 'a' ≤ c ∧ c ≤ 'f' then some (c.toNat - 87)
  else none

/-- The byte of the escape that a text begins with: a percent sign and two digits. -/
def escape : List Char → Option UInt8
  | '%' :: high :: low :: _ => do return .ofNat (16 * (← hexDigit high) + (← hexDigit low))
  | _ => none

/-- The text with the bytes of the run of escapes read so far, and the number of
characters of the last escape that are still to be passed over. -/
def unquoteFrom : List UInt8 → ℕ → List Char → List Char
  | run, _, [] => decodeReplacing run
  | run, skip + 1, _ :: text => unquoteFrom run skip text
  | run, 0, c :: text =>
    match escape (c :: text) with
    | some byte => unquoteFrom (run ++ [byte]) 2 text
    | none => decodeReplacing run ++ c :: unquoteFrom [] 0 text

/-- `urllib.parse.unquote(text)` -/
def unquote (text : List Char) : List Char := unquoteFrom [] 0 text

example : unquote "a%C3%A9%2".toList = "aé%2".toList := by decide

/-- No part of the text is an escape. -/
def Plain (text : List Char) : Prop := ∀ suffix, suffix <:+ text → escape suffix = none

variable {text : List Char} {c : Char}

theorem escape_length {byte : UInt8} (h : escape text = some byte) : 3 ≤ text.length := by
  unfold escape at h
  split at h
  · simp
  · cases h

theorem escape_of_ne (h : c ≠ '%') (text : List Char) : escape (c :: text) = none := by
  unfold escape
  split
  · rename_i heq
    exact absurd (List.cons.inj heq).1 h
  · rfl

theorem plain_cons_iff : Plain (c :: text) ↔ escape (c :: text) = none ∧ Plain text := by
  constructor
  · intro h
    exact ⟨h _ List.suffix_rfl, fun suffix hsuffix =>
      h suffix (hsuffix.trans (List.suffix_cons c text))⟩
  · rintro ⟨hhead, htail⟩ suffix hsuffix
    rcases List.suffix_cons_iff.mp hsuffix with rfl | hsuffix
    · exact hhead
    · exact htail suffix hsuffix

theorem plain_nil : Plain [] := fun suffix h => by rw [List.suffix_nil.mp h]; rfl

instance : DecidablePred Plain := fun text =>
  decidable_of_iff (∀ suffix ∈ text.tails, escape suffix = none)
    (forall_congr' fun _ => by rw [List.mem_tails])

theorem unquoteFrom_plain_cons (h : escape (c :: text) = none) :
    unquoteFrom [] 0 (c :: text) = c :: unquoteFrom [] 0 text := by
  rw [unquoteFrom, h]
  rfl

theorem length_unquoteFrom_le (run : List UInt8) (skip : ℕ) (text : List Char) :
    (unquoteFrom run skip text).length ≤ run.length + (text.length - skip) := by
  induction text generalizing run skip with
  | nil => exact (length_decodeReplacing_le run).trans (Nat.le_add_right ..)
  | cons c text ih =>
    cases skip with
    | succ skip =>
      have hrest := ih run skip
      rw [unquoteFrom, List.length_cons]
      omega
    | zero =>
      rw [unquoteFrom]
      cases hescape : escape (c :: text) with
      | some byte =>
        have hlong := escape_length hescape
        have hrest := ih (run ++ [byte]) 2
        simp only [List.length_append, List.length_cons, List.length_nil] at hrest hlong ⊢
        omega
      | none =>
        have hrun := length_decodeReplacing_le run
        have hrest := ih [] 0
        simp only [List.length_append, List.length_cons, List.length_nil] at hrest ⊢
        omega

theorem length_unquote_le (text : List Char) : (unquote text).length ≤ text.length :=
  (length_unquoteFrom_le [] 0 text).trans_eq (Nat.zero_add _)

theorem unquote_of_plain (h : Plain text) : unquote text = text := by
  induction text with
  | nil => rfl
  | cons c text ih =>
    obtain ⟨hhead, htail⟩ := plain_cons_iff.mp h
    rw [unquote, unquoteFrom_plain_cons hhead]
    exact congrArg (c :: ·) (ih htail)

/-- An escape makes the text shorter. -/
theorem length_unquote_lt (h : ¬Plain text) : (unquote text).length < text.length := by
  induction text with
  | nil => exact absurd plain_nil h
  | cons c text ih =>
    rw [unquote]
    cases hescape : escape (c :: text) with
    | some byte =>
      have hlong := escape_length hescape
      have hrest := length_unquoteFrom_le [byte] 2 text
      rw [unquoteFrom, hescape]
      simp only [List.nil_append, List.length_cons, List.length_nil] at hrest hlong ⊢
      omega
    | none =>
      rw [unquoteFrom_plain_cons hescape, List.length_cons, List.length_cons]
      exact Nat.succ_lt_succ (ih fun hplain => h (plain_cons_iff.mpr ⟨hescape, hplain⟩))

/-- Only a text without escapes is left as it is. -/
theorem unquote_eq_self_iff : unquote text = text ↔ Plain text := by
  refine ⟨fun h => ?_, unquote_of_plain⟩
  by_contra hescapes
  have hshorter := length_unquote_lt hescapes
  rw [h] at hshorter
  exact Nat.lt_irrefl _ hshorter

end Yellowbox.PercentEncoding
