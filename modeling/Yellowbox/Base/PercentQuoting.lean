import Yellowbox.Base.PercentEncoding

/-!
Percent-encoding, as Python's `urllib.parse.quote` does it with no safe characters. It is
undone by `unquote`, and what it gives has no slash. That rests on UTF-8: the bytes of a
text are decoded to the text.
-/
namespace Yellowbox.PercentEncoding

/-! ### UTF-8 -/

/-- `text.encode("utf-8")` -/
def encodeUtf8 (text : List Char) : List UInt8 := text.flatMap String.utf8EncodeChar

section Decode

variable {lead first second third : UInt8} {range range' range'' : UInt8 × UInt8}

/-- The byte is a continuation that is allowed here. -/
def Within (range : UInt8 × UInt8) (byte : UInt8) : Prop := range.1 ≤ byte ∧ byte ≤ range.2

theorem decodeFrom_one (h : continuations lead = some []) (rest : List UInt8) :
    decodeFrom .idle (lead :: rest) = Char.ofNat lead.toNat :: decodeFrom .idle rest := by
  simp [decodeFrom, Utf8State.feed, Utf8State.lead, h]

theorem decodeFrom_two (h : continuations lead = some [range]) (hfirst : Within range first)
    (rest : List UInt8) :
    decodeFrom .idle (lead :: first :: rest) =
      Char.ofNat (leadBits lead * 0x40 + first.toNat % 0x40) :: decodeFrom .idle rest := by
  simp [decodeFrom, Utf8State.feed, Utf8State.lead, h, hfirst.1, hfirst.2]

theorem decodeFrom_three (h : continuations lead = some [range, range'])
    (hfirst : Within range first) (hsecond : Within range' second) (rest : List UInt8) :
    decodeFrom .idle (lead :: first :: second :: rest) =
      Char.ofNat ((leadBits lead * 0x40 + first.toNat % 0x40) * 0x40 + second.toNat % 0x40) ::
        decodeFrom .idle rest := by
  simp [decodeFrom, Utf8State.feed, Utf8State.lead, h, hfirst.1, hfirst.2, hsecond.1, hsecond.2]

theorem decodeFrom_four (h : continuations lead = some [range, range', range''])
    (hfirst : Within range first) (hsecond : Within range' second)
    (hthird : Within range'' third) (rest : List UInt8) :
    decodeFrom .idle (lead :: first :: second :: third :: rest) =
      Char.ofNat (((leadBits lead * 0x40 + first.toNat % 0x40) * 0x40 + second.toNat % 0x40) *
        0x40 + third.toNat % 0x40) :: decodeFrom .idle rest := by
  simp [decodeFrom, Utf8State.feed, Utf8State.lead, h, hfirst.1, hfirst.2, hsecond.1, hsecond.2,
    hthird.1, hthird.2]

theorem within_ofNat {low high n : ℕ} (hlow : low ≤ n) (hhigh : n ≤ high) (h : high < 256) :
    Within (.ofNat low, .ofNat high) (.ofNat n) := by
  simp only [Within, UInt8.le_iff_toNat_le, UInt8.toNat_ofNat']
  omega

end Decode

theorem toNat_byte {n : ℕ} (h : n < 256) : (UInt8.ofNat n).toNat = n := by
  rw [UInt8.toNat_ofNat', Nat.mod_eq_of_lt h]

/-! The lead bytes, by the number of bytes that they announce. -/

section Lead

variable (n : ℕ)

theorem continuations_ascii (h : n < 0x80) : continuations (.ofNat n) = some [] := by
  rw [continuations, if_pos]
  rw [UInt8.lt_iff_toNat_lt, toNat_byte (by omega)]
  exact h

theorem continuations_two (h : n < 0xE0) (hlow : 0xC2 ≤ n) :
    continuations (.ofNat n) = some [(.ofNat 0x80, .ofNat 0xBF)] ∧
      leadBits (.ofNat n) = n - 0xC0 := by
  have hn : (UInt8.ofNat n).toNat = n := toNat_byte (by omega)
  constructor
  · simp only [continuations, UInt8.lt_iff_toNat_lt, ← UInt8.toNat_inj, hn, UInt8.reduceToNat]
    split_ifs <;> first | omega | rfl
  · simp only [leadBits, UInt8.lt_iff_toNat_lt, hn, UInt8.reduceToNat]
    rw [if_pos h]
    omega

/-- The first continuation of three bytes keeps out overlong forms and surrogates. -/
theorem continuations_three (h : n < 0xF0) (hlow : 0xE0 ≤ n) :
    continuations (.ofNat n) =
      some [(.ofNat (if n = 0xE0 then 0xA0 else 0x80), .ofNat (if n = 0xED then 0x9F else 0xBF)),
        (.ofNat 0x80, .ofNat 0xBF)] ∧
      leadBits (.ofNat n) = n - 0xE0 := by
  have hn : (UInt8.ofNat n).toNat = n := toNat_byte (by omega)
  constructor
  · simp only [continuations, UInt8.lt_iff_toNat_lt, ← UInt8.toNat_inj, hn, UInt8.reduceToNat]
    split_ifs <;> first | omega | rfl
  · simp only [leadBits, UInt8.lt_iff_toNat_lt, hn, UInt8.reduceToNat]
    split_ifs <;> omega

/-- That of four bytes keeps out overlong forms and what is beyond U+10FFFF. -/
theorem continuations_four (h : n < 0xF5) (hlow : 0xF0 ≤ n) :
    continuations (.ofNat n) =
      some [(.ofNat (if n = 0xF0 then 0x90 else 0x80), .ofNat (if n = 0xF4 then 0x8F else 0xBF)),
        (.ofNat 0x80, .ofNat 0xBF), (.ofNat 0x80, .ofNat 0xBF)] ∧
      leadBits (.ofNat n) = n - 0xF0 := by
  have hn : (UInt8.ofNat n).toNat = n := toNat_byte (by omega)
  constructor
  · simp only [continuations, UInt8.lt_iff_toNat_lt, ← UInt8.toNat_inj, hn, UInt8.reduceToNat]
    split_ifs <;> first | omega | rfl
  · simp only [leadBits, UInt8.lt_iff_toNat_lt, hn, UInt8.reduceToNat]
    split_ifs <;> omega

end Lead

/-- The bytes of a character are decoded to it. -/
theorem decodeFrom_encodeChar (c : Char) (rest : List UInt8) :
    decodeFrom .idle (String.utf8EncodeChar c ++ rest) = c :: decodeFrom .idle rest := by
  have hvalid : c.toNat < 0xD800 ∨ 0xDFFF < c.toNat ∧ c.toNat < 0x110000 := c.valid
  have hchar : ∀ n, n = c.toNat → Char.ofNat n = c := by
    rintro n rfl
    exact Char.ofNat_toNat c
  have hv : c.val.toNat = c.toNat := rfl
  generalize c.toNat = v at hvalid hchar hv
  unfold String.utf8EncodeChar
  simp only [hv]
  by_cases h1 : v ≤ 0x7f
  · rw [if_pos h1, List.singleton_append, decodeFrom_one (continuations_ascii v (by omega)),
      hchar _ (toNat_byte (by omega))]
  by_cases h2 : v ≤ 0x7ff
  · obtain ⟨hlead, hbits⟩ := continuations_two (v / 64 % 0x20 + 0xc0) (by omega) (by omega)
    rw [if_neg h1, if_pos h2, List.cons_append, List.singleton_append,
      decodeFrom_two hlead (within_ofNat (by omega) (by omega) (by omega)), hbits, hchar]
    rw [toNat_byte (by omega)]
    omega
  by_cases h3 : v ≤ 0xffff
  · obtain ⟨hlead, hbits⟩ := continuations_three (v / 4096 % 0x10 + 0xe0) (by omega) (by omega)
    rw [if_neg h1, if_neg h2, if_pos h3, List.cons_append, List.cons_append, List.singleton_append,
      decodeFrom_three hlead (within_ofNat (by split <;> omega) (by split <;> omega)
        (by split <;> omega)) (within_ofNat (by omega) (by omega) (by omega)), hbits, hchar]
    rw [toNat_byte (by omega), toNat_byte (by omega)]
    omega
  · obtain ⟨hlead, hbits⟩ := continuations_four (v / 262144 % 0x08 + 0xf0) (by omega) (by omega)
    rw [if_neg h1, if_neg h2, if_neg h3, List.cons_append, List.cons_append, List.cons_append,
      List.singleton_append,
      decodeFrom_four hlead (within_ofNat (by split <;> omega) (by split <;> omega)
        (by split <;> omega)) (within_ofNat (by omega) (by omega) (by omega))
        (within_ofNat (by omega) (by omega) (by omega)), hbits, hchar]
    rw [toNat_byte (by omega), toNat_byte (by omega), toNat_byte (by omega)]
    omega

theorem decodeReplacing_encodeUtf8 (text : List Char) :
    decodeReplacing (encodeUtf8 text) = text := by
  induction text with
  | nil => rfl
  | cons c text ih =>
    rw [decodeReplacing, encodeUtf8, List.flatMap_cons, decodeFrom_encodeChar]
    exact congrArg (c :: ·) ih

/-! ### Escapes -/

/-- The letters, digits and marks that are never escaped. -/
def unreserved (byte : UInt8) : Bool :=
  let c := Char.ofNat byte.toNat
  byte < 0x80 && (c.isAlphanum || c = '_' || c = '.' || c = '-' || c = '~')

def upperHexDigit (n : ℕ) : Char := Char.ofNat (if n < 10 then 48 + n else 55 + n)

def quoteByte (byte : UInt8) : List Char :=
  if unreserved byte then [Char.ofNat byte.toNat]
  else ['%', upperHexDigit (byte.toNat / 16), upperHexDigit (byte.toNat % 16)]

/-- `urllib.parse.quote(text, safe="")` -/
def quote (text : List Char) : List Char := (encodeUtf8 text).flatMap quoteByte

example : quote "/é.~".toList = "%2F%C3%A9.~".toList := by decide

/-- No byte that is left as it is reads as a percent sign or a slash. -/
theorem unreserved_ne {byte : UInt8} (h : unreserved byte = true) {c : Char}
    (hc : c = '%' ∨ c = '/') : Char.ofNat byte.toNat ≠ c := by
  intro hchar
  rw [unreserved, hchar, Bool.and_eq_true] at h
  rcases hc with rfl | rfl
  · exact absurd h.2 (by decide)
  · exact absurd h.2 (by decide)

theorem hexDigit_upperHexDigit : ∀ n < 16, hexDigit (upperHexDigit n) = some n := by
  decide

theorem upperHexDigit_ne_slash : ∀ n < 16, upperHexDigit n ≠ '/' := by
  decide

theorem quoteByte_of_reserved {byte : UInt8} (h : unreserved byte = false) :
    quoteByte byte = ['%', upperHexDigit (byte.toNat / 16), upperHexDigit (byte.toNat % 16)] := by
  rw [quoteByte, h]
  rfl

theorem escape_quoteByte {byte : UInt8} (h : unreserved byte = false) (text : List Char) :
    escape (quoteByte byte ++ text) = some byte := by
  have hlt : byte.toNat < 256 := byte.toNat_lt
  rw [quoteByte_of_reserved h, List.cons_append, List.cons_append, List.cons_append, escape,
    hexDigit_upperHexDigit _ (by omega), hexDigit_upperHexDigit _ (by omega)]
  have hdigits : 16 * (byte.toNat / 16) + byte.toNat % 16 = byte.toNat := Nat.div_add_mod _ _
  show some (UInt8.ofNat (16 * (byte.toNat / 16) + byte.toNat % 16)) = some byte
  rw [hdigits, UInt8.ofNat_toNat]

/-- An escape is put into the run of escapes. -/
theorem unquoteFrom_quoteByte {byte : UInt8} (h : unreserved byte = false) (run : List UInt8)
    (text : List Char) :
    unquoteFrom run 0 (quoteByte byte ++ text) = unquoteFrom (run ++ [byte]) 0 text := by
  have hescape := escape_quoteByte h text
  rw [quoteByte_of_reserved h, List.cons_append] at hescape ⊢
  rw [unquoteFrom, hescape]
  rfl

theorem unquoteFrom_quoteBytes {bytes : List UInt8} (h : ∀ byte ∈ bytes, unreserved byte = false)
    (run : List UInt8) (text : List Char) :
    unquoteFrom run 0 (bytes.flatMap quoteByte ++ text) = unquoteFrom (run ++ bytes) 0 text := by
  induction bytes generalizing run with
  | nil => rw [List.append_nil, List.flatMap_nil, List.nil_append]
  | cons byte bytes ih =>
    rw [List.flatMap_cons, List.append_assoc, unquoteFrom_quoteByte (h byte List.mem_cons_self),
      ih (fun b hb => h b (List.mem_cons_of_mem _ hb)), List.append_assoc, List.singleton_append]

/-- A character stands for itself, or all of its bytes are escaped. -/
theorem encodeChar_cases (c : Char) :
    (∃ byte, String.utf8EncodeChar c = [byte] ∧ unreserved byte = true ∧
      Char.ofNat byte.toNat = c) ∨
    ∀ byte ∈ String.utf8EncodeChar c, unreserved byte = false := by
  have hhigh : ∀ n < 256, 0x80 ≤ n → unreserved (.ofNat n) = false := by
    intro n hn hlow
    have hlt : ¬ UInt8.ofNat n < 0x80 := by
      rw [UInt8.lt_iff_toNat_lt, toNat_byte hn]
      exact Nat.not_lt.mpr hlow
    rw [unreserved, decide_eq_false hlt, Bool.false_and]
  by_cases h1 : c.val.toNat ≤ 0x7f
  · have hone : String.utf8EncodeChar c = [.ofNat c.val.toNat] := by
      rw [String.utf8EncodeChar, if_pos h1]
    cases hunreserved : unreserved (.ofNat c.val.toNat) with
    | false =>
      refine Or.inr fun byte hbyte => ?_
      rw [hone, List.mem_singleton] at hbyte
      rw [hbyte, hunreserved]
    | true =>
      refine Or.inl ⟨_, hone, hunreserved, ?_⟩
      rw [toNat_byte (by omega)]
      exact Char.ofNat_toNat c
  · refine Or.inr fun byte hbyte => ?_
    unfold String.utf8EncodeChar at hbyte
    simp only [if_neg h1] at hbyte
    split at hbyte
    · simp only [List.mem_cons, List.not_mem_nil, or_false] at hbyte
      rcases hbyte with rfl | rfl <;> exact hhigh _ (by omega) (by omega)
    · split at hbyte
      · simp only [List.mem_cons, List.not_mem_nil, or_false] at hbyte
        rcases hbyte with rfl | rfl | rfl <;> exact hhigh _ (by omega) (by omega)
      · simp only [List.mem_cons, List.not_mem_nil, or_false] at hbyte
        rcases hbyte with rfl | rfl | rfl | rfl <;> exact hhigh _ (by omega) (by omega)

/-- Behind a run of escapes that stand for a text. -/
theorem unquoteFrom_quote (before text : List Char) :
    unquoteFrom (encodeUtf8 before) 0 (quote text) = before ++ text := by
  induction text generalizing before with
  | nil =>
    rw [List.append_nil]
    exact decodeReplacing_encodeUtf8 before
  | cons c text ih =>
    have hcons : quote (c :: text) =
        (String.utf8EncodeChar c).flatMap quoteByte ++ quote text := by
      rw [quote, encodeUtf8, List.flatMap_cons, List.flatMap_append, quote, encodeUtf8]
    rw [hcons]
    rcases encodeChar_cases c with ⟨byte, hone, hunreserved, hc⟩ | hescaped
    · have hquote : quoteByte byte = [Char.ofNat byte.toNat] := if_pos hunreserved
      have hne := unreserved_ne hunreserved (Or.inl rfl)
      rw [hone, List.flatMap_singleton, hquote, hc, List.singleton_append, unquoteFrom,
        escape_of_ne (hc ▸ hne), decodeReplacing_encodeUtf8]
      exact congrArg (fun rest => before ++ c :: rest) (ih [])
    · have hrun : encodeUtf8 before ++ String.utf8EncodeChar c = encodeUtf8 (before ++ [c]) := by
        rw [encodeUtf8, encodeUtf8, List.flatMap_append, List.flatMap_singleton]
      rw [unquoteFrom_quoteBytes hescaped, hrun, ih, List.append_assoc, List.singleton_append]

/-- What was quoted is read back. -/
theorem unquote_quote (text : List Char) : unquote (quote text) = text :=
  unquoteFrom_quote [] text

theorem quote_injective : Function.Injective quote :=
  Function.LeftInverse.injective unquote_quote

/-- A quoted text is one segment of a path. -/
theorem slash_not_mem_quote (text : List Char) : '/' ∉ quote text := by
  intro h
  obtain ⟨byte, -, hmem⟩ := List.mem_flatMap.mp h
  have hlt : byte.toNat < 256 := byte.toNat_lt
  cases hunreserved : unreserved byte with
  | true =>
    have hquote : quoteByte byte = [Char.ofNat byte.toNat] := if_pos hunreserved
    rw [hquote, List.mem_singleton] at hmem
    exact unreserved_ne hunreserved (Or.inr rfl) hmem.symm
  | false =>
    simp only [quoteByte_of_reserved hunreserved, List.mem_cons, List.not_mem_nil, or_false] at hmem
    rcases hmem with hpercent | hhigh | hlow
    · exact absurd hpercent (by decide)
    · exact upperHexDigit_ne_slash _ (by omega) hhigh.symm
    · exact upperHexDigit_ne_slash _ (by omega) hlow.symm

end Yellowbox.PercentEncoding
