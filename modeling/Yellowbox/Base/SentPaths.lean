import Yellowbox.Base.PercentQuoting
import Yellowbox.Base.UrlPaths

/-!
What becomes of the path of a URL between `requests` and the server that reads it. Dot
segments are removed. Percent signs are taken for escapes if each of them begins one, and
are escaped themselves if not, once the digits of those that do are capital ones. Other
escapes are undone where the server decodes the path. A path that is not read as itself
has lost weight on the way, where a small letter weighs more than another byte.
-/
namespace Yellowbox.SentPaths

open Cuts PercentEncoding UrlPaths

/-! ### Dot segments -/

/-- The segments that stand for no name: `.` and `..`. -/
def Dots (segment : Text) : Prop := segment = ['.'] ∨ segment = ['.', '.']

instance : DecidablePred Dots := fun _ => inferInstanceAs (Decidable (_ ∨ _))

/-- The segments that are left, with the next one. -/
def keepSegment (output : List Text) (segment : Text) : List Text :=
  if segment = ['.'] then output
  else if segment = ['.', '.'] then output.dropLast
  else output ++ [segment]

/-- The segments of a path from the root, which is an empty segment in front. -/
def rooted (output : List Text) : List Text :=
  if output.head? = some [] then output else [] :: output

/-- `urllib3.util.url._remove_path_dot_segments(path)` -/
def removeDotSegments (path : Text) : Text :=
  let output := (path.splitOn '/').foldl keepSegment []
  let output := if path.head? = some '/' then rooted output else output
  ['/'].intercalate
    (if ['/', '.'] <:+ path ∨ ['/', '.', '.'] <:+ path then output ++ [[]] else output)

/-- `f"/\x7burl.lstrip('/')\x7d"` for a path that starts with two slashes -/
def singleSlash (path : Text) : Text :=
  if ['/', '/'] <+: path then '/' :: path.dropWhile (· = '/') else path

example : removeDotSegments "/o/a/./../b".toList = "/o/b".toList := by decide

/-! ### Percent signs -/

/-- Each percent sign begins an escape. -/
def percentsEscape : Text → Bool
  | [] => true
  | c :: text => (c ≠ '%' || (escape (c :: text)).isSome) && percentsEscape text

/-- The text with so many characters to be made capital, and all digits of escapes. -/
def upperFrom : ℕ → Text → Text
  | _, [] => []
  | digits + 1, c :: text => c.toUpper :: upperFrom digits text
  | 0, c :: text => c :: upperFrom (if (escape (c :: text)).isSome then 2 else 0) text

def upperEscapes (text : Text) : Text := upperFrom 0 text

/-- The bytes without so many characters, which belong to the last escape. -/
def unquoteToBytesFrom : ℕ → Text → List UInt8
  | _, [] => []
  | skip + 1, _ :: text => unquoteToBytesFrom skip text
  | 0, c :: text =>
    match escape (c :: text) with
    | some byte => byte :: unquoteToBytesFrom 2 text
    | none => String.utf8EncodeChar c ++ unquoteToBytesFrom 0 text

/-- `urllib.parse.unquote_to_bytes(text)` -/
def unquoteToBytes (text : Text) : List UInt8 := unquoteToBytesFrom 0 text

/-- What the server decodes of the path that is sent for this one. -/
def decoded (text : Text) : List UInt8 :=
  if percentsEscape text then unquoteToBytes text else encodeUtf8 (upperEscapes text)

/-- What the server reads of a path, decoded. -/
def received (path : Text) : List UInt8 := decoded (singleSlash (removeDotSegments path))

example : received "/%41%c3".toList = [47, 65, 195] := by decide

example : received "/%c3%".toList = encodeUtf8 "/%C3%".toList := by decide

/-- Nothing in the text is read as something else. -/
def Unchanged (text : Text) : Prop :=
  (∀ segment ∈ text.splitOn '/', ¬Dots segment) ∧
    (percentsEscape text = true → '%' ∉ text) ∧ upperEscapes text = text

instance : DecidablePred Unchanged := fun _ => inferInstanceAs (Decidable (_ ∧ _ ∧ _))

variable {text path before : Text} {c : Char}

theorem percentsEscape_append (h : '%' ∉ before) (text : Text) :
    percentsEscape (before ++ text) = percentsEscape text := by
  induction before with
  | nil => rfl
  | cons c before ih =>
    rw [List.mem_cons, not_or] at h
    rw [List.cons_append, percentsEscape, ih h.2, decide_eq_true (Ne.symm h.1)]
    rfl

theorem upperEscapes_append (h : '%' ∉ before) (text : Text) :
    upperEscapes (before ++ text) = before ++ upperEscapes text := by
  induction before with
  | nil => rfl
  | cons c before ih =>
    rw [List.mem_cons, not_or] at h
    rw [List.cons_append, upperEscapes, upperFrom, escape_of_ne (Ne.symm h.1), List.cons_append]
    exact congrArg (c :: ·) (ih h.2)

theorem unquoteToBytes_of_not_mem (h : '%' ∉ text) : unquoteToBytes text = encodeUtf8 text := by
  induction text with
  | nil => rfl
  | cons c text ih =>
    rw [List.mem_cons, not_or] at h
    rw [unquoteToBytes, unquoteToBytesFrom, escape_of_ne (Ne.symm h.1), encodeUtf8,
      List.flatMap_cons]
    exact congrArg (String.utf8EncodeChar c ++ ·) (ih h.2)

/-- What stands before a text, in segments of its own, has no part in this. -/
theorem unchanged_append (hdots : ∀ segment ∈ before.splitOn '/', ¬Dots segment)
    (hpercent : '%' ∉ before) (text : Text) :
    Unchanged (before ++ '/' :: text) ↔ Unchanged text := by
  have hbefore : '%' ∉ before ++ ['/'] := by
    rw [List.mem_append, List.mem_singleton]
    exact not_or.mpr ⟨hpercent, by decide⟩
  have hjoined : before ++ '/' :: text = (before ++ ['/']) ++ text := by
    rw [List.append_assoc, List.singleton_append]
  have hsegments : (∀ segment ∈ (before ++ '/' :: text).splitOn '/', ¬Dots segment) ↔
      ∀ segment ∈ text.splitOn '/', ¬Dots segment := by
    rw [List.splitOn_append_cons_self, List.forall_mem_append]
    exact and_iff_right hdots
  rw [Unchanged, hsegments, hjoined, percentsEscape_append hbefore, upperEscapes_append hbefore,
    List.append_cancel_left_eq, List.mem_append, or_iff_right hbefore]
  rfl

/-! ### Weights -/

def byteWeight (byte : UInt8) : ℕ := if 97 ≤ byte ∧ byte ≤ 122 then 3 else 2

def charWeight (c : Char) : ℕ := ((String.utf8EncodeChar c).map byteWeight).sum

def weight (text : Text) : ℕ := (text.map charWeight).sum

theorem two_le_byteWeight (byte : UInt8) : 2 ≤ byteWeight byte := by
  unfold byteWeight
  split <;> omega

theorem byteWeight_le (byte : UInt8) : byteWeight byte ≤ 3 := by
  unfold byteWeight
  split <;> omega

theorem two_le_charWeight (c : Char) : 2 ≤ charWeight c := by
  obtain ⟨byte, bytes, hbytes⟩ := List.exists_cons_of_ne_nil (String.utf8EncodeChar_ne_nil (c := c))
  have hbyte := two_le_byteWeight byte
  rw [charWeight, hbytes, List.map_cons, List.sum_cons]
  omega

@[simp]
theorem weight_cons (c : Char) (text : Text) : weight (c :: text) = charWeight c + weight text := by
  rw [weight, List.map_cons, List.sum_cons, weight]

@[simp]
theorem weight_append (text text' : Text) :
    weight (text ++ text') = weight text + weight text' := by
  rw [weight, List.map_append, List.sum_append, weight, weight]

theorem weight_encodeUtf8 (text : Text) : ((encodeUtf8 text).map byteWeight).sum = weight text := by
  induction text with
  | nil => rfl
  | cons c text ih =>
    rw [encodeUtf8, List.flatMap_cons, List.map_append, List.sum_append, weight_cons, ← ih]
    rfl

/-- A prefix that is shorter weighs less. -/
theorem weight_lt_of_prefix {kept : Text} (h : kept <+: text) (hlt : kept.length < text.length) :
    weight kept < weight text := by
  obtain ⟨rest, rfl⟩ := h
  cases rest with
  | nil => simp at hlt
  | cons c rest =>
    have hc := two_le_charWeight c
    rw [weight_append, weight_cons]
    omega

/-! Escapes that are decoded, or made capital. -/

theorem weight_unquoteToBytesFrom_le (skip : ℕ) (text : Text) :
    ((unquoteToBytesFrom skip text).map byteWeight).sum ≤ weight (text.drop skip) := by
  induction text generalizing skip with
  | nil => exact Nat.zero_le _
  | cons c text ih =>
    cases skip with
    | succ skip => exact ih skip
    | zero =>
      rw [unquoteToBytesFrom, List.drop_zero, weight_cons]
      cases hescape : escape (c :: text) with
      | none =>
        have hrest := ih 0
        simp only [List.map_append, List.sum_append, List.drop_zero] at hrest ⊢
        exact Nat.add_le_add_left hrest _
      | some byte =>
        have hbyte := byteWeight_le byte
        have hc := two_le_charWeight c
        have hrest := ih 2
        have hlong := escape_length hescape
        match text, hlong with
        | high :: low :: text, _ =>
          have hhigh := two_le_charWeight high
          simp only [List.map_cons, List.sum_cons, weight_cons, List.drop_succ_cons,
            List.drop_zero] at hrest ⊢
          omega

theorem weight_unquoteToBytes_lt (h : '%' ∈ text) (hescape : percentsEscape text = true) :
    ((unquoteToBytes text).map byteWeight).sum < weight text := by
  induction text with
  | nil => simp at h
  | cons c text ih =>
    rw [percentsEscape, Bool.and_eq_true] at hescape
    rw [unquoteToBytes, unquoteToBytesFrom]
    cases hhead : escape (c :: text) with
    | none =>
      have hc : '%' ≠ c := by
        rintro rfl
        rw [hhead] at hescape
        simp at hescape
      have hrest := ih ((List.mem_cons.mp h).resolve_left hc) hescape.2
      simp only [List.map_append, List.sum_append, weight_cons]
      exact Nat.add_lt_add_left hrest _
    | some byte =>
      have hbyte := byteWeight_le byte
      have hc := two_le_charWeight c
      have hrest := weight_unquoteToBytesFrom_le 2 text
      have hlong := escape_length hhead
      match text, hlong with
      | high :: low :: text, _ =>
        have hhigh := two_le_charWeight high
        have hlow := two_le_charWeight low
        simp only [List.map_cons, List.sum_cons, weight_cons, List.drop_succ_cons,
          List.drop_zero] at hrest ⊢
        omega

theorem charWeight_of_ascii (h : c.toNat ≤ 0x7f) :
    charWeight c = if 97 ≤ c.toNat ∧ c.toNat ≤ 122 then 3 else 2 := by
  have hone : String.utf8EncodeChar c = [.ofNat c.toNat] := by
    rw [String.utf8EncodeChar]
    exact if_pos h
  have hbyte : (UInt8.ofNat c.toNat).toNat = c.toNat := toNat_byte (by omega)
  rw [charWeight, hone, List.map_singleton, List.sum_singleton, byteWeight]
  simp only [UInt8.le_iff_toNat_le, hbyte, UInt8.reduceToNat]

theorem charWeight_toUpper (c : Char) : charWeight c.toUpper < charWeight c ∨ c.toUpper = c := by
  by_cases h : 'a'.val ≤ c.val ∧ c.val ≤ 'z'.val
  · left
    have hlow : 97 ≤ c.toNat := UInt32.le_iff_toNat_le.mp h.1
    have hhigh : c.toNat ≤ 122 := UInt32.le_iff_toNat_le.mp h.2
    have hupper : c.toUpper.toNat = c.toNat - 32 := by
      delta Char.toUpper
      have hless : ('A'.val - 'a'.val).toNat = 4294967264 := by decide
      have hval : c.val.toNat = c.toNat := rfl
      rw [dif_pos h, Char.toNat, UInt32.toNat_add, hless, hval]
      omega
    rw [charWeight_of_ascii (by omega), charWeight_of_ascii (by omega), hupper,
      if_neg (by omega), if_pos ⟨hlow, hhigh⟩]
    omega
  · exact Or.inr (dif_neg h)

theorem weight_upperFrom (digits : ℕ) (text : Text) :
    weight (upperFrom digits text) < weight text ∨ upperFrom digits text = text := by
  induction text generalizing digits with
  | nil => exact Or.inr rfl
  | cons c text ih =>
    cases digits with
    | zero =>
      rw [upperFrom, weight_cons, weight_cons]
      rcases ih (if (escape (c :: text)).isSome then 2 else 0) with hlt | heq
      · exact Or.inl (Nat.add_lt_add_left hlt _)
      · exact Or.inr (congrArg (c :: ·) heq)
    | succ digits =>
      rw [upperFrom, weight_cons, weight_cons]
      rcases charWeight_toUpper c with hc | hc
      · rcases ih digits with hlt | heq
        · exact Or.inl (Nat.add_lt_add hc hlt)
        · rw [heq]
          exact Or.inl (Nat.add_lt_add_right hc _)
      · rw [hc]
        rcases ih digits with hlt | heq
        · exact Or.inl (Nat.add_lt_add_left hlt _)
        · exact Or.inr (congrArg (c :: ·) heq)

/-! Dot segments that are removed. -/

theorem charWeight_slash : charWeight '/' = 2 := by decide

/-- The weight of segments that are joined, with a slash for each of them. -/
def segmentsWeight (segments : List Text) : ℕ :=
  (segments.map fun segment => weight segment + 2).sum

theorem weight_intercalate {segments : List Text} (h : segments ≠ []) :
    weight (['/'].intercalate segments) + 2 = segmentsWeight segments := by
  rw [← charWeight_slash]
  exact sum_intercalate charWeight h

/-- What segments weigh, with the root that they may still have to be given. -/
def rootedWeight (output : List Text) : ℕ :=
  segmentsWeight output + if output.head? = some [] then 0 else 2

theorem segmentsWeight_rooted (output : List Text) :
    segmentsWeight (rooted output) = rootedWeight output := by
  unfold rooted rootedWeight
  split
  · rfl
  · exact Nat.add_comm 2 _

theorem rooted_ne_nil (output : List Text) : rooted output ≠ [] := by
  unfold rooted
  split
  · rename_i hhead
    exact List.ne_nil_of_mem (List.mem_of_head? hhead)
  · exact List.cons_ne_nil _ _

theorem rootedWeight_le (output : List Text) :
    segmentsWeight output ≤ rootedWeight output ∧
      rootedWeight output ≤ segmentsWeight output + 2 := by
  unfold rootedWeight
  split <;> omega

theorem segmentsWeight_append (segments segments' : List Text) :
    segmentsWeight (segments ++ segments') =
      segmentsWeight segments + segmentsWeight segments' := by
  rw [segmentsWeight, List.map_append, List.sum_append, segmentsWeight, segmentsWeight]

theorem segmentsWeight_dropLast_le (segments : List Text) :
    segmentsWeight segments.dropLast ≤ segmentsWeight segments := by
  obtain ⟨last, hlast⟩ := List.dropLast_prefix segments
  have hsum := segmentsWeight_append segments.dropLast last
  rw [hlast] at hsum
  omega

/-- A dot segment is lost, and another segment is kept. -/
theorem rootedWeight_keepSegment (output : List Text) (segment : Text) :
    rootedWeight (keepSegment output segment) + (if Dots segment then 4 else 0) ≤
      rootedWeight output + (weight segment + 2) := by
  unfold keepSegment
  have hdot : weight ['.'] = 2 := by decide
  have hdots : weight ['.', '.'] = 4 := by decide
  by_cases hone : segment = ['.']
  · have hsegment : Dots segment := Or.inl hone
    rw [if_pos hone, if_pos hsegment, hone, hdot]
  by_cases htwo : segment = ['.', '.']
  · have hsegment : Dots segment := Or.inr htwo
    have hless := segmentsWeight_dropLast_le output
    have hdropped := rootedWeight_le output.dropLast
    have houtput := rootedWeight_le output
    rw [if_neg hone, if_pos htwo, if_pos hsegment, htwo, hdots]
    omega
  · have hsegment : ¬Dots segment := not_or.mpr ⟨hone, htwo⟩
    have hsum := segmentsWeight_append output [segment]
    have hlast : segmentsWeight [segment] = weight segment + 2 := rfl
    rw [if_neg hone, if_neg htwo, if_neg hsegment]
    cases output with
    | nil =>
      have hle := (rootedWeight_le ([] ++ [segment])).2
      have hnil : rootedWeight [] = 2 := rfl
      have hempty : segmentsWeight [] = 0 := rfl
      omega
    | cons first output =>
      have hhead : (first :: output ++ [segment]).head? = (first :: output).head? := rfl
      rw [rootedWeight, hhead, hsum, hlast, rootedWeight]
      omega

theorem rootedWeight_foldl (output segments : List Text) :
    rootedWeight (segments.foldl keepSegment output) + 4 * segments.countP (Dots ·) ≤
      rootedWeight output + segmentsWeight segments := by
  induction segments generalizing output with
  | nil => exact Nat.le_refl _
  | cons segment segments ih =>
    have hsegment := rootedWeight_keepSegment output segment
    have hrest := ih (keepSegment output segment)
    have hsum := segmentsWeight_append [segment] segments
    have hlast : segmentsWeight [segment] = weight segment + 2 := rfl
    rw [List.foldl_cons, List.countP_cons]
    simp only [decide_eq_true_eq, List.singleton_append] at hsum ⊢
    split_ifs at hsegment ⊢ <;> omega

theorem foldl_keepSegment {segments : List Text} (h : ∀ segment ∈ segments, ¬Dots segment)
    (output : List Text) : segments.foldl keepSegment output = output ++ segments := by
  induction segments generalizing output with
  | nil => exact (List.append_nil _).symm
  | cons segment segments ih =>
    rw [List.forall_mem_cons, Dots, not_or] at h
    rw [List.foldl_cons, keepSegment, if_neg h.1.1, if_neg h.1.2, ih h.2, List.append_assoc,
      List.singleton_append]

/-- A path that ends in a dot segment has one. -/
theorem dots_of_suffix (h : ['/', '.'] <:+ path ∨ ['/', '.', '.'] <:+ path) :
    ∃ segment ∈ path.splitOn '/', Dots segment := by
  rcases h with ⟨front, rfl⟩ | ⟨front, rfl⟩
  · refine ⟨['.'], ?_, Or.inl rfl⟩
    rw [List.splitOn_append_cons_self]
    exact List.mem_append_right _ (by decide)
  · refine ⟨['.', '.'], ?_, Or.inr rfl⟩
    rw [List.splitOn_append_cons_self]
    exact List.mem_append_right _ (by decide)

theorem splitOn_root (text : Text) : ('/' :: text).splitOn '/' = [] :: text.splitOn '/' :=
  List.splitOn_append_cons_self [] text

theorem removeDotSegments_of_not_dots (hroot : path.head? = some '/')
    (h : ∀ segment ∈ path.splitOn '/', ¬Dots segment) : removeDotSegments path = path := by
  have hsuffix : ¬(['/', '.'] <:+ path ∨ ['/', '.', '.'] <:+ path) := by
    intro hsuffix
    obtain ⟨segment, hsegment, hdots⟩ := dots_of_suffix hsuffix
    exact h segment hsegment hdots
  have hhead : (path.splitOn '/').head? = some [] := by
    obtain ⟨text, rfl⟩ := List.head?_eq_some_iff.mp hroot
    rw [splitOn_root]
    rfl
  rw [removeDotSegments, if_neg hsuffix, if_pos hroot, foldl_keepSegment h, List.nil_append,
    rooted, if_pos hhead, List.intercalate_splitOn]

theorem weight_removeDotSegments_lt (hroot : path.head? = some '/')
    (h : ∃ segment ∈ path.splitOn '/', Dots segment) :
    weight (removeDotSegments path) < weight path := by
  obtain ⟨text, rfl⟩ := List.head?_eq_some_iff.mp hroot
  have hpath := weight_intercalate (List.splitOn_ne_nil '/' ('/' :: text))
  rw [List.intercalate_splitOn] at hpath
  rw [splitOn_root] at h hpath
  have hcount : 0 < (text.splitOn '/').countP (Dots ·) := by
    obtain ⟨segment, hsegment, hdots⟩ := h
    have htail : segment ∈ text.splitOn '/' := by
      refine (List.mem_cons.mp hsegment).resolve_left ?_
      rintro rfl
      exact absurd hdots (by decide)
    exact List.countP_pos_iff.mpr ⟨segment, htail, decide_eq_true hdots⟩
  have houtput := rootedWeight_foldl [[]] (text.splitOn '/')
  have hroot' : rootedWeight [[]] = 2 := rfl
  have hsum := segmentsWeight_append [[]] (text.splitOn '/')
  have hempty : segmentsWeight [[]] = 2 := rfl
  rw [List.singleton_append] at hsum
  have hfold : (('/' :: text).splitOn '/').foldl keepSegment [] =
      (text.splitOn '/').foldl keepSegment [[]] := by
    rw [splitOn_root]
    rfl
  rw [removeDotSegments, if_pos hroot, hfold]
  set output := (text.splitOn '/').foldl keepSegment [[]]
  have hrooted := segmentsWeight_rooted output
  split
  · have hclosed := weight_intercalate (List.append_ne_nil_of_left_ne_nil
      (rooted_ne_nil output) [[]])
    have happend := segmentsWeight_append (rooted output) [[]]
    omega
  · have hopen := weight_intercalate (rooted_ne_nil output)
    omega

theorem weight_singleSlash_le (path : Text) : weight (singleSlash path) ≤ weight path := by
  unfold singleSlash
  split
  · rename_i h
    obtain ⟨text, rfl⟩ := h
    have hsuffix : (text.dropWhile (· = '/')) <:+ text := List.dropWhile_suffix _
    obtain ⟨slashes, htext⟩ := hsuffix
    have hsum := weight_append slashes (text.dropWhile (· = '/'))
    rw [htext] at hsum
    have hdropped : (['/', '/'] ++ text).dropWhile (· = '/') = text.dropWhile (· = '/') := rfl
    rw [hdropped, List.cons_append, List.cons_append, List.nil_append, weight_cons, weight_cons,
      weight_cons]
    omega
  · exact Nat.le_refl _

/-! ### Paths that are read as themselves -/

theorem upperEscapes_of_not_mem (h : '%' ∉ text) : upperEscapes text = text := by
  have happend := upperEscapes_append h []
  have hnil : upperEscapes [] = [] := rfl
  rwa [List.append_nil, hnil, List.append_nil] at happend

theorem decoded_eq (hpercent : percentsEscape text = true → '%' ∉ text)
    (hupper : upperEscapes text = text) : decoded text = encodeUtf8 text := by
  unfold decoded
  split
  · rename_i hescape
    exact unquoteToBytes_of_not_mem (hpercent hescape)
  · rw [hupper]

/-- What is decoded as something else weighs less. -/
theorem weight_decoded (text : Text) :
    ((decoded text).map byteWeight).sum < weight text ∨
      (percentsEscape text = true → '%' ∉ text) ∧ upperEscapes text = text := by
  unfold decoded
  split
  · rename_i hescape
    by_cases hpercent : '%' ∈ text
    · exact Or.inl (weight_unquoteToBytes_lt hpercent hescape)
    · exact Or.inr ⟨fun _ => hpercent, upperEscapes_of_not_mem hpercent⟩
  · rename_i hescape
    rw [weight_encodeUtf8]
    exact (weight_upperFrom 0 text).imp_right fun hupper => ⟨fun h => absurd h hescape, hupper⟩

theorem weight_decoded_le (text : Text) : ((decoded text).map byteWeight).sum ≤ weight text := by
  rcases weight_decoded text with hlt | ⟨hpercent, hupper⟩
  · exact hlt.le
  · rw [decoded_eq hpercent hupper, weight_encodeUtf8]

section Received

variable (hroot : path.head? = some '/') (hslash : ¬['/', '/'] <+: path)
include hroot hslash

theorem received_of_unchanged (h : Unchanged path) : received path = encodeUtf8 path := by
  rw [received, removeDotSegments_of_not_dots hroot h.1, singleSlash, if_neg hslash,
    decoded_eq h.2.1 h.2.2]

/-- What is read of another path weighs less. -/
theorem weight_received_lt (h : ¬Unchanged path) :
    ((received path).map byteWeight).sum < weight path := by
  by_cases hdots : ∀ segment ∈ path.splitOn '/', ¬Dots segment
  · rw [received, removeDotSegments_of_not_dots hroot hdots, singleSlash, if_neg hslash]
    exact (weight_decoded path).resolve_right fun hsame => h ⟨hdots, hsame⟩
  · simp only [not_forall, not_not, exists_prop] at hdots
    calc
      ((received path).map byteWeight).sum
        ≤ weight (singleSlash (removeDotSegments path)) := weight_decoded_le _
      _ ≤ weight (removeDotSegments path) := weight_singleSlash_le _
      _ < weight path := weight_removeDotSegments_lt hroot hdots

theorem weight_received_le : ((received path).map byteWeight).sum ≤ weight path := by
  by_cases h : Unchanged path
  · rw [received_of_unchanged hroot hslash h, weight_encodeUtf8]
  · exact (weight_received_lt hroot hslash h).le

end Received

end Yellowbox.SentPaths
