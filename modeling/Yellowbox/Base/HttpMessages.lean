import Mathlib.Data.List.DropRight
import Yellowbox.Base.Decimals

/-!
Responses of HTTP as a client takes them from a connection: a status line, fields up to an
empty line, and a body whose length a field gives, or which ends with the connection. A head
that was written is read back, whatever follows it, but for white space around the reason.
-/
namespace Yellowbox.HttpMessages

abbrev Bytes := List UInt8

/-- `text.encode("latin-1")`, for characters below 256. -/
def encode (text : List Char) : Bytes := text.map fun c => UInt8.ofNat c.toNat

/-- `bytes.decode("latin-1")` -/
def decode (bytes : Bytes) : List Char := bytes.map fun b => Char.ofNat b.toNat

def lf : UInt8 := 10
def space : UInt8 := 32
def colon : UInt8 := 58

def crlf : Bytes := [13, 10]

structure Head where
  status : ℕ
  reason : Bytes
  fields : List (Bytes × Bytes)
  deriving DecidableEq

/-! ### Writing -/

def fieldLine (field : Bytes × Bytes) : Bytes := field.1 ++ colon :: space :: field.2

namespace Head

def statusLine (head : Head) : Bytes :=
  encode "HTTP/1.0".toList ++
    space :: (encode (Nat.toDigits 10 head.status) ++ space :: head.reason)

def lines (head : Head) : List Bytes := head.statusLine :: head.fields.map fieldLine

def write (head : Head) : Bytes := head.lines.flatMap (· ++ crlf) ++ crlf

end Head

/-! ### Reading -/

/-- A line of a head is not longer than this, with its end. -/
def maxLine : ℕ := 65536

/-- With the empty line a head has not more fields than this. -/
def maxHeaders : ℕ := 100

/-- The lines up to an empty one, each without its end, and what follows them; `line` is the
line so far in reverse. -/
def headLines : Bytes → Bytes → Option (List Bytes × Bytes)
  | _, [] => none
  | line, b :: rest =>
    if b = lf then
      if maxLine < line.length + 1 then none else
      let line := if line.head? = some 13 then line.tail else line
      if line = [] then some ([], rest)
      else (headLines [] rest).map fun p => (line.reverse :: p.1, p.2)
    else headLines (b :: line) rest

/-- What stands before the first `d`, and what behind it. -/
def cut (d : UInt8) (bytes : Bytes) : Bytes × Bytes :=
  (bytes.takeWhile (· ≠ d), (bytes.dropWhile (· ≠ d)).drop 1)

/-- The white space of a text that is decoded as Latin-1. -/
def isWhite (b : UInt8) : Bool := (9 ≤ b ∧ b ≤ 13) ∨ (28 ≤ b ∧ b ≤ 32) ∨ b = 0x85 ∨ b = 0xA0

/-- The first word, and what follows it. -/
def word (bytes : Bytes) : Bytes × Bytes :=
  let bytes := bytes.dropWhile isWhite
  (bytes.takeWhile (!isWhite ·), bytes.dropWhile (!isWhite ·))

/-- `text.strip()` -/
def strip (bytes : Bytes) : Bytes := (bytes.dropWhile isWhite).rdropWhile isWhite

def readStatus (line : Bytes) : Option (ℕ × Bytes) :=
  let (version, rest) := word line
  let (code, reason) := word rest
  match Decimals.int (decode code) with
  | some (.ofNat status) =>
    if (encode "HTTP/1.".toList).isPrefixOf version ∧ 100 ≤ status ∧ status ≤ 999 then
      some (status, strip reason)
    else none
  | some (.negSucc _) | none => none

def readField (line : Bytes) : Option (Bytes × Bytes) :=
  if colon ∈ line then
    some ((cut colon line).1, (cut colon line).2.dropWhile (· = space))
  else none

def readLines : List Bytes → Option Head
  | [] => none
  | line :: fieldLines =>
    if maxHeaders < fieldLines.length + 1 then none else
    (readStatus line).bind fun p =>
      (fieldLines.mapM readField).map fun fields => ⟨p.1, p.2, fields⟩

def readHead (wire : Bytes) : Option (Head × Bytes) :=
  (headLines [] wire).bind fun p => (readLines p.1).map fun head => (head, p.2)

namespace Head

/-- The first field of this name, which is given in lower case. -/
def field? (head : Head) (name : String) : Option Bytes :=
  (head.fields.find? fun field => (decode field.1).map Char.toLower = name.toList).map (·.2)

/-- A length that is no number, or negative, is passed over. -/
def contentLength (head : Head) : Option ℕ :=
  match (head.field? "content-length").bind fun value => Decimals.int (decode value) with
  | some (.ofNat n) => some n
  | some (.negSucc _) | none => none

/-- The body, out of the bytes behind the head of a response to a request of this method. -/
def body (head : Head) (method : String) (rest : Bytes) : Option Bytes :=
  if method = "HEAD" ∨ head.status = 204 ∨ head.status = 304 then some []
  else
    match head.contentLength with
    | none => some rest
    | some n => if n ≤ rest.length then some (rest.take n) else none

end Head

/-- The response on a connection that was closed behind it. Interim responses and other
transfer encodings are not read. -/
def readResponse (method : String) (wire : Bytes) : Option (Head × Bytes) :=
  (readHead wire).bind fun p =>
    if p.1.status < 200 ∨ (p.1.field? "transfer-encoding").isSome then none
    else (p.1.body method p.2).map fun body => (p.1, body)

/-! ### Round trip -/

/-- No line feed ends a line before its end, and every field is cut where it was joined. -/
structure Head.Fits (head : Head) : Prop where
  status : 100 ≤ head.status ∧ head.status ≤ 999
  reason : lf ∉ head.reason
  names : ∀ field ∈ head.fields, colon ∉ field.1 ∧ lf ∉ field.1
  values : ∀ field ∈ head.fields, lf ∉ field.2 ∧ field.2.head? ≠ some space

/-- The head is within the limits of a client. -/
structure Head.Bounded (head : Head) : Prop where
  short : ∀ line ∈ head.lines, line.length + crlf.length ≤ maxLine
  few : head.fields.length < maxHeaders

/-- What a client takes the head for. -/
def Head.received (head : Head) : Head := { head with reason := strip head.reason }

theorem headLines_line {text : Bytes} (h : lf ∉ text) (line rest : Bytes)
    (hshort : line.length + text.length + crlf.length ≤ maxLine) :
    headLines line (text ++ (crlf ++ rest)) =
      if line.reverse ++ text = [] then some ([], rest)
      else (headLines [] rest).map fun p => ((line.reverse ++ text) :: p.1, p.2) := by
  induction text generalizing line with
  | nil =>
    have hcr : (13 : UInt8) ≠ lf := by decide
    have hends : headLines line ([] ++ (crlf ++ rest)) =
        if line = [] then some ([], rest)
        else (headLines [] rest).map fun p => (line.reverse :: p.1, p.2) := by
      change headLines line (13 :: 10 :: rest) = _
      have hlength : ¬maxLine < (13 :: line).length + 1 := Nat.not_lt.mpr hshort
      rw [headLines, if_neg hcr, headLines, if_neg hlength]
      rfl
    rw [hends, List.append_nil]
    simp only [List.reverse_eq_nil_iff]
  | cons b text ih =>
    rw [List.mem_cons, not_or] at h
    have hshort' : (b :: line).length + text.length + crlf.length ≤ maxLine := by
      simp only [List.length_cons] at hshort ⊢
      omega
    rw [List.cons_append, headLines, if_neg (Ne.symm h.1), ih h.2 _ hshort', List.reverse_cons,
      List.append_assoc, List.singleton_append]

theorem headLines_write {lines : List Bytes} (h : ∀ line ∈ lines, line ≠ [] ∧ lf ∉ line)
    (hshort : ∀ line ∈ lines, line.length + crlf.length ≤ maxLine) (rest : Bytes) :
    headLines [] (lines.flatMap (· ++ crlf) ++ (crlf ++ rest)) = some (lines, rest) := by
  induction lines with
  | nil => exact headLines_line List.not_mem_nil [] rest (by decide)
  | cons line lines ih =>
    obtain ⟨⟨hne, hlf⟩, hlines⟩ := List.forall_mem_cons.mp h
    obtain ⟨hline, hshort⟩ := List.forall_mem_cons.mp hshort
    have hfirst : ([] : Bytes).length + line.length + crlf.length ≤ maxLine := by
      rwa [List.length_nil, Nat.zero_add]
    rw [List.flatMap_cons, List.append_assoc, List.append_assoc, headLines_line hlf _ _ hfirst,
      List.reverse_nil, List.nil_append, if_neg hne, ih hlines hshort]
    rfl

theorem cut_append {d : UInt8} {before : Bytes} (h : d ∉ before) (after : Bytes) :
    cut d (before ++ d :: after) = (before, after) := by
  have hbefore : ∀ b ∈ before, decide (b ≠ d) = true := by
    intro b hb
    refine decide_eq_true ?_
    rintro rfl
    exact h hb
  have htake : (d :: after).takeWhile (fun b => decide (b ≠ d)) = [] :=
    List.takeWhile_cons_of_neg (by simp)
  have hdrop : (d :: after).dropWhile (fun b => decide (b ≠ d)) = d :: after :=
    List.dropWhile_cons_of_neg (by simp)
  rw [cut, List.takeWhile_append_of_pos hbefore, List.dropWhile_append_of_pos hbefore, htake, hdrop,
    List.append_nil]
  rfl

section Digits

theorem decode_encode {text : List Char} (h : ∀ c ∈ text, c.toNat < 256) :
    decode (encode text) = text := by
  rw [decode, encode, List.map_map]
  refine (List.map_congr_left fun c hc => ?_).trans (List.map_id text)
  have hlt := h c hc
  simp [Nat.mod_eq_of_lt hlt]

theorem not_mem_encode {text : List Char} {c : Char} (h : ∀ d ∈ text, d.toNat < 256)
    (hc : c.toNat < 256) (hmem : c ∉ text) : UInt8.ofNat c.toNat ∉ encode text := by
  intro hin
  obtain ⟨d, hd, heq⟩ := List.mem_map.mp hin
  have hnat := congrArg UInt8.toNat heq
  rw [UInt8.toNat_ofNat', UInt8.toNat_ofNat', Nat.mod_eq_of_lt (h d hd), Nat.mod_eq_of_lt hc]
    at hnat
  exact hmem (Char.toNat_inj.mp hnat ▸ hd)

variable {n : ℕ} {c : Char}

theorem isDigit_of_mem (h : c ∈ Nat.toDigits 10 n) : c.isDigit = true :=
  Nat.isDigit_of_mem_toDigits (by decide) (by decide) h

theorem toNat_lt_of_mem (h : c ∈ Nat.toDigits 10 n) : c.toNat < 256 := by
  have hdigit := isDigit_of_mem h
  simp only [Char.isDigit, Bool.and_eq_true, decide_eq_true_eq] at hdigit
  have hle := UInt32.le_iff_toNat_le.mp hdigit.2
  change c.toNat ≤ 57 at hle
  omega

theorem not_mem_digits (h : c.isDigit = false) (hc : c.toNat < 256) :
    UInt8.ofNat c.toNat ∉ encode (Nat.toDigits 10 n) := by
  refine not_mem_encode (fun d hd => toNat_lt_of_mem hd) hc fun hmem => ?_
  rw [isDigit_of_mem hmem] at h
  cases h

theorem int_digits (n : ℕ) : Decimals.int (decode (encode (Nat.toDigits 10 n))) = some (n : ℤ) := by
  rw [decode_encode fun c hc => toNat_lt_of_mem hc, Decimals.int_toDigits]

end Digits

/-- A word is read up to the space behind it. -/
theorem word_append {text : Bytes} (hword : ∀ b ∈ text, isWhite b = false) (hne : text ≠ [])
    (rest : Bytes) : word (text ++ space :: rest) = (text, space :: rest) := by
  have hbegins : (text ++ space :: rest).dropWhile isWhite = text ++ space :: rest := by
    cases text with
    | nil => exact absurd rfl hne
    | cons b text =>
      have hb := hword b List.mem_cons_self
      rw [List.cons_append, List.dropWhile_cons_of_neg (by simp [hb])]
  have hall : ∀ b ∈ text, (!isWhite b) = true := fun b hb => by rw [hword b hb, Bool.not_false]
  have htake : (space :: rest).takeWhile (fun b => !isWhite b) = [] :=
    List.takeWhile_cons_of_neg (by decide)
  have hdrop : (space :: rest).dropWhile (fun b => !isWhite b) = space :: rest :=
    List.dropWhile_cons_of_neg (by decide)
  rw [word, hbegins, List.takeWhile_append_of_pos hall, List.dropWhile_append_of_pos hall, htake,
    hdrop, List.append_nil]

theorem word_space (rest : Bytes) : word (space :: rest) = word rest := by
  rw [word, List.dropWhile_cons_of_pos (by decide)]
  rfl

theorem strip_space (rest : Bytes) : strip (space :: rest) = strip rest := by
  rw [strip, List.dropWhile_cons_of_pos (by decide)]
  rfl

theorem isWhite_digits {n : ℕ} : ∀ b ∈ encode (Nat.toDigits 10 n), isWhite b = false := by
  intro b hb
  obtain ⟨c, hc, rfl⟩ := List.mem_map.mp hb
  have hdigits : ∀ n ≤ 57, 48 ≤ n → isWhite (.ofNat n) = false := by decide
  have hdigit := isDigit_of_mem hc
  simp only [Char.isDigit, Bool.and_eq_true, decide_eq_true_eq] at hdigit
  exact hdigits c.toNat (UInt32.le_iff_toNat_le.mp hdigit.2) (UInt32.le_iff_toNat_le.mp hdigit.1)

theorem readStatus_statusLine {head : Head} (h : head.Fits) :
    readStatus head.statusLine = some (head.status, strip head.reason) := by
  have hversion : ∀ b ∈ encode "HTTP/1.0".toList, isWhite b = false := by simp [encode, isWhite]
  have hcode : encode (Nat.toDigits 10 head.status) ≠ [] := by
    simp [encode, Nat.toDigits_ne_nil]
  have hbegins : (encode "HTTP/1.".toList).isPrefixOf (encode "HTTP/1.0".toList) = true := by
    simp [encode]
  simp only [readStatus, Head.statusLine, word_append hversion (by simp [encode]), word_space,
    word_append isWhite_digits hcode, int_digits, strip_space]
  exact if_pos ⟨hbegins, h.status⟩

theorem readField_fieldLine {field : Bytes × Bytes} (hname : colon ∉ field.1)
    (hvalue : field.2.head? ≠ some space) : readField (fieldLine field) = some field := by
  have hmem : colon ∈ fieldLine field := by simp [fieldLine]
  have hcut : cut colon (fieldLine field) = (field.1, space :: field.2) := cut_append hname _
  have hvalue' : (space :: field.2).dropWhile (· = space) = field.2 := by
    change field.2.dropWhile (· = space) = field.2
    cases hfield : field.2 with
    | nil => rfl
    | cons b value =>
      rw [hfield] at hvalue
      refine List.dropWhile_cons_of_neg fun hb => hvalue ?_
      rw [List.head?_cons, of_decide_eq_true hb]
  rw [readField, if_pos hmem, hcut, hvalue']

theorem readFields_fieldLines {fields : List (Bytes × Bytes)}
    (hnames : ∀ field ∈ fields, colon ∉ field.1)
    (hvalues : ∀ field ∈ fields, field.2.head? ≠ some space) :
    (fields.map fieldLine).mapM readField = some fields := by
  induction fields with
  | nil => rfl
  | cons field fields ih =>
    obtain ⟨hname, hnames⟩ := List.forall_mem_cons.mp hnames
    obtain ⟨hvalue, hvalues⟩ := List.forall_mem_cons.mp hvalues
    rw [List.map_cons, List.mapM_cons, readField_fieldLine hname hvalue, ih hnames hvalues]
    rfl

theorem Head.Fits.lines {head : Head} (h : head.Fits) :
    ∀ line ∈ head.lines, line ≠ [] ∧ lf ∉ line := by
  have hversion : lf ∉ encode "HTTP/1.0".toList := by simp [encode, lf]
  have hcode : lf ∉ encode (Nat.toDigits 10 head.status) :=
    not_mem_digits (c := '\n') (by decide) (by decide)
  have hspace : lf ≠ space := by decide
  have hcolon : lf ≠ colon := by decide
  refine List.forall_mem_cons.mpr ⟨⟨by simp [Head.statusLine], ?_⟩, ?_⟩
  · simp only [Head.statusLine, List.mem_append, List.mem_cons, hversion, hcode, hspace, h.reason,
      or_self, not_false_eq_true]
  · intro line hline
    obtain ⟨field, hfield, rfl⟩ := List.mem_map.mp hline
    refine ⟨by simp [fieldLine], ?_⟩
    simp [fieldLine, hcolon, hspace, (h.names field hfield).2, (h.values field hfield).1]

/-- What was written is read back, up to what follows it. -/
theorem readHead_write {head : Head} (h : head.Fits) (hbounded : head.Bounded) (rest : Bytes) :
    readHead (head.write ++ rest) = some (head.received, rest) := by
  have hfields : (head.fields.map fieldLine).mapM readField = some head.fields :=
    readFields_fieldLines (fun field hfield => (h.names field hfield).1)
      fun field hfield => (h.values field hfield).2
  have hfew : ¬maxHeaders < (head.fields.map fieldLine).length + 1 := by
    have hlt := hbounded.few
    rw [List.length_map]
    omega
  rw [Head.write, List.append_assoc, readHead, headLines_write h.lines hbounded.short,
    Option.bind_some, Head.lines, readLines, if_neg hfew, readStatus_statusLine h,
    Option.bind_some, hfields]
  rfl

section Response

variable {head : Head} {method : String}

/-- A response is its head and its body, where no transfer encoding is announced. -/
theorem readResponse_write (h : head.Fits) (hbounded : head.Bounded) (hfinal : 200 ≤ head.status)
    (hencoding : head.field? "transfer-encoding" = none) (rest : Bytes) :
    readResponse method (head.write ++ rest) =
      (head.body method rest).map fun body => (head.received, body) := by
  have hread : ¬(head.received.status < 200 ∨
      (head.received.field? "transfer-encoding").isSome = true) := by
    change ¬(head.status < 200 ∨ (head.field? "transfer-encoding").isSome = true)
    rw [hencoding]
    simp only [Option.isSome_none, Bool.false_eq_true, or_false]
    omega
  rw [readResponse, readHead_write h hbounded, Option.bind_some, if_neg hread]
  rfl

/-- A body of the announced length ends there, whatever was written behind it. -/
theorem Head.body_of_length {bytes : Bytes} (h : head.contentLength = some bytes.length)
    (hstatus : head.status ≠ 204 ∧ head.status ≠ 304) (hmethod : method ≠ "HEAD")
    (rest : Bytes) : head.body method (bytes ++ rest) = some bytes := by
  have hbody : ¬(method = "HEAD" ∨ head.status = 204 ∨ head.status = 304) :=
    fun hor => hor.elim hmethod fun hor => hor.elim hstatus.1 hstatus.2
  have hle : bytes.length ≤ (bytes ++ rest).length := by
    rw [List.length_append]
    exact Nat.le_add_right _ _
  rw [Head.body, if_neg hbody, h]
  simp only [if_pos hle, List.take_left]

end Response

end Yellowbox.HttpMessages
