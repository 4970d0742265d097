import Mathlib.Data.FinEnum
import Mathlib.Data.Nat.Digits.Defs
import Mathlib.Tactic.Common

/-!
Tar archives as sequences of members: a header with a name and a size, the content, and
zeros up to the next block; a block of zeros is the end. How a header is written is
left open, but reading it gives back what was written.
-/
namespace Yellowbox.TarArchives

/-- The length of a block. -/
def blockSize : ℕ := 512

/-- What a header tells: the name, the size of the content, and other attributes. -/
structure TarInfo (Name Attrs : Type) where
  name : Name
  size : ℕ
  attrs : Attrs

/-- A way to write and to read headers; a header is read with what follows it. -/
structure TarFormat (Name Attrs : Type) where
  header : TarInfo Name Attrs → List UInt8
  readHeader : List UInt8 → Option (TarInfo Name Attrs × List UInt8)
  read_header : ∀ info rest, readHeader (header info ++ rest) = some (info, rest)
  read_zeros : ∀ n, blockSize ≤ n → readHeader (List.replicate n 0) = none

/-- The zeros between a content of this size and the next block. -/
def padding (size : ℕ) : ℕ := (blockSize - size % blockSize) % blockSize

variable {Name Attrs : Type}

/-- The members that a reader finds; `none` when it meets the end of the bytes inside a
content, or has read as many members as it may. -/
def readMembers (format : TarFormat Name Attrs) :
    ℕ → List UInt8 → Option (List (Name × List UInt8))
  | 0, _ => none
  | fuel + 1, bytes =>
    match format.readHeader bytes with
    | none => some []
    | some (info, rest) =>
      if rest.length < info.size then none
      else (readMembers format fuel (rest.drop (info.size + padding info.size))).map
        ((info.name, rest.take info.size) :: ·)

def members (format : TarFormat Name Attrs) (bytes : List UInt8) :
    Option (List (Name × List UInt8)) :=
  readMembers format (bytes.length + 1) bytes

variable {format : TarFormat Name Attrs} {info : TarInfo Name Attrs}

/-- An archive with one member reads as that member. -/
theorem members_single {content : List UInt8} (h : content.length = info.size) {zeros : ℕ}
    (hzeros : blockSize ≤ zeros) :
    members format (format.header info ++ (content ++ List.replicate (padding info.size) 0) ++
      List.replicate zeros 0) = some [(info.name, content)] := by
  have hfuel : 1 < (format.header info ++ (content ++ List.replicate (padding info.size) 0) ++
      List.replicate zeros 0).length + 1 := by
    simp only [List.length_append, List.length_replicate, blockSize] at hzeros ⊢
    omega
  obtain ⟨fuel, hfuel⟩ := Nat.exists_eq_add_of_lt hfuel
  have hskip : (content ++ List.replicate (padding info.size) 0 ++ List.replicate zeros 0).drop
      (info.size + padding info.size) = List.replicate zeros 0 := by
    apply List.drop_left'
    rw [List.length_append, List.length_replicate, h]
  have htake : (content ++ List.replicate (padding info.size) 0 ++ List.replicate zeros 0).take
      info.size = content := by
    rw [List.append_assoc]
    exact List.take_left' h
  have hlong : ¬(content ++ List.replicate (padding info.size) 0 ++
      List.replicate zeros 0).length < info.size := by
    rw [List.length_append, List.length_append, h]
    omega
  rw [members, hfuel, List.append_assoc, readMembers, format.read_header]
  simp only [if_neg hlong, hskip, htake]
  rw [Nat.add_comm 1 fuel, readMembers, format.read_zeros zeros hzeros]
  rfl

/-- The first member has the size that the first header tells. -/
theorem length_of_members {rest : List UInt8} {name : Name} {content : List UInt8}
    {others : List (Name × List UInt8)}
    (h : members format (format.header info ++ rest) = some ((name, content) :: others)) :
    content.length = info.size := by
  rw [members, readMembers, format.read_header] at h
  simp only at h
  split at h
  · cases h
  · rename_i hlong
    obtain ⟨tail, -, htail⟩ := Option.map_eq_some_iff.mp h
    cases htail
    rw [List.length_take]
    omega

/-! ### A format -/

/-- The bytes before the first zero, and those after it. -/
def readField (bytes : List UInt8) : List UInt8 × List UInt8 :=
  (bytes.takeWhile (· != 0), (bytes.dropWhile (· != 0)).drop 1)

theorem readField_append {field : List UInt8} (h : ∀ byte ∈ field, (byte != 0) = true)
    (rest : List UInt8) : readField (field ++ 0 :: rest) = (field, rest) := by
  rw [readField, List.takeWhile_append_of_pos h, List.dropWhile_append_of_pos h]
  simp

/-- The octal digits of a number, in ASCII. -/
def octal (n : ℕ) : List UInt8 := (Nat.digits 8 n).reverse.map fun digit => .ofNat (48 + digit)

def readOctal (digits : List UInt8) : ℕ :=
  Nat.ofDigits 8 (digits.reverse.map fun digit => digit.toNat - 48)

theorem toNat_octalDigit {digit : ℕ} (h : digit < 8) :
    (UInt8.ofNat (48 + digit)).toNat = 48 + digit := by
  rw [UInt8.toNat_ofNat']
  omega

theorem octal_ne_zero (n : ℕ) : ∀ byte ∈ octal n, (byte != 0) = true := by
  intro byte hbyte
  obtain ⟨digit, hdigit, rfl⟩ := List.mem_map.mp hbyte
  have hlt : digit < 8 := Nat.digits_lt_base (by omega) (List.mem_reverse.mp hdigit)
  rw [bne_iff_ne]
  intro hzero
  have hnat := toNat_octalDigit hlt
  rw [hzero, UInt8.toNat_zero] at hnat
  omega

theorem readOctal_octal (n : ℕ) : readOctal (octal n) = n := by
  have hdigits : (Nat.digits 8 n).map ((fun digit => digit.toNat - 48) ∘
      fun digit => UInt8.ofNat (48 + digit)) = Nat.digits 8 n := by
    conv_rhs => rw [← List.map_id (Nat.digits 8 n)]
    refine List.map_congr_left fun digit hdigit => ?_
    have hlt : digit < 8 := Nat.digits_lt_base (by omega) hdigit
    simp only [Function.comp, toNat_octalDigit hlt, id]
    omega
  rw [readOctal, octal, ← List.map_reverse, List.reverse_reverse, List.map_map, hdigits,
    Nat.ofDigits_digits]

/-- A file name: at least one byte, and no zeros. -/
def FileName := { name : List UInt8 // name ≠ [] ∧ ∀ byte ∈ name, (byte != 0) = true }

/-- The byte for the type of a member: a directory, or a regular file. -/
def typeByte (dir : Bool) : UInt8 := if dir then 53 else 48

/-- Headers with a name and an octal size, each ended by a zero, and a type. -/
def octalFormat : TarFormat FileName Bool where
  header info := info.name.val ++ 0 :: (octal info.size ++ [0, typeByte info.attrs])
  readHeader bytes :=
    let (name, bytes) := readField bytes
    match readField bytes with
    | (size, type :: rest) =>
      if h : name ≠ [] ∧ ∀ byte ∈ name, (byte != 0) = true then
        some ({ name := ⟨name, h⟩, size := readOctal size, attrs := type == 53 }, rest)
      else none
    | (_, []) => none
  read_header info rest := by
    have hname := readField_append info.name.property.2
      (octal info.size ++ [0, typeByte info.attrs] ++ rest)
    have hsize := readField_append (octal_ne_zero info.size) (typeByte info.attrs :: rest)
    have htype : (typeByte info.attrs == 53) = info.attrs := by cases info.attrs <;> rfl
    simp only [List.append_assoc, List.cons_append, List.nil_append] at hname ⊢
    simp only [hname, hsize, readOctal_octal, htype]
    rw [dif_pos info.name.property]
    rfl
  read_zeros n h := by
    obtain ⟨m, rfl⟩ : ∃ m, n = m + 1 := ⟨n - 1, by simp only [blockSize] at h; omega⟩
    simp only [List.replicate_succ]
    rcases hfield : readField (readField (0 :: List.replicate m 0)).2 with ⟨size, _ | ⟨type, rest⟩⟩
    · rfl
    · simp [readField]

end Yellowbox.TarArchives
