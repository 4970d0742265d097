import Yellowbox.Base.Effects
import Yellowbox.Base.TarArchives

/-!
`_create_tar`. A file object with a descriptor is added under the size that the descriptor
tells, that of the whole file if it is a regular one; one without is first copied, from
where it stands, to a temporary file. The copy is also made when adding the file has failed
halfway.
-/
namespace Yellowbox.Docker.CreateTar

open Effects TarArchives

/-- What `except (OSError, AttributeError)` catches. -/
inductive Exc
  | osError
  | attributeError

/-- What `fstat` tells of a descriptor: the size of a regular file as it is on the disk, and
none of a pipe. -/
structure Stat (Attrs : Type) where
  size : ℕ
  attrs : Attrs

/-- A file object with the content that is read from it and its position. `fileno` raises
unless there is a descriptor, which tells about the file below. -/
@[ext] structure FileObj (Attrs : Type) where
  content : List UInt8
  pos : ℕ
  fileno : Except Exc (Stat Attrs)
  pos_le : pos ≤ content.length

variable {Name Attrs : Type}

namespace FileObj

/-- What is still to be read. -/
def rest (file : FileObj Attrs) : List UInt8 := file.content.drop file.pos

/-- The file object after `read(n)`. -/
def advance (file : FileObj Attrs) (n : ℕ) : FileObj Attrs where
  content := file.content
  pos := min (file.pos + n) file.content.length
  fileno := file.fileno
  pos_le := Nat.min_le_right _ _

/-- A file with this content, at its start. -/
def ofBytes (fileno : Except Exc (Stat Attrs)) (content : List UInt8) : FileObj Attrs where
  content := content
  pos := 0
  fileno := fileno
  pos_le := Nat.zero_le _

theorem rest_advance (file : FileObj Attrs) (n : ℕ) :
    (file.advance n).rest = file.rest.drop n := by
  have hpos := file.pos_le
  simp only [rest, advance, List.drop_drop]
  by_cases h : file.pos + n ≤ file.content.length
  · rw [Nat.min_eq_left h]
  · rw [Nat.min_eq_right (by omega), List.drop_eq_nil_of_le (by omega),
      List.drop_eq_nil_of_le (by omega)]

theorem advance_advance (file : FileObj Attrs) (m n : ℕ) :
    (file.advance m).advance n = file.advance (m + n) := by
  ext1
  · rfl
  · simp only [advance]
    omega
  · rfl

theorem advance_zero (file : FileObj Attrs) : file.advance 0 = file := by
  ext1
  · rfl
  · exact Nat.min_eq_left file.pos_le
  · rfl

theorem length_rest (file : FileObj Attrs) : file.rest.length = file.content.length - file.pos :=
  List.length_drop

end FileObj

/-- The archive as far as it is written, the offset that `tarfile` counts, and the file
object being read. -/
structure State (Attrs : Type) where
  output : List UInt8
  offset : ℕ
  file : FileObj Attrs

/-- The format, and the attributes of a `TarInfo` made by hand and of a temporary file. -/
structure Tarfile (Name Attrs : Type) where
  format : TarFormat Name Attrs
  plainAttrs : Attrs
  tempAttrs : Attrs

def write (bytes : List UInt8) : Act (State Attrs) Exc Unit :=
  Act.modify fun s => { s with output := s.output ++ bytes }

/-- `buf = src.read(size)`, and `dst.write(buf)` unless it is too short. -/
def copyBuffer (size : ℕ) : Act (State Attrs) Exc Unit := do
  let buf := (← Act.get).file.rest.take size
  Act.modify fun s => { s with file := s.file.advance size }
  Act.raiseIf (buf.length < size) .osError
  write buf

def bufsize : ℕ := 16 * 1024

def copyBlocks : ℕ → Act (State Attrs) Exc Unit
  | 0 => pure ()
  | blocks + 1 => do
    copyBuffer bufsize
    copyBlocks blocks

/-- `tarfile.copyfileobj(src, dst, length)` -/
def copyfileobj (length : ℕ) : Act (State Attrs) Exc Unit := do
  copyBlocks (length / bufsize)
  if length % bufsize ≠ 0 then
    copyBuffer (length % bufsize)

def addHeader (format : TarFormat Name Attrs) (info : TarInfo Name Attrs) :
    Act (State Attrs) Exc Unit := do
  write (format.header info)
  Act.modify fun s => { s with offset := s.offset + (format.header info).length }

def addContent (size : ℕ) : Act (State Attrs) Exc Unit := do
  copyfileobj size
  write (List.replicate (padding size) 0)
  Act.modify fun s => { s with offset := s.offset + size + padding size }

/-- `tar.addfile(tarinfo, fileobj)` -/
def addfile (format : TarFormat Name Attrs) (info : TarInfo Name Attrs) :
    Act (State Attrs) Exc Unit := do
  addHeader format info
  addContent info.size

/-- `tar.gettarinfo(arcname=.., fileobj=..)`: the size is that of the descriptor. -/
def gettarinfo (name : Name) : Act (State Attrs) Exc (TarInfo Name Attrs) := do
  let stat ← Act.ofExcept (← Act.get).file.fileno
  return { name := name, size := stat.size, attrs := stat.attrs }

def recordSize : ℕ := 10240

/-- The end of the archive: two blocks of zeros, and zeros up to the next record. -/
def close : Act (State Attrs) Exc Unit := do
  write (List.replicate (2 * blockSize) 0)
  Act.modify fun s => { s with offset := s.offset + 2 * blockSize }
  let remainder := (← Act.get).offset % recordSize
  if remainder > 0 then
    write (List.replicate (recordSize - remainder) 0)

/-- `data` or `fileobj`; `upload_file` makes sure that it is one of them. -/
inductive Source (Attrs : Type)
  | data (data : List UInt8)
  | fileobj (file : FileObj Attrs)

def Source.file (noDescriptor : Exc) : Source Attrs → FileObj Attrs
  | .data bytes => .ofBytes (.error noDescriptor) bytes
  | .fileobj file => file

/-- The handler: what is left of the file object is copied to a temporary file. -/
def addCopy (tarfile : Tarfile Name Attrs) (name : Name) : Act (State Attrs) Exc Unit := do
  Act.modify fun s =>
    { s with file := .ofBytes (.ok ⟨s.file.rest.length, tarfile.tempAttrs⟩) s.file.rest }
  let info ← gettarinfo name
  addfile tarfile.format info

def addSource (tarfile : Tarfile Name Attrs) (name : Name) :
    Source Attrs → Act (State Attrs) Exc Unit
  | .data data =>
    addfile tarfile.format { name := name, size := data.length, attrs := tarfile.plainAttrs }
  | .fileobj _ =>
    Act.handle
      (do
        let info ← gettarinfo name
        addfile tarfile.format info)
      fun _ => addCopy tarfile name

/-- `_create_tar`. An `io.BytesIO` has no descriptor. -/
def createTar (tarfile : Tarfile Name Attrs) (name : Name) (source : Source Attrs) :
    Except Exc (List UInt8) :=
  let start : State Attrs := { output := [], offset := 0, file := source.file .osError }
  match (do addSource tarfile name source; close : Act (State Attrs) Exc Unit) start with
  | (.ok (), s) => .ok s.output
  | (.error e, _) => .error e

/-! ### Copying -/

section Copying

variable {s : State Attrs} {size blocks length : ℕ}

theorem copyBuffer_ok (h : size ≤ s.file.rest.length) :
    copyBuffer size s = (.ok (), { s with
      output := s.output ++ s.file.rest.take size, file := s.file.advance size }) := by
  have hlong : ¬(s.file.rest.take size).length < size := by
    rw [List.length_take]
    omega
  rw [copyBuffer, Act.get_bind, Act.modify_bind, Act.raiseIf_bind, decide_eq_false hlong]
  rfl

theorem copyBuffer_short (h : s.file.rest.length < size) :
    copyBuffer size s = (.error .osError, { s with file := s.file.advance size }) := by
  have hshort : (s.file.rest.take size).length < size := by
    rw [List.length_take]
    omega
  rw [copyBuffer, Act.get_bind, Act.modify_bind, Act.raiseIf_bind, decide_eq_true hshort]
  rfl

theorem copyBlocks_ok (h : blocks * bufsize ≤ s.file.rest.length) :
    copyBlocks blocks s = (.ok (), { s with
      output := s.output ++ s.file.rest.take (blocks * bufsize)
      file := s.file.advance (blocks * bufsize) }) := by
  induction blocks generalizing s with
  | zero =>
    rw [Nat.zero_mul, List.take_zero, List.append_nil, FileObj.advance_zero]
    rfl
  | succ blocks ih =>
    rw [Nat.succ_mul] at h
    have hrest : blocks * bufsize ≤ (s.file.advance bufsize).rest.length := by
      rw [FileObj.rest_advance, List.length_drop]
      omega
    rw [copyBlocks, Act.bind_ok (copyBuffer_ok (by omega)), ih hrest]
    simp only [FileObj.rest_advance, FileObj.advance_advance, List.append_assoc]
    rw [Nat.succ_mul, Nat.add_comm (blocks * bufsize), List.take_add]

theorem copyfileobj_ok (h : length ≤ s.file.rest.length) :
    copyfileobj length s = (.ok (), { s with
      output := s.output ++ s.file.rest.take length, file := s.file.advance length }) := by
  have hsplit : length / bufsize * bufsize + length % bufsize = length :=
    Nat.div_add_mod' length bufsize
  rw [copyfileobj, Act.bind_ok (copyBlocks_ok (by omega))]
  by_cases hremainder : length % bufsize = 0
  · rw [hremainder, Nat.add_zero] at hsplit
    simp only [hremainder, hsplit]
    rfl
  · simp only [ne_eq, hremainder, not_false_eq_true, if_true]
    have hrest : length % bufsize ≤
        (s.file.advance (length / bufsize * bufsize)).rest.length := by
      rw [FileObj.rest_advance, List.length_drop]
      omega
    rw [copyBuffer_ok hrest]
    simp only [FileObj.rest_advance, FileObj.advance_advance, List.append_assoc]
    rw [← List.take_add, hsplit]

end Copying

/-! ### What is written stays -/

/-- The archive begins with these bytes. -/
def Begins (bytes : List UInt8) (s : State Attrs) : Prop := bytes <+: s.output

section Begins

variable {bytes : List UInt8}

theorem keeps_write (more : List UInt8) :
    Act.Keeps (Begins bytes) (write more : Act (State Attrs) Exc Unit) :=
  fun _ h => h.trans (List.prefix_append _ more)

theorem keeps_copyBuffer (size : ℕ) :
    Act.Keeps (Begins bytes) (copyBuffer size : Act (State Attrs) Exc Unit) := by
  intro s h
  by_cases hlong : size ≤ s.file.rest.length
  · rw [copyBuffer_ok hlong]
    exact h.trans (List.prefix_append _ _)
  · rw [copyBuffer_short (Nat.lt_of_not_le hlong)]
    exact h

theorem keeps_copyBlocks (blocks : ℕ) :
    Act.Keeps (Begins bytes) (copyBlocks blocks : Act (State Attrs) Exc Unit) := by
  induction blocks with
  | zero => exact Act.keeps_pure ()
  | succ blocks ih => exact Act.keeps_bind (keeps_copyBuffer bufsize) fun _ => ih

theorem keeps_copyfileobj (length : ℕ) :
    Act.Keeps (Begins bytes) (copyfileobj length : Act (State Attrs) Exc Unit) :=
  Act.keeps_bind (keeps_copyBlocks _) fun _ =>
    Act.keeps_ite (keeps_copyBuffer _) (Act.keeps_pure ())

theorem keeps_addHeader (format : TarFormat Name Attrs) (info : TarInfo Name Attrs) :
    Act.Keeps (Begins bytes) (addHeader format info) :=
  Act.keeps_bind (keeps_write _) fun _ => Act.keeps_modify fun _ h => h

theorem keeps_addContent (size : ℕ) :
    Act.Keeps (Begins bytes) (addContent size : Act (State Attrs) Exc Unit) :=
  Act.keeps_bind (keeps_copyfileobj _) fun _ =>
    Act.keeps_bind (keeps_write _) fun _ => Act.keeps_modify fun _ h => h

theorem keeps_addfile (format : TarFormat Name Attrs) (info : TarInfo Name Attrs) :
    Act.Keeps (Begins bytes) (addfile format info) :=
  Act.keeps_bind (keeps_addHeader _ _) fun _ => keeps_addContent _

/-- The header comes first in an archive that had nothing before, also when the copy
of the content fails. -/
theorem addfile_begins (format : TarFormat Name Attrs) (info : TarInfo Name Attrs)
    {s : State Attrs} (h : s.output = []) :
    Begins (format.header info) (addfile format info s).2 := by
  refine keeps_addContent info.size { s with
    output := s.output ++ format.header info
    offset := s.offset + (format.header info).length } ?_
  rw [Begins, h]
  exact List.prefix_rfl

theorem keeps_gettarinfo (name : Name) :
    Act.Keeps (Begins bytes) (gettarinfo name : Act (State Attrs) Exc (TarInfo Name Attrs)) := by
  intro s h
  rw [gettarinfo, Act.get_bind, Act.ofExcept_bind]
  cases s.file.fileno <;> exact h

theorem keeps_addCopy (tarfile : Tarfile Name Attrs) (name : Name) :
    Act.Keeps (Begins bytes) (addCopy tarfile name) :=
  Act.keeps_bind (Act.keeps_modify fun _ h => h) fun _ =>
    Act.keeps_bind (keeps_gettarinfo name) fun _ => keeps_addfile _ _

theorem keeps_get : Act.Keeps (Begins bytes) (Act.get : Act (State Attrs) Exc (State Attrs)) :=
  fun _ h => h

theorem keeps_close : Act.Keeps (Begins bytes) (close : Act (State Attrs) Exc Unit) :=
  Act.keeps_bind (keeps_write _) fun _ =>
    Act.keeps_bind (Act.keeps_modify fun _ h => h) fun _ =>
      Act.keeps_bind keeps_get fun _ => Act.keeps_ite (keeps_write _) (Act.keeps_pure ())

end Begins

/-! ### One member -/

section Members

variable {tarfile : Tarfile Name Attrs} {s : State Attrs}

theorem addfile_ok (format : TarFormat Name Attrs) (info : TarInfo Name Attrs)
    (h : s.file.rest.length = info.size) :
    ∃ t, addfile format info s = (.ok (), t) ∧ t.output = s.output ++ (format.header info ++
      (s.file.rest ++ List.replicate (padding info.size) 0)) := by
  let begun : State Attrs := { s with
    output := s.output ++ format.header info, offset := s.offset + (format.header info).length }
  have hcopy := copyfileobj_ok (s := begun) (Nat.le_of_eq h.symm)
  refine ⟨_, (Act.bind_ok rfl).trans (Act.bind_ok hcopy), ?_⟩
  have htake : s.file.rest.take info.size = s.file.rest := List.take_of_length_le (by omega)
  simp only [begun, htake, List.append_assoc]

theorem close_ok (s : State Attrs) :
    ∃ zeros t, close s = (.ok (), t) ∧ blockSize ≤ zeros ∧
      t.output = s.output ++ List.replicate zeros 0 := by
  have hblocks : blockSize ≤ 2 * blockSize := by omega
  rw [close, write, Act.modify_bind, Act.modify_bind, Act.get_bind]
  by_cases hremainder : (s.offset + 2 * blockSize) % recordSize > 0
  · simp only [hremainder, if_true]
    refine ⟨2 * blockSize + (recordSize - (s.offset + 2 * blockSize) % recordSize), _, rfl,
      by omega, ?_⟩
    simp only [List.append_assoc, List.replicate_append_replicate]
  · simp only [hremainder, if_false]
    exact ⟨2 * blockSize, _, rfl, hblocks, rfl⟩

theorem createTar_ok {name : Name} {source : Source Attrs} {archive : List UInt8}
    (h : createTar tarfile name source = .ok archive) :
    ∃ t u, addSource tarfile name source
        { output := [], offset := 0, file := source.file .osError } = (.ok (), t) ∧
      close t = (.ok (), u) ∧ u.output = archive := by
  unfold createTar at h
  simp only at h
  rcases hadd : addSource tarfile name source
    { output := [], offset := 0, file := source.file .osError } with ⟨e | _, t⟩
  · rw [Act.bind_error hadd] at h
    cases h
  · rw [Act.bind_ok hadd] at h
    rcases hclose : close t with ⟨e | _, u⟩
    · rw [hclose] at h
      cases h
    · rw [hclose] at h
      cases h
      exact ⟨t, u, rfl, hclose, rfl⟩

/-- An archive that one file object was added to as a whole has that member alone. -/
theorem createTar_single (info : TarInfo Name Attrs) {name : Name} {source : Source Attrs}
    {content : List UInt8} {t : State Attrs} (hlength : content.length = info.size)
    (hadd : addSource tarfile name source
      { output := [], offset := 0, file := source.file .osError } = (.ok (), t))
    (houtput : t.output = tarfile.format.header info ++
      (content ++ List.replicate (padding info.size) 0)) :
    ∃ archive, createTar tarfile name source = .ok archive ∧
      members tarfile.format archive = some [(info.name, content)] := by
  obtain ⟨zeros, u, hclose, hzeros, hend⟩ := close_ok t
  refine ⟨u.output, ?_, ?_⟩
  · rw [createTar, Act.bind_ok hadd, hclose]
  · rw [hend, houtput]
    exact members_single hlength hzeros

theorem createTar_data (tarfile : Tarfile Name Attrs) (name : Name) (data : List UInt8) :
    ∃ archive, createTar tarfile name (.data data) = .ok archive ∧
      members tarfile.format archive = some [(name, data)] := by
  let info : TarInfo Name Attrs := { name, size := data.length, attrs := tarfile.plainAttrs }
  let start : State Attrs :=
    { output := [], offset := 0, file := .ofBytes (.error .osError) data }
  obtain ⟨t, hadd, houtput⟩ := addfile_ok tarfile.format info (s := start) rfl
  exact createTar_single info rfl hadd houtput

theorem gettarinfo_ok {stat : Stat Attrs} (name : Name) (h : s.file.fileno = .ok stat) :
    gettarinfo name s = (.ok { name, size := stat.size, attrs := stat.attrs }, s) := by
  rw [gettarinfo, Act.get_bind, Act.ofExcept_bind, h]
  rfl

theorem gettarinfo_error {e : Exc} (name : Name) (h : s.file.fileno = .error e) :
    gettarinfo name s = (.error e, s) := by
  rw [gettarinfo, Act.get_bind, Act.ofExcept_bind, h]

/-- A file object whose descriptor tells the size of what is left is added as it is. -/
theorem createTar_whole {file : FileObj Attrs} {stat : Stat Attrs} (name : Name)
    (hfileno : file.fileno = .ok stat) (hsize : stat.size = file.rest.length) :
    ∃ archive, createTar tarfile name (.fileobj file) = .ok archive ∧
      members tarfile.format archive = some [(name, file.rest)] := by
  let info : TarInfo Name Attrs := { name, size := stat.size, attrs := stat.attrs }
  let start : State Attrs := { output := [], offset := 0, file }
  have hrest : file.rest.length = info.size := hsize.symm
  obtain ⟨t, hadd, houtput⟩ := addfile_ok tarfile.format info (s := start) hrest
  have hinfo : gettarinfo name start = (.ok info, start) := gettarinfo_ok name hfileno
  exact createTar_single info hrest
    (Act.handle_ok ((Act.bind_ok hinfo).trans hadd)) houtput

/-- What is left of a file object without a descriptor is copied and added. -/
theorem createTar_copy {file : FileObj Attrs} {e : Exc} (name : Name)
    (hfileno : file.fileno = .error e) :
    ∃ archive, createTar tarfile name (.fileobj file) = .ok archive ∧
      members tarfile.format archive = some [(name, file.rest)] := by
  let info : TarInfo Name Attrs :=
    { name, size := file.rest.length, attrs := tarfile.tempAttrs }
  let start : State Attrs := { output := [], offset := 0, file }
  let copied : State Attrs := { start with
    file := .ofBytes (.ok ⟨file.rest.length, tarfile.tempAttrs⟩) file.rest }
  obtain ⟨t, hadd, houtput⟩ := addfile_ok tarfile.format info (s := copied) rfl
  have herror : gettarinfo name start = (.error e, start) := gettarinfo_error name hfileno
  have hinfo : gettarinfo name copied = (.ok info, copied) := rfl
  have hcopy : addCopy tarfile name start = (.ok (), t) := by
    rw [addCopy, Act.modify_bind]
    exact (Act.bind_ok hinfo).trans hadd
  exact createTar_single info rfl
    ((Act.handle_error (Act.bind_error herror)).trans hcopy) houtput

/-- The archive of a file object with a descriptor begins with a header that tells the
size of the descriptor, whether or not so much is then added. -/
theorem createTar_begins {file : FileObj Attrs} {stat : Stat Attrs} {name : Name}
    {archive : List UInt8} (hfileno : file.fileno = .ok stat)
    (h : createTar tarfile name (.fileobj file) = .ok archive) :
    tarfile.format.header { name, size := stat.size, attrs := stat.attrs } <+: archive := by
  let info : TarInfo Name Attrs := { name, size := stat.size, attrs := stat.attrs }
  let start : State Attrs := { output := [], offset := 0, file }
  obtain ⟨t, u, hadd, hclose, rfl⟩ := createTar_ok h
  have hadd : addSource tarfile name (.fileobj file) start = (.ok (), t) := hadd
  have hinfo : gettarinfo name start = (.ok info, start) := gettarinfo_ok name hfileno
  have hbegins := addfile_begins tarfile.format info (s := start) rfl
  have hadded : Begins (tarfile.format.header info) t := by
    rcases hfile : addfile tarfile.format info start with ⟨e | _, v⟩ <;> rw [hfile] at hbegins
    · have hrun : addSource tarfile name (.fileobj file) start = addCopy tarfile name v :=
        Act.handle_error ((Act.bind_ok hinfo).trans hfile)
      have hcopied := keeps_addCopy tarfile name v hbegins
      rwa [← hrun, hadd] at hcopied
    · have hrun : addSource tarfile name (.fileobj file) start = (.ok (), v) :=
        Act.handle_ok ((Act.bind_ok hinfo).trans hfile)
      obtain rfl : v = t := congrArg Prod.snd (hrun.symm.trans hadd)
      exact hbegins
  have hclosed := keeps_close t hadded
  rwa [hclose] at hclosed

/-- What is left of a file object with a descriptor is added only if the sizes are equal. -/
theorem size_of_createTar {file : FileObj Attrs} {stat : Stat Attrs} {name : Name}
    {archive : List UInt8} (hfileno : file.fileno = .ok stat)
    (h : createTar tarfile name (.fileobj file) = .ok archive)
    (hmembers : members tarfile.format archive = some [(name, file.rest)]) :
    stat.size = file.rest.length := by
  obtain ⟨rest, rfl⟩ := createTar_begins hfileno h
  exact (length_of_members hmembers).symm

end Members

/-- The archive of a file object has one member, with what is left of the file as its
content, and so has the archive of that content. -/
def Agrees (tarfile : Tarfile Name Attrs) (name : Name) (file : FileObj Attrs) : Prop :=
  (∃ archive, createTar tarfile name (.fileobj file) = .ok archive ∧
    members tarfile.format archive = some [(name, file.rest)]) ∧
  ∃ archive, createTar tarfile name (.data file.rest) = .ok archive ∧
    members tarfile.format archive = some [(name, file.rest)]

/-- The descriptor, if there is one, tells the size of the whole content. -/
def FileObj.Sized (file : FileObj Attrs) : Prop :=
  ∀ stat, file.fileno = .ok stat → stat.size = file.content.length

/-- The descriptor, if there is one, tells the size of what is left. -/
def FileObj.Whole (file : FileObj Attrs) : Prop :=
  ∀ stat, file.fileno = .ok stat → stat.size = file.rest.length

theorem FileObj.Sized.whole_iff {file : FileObj Attrs} (h : file.Sized) :
    file.Whole ↔ (∃ e, file.fileno = .error e) ∨ file.pos = 0 := by
  have hpos := file.pos_le
  rw [FileObj.Whole, FileObj.length_rest]
  cases hfileno : file.fileno with
  | error e => exact iff_of_true nofun (Or.inl ⟨e, rfl⟩)
  | ok stat =>
    have hsize := h stat hfileno
    constructor
    · intro hwhole
      have hleft := hwhole stat rfl
      exact Or.inr (by omega)
    · rintro (⟨e, he⟩ | hstart) stat' hstat
      · cases he
      · cases hstat
        omega

theorem agrees_iff_whole (tarfile : Tarfile Name Attrs) (name : Name) (file : FileObj Attrs) :
    Agrees tarfile name file ↔ file.Whole := by
  constructor
  · rintro ⟨⟨archive, hcreate, hmembers⟩, -⟩ stat hfileno
    exact size_of_createTar hfileno hcreate hmembers
  · intro h
    refine ⟨?_, createTar_data tarfile name file.rest⟩
    cases hfileno : file.fileno with
    | error e => exact createTar_copy name hfileno
    | ok stat => exact createTar_whole name hfileno (h stat hfileno)

/-- The paths agree exactly on file objects without a descriptor, or whose descriptor tells
the size of what is left; if it tells that of the whole content, these are at their start. -/
theorem agrees_iff (tarfile : Tarfile Name Attrs) (name : Name) (file : FileObj Attrs) :
    (Agrees tarfile name file ↔ file.Whole) ∧
      (file.Sized → (Agrees tarfile name file ↔
        (∃ e, file.fileno = .error e) ∨ file.pos = 0)) :=
  ⟨agrees_iff_whole tarfile name file, fun hsized =>
    (agrees_iff_whole tarfile name file).trans hsized.whole_iff⟩

def octalTarfile : Tarfile FileName Bool where
  format := octalFormat
  plainAttrs := false
  tempAttrs := false

/-- A file on disk of which one byte has been read. -/
def partlyRead : FileObj Bool where
  content := [104, 105]
  pos := 1
  fileno := .ok ⟨2, false⟩
  pos_le := by decide

/-- The part that was read makes the copy fail after the header is written, and the
rest is then added behind it. -/
theorem advanced_file_disagrees :
    ¬∀ (tarfile : Tarfile FileName Bool) (name : FileName) (file : FileObj Bool),
      file.Sized → Agrees tarfile name file := by
  intro h
  have hsized : partlyRead.Sized := by
    rintro stat hfileno
    cases hfileno
    rfl
  obtain ⟨⟨archive, hcreate, hmembers⟩, -⟩ := h octalTarfile ⟨[102], by simp⟩ partlyRead hsized
  exact absurd (size_of_createTar rfl hcreate hmembers) (by decide)

end Yellowbox.Docker.CreateTar
