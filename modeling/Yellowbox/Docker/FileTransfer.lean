import Yellowbox.Base.KeyedWrites
import Yellowbox.Docker.CreateTar

/-!
`upload_file` and `download_file`. A file goes to the container as an archive with one
member, and comes back as the first member of an archive that arrives in chunks. Under
any uploads the files of a container are a map from places to contents. Directories are to be
told apart by the mode that docker sends, but that is not one of the operating system.
-/
namespace Yellowbox.Docker.FileTransfer

open TarArchives CreateTar KeyedWrites

abbrev Inode := ℕ

inductive Entry
  | file (content : List UInt8)
  | dir (inode : Inode)
  deriving DecidableEq

/-- The file system of a container: what the names in each directory stand for. -/
structure FileSystem (Name : Type) where
  root : Inode
  entries : Inode × Name → Option Entry

/-- The path of a file, as `os.path.dirname` and `os.path.basename` split it; none of its names
is `.` or `..`. -/
structure FilePath (Name : Type) where
  dirname : List Name
  basename : Name

/-- A mode as Go writes it: nine bits of permissions, and flags from the 19th bit on, of which
the last one stands for a directory. -/
structure FileMode where
  permissions : ℕ
  flags : ℕ
  permissions_lt : permissions < 512

def FileMode.value (mode : FileMode) : ℕ := mode.permissions + 524288 * mode.flags

/-- `stat.S_ISDIR(mode)`, about the four bits of the type in a mode of the operating system -/
def sIsDir (mode : ℕ) : Bool := mode / 4096 % 16 = 4

/-- How the daemon packs what it sends: the archive of a file has the file as its one
member, that of a directory begins with the directory, which is no regular member, and either
arrives in any chunks. -/
structure Daemon (Name Attrs : Type) where
  tarfile : Tarfile Name Attrs
  isReg : Attrs → Bool
  mode : Entry → FileMode
  archive : Name → List UInt8 → List UInt8
  dirArchive : Inode → List UInt8
  chunks : List UInt8 → List (List UInt8)
  archive_first : ∀ name content, ∃ info rest,
    tarfile.format.readHeader (archive name content) = some (info, rest) ∧
      isReg info.attrs = true ∧ rest.take info.size = content
  dirArchive_first : ∀ inode, ∃ info rest,
    tarfile.format.readHeader (dirArchive inode) = some (info, rest) ∧ isReg info.attrs = false
  chunks_flatten : ∀ bytes, (chunks bytes).flatten = bytes

/-- `docker.errors` and the exceptions of the library; those about a path carry it as
their `filename`. -/
inductive TransferError (Name : Type)
  | notFound
  | apiError
  | typeError (message : String)
  | fileNotFoundError (filename : FilePath Name)
  | isADirectoryError (filename : FilePath Name)
  | createTar (exc : Exc)
  | noMember

variable {Name Attrs : Type} [DecidableEq Name]

namespace FileSystem

/-- The directory that the names lead to. -/
def walk (fs : FileSystem Name) : Inode → List Name → Option Inode
  | inode, [] => some inode
  | inode, name :: names =>
    match fs.entries (inode, name) with
    | some (.dir sub) => walk fs sub names
    | some (.file _) | none => none

/-- The place of a file: its directory and its name there. -/
def locate (fs : FileSystem Name) (path : FilePath Name) : Option (Inode × Name) :=
  (fs.walk fs.root path.dirname).map (·, path.basename)

def write (fs : FileSystem Name) (place : Inode × Name) (content : List UInt8) :
    FileSystem Name :=
  { fs with entries := Function.update fs.entries place (some (.file content)) }

end FileSystem

/-- `container.put_archive(dirname, archive)`: the members, which are regular ones, are
unpacked in the directory. -/
def putArchive (daemon : Daemon Name Attrs) (dirname : List Name) (archive : List UInt8)
    (fs : FileSystem Name) : Except (TransferError Name) (FileSystem Name) :=
  match fs.walk fs.root dirname with
  | none => .error .notFound
  | some inode =>
    match members daemon.tarfile.format archive with
    | none => .error .apiError
    | some found => .ok (found.foldl (fun fs member => fs.write (inode, member.1) member.2) fs)

/-- `container.get_archive(path, chunk_size=None)`: the chunks, and the mode in the stats. -/
def getArchive (daemon : Daemon Name Attrs) (path : FilePath Name) (fs : FileSystem Name) :
    Except (TransferError Name) (List (List UInt8) × ℕ) :=
  match (fs.locate path).bind fs.entries with
  | none => .error .notFound
  | some (.dir inode) =>
    .ok (daemon.chunks (daemon.dirArchive inode), (daemon.mode (.dir inode)).value)
  | some (.file content) =>
    .ok (daemon.chunks (daemon.archive path.basename content), (daemon.mode (.file content)).value)

/-- `upload_file` -/
def uploadFile (daemon : Daemon Name Attrs) (path : FilePath Name)
    (data : Option (List UInt8)) (fileobj : Option (FileObj Attrs)) (fs : FileSystem Name) :
    Except (TransferError Name) (FileSystem Name) :=
  let send (source : Source Attrs) : Except (TransferError Name) (FileSystem Name) :=
    match createTar daemon.tarfile path.basename source with
    | .error exc => .error (.createTar exc)
    | .ok tarData => putArchive daemon path.dirname tarData fs
  match data, fileobj with
  | none, none => .error (.typeError "data or fileobj must be set.")
  | some _, some _ => .error (.typeError "Can't set both data and fileobj.")
  | some data, none => send (.data data)
  | none, some file => send (.fileobj file)

/-- `download_file`, with the content that is read from the file object it returns; it
returns `None` for a first member that is not regular. -/
def downloadFile (daemon : Daemon Name Attrs) (path : FilePath Name) (fs : FileSystem Name) :
    Except (TransferError Name) (Option (List UInt8)) :=
  match getArchive daemon path fs with
  | .error _ => .error (.fileNotFoundError path)
  | .ok (iterator, mode) =>
    if sIsDir mode then
      .error (.isADirectoryError path)
    else
      let tempFile := iterator.foldl (· ++ ·) []
      match daemon.tarfile.format.readHeader tempFile with
      | some (info, rest) =>
        .ok (if daemon.isReg info.attrs then some (rest.take info.size) else none)
      | none => .error .noMember

/-- An upload, by `data` or by a file object. -/
structure Upload (Name Attrs : Type) where
  path : FilePath Name
  source : Source Attrs

namespace Upload

def run (upload : Upload Name Attrs) (daemon : Daemon Name Attrs) (fs : FileSystem Name) :
    Except (TransferError Name) (FileSystem Name) :=
  match upload.source with
  | .data data => uploadFile daemon upload.path (some data) none fs
  | .fileobj file => uploadFile daemon upload.path none (some file) fs

/-- The bytes to be sent: what is left of a file object. -/
def payload (upload : Upload Name Attrs) : List UInt8 :=
  match upload.source with
  | .data data => data
  | .fileobj file => file.rest

/-- A file object with a descriptor is a regular file, of the size of what is to be sent. -/
def Whole (daemon : Daemon Name Attrs) (upload : Upload Name Attrs) : Prop :=
  match upload.source with
  | .data _ => True
  | .fileobj file => file.Whole ∧ ∀ stat, file.fileno = .ok stat → daemon.isReg stat.attrs = true

/-- The directory is there, and the name does not stand for a directory in it. -/
def Placed (upload : Upload Name Attrs) (fs : FileSystem Name) : Prop :=
  ∃ place, fs.locate upload.path = some place ∧ ∀ sub, fs.entries place ≠ some (.dir sub)

end Upload

def uploadAll (daemon : Daemon Name Attrs) (uploads : List (Upload Name Attrs))
    (fs : FileSystem Name) : Except (TransferError Name) (FileSystem Name) :=
  uploads.foldlM (fun fs upload => upload.run daemon fs) fs

/-! ### One upload, one download -/

section Single

variable {fs : FileSystem Name} {place : Inode × Name}

omit [DecidableEq Name] in
theorem createTar_payload (daemon : Daemon Name Attrs) {upload : Upload Name Attrs}
    (h : upload.Whole daemon) :
    ∃ archive, createTar daemon.tarfile upload.path.basename upload.source = .ok archive ∧
      members daemon.tarfile.format archive = some [(upload.path.basename, upload.payload)] := by
  obtain ⟨path, source⟩ := upload
  cases source with
  | data data => exact createTar_data daemon.tarfile path.basename data
  | fileobj file => exact ((agrees_iff_whole daemon.tarfile path.basename file).mpr h.1).1

/-- An upload writes the payload at the place of its path. -/
theorem run_eq (daemon : Daemon Name Attrs) {upload : Upload Name Attrs}
    (hwhole : upload.Whole daemon) (hplace : fs.locate upload.path = some place) :
    upload.run daemon fs = .ok (fs.write place upload.payload) := by
  obtain ⟨archive, hcreate, hmembers⟩ := createTar_payload daemon hwhole
  obtain ⟨inode, hwalk, rfl⟩ := Option.map_eq_some_iff.mp hplace
  have hput : putArchive daemon upload.path.dirname archive fs =
      .ok (fs.write (inode, upload.path.basename) upload.payload) := by
    simp [putArchive, hwalk, hmembers]
  obtain ⟨path, source⟩ := upload
  cases source <;> simp only [Upload.run, uploadFile, hcreate, hput]

/-- The flags of docker's modes leave the bits of the type empty. -/
theorem sIsDir_value (mode : FileMode) : sIsDir mode.value = false := by
  have hpermissions := mode.permissions_lt
  refine decide_eq_false ?_
  rw [FileMode.value]
  omega

omit [DecidableEq Name] in
theorem foldl_chunks (daemon : Daemon Name Attrs) (bytes : List UInt8) :
    (daemon.chunks bytes).foldl (· ++ ·) [] = bytes :=
  (List.foldl_append_eq_append (f := id)).trans (by simp [daemon.chunks_flatten])

omit [DecidableEq Name] in
/-- A download reads the file at the place of its path; a directory is taken for a file, whose
content is not there. -/
theorem downloadFile_eq (daemon : Daemon Name Attrs) (path : FilePath Name)
    (fs : FileSystem Name) :
    downloadFile daemon path fs =
      match (fs.locate path).bind fs.entries with
      | none => .error (.fileNotFoundError path)
      | some (.dir _) => .ok none
      | some (.file content) => .ok (some content) := by
  rw [downloadFile, getArchive]
  rcases (fs.locate path).bind fs.entries with _ | content | inode
  · rfl
  · obtain ⟨info, rest, hheader, hreg, hcontent⟩ :=
      daemon.archive_first path.basename content
    simp only [sIsDir_value, foldl_chunks, hheader, hreg, hcontent, Bool.false_eq_true, if_false,
      if_true]
  · obtain ⟨info, rest, hheader, hreg⟩ := daemon.dirArchive_first inode
    simp only [sIsDir_value, foldl_chunks, hheader, hreg, Bool.false_eq_true, if_false]

/-- Writing a file does not change where paths lead. -/
theorem walk_write (h : ∀ sub, fs.entries place ≠ some (.dir sub)) (content : List UInt8)
    (inode : Inode) (names : List Name) :
    (fs.write place content).walk inode names = fs.walk inode names := by
  induction names generalizing inode with
  | nil => rfl
  | cons name names ih =>
    rw [FileSystem.walk, FileSystem.walk]
    by_cases hplace : (inode, name) = place
    · subst hplace
      have hafter : (fs.write (inode, name) content).entries (inode, name) =
          some (.file content) := Function.update_self ..
      rw [hafter]
      rcases hentry : fs.entries (inode, name) with _ | _ | sub
      · rfl
      · rfl
      · exact absurd hentry (h sub)
    · have hafter : (fs.write place content).entries (inode, name) = fs.entries (inode, name) :=
        Function.update_of_ne hplace ..
      rw [hafter]
      rcases fs.entries (inode, name) with _ | _ | sub
      · rfl
      · rfl
      · exact ih sub

theorem locate_write (h : ∀ sub, fs.entries place ≠ some (.dir sub)) (content : List UInt8)
    (path : FilePath Name) : (fs.write place content).locate path = fs.locate path := by
  rw [FileSystem.locate, walk_write h]
  rfl

theorem placed_write {upload : Upload Name Attrs} (hplaced : upload.Placed fs)
    (h : ∀ sub, fs.entries place ≠ some (.dir sub)) (content : List UInt8) :
    upload.Placed (fs.write place content) := by
  obtain ⟨other, hother, hfile⟩ := hplaced
  refine ⟨other, (locate_write h content _).trans hother, fun sub => ?_⟩
  by_cases hplace : other = place
  · subst hplace
    simp [FileSystem.write]
  · have hafter : (fs.write place content).entries other = fs.entries other :=
      Function.update_of_ne hplace ..
    rw [hafter]
    exact hfile sub

end Single

/-! ### Any uploads -/

section Uploads

variable {fs : FileSystem Name}

/-- The place that an upload writes, with what it writes there. -/
def binding (fs : FileSystem Name) (upload : Upload Name Attrs) :
    Option ((Inode × Name) × Entry) :=
  (fs.locate upload.path).map fun place => (place, .file upload.payload)

def bindings (fs : FileSystem Name) (uploads : List (Upload Name Attrs)) :
    List ((Inode × Name) × Entry) :=
  uploads.filterMap (binding fs)

theorem uploadAll_eq (daemon : Daemon Name Attrs) (fs : FileSystem Name)
    (uploads : List (Upload Name Attrs)) (hwhole : ∀ u ∈ uploads, u.Whole daemon)
    (hplaced : ∀ u ∈ uploads, u.Placed fs) :
    ∃ fs', uploadAll daemon uploads fs = .ok fs' ∧ (∀ path, fs'.locate path = fs.locate path) ∧
      fs'.entries = writes id (bindings fs uploads) fs.entries := by
  induction uploads generalizing fs with
  | nil => exact ⟨fs, rfl, fun _ => rfl, rfl⟩
  | cons upload uploads ih =>
    obtain ⟨place, hplace, hfile⟩ := hplaced upload List.mem_cons_self
    have hrun := run_eq daemon (hwhole upload List.mem_cons_self) hplace
    have hsame := locate_write hfile upload.payload
    obtain ⟨fs', hrest, hlocate, hentries⟩ := ih (fs.write place upload.payload)
      (fun u hu => hwhole u (List.mem_cons_of_mem _ hu))
      (fun u hu => placed_write (hplaced u (List.mem_cons_of_mem _ hu)) hfile _)
    refine ⟨fs', ?_, fun path => (hlocate path).trans (hsame path), ?_⟩
    · rw [uploadAll, List.foldlM_cons, hrun]
      exact hrest
    · have hcons : bindings fs (upload :: uploads) =
          (place, .file upload.payload) :: bindings fs uploads := by
        simp [bindings, binding, hplace]
      have hbinding : ∀ u ∈ uploads,
          binding (fs.write place upload.payload) u = binding fs u := by
        intro u _
        rw [binding, hsame, binding]
      rw [hentries, hcons, writes, bindings, List.filterMap_congr hbinding]
      rfl

/-- What the uploads say about a place is the last upload there. -/
theorem bound_bindings (uploads : List (Upload Name Attrs)) (place : Inode × Name) :
    bound id (bindings fs uploads).reverse place =
      (uploads.reverse.find? fun u => fs.locate u.path = some place).map
        fun u => .file u.payload := by
  rw [bindings, ← List.filterMap_reverse]
  induction uploads.reverse with
  | nil => rfl
  | cons upload later ih =>
    cases hplace : fs.locate upload.path with
    | none =>
      rw [List.filterMap_cons_none (by simp [binding, hplace]), ih]
      simp [hplace]
    | some other =>
      have hwritten : binding fs upload = some (other, .file upload.payload) := by
        rw [binding, hplace]
        rfl
      rw [List.filterMap_cons_some hwritten]
      by_cases hsame : other = place
      · subst hsame
        have hfirst : bound id ((other, .file upload.payload) :: later.filterMap (binding fs))
            other = some (.file upload.payload) := bound_cons_self other _ _
        rw [hfirst]
        simp [hplace]
      · rw [bound_cons_of_ne (Ne.symm hsame), ih]
        simp [hplace, hsame]

/-- After any uploads, in any order and to any places, a download gives what was last
uploaded to its place, however the archives arrive in chunks. Where nothing was uploaded it
gives the content of the file that was there; it raises for what is missing, and returns
nothing for a directory. -/
theorem download_after_uploads (daemon : Daemon Name Attrs) (fs : FileSystem Name)
    (uploads : List (Upload Name Attrs)) (hwhole : ∀ u ∈ uploads, u.Whole daemon)
    (hplaced : ∀ u ∈ uploads, u.Placed fs) :
    ∃ fs', uploadAll daemon uploads fs = .ok fs' ∧ ∀ path, downloadFile daemon path fs' =
      match uploads.reverse.find? fun u => fs.locate u.path = fs.locate path with
      | some upload => .ok (some upload.payload)
      | none =>
        match (fs.locate path).bind fs.entries with
        | none => .error (.fileNotFoundError path)
        | some (.dir _) => .ok none
        | some (.file content) => .ok (some content) := by
  obtain ⟨fs', hrun, hlocate, hentries⟩ := uploadAll_eq daemon fs uploads hwhole hplaced
  refine ⟨fs', hrun, fun path => ?_⟩
  rw [downloadFile_eq, hlocate]
  cases hpath : fs.locate path with
  | none =>
    have hnone : (uploads.reverse.find? fun u => fs.locate u.path = none) = none := by
      rw [List.find?_eq_none]
      intro u hu
      obtain ⟨place, hplace, -⟩ := hplaced u (List.mem_reverse.mp hu)
      simp [hplace]
    rw [hnone]
    rfl
  | some place =>
    simp only [Option.bind_some, hentries, writes_eq_last, bound_bindings]
    cases uploads.reverse.find? fun u => fs.locate u.path = some place with
    | none => rfl
    | some upload => rfl

instance : DecidableEq FileName :=
  inferInstanceAs
    (DecidableEq { name : List UInt8 // name ≠ [] ∧ ∀ byte ∈ name, (byte != 0) = true })

/-- A daemon that sends one byte at a time. -/
def bytewise : Daemon FileName Bool where
  tarfile := octalTarfile
  isReg dir := !dir
  mode
    | .file _ => ⟨420, 0, by decide⟩
    | .dir _ => ⟨493, 4096, by decide⟩
  archive name content := octalFormat.header ⟨name, content.length, false⟩ ++
    (content ++ (List.replicate (padding content.length) 0 ++ List.replicate (2 * blockSize) 0))
  dirArchive _ := octalFormat.header ⟨⟨[46], by simp⟩, 0, true⟩ ++ List.replicate (2 * blockSize) 0
  chunks bytes := bytes.map ([·])
  archive_first name content :=
    ⟨_, _, octalFormat.read_header _ _, rfl, List.take_left' rfl⟩
  dirArchive_first _ := ⟨_, _, octalFormat.read_header _ _, rfl⟩
  chunks_flatten bytes := by
    rw [← List.flatMap_def, List.flatMap_singleton']

/-- A file in a directory is uploaded twice, and another one in between. -/
theorem download_after_uploads_twice :
    let dir : FileName := ⟨[100], by simp⟩
    let name : FileName := ⟨[102], by simp⟩
    let other : FileName := ⟨[103], by simp⟩
    let fs : FileSystem FileName :=
      ⟨0, fun place => if place = (0, dir) then some (.dir 1) else none⟩
    let pipe : FileObj Bool := { partlyRead with fileno := .error .osError }
    ∃ fs', uploadAll bytewise [⟨⟨[dir], name⟩, .data [1, 2, 3]⟩, ⟨⟨[dir], other⟩, .data []⟩,
        ⟨⟨[dir], name⟩, .fileobj pipe⟩] fs = .ok fs' ∧
      downloadFile bytewise ⟨[dir], name⟩ fs' = .ok (some [105]) ∧
      downloadFile bytewise ⟨[], dir⟩ fs' = .ok none := by
  intro dir name other fs pipe
  have hplace : ∀ file, fs.locate ⟨[dir], file⟩ = some (1, file) := fun file => by
    simp [fs, FileSystem.locate, FileSystem.walk]
  have hplaced : ∀ file source,
      (⟨⟨[dir], file⟩, source⟩ : Upload FileName Bool).Placed fs := fun file source =>
    ⟨(1, file), hplace file, by simp [fs]⟩
  have hpipe : pipe.Whole := fun _ h => nomatch h
  obtain ⟨fs', hrun, hdownload⟩ := download_after_uploads bytewise fs
    [⟨⟨[dir], name⟩, .data [1, 2, 3]⟩, ⟨⟨[dir], other⟩, .data []⟩,
      ⟨⟨[dir], name⟩, .fileobj pipe⟩] (by simp [Upload.Whole, hpipe, pipe]) (by simp [hplaced])
  have hdir : fs.locate ⟨[], dir⟩ = some (0, dir) := rfl
  refine ⟨fs', hrun, (hdownload ⟨[dir], name⟩).trans ?_, (hdownload ⟨[], dir⟩).trans ?_⟩
  · simp [hplace, Upload.payload, FileObj.rest, pipe, partlyRead]
  · simp [hplace, hdir, fs]

end Uploads

end Yellowbox.Docker.FileTransfer
