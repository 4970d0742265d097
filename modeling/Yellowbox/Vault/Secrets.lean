import Mathlib.Data.List.Dedup
import Mathlib.Data.Nat.Notation
import Yellowbox.Base.Cuts
import Yellowbox.Base.Effects

/-!
The secrets of a vault, as a finite set of paths, with the two requests that
`clear_secrets` sends, and that function itself. Paths are sent as texts with slashes
between the names, and the names in a listing end in a slash for directories.
-/
namespace Yellowbox.Vault.Secrets

open Cuts Effects

abbrev Text := List Char

abbrev Path := List Text

/-- The names between the slashes of a text; a slash at its beginning adds none. -/
def pathOf (text : Text) : Path := (text.splitOn '/').filter (· ≠ [])

def IsName (name : Text) : Prop := name ≠ [] ∧ '/' ∉ name

instance : DecidablePred IsName := fun _ => inferInstanceAs (Decidable (_ ∧ _))

structure Store where
  secrets : List Path
  nodup : secrets.Nodup
  named : ∀ path ∈ secrets, ∀ name ∈ path, IsName name

/-- The path is in the directory or in one below it. -/
def Below (dir path : Path) : Prop := ∃ name rest, path = dir ++ name :: rest

/-- The names in a listing: secrets in the directory, and with a slash at the end, the
names that have secrets below them. -/
def IsKey (store : Store) (dir : Path) (key : Text) : Prop :=
  dir ++ [key] ∈ store.secrets ∨
    ∃ name, key = name ++ ['/'] ∧ ∃ path ∈ store.secrets, Below (dir ++ [name]) path

/-- Listings in some order, without repetition. -/
structure Lister where
  keys : Store → Path → List Text
  nodup : ∀ store dir, (keys store dir).Nodup
  mem_keys : ∀ store dir key, key ∈ keys store dir ↔ IsKey store dir key

/-- The store, and the secrets that were deleted so far. -/
structure KvState where
  store : Store
  deleted : List Path

inductive Exc
  | valueError
  | invalidPath
  | recursionError
  deriving DecidableEq

def Store.remove (store : Store) (gone : List Path) : Store where
  secrets := store.secrets.filter (· ∉ gone)
  nodup := store.nodup.filter _
  named := fun path h => store.named path (List.mem_of_mem_filter h)

namespace Lister

variable (l : Lister)

/-- `client.secrets.kv.list_secrets(path)["data"]["keys"]`; there is no listing of a
directory without secrets. -/
def listSecrets (path : Text) : Act KvState Exc (List Text) := fun v =>
  match l.keys v.store (pathOf path) with
  | [] => (.error .invalidPath, v)
  | keys => (.ok keys, v)

end Lister

/-- `client.secrets.kv.delete_metadata_and_all_versions(path)` -/
def deleteMetadataAndAllVersions (path : Text) : Act KvState Exc Unit :=
  Act.modify fun v => ⟨v.store.remove [pathOf path], v.deleted ++ [pathOf path]⟩

def endsWithSlash (text : Text) : Bool := text.getLast? = some '/'

namespace Lister

variable (l : Lister)

/-- `clear_recursive(path)` with so many calls left on the stack. -/
def clearRecursive : ℕ → Text → Act KvState Exc Unit
  | 0, _ => Act.raise .recursionError
  | depth + 1, path => do
    let secretNames ← l.listSecrets path
    Act.forEach (fun name =>
      if endsWithSlash name then clearRecursive depth (path ++ name)
      else deleteMetadataAndAllVersions (path ++ name)) secretNames

/-- `clear_secrets(root_path)` -/
def clearSecrets (depth : ℕ) (rootPath : Text) : Act KvState Exc Unit := do
  Act.raiseIf (!endsWithSlash rootPath) .valueError
  l.clearRecursive depth rootPath

end Lister

/-! ### A listing -/

/-- What a secret adds to the listing of a directory. -/
def keyOf (dir path : Path) : Option Text :=
  match dir.isPrefixOf? path with
  | some [name] => some name
  | some (name :: _ :: _) => some (name ++ ['/'])
  | _ => none

theorem keyOf_eq_some_iff {dir path : Path} {key : Text} :
    keyOf dir path = some key ↔
      path = dir ++ [key] ∨ ∃ name, key = name ++ ['/'] ∧ Below (dir ++ [name]) path := by
  have hbelow : ∀ name, Below (dir ++ [name]) path ↔
      ∃ next rest, path = dir ++ name :: next :: rest := by
    intro name
    simp only [Below, List.append_assoc, List.singleton_append]
  simp only [hbelow, keyOf]
  cases hrest : dir.isPrefixOf? path with
  | none =>
    have hnot : ∀ rest, path ≠ dir ++ rest := by
      intro rest heq
      rw [isPrefixOf?_eq_some_iff.mpr heq] at hrest
      cases hrest
    simp [hnot]
  | some rest =>
    obtain rfl := isPrefixOf?_eq_some_iff.mp hrest
    match rest with
    | [] => simp
    | [name] => simp
    | name :: next :: rest => simp [eq_comm]

/-- The listings of a store in the order of its secrets. -/
def listerInOrder : Lister where
  keys store dir := (store.secrets.filterMap (keyOf dir)).dedup
  nodup _ _ := List.nodup_dedup _
  mem_keys store dir key := by
    rw [List.mem_dedup, List.mem_filterMap]
    simp only [keyOf_eq_some_iff]
    constructor
    · rintro ⟨path, hpath, rfl | ⟨name, hkey, hbelow⟩⟩
      · exact Or.inl hpath
      · exact Or.inr ⟨name, hkey, path, hpath, hbelow⟩
    · rintro (hsecret | ⟨name, hkey, path, hpath, hbelow⟩)
      · exact ⟨_, hsecret, Or.inl rfl⟩
      · exact ⟨path, hpath, Or.inr ⟨name, hkey, hbelow⟩⟩

/-! ### Paths as texts -/

theorem pathOf_append_slash (text rest : Text) :
    pathOf (text ++ '/' :: rest) = pathOf text ++ pathOf rest := by
  rw [pathOf, List.splitOn_append_cons_self, List.filter_append]
  rfl

theorem pathOf_name {name : Text} (h : IsName name) : pathOf name = [name] := by
  rw [pathOf, List.splitOn_eq_singleton h.2]
  simp [h.1]

theorem pathOf_directory {name : Text} (h : IsName name) : pathOf (name ++ ['/']) = [name] := by
  rw [pathOf_append_slash, pathOf_name h]
  rfl

theorem endsWithSlash_iff {text : Text} :
    endsWithSlash text = true ↔ ∃ before, text = before ++ ['/'] := by
  rw [endsWithSlash, decide_eq_true_iff, List.getLast?_eq_some_iff]

/-- Behind a slash, the names of a text are added to those before it. -/
theorem pathOf_append {path : Text} (h : endsWithSlash path = true) (name : Text) :
    pathOf (path ++ name) = pathOf path ++ pathOf name := by
  obtain ⟨before, rfl⟩ := endsWithSlash_iff.mp h
  have hempty : pathOf [] = [] := rfl
  rw [List.append_assoc, List.singleton_append, pathOf_append_slash, pathOf_append_slash, hempty,
    List.append_nil]

theorem endsWithSlash_append {path name : Text} (h : endsWithSlash name = true) :
    endsWithSlash (path ++ name) = true := by
  obtain ⟨before, rfl⟩ := endsWithSlash_iff.mp h
  exact endsWithSlash_iff.mpr ⟨path ++ before, (List.append_assoc ..).symm⟩

theorem endsWithSlash_name {name : Text} (h : IsName name) : endsWithSlash name = false := by
  rw [Bool.eq_false_iff]
  intro hslash
  obtain ⟨before, rfl⟩ := endsWithSlash_iff.mp hslash
  exact h.2 (List.mem_append_right _ (List.mem_singleton_self _))

end Yellowbox.Vault.Secrets
