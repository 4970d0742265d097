import Mathlib.Data.List.Nodup
import Yellowbox.Vault.Secrets

/-!
`clear_secrets` deletes what is below its root. The names of one listing stand for
disjoint parts of the store, so a call for one of them finds its own part as it was
listed, and together they are everything below the directory.
-/
namespace Yellowbox.Vault.ClearSecrets

open Effects Secrets

variable {l : Lister} {store : Store} {dir path : Path} {key key' : Text}

/-- The secrets that the loop deletes for one name of a listing. -/
def Covers (dir : Path) (key : Text) (path : Path) : Prop :=
  if endsWithSlash key then Below (dir ++ [key.dropLast]) path else path = dir ++ [key]

theorem isName_of_mem (hpath : path ∈ store.secrets) {name : Text} (hname : name ∈ path) :
    IsName name := store.named path hpath name hname

/-- A name in a listing is that of a secret, or that of a directory with a slash. -/
theorem isKey_cases (h : IsKey store dir key) :
    (IsName key ∧ dir ++ [key] ∈ store.secrets) ∨
      ∃ name, key = name ++ ['/'] ∧ IsName name ∧
        ∃ path ∈ store.secrets, Below (dir ++ [name]) path := by
  rcases h with hsecret | ⟨name, hkey, path, hpath, next, rest, heq⟩
  · left
    have hmem : key ∈ dir ++ [key] := List.mem_append_right _ (List.mem_singleton_self _)
    exact ⟨isName_of_mem hsecret hmem, hsecret⟩
  · right
    have hmem : name ∈ path := by
      rw [heq]
      simp
    exact ⟨name, hkey, isName_of_mem hpath hmem, path, hpath, next, rest, heq⟩

theorem covers_secret (h : IsName key) : Covers dir key path ↔ path = dir ++ [key] := by
  simp [Covers, endsWithSlash_name h]

theorem covers_directory (name : Text) :
    Covers dir (name ++ ['/']) path ↔ Below (dir ++ [name]) path := by
  have hslash : endsWithSlash (name ++ ['/']) = true := endsWithSlash_iff.mpr ⟨name, rfl⟩
  simp only [Covers, hslash, if_true, List.dropLast_concat]

theorem below_append_singleton {name : Text} :
    Below (dir ++ [name]) path ↔ ∃ next rest, path = dir ++ name :: next :: rest := by
  simp only [Below, List.append_assoc, List.singleton_append]

/-- Different names of a listing stand for disjoint parts of the store. -/
theorem eq_of_covers (hkey : IsKey store dir key) (hkey' : IsKey store dir key')
    (h : Covers dir key path) (h' : Covers dir key' path) : key = key' := by
  rcases isKey_cases hkey with ⟨hname, -⟩ | ⟨name, rfl, -, -⟩
  · rw [covers_secret hname] at h
    rcases isKey_cases hkey' with ⟨hname', -⟩ | ⟨name', rfl, -, -⟩
    · rw [covers_secret hname', h] at h'
      exact List.singleton_inj.mp (List.append_cancel_left h')
    · rw [covers_directory, below_append_singleton, h] at h'
      obtain ⟨next, rest, heq⟩ := h'
      cases List.append_cancel_left heq
  · rw [covers_directory, below_append_singleton] at h
    obtain ⟨next, rest, rfl⟩ := h
    rcases isKey_cases hkey' with ⟨hname', -⟩ | ⟨name', rfl, -, -⟩
    · rw [covers_secret hname'] at h'
      cases List.append_cancel_left h'
    · rw [covers_directory, below_append_singleton] at h'
      obtain ⟨next', rest', heq⟩ := h'
      cases List.append_cancel_left heq
      rfl

/-- The names of a listing stand for all secrets below the directory. -/
theorem below_iff_covers (hpath : path ∈ store.secrets) :
    Below dir path ↔ ∃ key, IsKey store dir key ∧ Covers dir key path := by
  constructor
  · rintro ⟨name, rest, rfl⟩
    cases rest with
    | nil =>
      have hname := isName_of_mem hpath (List.mem_append_right _ (List.mem_singleton_self name))
      exact ⟨name, Or.inl hpath, (covers_secret hname).mpr rfl⟩
    | cons next rest =>
      have hbelow : Below (dir ++ [name]) (dir ++ name :: next :: rest) :=
        below_append_singleton.mpr ⟨next, rest, rfl⟩
      exact ⟨name ++ ['/'], Or.inr ⟨name, rfl, _, hpath, hbelow⟩,
        (covers_directory name).mpr hbelow⟩
  · rintro ⟨key, hkey, hcovers⟩
    rcases isKey_cases hkey with ⟨hname, -⟩ | ⟨name, rfl, -, -⟩
    · exact ⟨key, [], (covers_secret hname).mp hcovers⟩
    · rw [covers_directory, below_append_singleton] at hcovers
      obtain ⟨next, rest, heq⟩ := hcovers
      exact ⟨name, next :: rest, heq⟩

/-! ### What is deleted -/

/-- The state after these secrets are deleted. -/
def deleting (v : KvState) (gone : List Path) : KvState :=
  ⟨v.store.remove gone, v.deleted ++ gone⟩

theorem mem_remove {gone : List Path} :
    path ∈ (store.remove gone).secrets ↔ path ∈ store.secrets ∧ path ∉ gone := by
  rw [Store.remove, List.mem_filter, decide_eq_true_iff]

theorem deleting_deleting (v : KvState) (gone gone' : List Path) :
    deleting (deleting v gone) gone' = deleting v (gone ++ gone') := by
  have hremove : (v.store.remove gone).remove gone' = v.store.remove (gone ++ gone') := by
    simp only [Store.remove, List.filter_filter, Store.mk.injEq, List.mem_append, not_or]
    refine List.filter_congr fun path _ => ?_
    rw [Bool.decide_and, Bool.and_comm]
  simp only [deleting, hremove, List.append_assoc]

theorem deleting_nil (v : KvState) : deleting v [] = v := by
  have hremove : v.store.remove [] = v.store := by
    obtain ⟨⟨secrets, hnodup, hnamed⟩, deleted⟩ := v
    simp [Store.remove]
  simp only [deleting, hremove, List.append_nil]

/-- The act deletes, once each, exactly these of the secrets that are there. -/
def Deletes (act : Act KvState Exc Unit) (v : KvState) (part : Path → Prop) : Prop :=
  ∃ gone, act v = (.ok (), deleting v gone) ∧ gone.Nodup ∧
    ∀ path, path ∈ gone ↔ path ∈ v.store.secrets ∧ part path

/-- A loop over disjoint parts, each of which is deleted in any store that still has all
of it, deletes all parts. -/
theorem deletes_forEach {body : Text → Act KvState Exc Unit} {part : Text → Path → Prop}
    {keys : List Text} {v : KvState} (hnodup : keys.Nodup)
    (hdisjoint : ∀ key ∈ keys, ∀ key' ∈ keys, ∀ path, part key path → part key' path → key = key')
    (hbody : ∀ key ∈ keys, ∀ gone, (∀ path ∈ gone, ¬part key path) →
      Deletes (body key) (deleting v gone) (part key)) :
    Deletes (Act.forEach body keys) v fun path => ∃ key ∈ keys, part key path := by
  induction keys generalizing v with
  | nil =>
    refine ⟨[], ?_, List.nodup_nil, fun path => ?_⟩
    · rw [deleting_nil]
      rfl
    · simp
  | cons key keys ih =>
    obtain ⟨hnew, hrest⟩ := List.nodup_cons.mp hnodup
    have hfirst := hbody key List.mem_cons_self [] fun _ h => absurd h List.not_mem_nil
    rw [deleting_nil] at hfirst
    obtain ⟨gone, hrun, honce, hgone⟩ := hfirst
    have hlater : Deletes (Act.forEach body keys) (deleting v gone)
        fun path => ∃ key ∈ keys, part key path := by
      refine ih hrest (fun k hk k' hk' => hdisjoint k (List.mem_cons_of_mem _ hk) k'
        (List.mem_cons_of_mem _ hk')) fun k hk gone' hgone' => ?_
      rw [deleting_deleting]
      refine hbody k (List.mem_cons_of_mem _ hk) (gone ++ gone') fun path hpath hpart => ?_
      rcases List.mem_append.mp hpath with hmem | hmem
      · have heq := hdisjoint key List.mem_cons_self k (List.mem_cons_of_mem _ hk) path
          ((hgone path).mp hmem).2 hpart
        exact hnew (heq ▸ hk)
      · exact hgone' path hmem hpart
    obtain ⟨gone', hrun', honce', hgone'⟩ := hlater
    refine ⟨gone ++ gone', ?_, ?_, fun path => ?_⟩
    · rw [Act.forEach_cons_ok hrun, hrun', deleting_deleting]
    · refine List.nodup_append'.mpr ⟨honce, honce', fun path hmem hmem' => ?_⟩
      exact (mem_remove.mp ((hgone' path).mp hmem').1).2 hmem
    · rw [List.mem_append, hgone, hgone', deleting, mem_remove, hgone]
      simp only [List.mem_cons, exists_eq_or_imp]
      tauto

/-- Only the secrets that are there matter to what is deleted. -/
theorem Deletes.congr {act : Act KvState Exc Unit} {v : KvState} {part part' : Path → Prop}
    (h : Deletes act v part) (hpart : ∀ path ∈ v.store.secrets, part path ↔ part' path) :
    Deletes act v part' := by
  obtain ⟨gone, hrun, honce, hgone⟩ := h
  refine ⟨gone, hrun, honce, fun path => (hgone path).trans ?_⟩
  exact and_congr_right (hpart path)

/-! ### The recursion -/

/-- The request for a secret of the listing deletes it. -/
theorem deletes_secret {v : KvState} {text : Text} (htext : endsWithSlash text = true)
    (hname : IsName key) (hmem : pathOf text ++ [key] ∈ v.store.secrets) :
    Deletes (deleteMetadataAndAllVersions (text ++ key)) v (Covers (pathOf text) key) := by
  refine ⟨[pathOf text ++ [key]], ?_, List.nodup_singleton _, fun path => ?_⟩
  · rw [deleteMetadataAndAllVersions, pathOf_append htext, pathOf_name hname]
    rfl
  · rw [List.mem_singleton, covers_secret hname]
    constructor
    · rintro rfl
      exact ⟨hmem, rfl⟩
    · exact fun h => h.2

theorem listSecrets_ok {v : KvState} {text : Text}
    (h : ∃ path ∈ v.store.secrets, Below (pathOf text) path) :
    l.listSecrets text v = (.ok (l.keys v.store (pathOf text)), v) := by
  obtain ⟨path, hpath, hbelow⟩ := h
  obtain ⟨key, hkey, -⟩ := (below_iff_covers hpath).mp hbelow
  have hmem := (l.mem_keys v.store (pathOf text) key).mpr hkey
  unfold Lister.listSecrets
  split
  · rename_i hnil
    rw [hnil] at hmem
    exact absurd hmem List.not_mem_nil
  · rfl

/-- So many calls are enough for every directory in which no path is longer. -/
def Clears (l : Lister) (depth : ℕ) : Prop :=
  ∀ (v : KvState) (text : Text), endsWithSlash text = true →
    (∃ path ∈ v.store.secrets, Below (pathOf text) path) →
    (∀ path ∈ v.store.secrets, Below (pathOf text) path →
      path.length ≤ (pathOf text).length + depth) →
    Deletes (l.clearRecursive depth text) v (Below (pathOf text))

theorem clears_zero (l : Lister) : Clears l 0 := by
  intro v text _ hsome hdepth
  obtain ⟨path, hpath, hbelow⟩ := hsome
  have hlength := hdepth path hpath hbelow
  obtain ⟨name, rest, rfl⟩ := hbelow
  rw [List.length_append, List.length_cons] at hlength
  omega

/-- The call for a directory of the listing deletes what is below it, as long as nothing
of it is gone. -/
theorem Clears.directory {depth : ℕ} (h : Clears l depth) {v : KvState} {text : Text}
    (htext : endsWithSlash text = true)
    (hdepth : ∀ path ∈ v.store.secrets, Below (pathOf text) path →
      path.length ≤ (pathOf text).length + (depth + 1))
    {name : Text} (hname : IsName name)
    (hsome : ∃ path ∈ v.store.secrets, Below (pathOf text ++ [name]) path) {gone : List Path}
    (hgone : ∀ path ∈ gone, ¬Covers (pathOf text) (name ++ ['/']) path) :
    Deletes (l.clearRecursive depth (text ++ (name ++ ['/']))) (deleting v gone)
      (Covers (pathOf text) (name ++ ['/'])) := by
  have hslash : endsWithSlash (name ++ ['/']) = true := endsWithSlash_iff.mpr ⟨name, rfl⟩
  have hdir : pathOf (text ++ (name ++ ['/'])) = pathOf text ++ [name] := by
    rw [pathOf_append htext, pathOf_directory hname]
  have hcall := h (deleting v gone) (text ++ (name ++ ['/'])) (endsWithSlash_append hslash)
  rw [hdir] at hcall
  obtain ⟨path, hpath, hbelow⟩ := hsome
  refine (hcall ⟨path, ?_, hbelow⟩ fun path hpath hbelow => ?_).congr fun path _ =>
    (covers_directory name).symm
  · refine mem_remove.mpr ⟨hpath, fun hmem => ?_⟩
    exact hgone path hmem ((covers_directory name).mpr hbelow)
  · obtain ⟨next, rest, heq⟩ := below_append_singleton.mp hbelow
    have hlength := hdepth path (mem_remove.mp hpath).1 ⟨name, next :: rest, heq⟩
    rw [List.length_append, List.length_singleton]
    omega

theorem Clears.succ {depth : ℕ} (h : Clears l depth) : Clears l (depth + 1) := by
  intro v text htext hsome hdepth
  have hkeys : ∀ key ∈ l.keys v.store (pathOf text), IsKey v.store (pathOf text) key :=
    fun key => (l.mem_keys v.store (pathOf text) key).mp
  have hloop : Deletes (Act.forEach (fun name =>
      if endsWithSlash name then l.clearRecursive depth (text ++ name)
      else deleteMetadataAndAllVersions (text ++ name)) (l.keys v.store (pathOf text))) v
      (fun path => ∃ key ∈ l.keys v.store (pathOf text), Covers (pathOf text) key path) := by
    refine deletes_forEach (l.nodup _ _) (fun key hkey key' hkey' path =>
      eq_of_covers (hkeys key hkey) (hkeys key' hkey')) fun key hkey gone hgone => ?_
    rcases isKey_cases (hkeys key hkey) with ⟨hname, hmem⟩ | ⟨name, rfl, hname, hsome⟩
    · -- a secret, which none of the names before it stood for
      rw [endsWithSlash_name hname]
      refine deletes_secret htext hname (mem_remove.mpr ⟨hmem, fun hmem => ?_⟩)
      exact hgone _ hmem ((covers_secret hname).mpr rfl)
    · rw [if_pos (endsWithSlash_iff.mpr ⟨name, rfl⟩)]
      exact h.directory htext hdepth hname hsome hgone
  have hbelow : ∀ path ∈ v.store.secrets,
      (∃ key ∈ l.keys v.store (pathOf text), Covers (pathOf text) key path) ↔
        Below (pathOf text) path := by
    intro path hpath
    rw [below_iff_covers hpath]
    exact exists_congr fun key => and_congr_left fun _ => l.mem_keys v.store (pathOf text) key
  obtain ⟨gone, hrun, hgone⟩ := hloop.congr hbelow
  refine ⟨gone, ?_, hgone⟩
  rw [Lister.clearRecursive, Act.bind_ok (listSecrets_ok hsome)]
  exact hrun

theorem clears (l : Lister) (depth : ℕ) : Clears l depth := by
  induction depth with
  | zero => exact clears_zero l
  | succ depth ih => exact ih.succ

theorem exists_length_le (paths : List Path) : ∃ bound, ∀ path ∈ paths, path.length ≤ bound := by
  induction paths with
  | nil => exact ⟨0, fun _ h => absurd h List.not_mem_nil⟩
  | cons path paths ih =>
    obtain ⟨bound, hbound⟩ := ih
    refine ⟨path.length + bound, List.forall_mem_cons.mpr ⟨Nat.le_add_right .., ?_⟩⟩
    exact fun other hother => Nat.le_trans (hbound other hother) (Nat.le_add_left ..)

/-- Secrets below the root are deleted, each once, and the others stay; a secret at the
root itself is not below it. -/
theorem clear_secrets_deletes_below (l : Lister) (v : KvState) {rootPath : Text}
    (hroot : endsWithSlash rootPath = true)
    (hsome : ∃ path ∈ v.store.secrets, Below (pathOf rootPath) path) :
    ∃ enough, ∀ depth ≥ enough, ∃ gone left,
      l.clearSecrets depth rootPath v = (.ok (), ⟨left, v.deleted ++ gone⟩) ∧
        (∀ path, path ∈ left.secrets ↔ path ∈ v.store.secrets ∧ ¬Below (pathOf rootPath) path) ∧
        gone.Nodup ∧
        ∀ path, path ∈ gone ↔ path ∈ v.store.secrets ∧ Below (pathOf rootPath) path := by
  obtain ⟨enough, henough⟩ := exists_length_le v.store.secrets
  refine ⟨enough, fun depth hdepth => ?_⟩
  have hlengths : ∀ path ∈ v.store.secrets, Below (pathOf rootPath) path →
      path.length ≤ (pathOf rootPath).length + depth := by
    intro path hpath _
    have hlength := henough path hpath
    omega
  obtain ⟨gone, hrun, honce, hgone⟩ := clears l depth v rootPath hroot hsome hlengths
  refine ⟨gone, v.store.remove gone, ?_, fun path => ?_, honce, hgone⟩
  · rw [Lister.clearSecrets, Act.raiseIf_bind, hroot]
    exact hrun
  · rw [mem_remove, hgone]
    tauto

def paths (texts : List String) : List Path := texts.map fun text => pathOf text.toList

/-- Secrets of which one is a directory as well. -/
def someSecrets : KvState where
  store := ⟨paths ["a", "a/b", "a/b/c", "a1/b", "a2"], by decide, by decide⟩
  deleted := []

theorem clear_secrets_deletes_below_a :
    ∃ enough, ∀ depth ≥ enough, ∃ gone left,
      listerInOrder.clearSecrets depth "a/".toList someSecrets = (.ok (), ⟨left, [] ++ gone⟩) ∧
        (∀ path, path ∈ left.secrets ↔
          path ∈ someSecrets.store.secrets ∧ ¬Below (pathOf "a/".toList) path) ∧
        gone.Nodup ∧
        ∀ path, path ∈ gone ↔ path ∈ someSecrets.store.secrets ∧ Below (pathOf "a/".toList) path :=
  clear_secrets_deletes_below listerInOrder someSecrets (by decide)
    ⟨["a".toList, "b".toList], by decide, ⟨"b".toList, [], by decide⟩⟩

end Yellowbox.Vault.ClearSecrets
