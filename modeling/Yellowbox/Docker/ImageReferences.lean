import Mathlib.Data.List.TakeWhile
import Yellowbox.Docker.ImageCache
import Yellowbox.ImageBuild.Contexts

/-!
Image references and the two ways in which the library looks for a tag:
`create_and_pull` takes what follows the first colon for it, and the builders take
any colon for a tag. A colon may as well belong to the registry.
-/
namespace Yellowbox.Docker.ImageReferences

open Effects Json ImageCache ImageBuild

/-- `host[:port]`; only an address in brackets has colons of its own. -/
structure Registry where
  host : List Char
  port : Option (List Char)
  host_ne : host ≠ []
  host_slash : '/' ∉ host
  host_colon : ':' ∈ host → host.head? = some '[' ∧ host.getLast? = some ']'
  port_digits : ∀ p ∈ port, p ≠ [] ∧ ∀ c ∈ p, c.isDigit = true

/-- A path component or a tag: not empty, and without delimiters. -/
def IsWord (word : List Char) : Prop := word ≠ [] ∧ ':' ∉ word ∧ '/' ∉ word

/-- `[host[:port]/]path[:tag]` -/
structure Reference where
  registry : Option Registry
  path : List (List Char)
  tag : Option (List Char)
  path_ne : path ≠ []
  path_words : ∀ component ∈ path, IsWord component
  tag_word : ∀ t ∈ tag, IsWord t

namespace Reference

def registryPart (r : Reference) : List Char :=
  r.registry.elim [] fun g => g.host ++ g.port.elim [] (':' :: ·) ++ ['/']

def pathPart (r : Reference) : List Char := ['/'].intercalate r.path

def tagPart (r : Reference) : List Char := r.tag.elim [] (':' :: ·)

/-- The reference as it is written. -/
def name (r : Reference) : String :=
  String.ofList (r.registryPart ++ r.pathPart ++ r.tagPart)

theorem toList_name (r : Reference) :
    r.name.toList = r.registryPart ++ r.pathPart ++ r.tagPart := String.toList_ofList

theorem colon_not_mem_intercalate {path : List (List Char)}
    (h : ∀ component ∈ path, IsWord component) : ':' ∉ ['/'].intercalate path := by
  induction path with
  | nil => simp
  | cons component rest ih =>
    have hword := h component (List.mem_cons_self ..)
    cases rest with
    | nil => simpa using hword.2.1
    | cons next rest =>
      have hrest := ih fun c hc => h c (List.mem_cons_of_mem _ hc)
      rw [List.intercalate_cons_cons]
      simp only [List.mem_append, List.mem_singleton, not_or]
      exact ⟨⟨hword.2.1, by decide⟩, hrest⟩

theorem pathPart_ne (r : Reference) : r.pathPart ≠ [] := by
  have hpath := r.path_words
  unfold pathPart
  cases hcases : r.path with
  | nil => exact absurd hcases r.path_ne
  | cons component rest =>
    have hne := (hpath component (by simp [hcases])).1
    cases rest with
    | nil => simpa using hne
    | cons next rest => simp [List.intercalate_cons_cons, hne]

/-- There is a colon exactly for a tag and for those of the registry. -/
theorem colon_mem_name (r : Reference) :
    ':' ∈ r.name.toList ↔ r.tag ≠ none ∨ ':' ∈ r.registryPart := by
  have hpath : ':' ∉ r.pathPart := colon_not_mem_intercalate r.path_words
  have htag : ':' ∈ r.tagPart ↔ r.tag ≠ none := by
    unfold tagPart
    cases r.tag <;> simp
  rw [toList_name, List.mem_append, List.mem_append, htag]
  tauto

/-- The last character belongs to the path or to the tag. -/
theorem getLast_name_ne (r : Reference) : r.name.toList.getLast? ≠ some ':' := by
  have hlast : ∀ (before word : List Char), word ≠ [] → ':' ∉ word →
      (before ++ word).getLast? ≠ some ':' := by
    intro before word hne hcolon hlast
    rw [List.getLast?_append_of_ne_nil before hne] at hlast
    exact hcolon (List.mem_of_getLast? hlast)
  rw [toList_name]
  unfold tagPart
  cases htag : r.tag with
  | none =>
    simp only [Option.elim_none, List.append_nil]
    exact hlast _ _ r.pathPart_ne (colon_not_mem_intercalate r.path_words)
  | some t =>
    obtain ⟨hne, hcolon, -⟩ := r.tag_word t htag
    simp only [Option.elim_some]
    rw [← List.singleton_append, ← List.append_assoc]
    exact hlast _ _ hne hcolon

end Reference

/-! ### `create_and_pull` -/

theorem afterColon_first {name : String} {before after : List Char}
    (h : name.toList = before ++ ':' :: after) (hbefore : ':' ∉ before) :
    afterColon name = after := by
  have hskip : ∀ c ∈ before, decide (c ≠ ':') = true := by
    intro c hc
    exact decide_eq_true fun hcolon => hbefore (hcolon ▸ hc)
  rw [afterColon, h, List.dropWhile_append_of_pos hskip]
  rfl

theorem afterColon_nil {name : String} (h : ':' ∉ name.toList) : afterColon name = [] := by
  have hskip : ∀ c ∈ name.toList, decide (c ≠ ':') = true := by
    intro c hc
    exact decide_eq_true fun hcolon => h (hcolon ▸ hc)
  rw [afterColon, List.dropWhile_eq_nil_iff.mpr hskip]
  rfl

theorem hasTag_iff {name : String} (h : name.toList.getLast? ≠ some ':') :
    hasTag name = true ↔ ':' ∈ name.toList := by
  rw [hasTag, decide_eq_true_eq]
  constructor
  · intro hafter
    by_contra hcolon
    exact hafter (afterColon_nil hcolon)
  · intro hcolon hafter
    obtain ⟨before, after, hname, hbefore⟩ := List.eq_append_cons_of_mem hcolon
    rw [afterColon_first hname hbefore] at hafter
    rw [hname, hafter] at h
    simp at h

/-- `create_and_pull` refuses a name, whatever the registry, the client and the cache. -/
def Rejects (name : String) : Prop :=
  ∀ registry client s, createAndPull registry client name s =
    (.error (.value "the image name must contain a tag"), s)

/-- A name that is not refused is looked up. -/
theorem createAndPull_hasTag {name : String} (h : hasTag name = true)
    (registry : ImageCache.Registry) (client : ℕ) (s : State) :
    createAndPull registry client name s =
      (cachedImage registry client name >>= fun image => onStore (create image.spec)) s := by
  rw [createAndPull, h]
  rfl

def noImages : ImageStore where
  tags := []
  ids := []
  repoDigests := fun _ => none
  nodup := List.nodup_nil
  targets := nofun
  disjoint := nofun
  wellFormed := nofun

theorem rejects_iff {name : String} : Rejects name ↔ hasTag name = false := by
  constructor
  · intro h
    by_contra htag
    rw [Bool.not_eq_false] at htag
    have hlookup : (createAndPull unreachable 0 name (ImageCache.start noImages)).1 =
        .error .registry := by
      rw [createAndPull_hasTag htag]
      rfl
    rw [h] at hlookup
    cases hlookup
  · intro htag registry client s
    rw [createAndPull, htag]
    rfl

/-! ### The builders -/

/-- What a builder names an image that was asked for by name. -/
def builtName (name : String) : String := if ':' ∈ name.toList then name else name ++ ":test"

/-- Every `build_image` whose build succeeds yields the name with the tag appended. -/
def Appends (name : String) : Prop :=
  ∀ loads file output build_log id t,
    dockerBuild loads (file.getD output) build_log .start = (.ok id, t) →
    (buildImage loads (some name) file output build_log .start).1 = .ok (.str (name ++ ":test"))

/-- The same of `async_build_image`. -/
def AsyncAppends (name : String) : Prop :=
  ∀ loads output spinner build_log id t s,
    dockerBuild loads true build_log .start = (.ok id, t) →
    (asyncBuildImage loads (some name) output spinner build_log s).1 =
      .ok (.str (name ++ ":test"))

section Builders

variable {loads : Loads} {build_log : List (List UInt8)} {id : Value} {t : Build}

theorem buildImage_builtName {file : Option Bool} {output : Bool} (name : String)
    (h : dockerBuild loads (file.getD output) build_log .start = (.ok id, t)) :
    (buildImage loads (some name) file output build_log .start).1 =
      .ok (.str (builtName name)) := by
  rw [buildImage, Act.bind_ok h]
  rfl

theorem asyncBuildImage_builtName (name : String) (output spinner : Bool) (s : Session)
    (h : dockerBuild loads true build_log .start = (.ok id, t)) :
    (asyncBuildImage loads (some name) output spinner build_log s).1 =
      .ok (.str (builtName name)) := by
  rw [asyncBuildImage_succeeds (some name) output spinner s h]
  rfl

end Builders

theorem builtName_eq_iff {name : String} :
    builtName name = name ++ ":test" ↔ ':' ∉ name.toList := by
  unfold builtName
  by_cases h : ':' ∈ name.toList
  · rw [if_pos h]
    refine iff_of_false (fun heq => ?_) (not_not.mpr h)
    have hlength := congrArg String.length heq
    rw [String.length_append] at hlength
    have htest : ":test".length = 5 := by decide
    omega
  · rw [if_neg h]
    exact iff_of_true rfl h

/-- Some build succeeds. -/
theorem oneStep_succeeds :
    ∃ id t, dockerBuild oneStepLoads true oneStepLog .start = (.ok id, t) := by
  have hok : (dockerBuild oneStepLoads true oneStepLog .start).1.isOk = true := by
    decide +kernel
  rcases hbuild : dockerBuild oneStepLoads true oneStepLog .start with ⟨e | id, t⟩
  · rw [hbuild] at hok
    cases hok
  · exact ⟨id, t, rfl⟩

theorem appends_iff {name : String} : Appends name ↔ ':' ∉ name.toList := by
  rw [← builtName_eq_iff]
  constructor
  · intro h
    obtain ⟨id, t, hbuild⟩ := oneStep_succeeds
    have hdefault : dockerBuild oneStepLoads ((none : Option Bool).getD true) oneStepLog .start =
        (.ok id, t) := by
      rw [Option.getD_none, hbuild]
    have halias := h oneStepLoads none true oneStepLog id t hdefault
    rw [buildImage_builtName name hdefault] at halias
    exact Value.str.inj (Except.ok.inj halias)
  · intro h loads file output build_log id t hbuild
    rw [buildImage_builtName name hbuild, h]

theorem asyncAppends_iff {name : String} : AsyncAppends name ↔ ':' ∉ name.toList := by
  rw [← builtName_eq_iff]
  constructor
  · intro h
    obtain ⟨id, t, hbuild⟩ := oneStep_succeeds
    have halias := h oneStepLoads true true oneStepLog id t {} hbuild
    rw [asyncBuildImage_builtName name true true {} hbuild] at halias
    exact Value.str.inj (Except.ok.inj halias)
  · intro h loads output spinner build_log id t s hbuild
    rw [asyncBuildImage_builtName name output spinner s hbuild, h]

/-! ### References -/

/-- A colon is found exactly where there is a tag, unless a reference without a tag has a
colon in its registry. -/
theorem colon_decides_iff (r : Reference) :
    (':' ∉ r.name.toList ↔ r.tag = none) ↔ r.tag ≠ none ∨ ':' ∉ r.registryPart := by
  rw [r.colon_mem_name]
  tauto

/-- All three functions take a reference for tagged by the grammar exactly when it has a
tag, or no colon before its path. -/
theorem tag_detection_iff (r : Reference) :
    ((Rejects r.name ↔ r.tag = none) ↔ r.tag ≠ none ∨ ':' ∉ r.registryPart) ∧
    ((Appends r.name ↔ r.tag = none) ↔ r.tag ≠ none ∨ ':' ∉ r.registryPart) ∧
    ((AsyncAppends r.name ↔ r.tag = none) ↔ r.tag ≠ none ∨ ':' ∉ r.registryPart) := by
  have hrejects : Rejects r.name ↔ ':' ∉ r.name.toList := by
    rw [rejects_iff, ← hasTag_iff r.getLast_name_ne, Bool.not_eq_true]
  rw [hrejects, appends_iff, asyncAppends_iff]
  exact ⟨colon_decides_iff r, colon_decides_iff r, colon_decides_iff r⟩

/-- `localhost:5000/img` -/
def untaggedWithPort : Reference where
  registry := some
    { host := "localhost".toList
      port := some "5000".toList
      host_ne := by decide
      host_slash := by decide
      host_colon := by decide
      port_digits := by simp }
  path := ["img".toList]
  tag := none
  path_ne := by decide
  path_words := by unfold IsWord; decide
  tag_word := nofun

/-- The port of a registry is taken for a tag. -/
theorem port_taken_for_tag : ¬∀ r : Reference,
    (Rejects r.name ↔ r.tag = none) ∧ (Appends r.name ↔ r.tag = none) ∧
      (AsyncAppends r.name ↔ r.tag = none) := by
  intro h
  have hrejects := (h untaggedWithPort).1.mpr rfl
  have htag : hasTag untaggedWithPort.name = true := by decide +kernel
  rw [rejects_iff.mp hrejects] at htag
  cases htag

end Yellowbox.Docker.ImageReferences
