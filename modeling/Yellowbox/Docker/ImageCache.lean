import Mathlib.Data.List.Induction
import Yellowbox.Base.Effects
import Yellowbox.Base.LruCache
import Yellowbox.Base.StepRuns

/-!
`create_and_pull` and the `lru_cache` on `_get_up_to_date_image`, over any changes of
the local image store between the calls. A cached image keeps the tags it had
when it was looked up, and the container is created from the first of them.
-/
namespace Yellowbox.Docker.ImageCache

open Effects LruCache StepRuns

/-- `image.partition(":")[2]` -/
def afterColon (image : String) : List Char :=
  (image.toList.dropWhile (· ≠ ':')).tail

def hasTag (image : String) : Bool := afterColon image ≠ []

/-- What a lookup returns: the id, the tags and the registry digests of an image at
that moment. -/
structure Image where
  id : String
  tags : List String
  repoDigests : Option (List String)
  deriving DecidableEq, Repr

/-- The local images: which id each tag refers to, the ids there are, and their
registry digests. A tag refers to one image, and no id is also a tag. -/
structure ImageStore where
  tags : List (String × String)
  ids : List String
  repoDigests : String → Option (List String)
  nodup : (tags.map Prod.fst).Nodup
  targets : ∀ tag ∈ tags, tag.2 ∈ ids
  disjoint : ∀ tag ∈ tags, tag.1 ∉ ids
  wellFormed : ∀ name ∈ tags.map Prod.fst ++ ids, hasTag name = true

inductive Error
  | value (message : String)
  | imageNotFound
  | registry
  deriving DecidableEq, Repr

namespace ImageStore

/-- The image a tag or an id stands for. -/
def refersTo (store : ImageStore) (name : String) : Option String :=
  match store.tags.lookup name with
  | some id => some id
  | none => if name ∈ store.ids then some name else none

def image (store : ImageStore) (id : String) : Image where
  id := id
  tags := (store.tags.filter fun tag => tag.2 = id).map Prod.fst
  repoDigests := store.repoDigests id

theorem refersTo_tag {store : ImageStore} {tag id : String} (h : (tag, id) ∈ store.tags) :
    store.refersTo tag = some id := by
  have hlookup : store.tags.lookup tag = some id := lookup_of_mem store.nodup h
  rw [refersTo, hlookup]

theorem refersTo_id {store : ImageStore} {id : String} (h : id ∈ store.ids) :
    store.refersTo id = some id := by
  have hlookup : store.tags.lookup id = none := by
    apply List.lookup_eq_none_iff.mpr
    intro tag htag
    have hne : id ≠ tag.1 := fun heq => store.disjoint tag htag (heq ▸ h)
    simpa using hne
  rw [refersTo, hlookup]
  exact if_pos h

theorem hasTag_of_refersTo {store : ImageStore} {name id : String}
    (h : store.refersTo name = some id) : hasTag name = true := by
  apply store.wellFormed
  rw [List.mem_append]
  rw [refersTo] at h
  cases hlookup : store.tags.lookup name with
  | some target =>
    exact Or.inl (List.mem_map_of_mem (mem_of_lookup hlookup))
  | none =>
    simp only [hlookup] at h
    split at h
    · rename_i hid
      exact Or.inr hid
    · cases h

theorem id_of_refersTo {store : ImageStore} {name id : String}
    (h : store.refersTo name = some id) : id ∈ store.ids := by
  rw [refersTo] at h
  cases hlookup : store.tags.lookup name with
  | some target =>
    simp only [hlookup, Option.some.injEq] at h
    rw [← h]
    exact store.targets (name, target) (mem_of_lookup hlookup)
  | none =>
    simp only [hlookup] at h
    split at h
    · rename_i hid
      exact Option.some.inj h ▸ hid
    · cases h

end ImageStore

/-- The remote registry: the digest it has for a name, and the image store after pulling
a name. -/
structure Registry where
  digest : String → Except Error String
  pull : String → ImageStore → Except Error (Image × ImageStore)

def unreachable : Registry where
  digest := fun _ => .error .registry
  pull := fun _ _ => .error .registry

/-- `docker_client.images.get(image)` -/
def get (name : String) : Act ImageStore Error Image := do
  let store ← Act.get
  match store.refersTo name with
  | none => Act.raise .imageNotFound
  | some id => return store.image id

/-- `docker_client.images.pull(image, platform=None)` -/
def pull (registry : Registry) (name : String) : Act ImageStore Error Image := do
  let (image, store) ← Act.ofExcept (registry.pull name (← Act.get))
  Act.modify fun _ => store
  return image

/-- The body of `_get_up_to_date_image`. -/
def getUpToDateImage (registry : Registry) (name : String) : Act ImageStore Error Image := do
  match (← Act.get).refersTo name with
  | none => pull registry name
  | some _ =>
    let localImage ← get name
    match localImage.repoDigests with
    | none => return localImage
    | some digests =>
      Act.handle
        (do
          let remoteDigest ← Act.ofExcept (registry.digest name)
          if !(digests.any fun digest => digest.endsWith remoteDigest) then
            pull registry name
          else
            return localImage)
        (fun _ => return localImage)

/-- What the container is created from. -/
def Image.spec (image : Image) : String :=
  match image.tags with
  | tag :: _ => tag
  | [] => image.id

/-- `docker_client.containers.create(..)`, which gives the image of the container. -/
def create (spec : String) : Act ImageStore Error String := do
  match (← Act.get).refersTo spec with
  | none => Act.raise .imageNotFound
  | some id => return id

/-- `create_and_pull` without the cache. -/
def createAndPullUncached (registry : Registry) (name : String) :
    Act ImageStore Error String := do
  if !hasTag name then
    Act.raise (.value "the image name must contain a tag")
  let localImage ← getUpToDateImage registry name
  create localImage.spec

/-! ### The cache -/

/-- The local store, and the cache of `_get_up_to_date_image` with a client and a name
as its key. -/
structure State where
  store : ImageStore
  cache : Cache (ℕ × String) Image 128

/-- An action on the store alone. -/
def onStore {α : Type} (x : Act ImageStore Error α) : Act State Error α := fun s =>
  match x s.store with
  | (r, store) => (r, { s with store := store })

/-- `_get_up_to_date_image`, under its `lru_cache(maxsize=128)`. -/
def cachedImage (registry : Registry) (client : ℕ) (name : String) :
    Act State Error Image := do
  match (← Act.get).cache.find (client, name) with
  | some image =>
    Act.modify fun s => { s with cache := s.cache.use (client, name) image }
    return image
  | none =>
    let image ← onStore (getUpToDateImage registry name)
    Act.modify fun s => { s with cache := s.cache.use (client, name) image }
    return image

/-- `create_and_pull` -/
def createAndPull (registry : Registry) (client : ℕ) (name : String) :
    Act State Error String := do
  if !hasTag name then
    Act.raise (.value "the image name must contain a tag")
  let localImage ← cachedImage registry client name
  onStore (create localImage.spec)

/-- Others change the store, or a container is created. -/
inductive Event
  | changes (store : ImageStore)
  | creates (client : ℕ) (name : String)

/-- One event, with the image of the container if one was to be created. -/
def step (registry : Registry) (s : State) : Event → State × Option (Except Error String)
  | .changes store => ({ s with store := store }, none)
  | .creates client name =>
    match createAndPull registry client name s with
    | (r, s') => (s', some r)

def start (store : ImageStore) : State := ⟨store, Cache.empty⟩

/-- A name that is present gives a container of the image it refers to at that moment. -/
def Faithful (registry : Registry) (s : State) : Event → Prop
  | .changes _ => True
  | .creates client name => ∀ id, s.store.refersTo name = some id →
      (step registry s (.creates client name)).2 = some (.ok id)

/-- What a cached image would be used as still is the image the name refers to. -/
def CachedCurrent (s : State) : Event → Prop
  | .changes _ => True
  | .creates client name => ∀ id image, s.store.refersTo name = some id →
      s.cache.find (client, name) = some image → s.store.refersTo image.spec = some id

/-! ### Lookups -/

theorem get_present {store : ImageStore} {name id : String}
    (h : store.refersTo name = some id) : get name store = (.ok (store.image id), store) := by
  rw [get, Act.get_bind, h]
  rfl

/-- With the registry unreachable, a present image is looked up and nothing else. -/
theorem getUpToDateImage_present {store : ImageStore} {name id : String}
    (h : store.refersTo name = some id) :
    getUpToDateImage unreachable name store = (.ok (store.image id), store) := by
  rw [getUpToDateImage, Act.get_bind, h]
  change (get name >>= _) store = _
  rw [Act.bind_ok (get_present h)]
  cases (store.image id).repoDigests with
  | none => rfl
  | some digests => rfl

/-- The first tag of an image refers to the image at the moment of the lookup. -/
theorem refersTo_spec {store : ImageStore} {id : String} (h : id ∈ store.ids) :
    store.refersTo (store.image id).spec = some id := by
  rw [Image.spec]
  cases htags : (store.image id).tags with
  | nil => exact ImageStore.refersTo_id h
  | cons tag tags =>
    have hmem : tag ∈ (store.tags.filter fun t => t.2 = id).map Prod.fst := by
      change tag ∈ (store.image id).tags
      rw [htags]
      exact List.mem_cons_self ..
    obtain ⟨⟨_, target⟩, hfilter, rfl⟩ := List.mem_map.mp hmem
    obtain ⟨htag, htarget⟩ := List.mem_filter.mp hfilter
    have heq : target = id := by simpa using htarget
    exact ImageStore.refersTo_tag (heq ▸ htag)

theorem create_present {store : ImageStore} {spec id : String}
    (h : store.refersTo spec = some id) : create spec store = (.ok id, store) := by
  rw [create, Act.get_bind, h]
  rfl

theorem createAndPullUncached_present {store : ImageStore} {name id : String}
    (h : store.refersTo name = some id) :
    createAndPullUncached unreachable name store = (.ok id, store) := by
  have htag := ImageStore.hasTag_of_refersTo h
  simp only [createAndPullUncached, htag]
  change (getUpToDateImage unreachable name >>= _) store = _
  rw [Act.bind_ok (getUpToDateImage_present h)]
  exact create_present (refersTo_spec (ImageStore.id_of_refersTo h))

/-! ### One call -/

theorem createAndPull_apply {s : State} {client : ℕ} {name : String} {image : Image} {s' : State}
    (htag : hasTag name = true)
    (h : cachedImage unreachable client name s = (.ok image, s')) :
    (createAndPull unreachable client name s).1 = (create image.spec s'.store).1 ∧
      (createAndPull unreachable client name s).2.cache = s'.cache := by
  simp only [createAndPull, htag]
  change ((cachedImage unreachable client name >>= _) s).1 = _ ∧
    ((cachedImage unreachable client name >>= _) s).2.cache = _
  rw [Act.bind_ok h]
  exact ⟨rfl, rfl⟩

theorem cachedImage_hit {s : State} {client : ℕ} {name : String} {image : Image}
    (h : s.cache.find (client, name) = some image) :
    cachedImage unreachable client name s =
      (.ok image, { s with cache := s.cache.use (client, name) image }) := by
  rw [cachedImage, Act.get_bind, h]
  rfl

theorem cachedImage_miss {s : State} {client : ℕ} {name id : String}
    (h : s.cache.find (client, name) = none) (hname : s.store.refersTo name = some id) :
    cachedImage unreachable client name s =
      (.ok (s.store.image id),
        { s with cache := s.cache.use (client, name) (s.store.image id) }) := by
  have hstore : onStore (getUpToDateImage unreachable name) s = (.ok (s.store.image id), s) := by
    rw [onStore, getUpToDateImage_present hname]
  rw [cachedImage, Act.get_bind, h]
  change (onStore _ >>= _) s = _
  rw [Act.bind_ok hstore]
  rfl

theorem create_eq_ok_iff {store : ImageStore} {spec id : String} :
    (create spec store).1 = .ok id ↔ store.refersTo spec = some id := by
  rw [create, Act.get_bind]
  cases store.refersTo spec with
  | none =>
    change (.error .imageNotFound : Except Error String) = _ ↔ _
    simp
  | some target =>
    change (.ok target : Except Error String) = _ ↔ _
    simp

theorem step_creates (registry : Registry) (s : State) (client : ℕ) (name : String) :
    step registry s (.creates client name) =
      ((createAndPull registry client name s).2,
        some (createAndPull registry client name s).1) := rfl

/-- A call with a present name is faithful exactly when the cached image, if there is
one, is current. -/
theorem faithful_iff_cachedCurrent (s : State) (event : Event) :
    Faithful unreachable s event ↔ CachedCurrent s event := by
  cases event with
  | changes store => exact Iff.rfl
  | creates client name =>
    simp only [Faithful, CachedCurrent, step_creates, Option.some.injEq]
    apply forall_congr'
    intro id
    constructor
    · intro h image hname hfind
      have hresult := h hname
      have htag := ImageStore.hasTag_of_refersTo hname
      rw [(createAndPull_apply htag (cachedImage_hit hfind)).1] at hresult
      exact create_eq_ok_iff.mp hresult
    · intro h hname
      have htag := ImageStore.hasTag_of_refersTo hname
      cases hfind : s.cache.find (client, name) with
      | some image =>
        rw [(createAndPull_apply htag (cachedImage_hit hfind)).1]
        exact create_eq_ok_iff.mpr (h image hname hfind)
      | none =>
        rw [(createAndPull_apply htag (cachedImage_miss hfind hname)).1]
        exact create_eq_ok_iff.mpr (refersTo_spec (ImageStore.id_of_refersTo hname))

/-- Faithful is what `create_and_pull` without the cache is. -/
theorem faithful_iff_uncached (s : State) (client : ℕ) (name : String) :
    Faithful unreachable s (.creates client name) ↔
      (s.store.refersTo name ≠ none →
        (step unreachable s (.creates client name)).2 =
          some (createAndPullUncached unreachable name s.store).1) := by
  constructor
  · intro h hpresent
    obtain ⟨id, hname⟩ := Option.ne_none_iff_exists'.mp hpresent
    rw [h id hname, createAndPullUncached_present hname]
  · intro h id hname
    rw [h (by simp [hname]), createAndPullUncached_present hname]

/-! ### Runs -/

theorem getUpToDateImage_missing {store : ImageStore} {name : String}
    (h : store.refersTo name = none) :
    getUpToDateImage unreachable name store = (.error .registry, store) := by
  rw [getUpToDateImage, Act.get_bind, h]
  rfl

theorem cachedImage_missing {s : State} {client : ℕ} {name : String}
    (h : s.cache.find (client, name) = none) (hname : s.store.refersTo name = none) :
    cachedImage unreachable client name s = (.error .registry, s) := by
  have hstore : onStore (getUpToDateImage unreachable name) s = (.error .registry, s) := by
    rw [onStore, getUpToDateImage_missing hname]
  rw [cachedImage, Act.get_bind, h]
  change (onStore _ >>= _) s = _
  rw [Act.bind_error hstore]

/-- What a call leaves in the cache: what was there, with the image of this name in
front, which was there too or has just been looked up. -/
theorem createAndPull_cache (s : State) (client : ℕ) (name : String) :
    (createAndPull unreachable client name s).2.cache = s.cache ∨
      ∃ image, (createAndPull unreachable client name s).2.cache =
          s.cache.use (client, name) image ∧
        (s.cache.find (client, name) = some image ∨
          ∃ id, s.store.refersTo name = some id ∧ image = s.store.image id) := by
  cases htag : hasTag name with
  | false =>
    left
    simp only [createAndPull, htag]
    rfl
  | true =>
    cases hfind : s.cache.find (client, name) with
    | some image =>
      exact Or.inr ⟨image, (createAndPull_apply htag (cachedImage_hit hfind)).2, Or.inl rfl⟩
    | none =>
      cases hname : s.store.refersTo name with
      | some id =>
        exact Or.inr ⟨_, (createAndPull_apply htag (cachedImage_miss hfind hname)).2,
          Or.inr ⟨id, rfl, rfl⟩⟩
      | none =>
        left
        simp only [createAndPull, htag]
        change ((cachedImage unreachable client name >>= _) s).2.cache = _
        rw [Act.bind_error (cachedImage_missing hfind hname)]

/-- The image was looked up for this client and name at an earlier point of the run. -/
def LookedUp (store : ImageStore) (events : List Event) (key : ℕ × String) (image : Image) :
    Prop :=
  ∃ pre post id, events = pre ++ .creates key.1 key.2 :: post ∧
    (exec (step unreachable) (start store) pre).store.refersTo key.2 = some id ∧
    image = (exec (step unreachable) (start store) pre).store.image id

theorem LookedUp.append {store : ImageStore} {events : List Event} {key : ℕ × String}
    {image : Image} (h : LookedUp store events key image) (event : Event) :
    LookedUp store (events ++ [event]) key image := by
  obtain ⟨pre, post, id, rfl, hname, himage⟩ := h
  exact ⟨pre, post ++ [event], id, by simp, hname, himage⟩

/-- Everything in the cache is what an earlier lookup gave. -/
theorem cached_lookedUp (store : ImageStore) (events : List Event) :
    ∀ entry ∈ (exec (step unreachable) (start store) events).cache.entries,
      LookedUp store events entry.1 entry.2 := by
  induction events using List.reverseRecOn with
  | nil => exact nofun
  | append_singleton events event ih =>
    have hold : ∀ entry ∈ (exec (step unreachable) (start store) events).cache.entries,
        LookedUp store (events ++ [event]) entry.1 entry.2 :=
      fun entry hentry => (ih entry hentry).append event
    rw [exec_append, exec_cons, exec_nil]
    cases event with
    | changes store' => exact hold
    | creates client name =>
      rw [step_creates]
      rcases createAndPull_cache (exec (step unreachable) (start store) events) client name with
        hsame | ⟨image, huse, himage⟩
      · rw [hsame]
        exact hold
      · rw [huse]
        apply Cache.forall_use hold
        rcases himage with hfind | ⟨id, hname, rfl⟩
        · exact (ih _ (Cache.find_mem hfind)).append _
        · exact ⟨events, [], id, rfl, hname, rfl⟩

/-- Along any run, `create_and_pull` is as without its cache exactly when at every call
the image cached for the name, if any, would be used as the image that the
name refers to now. -/
theorem cache_transparent_iff (store : ImageStore) (events : List Event) :
    Along (step unreachable) (Faithful unreachable) (start store) events ↔
      Along (step unreachable) CachedCurrent (start store) events := by
  rw [along_iff, along_iff]
  simp only [faithful_iff_cachedCurrent]

/-! ### A tag that moves -/

/-- Image `sha256:1` is tagged `a:1` and `b:1`. -/
def twoTags : ImageStore where
  tags := [("a:1", "sha256:1"), ("b:1", "sha256:1")]
  ids := ["sha256:1", "sha256:2"]
  repoDigests := fun _ => none
  nodup := by decide
  targets := by decide
  disjoint := by decide
  wellFormed := by decide +kernel

/-- The tag `a:1` has been moved to image `sha256:2`. -/
def movedTag : ImageStore where
  tags := [("a:1", "sha256:2"), ("b:1", "sha256:1")]
  ids := ["sha256:1", "sha256:2"]
  repoDigests := fun _ => none
  nodup := by decide
  targets := by decide
  disjoint := by decide
  wellFormed := by decide +kernel

/-- The second container of `b:1` is created from `a:1`, which is another image by then. -/
theorem moved_tag_used :
    ¬ ∀ (store : ImageStore) (events : List Event),
      Along (step unreachable) (Faithful unreachable) (start store) events := by
  intro h
  have hrun := h twoTags [.creates 0 "b:1", .changes movedTag, .creates 0 "b:1"]
  have hlast := hrun.2.2.1 "sha256:1" (by decide)
  have hwrong : (step unreachable
      (exec (step unreachable) (start twoTags) [.creates 0 "b:1", .changes movedTag])
      (.creates 0 "b:1")).2 = some (.ok "sha256:2") := by decide +kernel
  rw [exec_cons, exec_cons, exec_nil, hlast] at hwrong
  exact absurd hwrong (by decide)

end Yellowbox.Docker.ImageCache
