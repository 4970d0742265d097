import Mathlib.Data.List.Nodup
import Yellowbox.FakeGcs.Buckets

/-!
What the requests of `clear_bucket` do to a bucket. Each of them removes the object that
its URL is read as, and the first one that is answered with an error ends the run.
-/
namespace Yellowbox.FakeGcs.Deletions

open Buckets Cuts Effects Json PercentEncoding SentPaths UrlPaths

/-! ### URLs -/

section Urls

variable (c : Client) {name object : String} {url : Text}

theorem not_mem_bucketName {ch : Char} (h : ch.isAlphanum = false) (hmark : ch ∉ ['-', '_', '.']) :
    ch ∉ c.bucketName.toList := by
  intro hch
  rcases c.plain ch hch with hletter | hmem
  · rw [h] at hletter
    cases hletter
  · exact hmark hmem

theorem not_mem_objectsPath {ch : Char} (h : ch.isAlphanum = false) (hmark : ch ∉ ['-', '_', '.'])
    (hliteral : ch ∉ "/storage/v1/b/".toList ++ "/o/".toList) : ch ∉ c.objectsPath.toList := by
  rw [List.mem_append, not_or] at hliteral
  rw [Client.objectsPath, Client.bucketPath, String.toList_append, String.toList_append,
    List.mem_append, List.mem_append, not_or, not_or]
  exact ⟨⟨hliteral.1, not_mem_bucketName c h hmark⟩, hliteral.2⟩

/-- The path of the objects has no dot segments, and ends with a slash. -/
theorem objectsPath_eq : ∃ before, c.objectsPath.toList = before ++ ['/'] ∧
    (∀ segment ∈ before.splitOn '/', ¬Dots segment) ∧ '%' ∉ before := by
  have hpercent : '%' ∉ c.objectsPath.toList :=
    not_mem_objectsPath c (by decide) (by decide) (by decide)
  have hpath : c.objectsPath.toList =
      ("/storage/v1/b".toList ++ '/' :: (c.bucketName.toList ++ '/' :: "o".toList)) ++ ['/'] := by
    simp [Client.objectsPath, Client.bucketPath]
  rw [hpath, List.mem_append, not_or] at hpercent
  refine ⟨_, hpath, ?_, hpercent.1⟩
  have hbucket : c.bucketName.toList.splitOn '/' = [c.bucketName.toList] :=
    List.splitOn_eq_singleton (not_mem_bucketName c (by decide) (by decide))
  have hfront : ∀ segment ∈ "/storage/v1/b".toList.splitOn '/', ¬Dots segment := by decide
  have hback : ∀ segment ∈ "o".toList.splitOn '/', ¬Dots segment := by decide
  rw [List.splitOn_append_cons_self, List.splitOn_append_cons_self, hbucket]
  simp only [List.forall_mem_append, List.forall_mem_singleton]
  exact ⟨hfront, c.named, hback⟩

/-- Nothing in a path of an object is changed exactly if nothing in its name is. -/
theorem unchanged_objectPath : Unchanged (c.objectPath name) ↔ Unchanged name.toList := by
  obtain ⟨before, hbefore, hdots, hpercent⟩ := objectsPath_eq c
  rw [Client.objectPath, String.toList_append, hbefore, List.append_assoc, List.singleton_append]
  exact unchanged_append hdots hpercent name.toList

theorem beforeQuery_objectPath (name : String) :
    beforeQuery (c.objectPath name) = c.objectsPath.toList ++ beforeQuery name.toList := by
  have hfragment : '#' ∉ c.objectsPath.toList :=
    not_mem_objectsPath c (by decide) (by decide) (by decide)
  have hquery : '?' ∉ c.objectsPath.toList :=
    not_mem_objectsPath c (by decide) (by decide) (by decide)
  rw [beforeQuery, Client.objectPath, String.toList_append, cut_append_left hfragment,
    cut_append_left hquery, beforeQuery]

theorem objectOf_eq_some_iff :
    c.objectOf url = some name ↔ pathOf url = encodeUtf8 (c.objectPath name) := by
  simp only [Client.objectOf]
  constructor
  · intro h
    split at h
    · rename_i hutf8
      obtain ⟨rest, hrest, rfl⟩ := Option.map_eq_some_iff.mp h
      rw [isPrefixOf?_eq_some_iff] at hrest
      rw [← hutf8, hrest, Client.objectPath, String.toList_append, String.toList_ofList]
    · cases h
  · intro h
    rw [h, decodeReplacing_encodeUtf8, if_pos rfl, Client.objectPath, String.toList_append,
      isPrefixOf?_eq_some_iff.mpr rfl, Option.map_some, String.ofList_toList]

theorem not_slashes_beforeQuery (name : String) :
    ¬['/', '/'] <+: beforeQuery (c.objectPath name) := by
  simp [beforeQuery_objectPath, Client.objectsPath, Client.bucketPath]

theorem head?_beforeQuery (name : String) :
    (beforeQuery (c.objectPath name)).head? = some '/' := by
  simp [beforeQuery_objectPath, Client.objectsPath, Client.bucketPath]

/-- A name that the server reads as itself. -/
def UrlSafe (name : String) : Prop :=
  '#' ∉ name.toList ∧ '?' ∉ name.toList ∧ Unchanged name.toList

instance : DecidablePred UrlSafe := fun _ => inferInstanceAs (Decidable (_ ∧ _ ∧ _))

theorem reading_of_urlSafe (h : UrlSafe name) : c.reading name = some name := by
  obtain ⟨hfragment, hquery, hname⟩ := h
  have hpath : beforeQuery (c.objectPath name) = c.objectPath name := by
    rw [beforeQuery_objectPath, beforeQuery_of_not_mem hfragment hquery, Client.objectPath,
      String.toList_append]
  have hroot := head?_beforeQuery c name
  have hslash := not_slashes_beforeQuery c name
  rw [Client.reading, objectOf_eq_some_iff, pathOf]
  rw [hpath] at hroot hslash ⊢
  exact received_of_unchanged hroot hslash ((unchanged_objectPath c).mpr hname)

/-- What any other name is read as weighs less. -/
theorem weight_reading_lt (h : ¬UrlSafe name) (hreading : c.reading name = some object) :
    weight object.toList < weight name.toList := by
  have hpath : received (beforeQuery (c.objectPath name)) = encodeUtf8 (c.objectPath object) :=
    (objectOf_eq_some_iff c).mp hreading
  have hsum : ∀ name, weight (c.objectPath name) =
      weight c.objectsPath.toList + weight name.toList := by
    intro name
    rw [Client.objectPath, String.toList_append, weight_append]
  have hroot := head?_beforeQuery c name
  have hslash := not_slashes_beforeQuery c name
  by_cases hcut : beforeQuery name.toList = name.toList
  · have hsame : beforeQuery (c.objectPath name) = c.objectPath name := by
      rw [beforeQuery_objectPath, hcut, Client.objectPath, String.toList_append]
    have hmarks := not_mem_beforeQuery name.toList
    rw [hcut] at hmarks
    rw [hsame] at hpath hroot hslash
    have hchanged : ¬Unchanged (c.objectPath name) := fun hname =>
      h ⟨hmarks.1, hmarks.2, (unchanged_objectPath c).mp hname⟩
    have hlighter := weight_received_lt hroot hslash hchanged
    rw [hpath, weight_encodeUtf8, hsum, hsum] at hlighter
    omega
  · have hpre := beforeQuery_isPrefix name.toList
    have hshorter : (beforeQuery name.toList).length < name.toList.length :=
      hpre.length_le.lt_of_ne fun hlength => hcut (hpre.eq_of_length hlength)
    have hlighter := weight_lt_of_prefix hpre hshorter
    have hle := weight_received_le hroot hslash
    rw [hpath, weight_encodeUtf8, hsum, beforeQuery_objectPath, weight_append] at hle
    omega

/-- Names that are read as each other, without one left out, are read as themselves: none
can be lighter than what it is read as. -/
theorem urlSafe_of_perm {names : List String}
    (h : (names.map c.reading).Perm (names.map some)) : ∀ name ∈ names, UrlSafe name := by
  have hsum :
      (names.map fun name => (c.reading name).elim 0 fun object => weight object.toList).sum =
      (names.map fun name => weight name.toList).sum := by
    have hweights := (h.map fun object => object.elim 0 fun name => weight name.toList).sum_eq
    simp only [List.map_map, Function.comp_def, Option.elim_some] at hweights
    exact hweights
  have hle : ∀ name ∈ names,
      ((c.reading name).elim 0 fun object => weight object.toList) ≤ weight name.toList := by
    intro name _
    by_cases hsafe : UrlSafe name
    · rw [reading_of_urlSafe c hsafe, Option.elim_some]
    · cases hreading : c.reading name with
      | none => exact Nat.zero_le _
      | some object => exact (weight_reading_lt c hsafe hreading).le
  intro name hname
  by_contra hsafe
  have hweight := eq_of_sum_le hle hsum.ge name hname
  obtain ⟨object, -, hreading⟩ := List.mem_map.mp (h.subset (List.mem_map_of_mem hname))
  rw [← hreading, Option.elim_some] at hweight
  exact absurd hweight (weight_reading_lt c hsafe hreading.symm).ne

end Urls

/-! ### One request -/

variable (c : Client) {s : Server} {b : Bucket} {name object : String}

theorem remove_remove (b : Bucket) (gone gone' : List String) :
    (b.remove gone).remove gone' = b.remove (gone ++ gone') := by
  ext1
  simp only [Bucket.remove, List.filter_filter, List.mem_append, not_or]
  refine List.filter_congr fun name _ => ?_
  simp only [Bool.decide_and]
  rw [Bool.and_comm]

theorem remove_nil (b : Bucket) : b.remove [] = b := by
  ext1
  exact List.filter_eq_self.mpr fun name _ => decide_eq_true List.not_mem_nil

theorem mem_remove {gone : List String} {name : String} :
    name ∈ (b.remove gone).names ↔ name ∈ b.names ∧ name ∉ gone := by
  rw [Bucket.remove, List.mem_filter, decide_eq_true_iff]

/-- The state after these requests, which left this of the bucket. -/
def after (s : Server) (left : Bucket) (urls : List Text) : Server :=
  { s with bucket := some left, requested := s.requested ++ urls }

theorem after_after (left left' : Bucket) (urls urls' : List Text) :
    after (after s left urls) left' urls' = after s left' (urls ++ urls') := by
  simp only [after, List.append_assoc]

theorem after_self (hb : s.bucket = some b) : after s b [] = s := by
  simp only [after, ← hb, List.append_nil]

theorem deleteObject_found (hb : s.bucket = some b) (hreading : c.reading name = some object)
    (h : object ∈ b.names) :
    c.deleteObject (c.objectPath name) s =
      (.ok (), after s (b.remove [object]) [c.objectPath name]) := by
  rw [Client.reading] at hreading
  simp only [Client.deleteObject, hreading, hb, h, if_true, after]

theorem deleteObject_missing (hb : s.bucket = some b) (hreading : c.reading name = some object)
    (h : object ∉ b.names) :
    c.deleteObject (c.objectPath name) s =
      (.error (.httpError 404), after s b [c.objectPath name]) := by
  rw [Client.reading] at hreading
  simp only [Client.deleteObject, hreading, hb, h, if_false, after]

/-- Whatever the answer is, the request was sent, and no other object is gone than the one
that its URL was read as. -/
theorem deleteObject_after (hb : s.bucket = some b) (name : String) :
    (c.deleteObject (c.objectPath name) s).2 =
      after s (b.remove (c.reading name).toList) [c.objectPath name] := by
  cases hreading : c.reading name with
  | none =>
    rw [Client.reading] at hreading
    simp only [Client.deleteObject, hreading, Option.toList_none, remove_nil, after, hb]
  | some object =>
    by_cases h : object ∈ b.names
    · rw [deleteObject_found c hb hreading h, Option.toList_some]
    · have hsame : b.remove [object] = b := by
        ext1
        refine List.filter_eq_self.mpr fun other hother => decide_eq_true ?_
        rw [List.mem_singleton]
        rintro rfl
        exact h hother
      rw [deleteObject_missing c hb hreading h, Option.toList_some, hsame]

/-! ### The requests for one page -/

/-- The names are read as objects that are there, each as another one. -/
def AllFound (b : Bucket) (names : List String) : Prop :=
  (names.map c.reading).Nodup ∧ ∀ name ∈ names, ∃ object ∈ b.names, c.reading name = some object

variable {c}

theorem deleteItems_cons (name : String) (items : List Value) (ret : List String) (s : Server) :
    c.deleteItems (item name :: items) ret s =
      (c.deleteObject (c.objectPath name) >>= fun _ => c.deleteItems items (ret ++ [name])) s := by
  have hname : strField "name" (item name) = .ok name := rfl
  have hread : Act.ofExcept (strField "name" (item name)) s = (.ok name, s) := by
    rw [hname]
    rfl
  rw [Client.deleteItems]
  exact Act.bind_ok hread

theorem deleteItems_append (items items' : List Value) (ret : List String) :
    c.deleteItems (items ++ items') ret =
      c.deleteItems items ret >>= fun ret => c.deleteItems items' ret := by
  induction items generalizing ret with
  | nil => rfl
  | cons value items ih =>
    simp only [List.cons_append, Client.deleteItems, ih, Act.bind_assoc]

theorem filterMap_reading_cons (name : String) (names : List String) :
    (name :: names).filterMap c.reading = (c.reading name).toList ++ names.filterMap c.reading := by
  rw [List.filterMap_cons]
  cases c.reading name <;> rfl

/-- If no request fails, every object that a name is read as is gone. -/
theorem deleteItems_ok {names ret ret' : List String} {t : Server} (hb : s.bucket = some b)
    (h : c.deleteItems (names.map item) ret s = (.ok ret', t)) :
    ret' = ret ++ names ∧
      t = after s (b.remove (names.filterMap c.reading)) (names.map c.objectPath) := by
  induction names generalizing s b ret with
  | nil =>
    obtain ⟨rfl, rfl⟩ : ret = ret' ∧ s = t := by
      simpa [Client.deleteItems, pure, Act.pure] using h
    rw [List.filterMap_nil, List.map_nil, remove_nil, after_self hb, List.append_nil]
    exact ⟨rfl, rfl⟩
  | cons name names ih =>
    have hstate := deleteObject_after c hb name
    rw [List.map_cons, deleteItems_cons] at h
    rcases hdelete : c.deleteObject (c.objectPath name) s with ⟨e | u, s'⟩
    · rw [Act.bind_error hdelete] at h
      cases h
    · obtain rfl : s' = _ := hdelete ▸ hstate
      rw [Act.bind_ok hdelete] at h
      obtain ⟨hret, ht⟩ := ih rfl h
      rw [hret, ht, remove_remove, after_after, filterMap_reading_cons, List.append_assoc]
      exact ⟨rfl, rfl⟩

/-- However it ends, a request is sent for the first name, and the bucket stays. -/
theorem deleteItems_after (hb : s.bucket = some b) (names ret : List String) :
    ∃ left urls, (c.deleteItems (names.map item) ret s).2 = after s left urls ∧
      urls.head? = names.head?.map c.objectPath := by
  induction names generalizing s b ret with
  | nil => exact ⟨b, [], (after_self hb).symm, rfl⟩
  | cons name names ih =>
    have hstate := deleteObject_after c hb name
    rw [List.map_cons, deleteItems_cons]
    rcases hdelete : c.deleteObject (c.objectPath name) s with ⟨e | u, s'⟩
    · rw [Act.bind_error hdelete]
      rw [hdelete] at hstate
      exact ⟨_, [c.objectPath name], hstate, rfl⟩
    · obtain rfl : s' = _ := hdelete ▸ hstate
      rw [Act.bind_ok hdelete]
      obtain ⟨left, urls, hleft, -⟩ := ih (s := after s (b.remove (c.reading name).toList)
        [c.objectPath name]) rfl (ret ++ [name])
      exact ⟨left, c.objectPath name :: urls, hleft.trans (after_after _ _ _ _), rfl⟩

/-- All names are found: every object that one of them is read as is gone. -/
theorem deleteItems_found {names : List String} (hb : s.bucket = some b)
    (h : AllFound c b names) (ret : List String) :
    c.deleteItems (names.map item) ret s =
      (.ok (ret ++ names), after s (b.remove (names.filterMap c.reading))
        (names.map c.objectPath)) := by
  induction names generalizing s b ret with
  | nil =>
    rw [List.map_nil, List.filterMap_nil, List.map_nil, remove_nil, after_self hb, List.append_nil]
    rfl
  | cons name names ih =>
    obtain ⟨hnodup, hmem⟩ := h
    obtain ⟨hnew, hnodup⟩ := List.nodup_cons.mp hnodup
    rw [List.forall_mem_cons] at hmem
    obtain ⟨⟨object, hobject, hreading⟩, hmem⟩ := hmem
    have hrest : AllFound c (b.remove [object]) names := by
      refine ⟨hnodup, fun other hother => ?_⟩
      obtain ⟨found, hfound, hread⟩ := hmem other hother
      refine ⟨found, mem_remove.mpr ⟨hfound, fun heq => ?_⟩, hread⟩
      rw [List.mem_singleton] at heq
      exact hnew (List.mem_map.mpr ⟨other, hother, by rw [hread, heq, hreading]⟩)
    rw [List.map_cons, deleteItems_cons, Act.bind_ok (deleteObject_found c hb hreading hobject),
      ih rfl hrest, remove_remove, after_after, filterMap_reading_cons, hreading]
    simp only [List.append_assoc, List.singleton_append, List.map_cons, Option.toList_some]

/-- The first name that is read as a missing object is the last one a request is sent for. -/
theorem deleteItems_missing {before rest : List String} (hb : s.bucket = some b)
    (h : AllFound c b before) (hreading : c.reading name = some object)
    (hmissing : object ∉ b.names ∨ some object ∈ before.map c.reading) (ret : List String) :
    c.deleteItems ((before ++ name :: rest).map item) ret s =
      (.error (.httpError 404),
        after s (b.remove (before.filterMap c.reading)) ((before ++ [name]).map c.objectPath)) := by
  have hgone : object ∉ (b.remove (before.filterMap c.reading)).names := by
    rw [mem_remove, List.mem_filterMap]
    rintro ⟨hmem, hnot⟩
    exact hmissing.elim (fun h => h hmem) fun h => hnot (List.mem_map.mp h)
  rw [List.map_append, deleteItems_append, Act.bind_ok (deleteItems_found hb h ret),
    List.map_cons, deleteItems_cons, Act.bind_error (deleteObject_missing c rfl hreading hgone),
    after_after, List.map_append]
  rfl

/-- Either all names are found, or there is a first one that is not. -/
theorem allFound_or_missing (c : Client) (b : Bucket) (names : List String) :
    AllFound c b names ∨ ∃ before name rest, names = before ++ name :: rest ∧
      AllFound c b before ∧
      ∀ object, c.reading name = some object →
        object ∉ b.names ∨ some object ∈ before.map c.reading := by
  induction names using List.reverseRecOn with
  | nil => exact Or.inl ⟨List.nodup_nil, fun _ h => absurd h List.not_mem_nil⟩
  | append_singleton names name ih =>
    rcases ih with hfound | ⟨before, first, rest, rfl, hbefore, hfirst⟩
    · by_cases hname : ∃ object ∈ b.names, c.reading name = some object ∧
        some object ∉ names.map c.reading
      · obtain ⟨object, hobject, hreading, hnew⟩ := hname
        left
        refine ⟨?_, ?_⟩
        · rw [List.map_append, List.map_singleton, hreading]
          exact List.nodup_append'.mpr
            ⟨hfound.1, List.nodup_singleton _, List.disjoint_singleton.mpr hnew⟩
        · intro other hother
          rcases List.mem_append.mp hother with hmem | hmem
          · exact hfound.2 other hmem
          · exact List.mem_singleton.mp hmem ▸ ⟨object, hobject, hreading⟩
      · refine Or.inr ⟨names, name, [], rfl, hfound, fun object hreading => ?_⟩
        by_contra hnot
        rw [not_or, not_not] at hnot
        exact hname ⟨object, hnot.1, hreading, hnot.2⟩
    · exact Or.inr ⟨before, first, rest ++ [name], by simp, hbefore, hfirst⟩

end Yellowbox.FakeGcs.Deletions
