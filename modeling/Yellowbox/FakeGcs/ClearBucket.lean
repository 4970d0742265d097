import Yellowbox.FakeGcs.Deletions

/-!
`clear_bucket` over the pages of a listing. The loop asks for the second page under a
name that no response has, so it empties a bucket of one page, and raises `KeyError`
after the first page of a larger one.
-/
namespace Yellowbox.FakeGcs.ClearBucket

open Buckets Deletions Effects Json

variable {c : Client} {s : Server} {b : Bucket} {pre : Option String}

/-- `name.startswith(prefix)`; no prefix is the empty one. -/
def HasPrefix (pre : Option String) (name : String) : Prop :=
  (pre.getD "").toList <+: name.toList

theorem mem_listed {name : String} :
    name ∈ b.listed pre ↔ name ∈ b.names ∧ HasPrefix pre name := by
  rw [Bucket.listed, List.mem_filter, List.isPrefixOf_iff_prefix, HasPrefix]

theorem nodup_listed (b : Bucket) (pre : Option String) : (b.listed pre).Nodup :=
  (b.sorted.imp fun h => ne_of_lt h).filter _

theorem listed_none (b : Bucket) : b.listed none = b.names :=
  List.filter_eq_self.mpr fun _ _ => List.isPrefixOf_iff_prefix.mpr List.nil_prefix

/-- An empty prefix is none. -/
theorem listed_filter (b : Bucket) (pre : Option String) :
    b.listed (pre.filter (· ≠ "")) = b.listed pre := by
  have hsame : (pre.filter (· ≠ "")).getD "" = pre.getD "" := by
    cases pre with
    | none => rfl
    | some text =>
      by_cases htext : text = "" <;> simp [Option.filter, htext]
  simp only [Bucket.listed, hsame]

/-! ### One round -/

theorem contains_page (remaining : List String) (size : ℕ) :
    (page remaining size).contains? "nextPageToken" = some (decide (size < remaining.length)) := by
  unfold page
  split
  · rename_i h
    simp [Value.contains?, h]
  · rename_i h
    simp [Value.contains?, h]

/-- No response has a field of this name. -/
theorem strField_page (remaining : List String) (size : ℕ) :
    strField "next_page_token" (page remaining size) = .error (.keyError "next_page_token") := by
  unfold page
  split <;> rfl

theorem getListing_first (hb : s.bucket = some b) :
    getListing (beforeLoop pre).params s = (.ok (page (b.listed pre) s.pageSize), s) := by
  simp only [getListing, hb, beforeLoop, listed_filter, Option.all_none, List.filter_true]

/-- What the loop does after its first page. -/
def afterFirstPage (s : Server) (b : Bucket) (pre : Option String) :
    Except Exc (List String) × Server → Except Exc (List String) × Server
  | (.error e, t) => (.error e, t)
  | (.ok ret, t) =>
    if s.pageSize < (b.listed pre).length then (.error (.keyError "next_page_token"), t)
    else (.ok ret, t)

theorem afterFirstPage_state (s : Server) (b : Bucket) (pre : Option String)
    (outcome : Except Exc (List String) × Server) :
    (afterFirstPage s b pre outcome).2 = outcome.2 := by
  rcases outcome with ⟨e | ret, t⟩
  · rfl
  · rw [afterFirstPage]
    split <;> rfl

/-- The loop ends in its first round, one way or another. -/
theorem clearBody_first (hb : s.bucket = some b) :
    c.clearBody (beforeLoop pre, s) =
      .inr (afterFirstPage s b pre
        (c.deleteItems (((b.listed pre).take s.pageSize).map item) [] s)) := by
  have hround : c.clearRound (beforeLoop pre) s =
      (c.deleteItems (((b.listed pre).take s.pageSize).map item) [] >>= fun ret =>
        if (page (b.listed pre) s.pageSize).contains? "nextPageToken" = some true then do
          let token ← Act.ofExcept (strField "next_page_token" (page (b.listed pre) s.pageSize))
          return .inl ⟨(beforeLoop pre).params, some token, ret⟩
        else return .inr ret) s := by
    change (getListing (beforeLoop pre).params >>= _) s = _
    rw [Act.bind_ok (getListing_first hb)]
    rfl
  rw [contains_page, strField_page] at hround
  unfold Client.clearBody
  rw [hround]
  rcases hitems : c.deleteItems (((b.listed pre).take s.pageSize).map item) [] s with ⟨e | ret, t⟩
  · rw [Act.bind_error hitems]
    rfl
  · rw [Act.bind_ok hitems]
    by_cases hmore : s.pageSize < (b.listed pre).length
    · simp only [hmore, decide_true, if_true, afterFirstPage]
      rfl
    · simp only [hmore, decide_false, Option.some.injEq, Bool.false_eq_true, if_false,
        afterFirstPage]
      rfl

theorem clearBucket_eq (hb : s.bucket = some b) {rounds : ℕ} (hrounds : 1 ≤ rounds) :
    c.clearBucket rounds pre s =
      .inr (afterFirstPage s b pre
        (c.deleteItems (((b.listed pre).take s.pageSize).map item) [] s)) := by
  obtain ⟨n, rfl⟩ := Nat.exists_eq_add_of_le' hrounds
  exact Iteration.run_stop (clearBody_first hb) n

theorem clearBucket_ok (hb : s.bucket = some b) {rounds : ℕ} (hrounds : 1 ≤ rounds)
    {ret : List String} {t : Server} (h : c.clearBucket rounds pre s = .inr (.ok ret, t)) :
    (b.listed pre).length ≤ s.pageSize ∧ ret = b.listed pre ∧
      t = after s (b.remove ((b.listed pre).filterMap c.reading))
        ((b.listed pre).map c.objectPath) := by
  rw [clearBucket_eq hb hrounds] at h
  rcases hitems : c.deleteItems (((b.listed pre).take s.pageSize).map item) [] s with ⟨e | ret', t'⟩
  · rw [hitems] at h
    cases h
  rw [hitems, afterFirstPage] at h
  split at h
  · cases h
  · rename_i hpage
    obtain ⟨rfl, rfl⟩ : ret' = ret ∧ t' = t := by simpa using h
    have hle := Nat.le_of_not_lt hpage
    rw [List.take_of_length_le hle] at hitems
    exact ⟨hle, deleteItems_ok hb hitems⟩

/-- However `clear_bucket` ends, the bucket stays. -/
theorem clearBucket_bucket (hb : s.bucket = some b) {rounds : ℕ} (hrounds : 1 ≤ rounds)
    {result : Except Exc (List String)} {t : Server}
    (h : c.clearBucket rounds pre s = .inr (result, t)) : t.bucket ≠ none := by
  obtain ⟨left, urls, hafter, -⟩ :=
    deleteItems_after (c := c) hb ((b.listed pre).take s.pageSize) []
  rw [clearBucket_eq hb hrounds] at h
  have ht : t = after s left urls := by
    rw [← hafter, ← afterFirstPage_state s b pre, Sum.inr.inj h]
  rw [ht]
  exact Option.some_ne_none left

/-! ### The whole bucket -/

/-- From some number of rounds on, `clear_bucket` has returned the names of exactly the
objects that are gone, each once, and exactly those with the prefix are. -/
def ClearsBucket (c : Client) (s : Server) (b : Bucket) (pre : Option String) : Prop :=
  ∃ enough, ∀ rounds ≥ enough, ∃ ret t left,
    c.clearBucket rounds pre s = .inr (.ok ret, t) ∧ t.bucket = some left ∧
      (∀ name, name ∈ left.names ↔ name ∈ b.names ∧ ¬HasPrefix pre name) ∧
      ret.Nodup ∧ ∀ name, name ∈ ret ↔ name ∈ b.names ∧ name ∉ left.names

/-- From some number of rounds on, `delete_bucket(force=True)` has succeeded. -/
def DeletesBucket (c : Client) (s : Server) (missingOk : Bool) : Prop :=
  ∃ enough, ∀ rounds ≥ enough, ∃ t,
    c.deleteBucket rounds true missingOk s = some (.ok (), t) ∧ t.bucket = none

/-- A listing is covered by what its names are read as only if each is read as itself. -/
theorem urlSafe_of_covered (hcovered : ∀ name ∈ b.listed pre,
    name ∈ (b.listed pre).filterMap c.reading) : ∀ name ∈ b.listed pre, UrlSafe name := by
  have hsub : (b.listed pre).map some ⊆ (b.listed pre).map c.reading := by
    intro object hobject
    obtain ⟨name, hname, rfl⟩ := List.mem_map.mp hobject
    exact List.mem_map.mpr (List.mem_filterMap.mp (hcovered name hname))
  have hnodup : ((b.listed pre).map some).Nodup :=
    (nodup_listed b pre).map fun _ _ h => Option.some.inj h
  have hlength : ((b.listed pre).map c.reading).length ≤ ((b.listed pre).map some).length := by
    rw [List.length_map, List.length_map]
  exact urlSafe_of_perm c
    ((List.subperm_of_subset hnodup hsub).perm_of_length_le hlength).symm

section SafeNames

variable (hb : s.bucket = some b) (hsafe : ∀ name ∈ b.listed pre, UrlSafe name)
include hsafe

/-- Safe names are read as themselves. -/
theorem filterMap_reading {names : List String} (h : ∀ name ∈ names, name ∈ b.listed pre) :
    names.filterMap c.reading = names := by
  have hself : names.filterMap c.reading = names.filterMap some :=
    List.filterMap_congr fun name hname => reading_of_urlSafe c (hsafe name (h name hname))
  exact hself.trans List.filterMap_some

theorem allFound_listed {names : List String} (h : names.Sublist (b.listed pre)) :
    AllFound c b names := by
  have hself : ∀ name ∈ names, c.reading name = some name := fun name hname =>
    reading_of_urlSafe c (hsafe name (h.subset hname))
  refine ⟨?_, fun name hname => ⟨name, (mem_listed.mp (h.subset hname)).1, hself name hname⟩⟩
  rw [List.map_congr_left hself]
  exact ((nodup_listed b pre).sublist h).map fun _ _ h => Option.some.inj h

include hb

theorem clearBucket_one_page (hpage : (b.listed pre).length ≤ s.pageSize) {rounds : ℕ}
    (hrounds : 1 ≤ rounds) :
    c.clearBucket rounds pre s =
      .inr (.ok (b.listed pre), after s (b.remove (b.listed pre))
        ((b.listed pre).map c.objectPath)) := by
  rw [clearBucket_eq hb hrounds, List.take_of_length_le hpage,
    deleteItems_found hb (allFound_listed hsafe (List.Sublist.refl _)), afterFirstPage,
    if_neg (Nat.not_lt_of_le hpage), filterMap_reading hsafe fun _ h => h]
  rfl

/-- With more objects than fit on a page, the first page is deleted and nothing else. -/
theorem clearBucket_more_pages (hpage : s.pageSize < (b.listed pre).length) {rounds : ℕ}
    (hrounds : 1 ≤ rounds) :
    c.clearBucket rounds pre s =
      .inr (.error (.keyError "next_page_token"),
        after s (b.remove ((b.listed pre).take s.pageSize))
          (((b.listed pre).take s.pageSize).map c.objectPath)) := by
  rw [clearBucket_eq hb hrounds,
    deleteItems_found hb (allFound_listed hsafe (List.take_sublist _ _)), afterFirstPage,
    if_pos hpage, filterMap_reading hsafe fun _ h => List.mem_of_mem_take h]

end SafeNames

theorem clearsBucket_iff (hb : s.bucket = some b) :
    ClearsBucket c s b pre ↔
      (b.listed pre).length ≤ s.pageSize ∧ ∀ name ∈ b.listed pre, UrlSafe name := by
  constructor
  · rintro ⟨enough, h⟩
    obtain ⟨ret, t, left, hclear, hleft, hnames, -⟩ := h (enough + 1) (Nat.le_succ _)
    obtain ⟨hpage, -, rfl⟩ := clearBucket_ok hb (Nat.succ_pos _) hclear
    obtain rfl : b.remove ((b.listed pre).filterMap c.reading) = left := Option.some.inj hleft
    refine ⟨hpage, urlSafe_of_covered (c := c) fun name hname => ?_⟩
    by_contra hkept
    obtain ⟨hmem, hprefix⟩ := mem_listed.mp hname
    exact ((hnames name).mp (mem_remove.mpr ⟨hmem, hkept⟩)).2 hprefix
  · rintro ⟨hpage, hsafe⟩
    refine ⟨1, fun rounds hrounds => ?_⟩
    refine ⟨_, _, _, clearBucket_one_page hb hsafe hpage hrounds, rfl, fun name => ?_,
      nodup_listed b pre, fun name => ?_⟩
    · rw [mem_remove, mem_listed]
      tauto
    · rw [mem_remove, mem_listed]
      tauto

theorem deletesBucket_iff (hb : s.bucket = some b) (missingOk : Bool) :
    DeletesBucket c s missingOk ↔
      b.names.length ≤ s.pageSize ∧ ∀ name ∈ b.names, UrlSafe name := by
  rw [← listed_none b]
  constructor
  · rintro ⟨enough, h⟩
    obtain ⟨t, hdelete, hnone⟩ := h (enough + 1) (Nat.le_succ _)
    rcases hclear : c.clearBucket (enough + 1) none s with _ | ⟨e | ret, t'⟩
    · simp only [Client.deleteBucket, if_true, hclear] at hdelete
      cases hdelete
    · simp only [Client.deleteBucket, if_true, hclear, Option.some.injEq, Prod.mk.injEq] at hdelete
      have hkept := clearBucket_bucket hb (Nat.succ_pos _) hclear
      exact absurd (hdelete.2 ▸ hnone) hkept
    · obtain ⟨hpage, -, rfl⟩ := clearBucket_ok hb (Nat.succ_pos _) hclear
      refine ⟨hpage, urlSafe_of_covered (c := c) fun name hname => ?_⟩
      by_contra hkept
      have hleft : name ∈ (b.remove ((b.listed none).filterMap c.reading)).names :=
        mem_remove.mpr ⟨(mem_listed.mp hname).1, hkept⟩
      have hfull : (b.remove ((b.listed none).filterMap c.reading)).names ≠ [] :=
        List.ne_nil_of_mem hleft
      simp only [Client.deleteBucket, if_true, hclear, requestBucketDeletion, after, if_neg hfull,
        Client.unlessMissing] at hdelete
      simp at hdelete
  · rintro ⟨hpage, hsafe⟩
    refine ⟨1, fun rounds hrounds => ?_⟩
    have hempty : (b.remove (b.listed none)).names = [] := by
      rw [List.eq_nil_iff_forall_not_mem]
      intro name hname
      rw [mem_remove, listed_none] at hname
      exact hname.2 hname.1
    refine ⟨{ after s (b.remove (b.listed none)) ((b.listed none).map c.objectPath) with
      bucket := none }, ?_, rfl⟩
    simp only [Client.deleteBucket, if_true, clearBucket_one_page (c := c) hb hsafe hpage hrounds,
      requestBucketDeletion, after, hempty]

/-- A bucket is emptied exactly when the objects with the prefix fit on one page and their
names are safe, and deleted by force exactly when that holds of all objects. -/
theorem clear_bucket_iff_one_page (c : Client) {s : Server} {b : Bucket}
    (hb : s.bucket = some b) (pre : Option String) (missingOk : Bool) :
    (ClearsBucket c s b pre ↔
        (b.listed pre).length ≤ s.pageSize ∧ ∀ name ∈ b.listed pre, UrlSafe name) ∧
      (DeletesBucket c s missingOk ↔
        b.names.length ≤ s.pageSize ∧ ∀ name ∈ b.names, UrlSafe name) :=
  ⟨clearsBucket_iff hb, deletesBucket_iff hb missingOk⟩

/-- Two objects, and a page for one. -/
def twoObjects : Bucket := ⟨["a", "b"], by decide, by decide⟩

def smallPages : Server := ⟨some twoObjects, 1, Nat.one_pos, [], fun _ => some 404⟩

theorem bucket_alphanum : "bucket".toList.all Char.isAlphanum = true := by decide

def someClient : Client where
  bucketName := "bucket"
  plain c hc := Or.inl (List.all_eq_true.mp bucket_alphanum c hc)
  named := by decide

theorem clear_bucket_iff_one_page_two :
    (ClearsBucket someClient smallPages twoObjects (some "b") ↔
        (twoObjects.listed (some "b")).length ≤ 1 ∧
          ∀ name ∈ twoObjects.listed (some "b"), UrlSafe name) ∧
      (DeletesBucket someClient smallPages false ↔
        twoObjects.names.length ≤ 1 ∧ ∀ name ∈ twoObjects.names, UrlSafe name) :=
  clear_bucket_iff_one_page someClient rfl (some "b") false

/-- The second page is never asked for: `clear_bucket` raises, and so does
`delete_bucket`. -/
theorem second_page_not_cleared :
    ¬(∀ (c : Client) (s : Server) (b : Bucket), s.bucket = some b →
      (∀ name ∈ b.names, UrlSafe name) → ∀ pre, ClearsBucket c s b pre) ∧
      ¬∀ (c : Client) (s : Server) (b : Bucket), s.bucket = some b →
        (∀ name ∈ b.names, UrlSafe name) → DeletesBucket c s false := by
  have hsafe : ∀ name ∈ twoObjects.names, UrlSafe name := by decide
  constructor
  · intro h
    have hclear := h someClient smallPages twoObjects rfl hsafe none
    rw [clearsBucket_iff rfl] at hclear
    exact absurd hclear.1 (by decide)
  · intro h
    have hdelete := h someClient smallPages twoObjects rfl hsafe
    rw [deletesBucket_iff rfl] at hdelete
    exact absurd hdelete.1 (by decide)

end Yellowbox.FakeGcs.ClearBucket
