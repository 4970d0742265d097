import Mathlib.Algebra.Order.BigOperators.Group.List
import Yellowbox.FakeGcs.ClearBucket

/-!
Which objects `clear_bucket` deletes. The name of each listed object is put into a URL
as it is, so a request may name another object than the one that was listed.
-/
namespace Yellowbox.FakeGcs.DeletedNames

open Buckets ClearBucket Deletions Effects

variable {c : Client} {s : Server} {b : Bucket} {pre : Option String}

/-- Each request of a run names an object of the listing, and no other object is gone
after it. -/
def DeletesOnlyListed (c : Client) (s : Server) (b : Bucket) (pre : Option String) : Prop :=
  ∀ rounds result t, c.clearBucket rounds pre s = .inr (result, t) →
    (∃ urls, t.requested = s.requested ++ urls ∧
      ∀ url ∈ urls, ∃ name ∈ b.listed pre, c.objectOf url = some name) ∧
    ∃ left, t.bucket = some left ∧
      ∀ name ∈ b.names, name ∉ left.names → name ∈ b.listed pre

/-- A name is read as one of these objects. -/
def ReadAmong (c : Client) (listed : List String) (name : String) : Prop :=
  ∃ object ∈ listed, c.reading name = some object

/-- No name that is read as an unlisted object is reached: two names before it are read
as one object, which is gone when the second of them is to be deleted. -/
def NoneReached (c : Client) (listed : List String) : Prop :=
  ∀ before name rest, listed = before ++ name :: rest →
    ReadAmong c listed name ∨ ¬(before.map c.reading).Nodup

theorem allFound_of_readAmong {names : List String} (hnodup : (names.map c.reading).Nodup)
    (h : ∀ name ∈ names, ReadAmong c (b.listed pre) name) : AllFound c b names := by
  refine ⟨hnodup, fun name hname => ?_⟩
  obtain ⟨object, hobject, hreading⟩ := h name hname
  exact ⟨object, (mem_listed.mp hobject).1, hreading⟩

/-- Among names of which none is reached, those that requests are sent for are read as
listed objects. -/
theorem readAmong_of_noneReached {listed before rest : List String}
    (h : NoneReached c listed) (hlisted : listed = before ++ rest)
    (hnodup : (before.map c.reading).Nodup) : ∀ name ∈ before, ReadAmong c listed name := by
  intro name hname
  obtain ⟨earlier, later, rfl⟩ := List.append_of_mem hname
  have hsplit : listed = earlier ++ name :: (later ++ rest) := by
    rw [hlisted, List.append_assoc, List.cons_append]
  rw [List.map_append] at hnodup
  exact (h earlier name (later ++ rest) hsplit).resolve_right fun hdup => hdup hnodup.of_append_left

section OnePage

variable (hb : s.bucket = some b) (hpage : (b.listed pre).length ≤ s.pageSize)
include hb hpage

/-- If none is reached, all names are found, or a request for one that is gone is the last. -/
theorem clearBucket_of_noneReached (h : NoneReached c (b.listed pre)) {rounds : ℕ}
    (hrounds : 1 ≤ rounds) :
    (AllFound c b (b.listed pre) ∧
      c.clearBucket rounds pre s =
        .inr (.ok (b.listed pre), after s (b.remove ((b.listed pre).filterMap c.reading))
          ((b.listed pre).map c.objectPath))) ∨
    ∃ before name rest, b.listed pre = before ++ name :: rest ∧ AllFound c b before ∧
      ReadAmong c (b.listed pre) name ∧
      c.clearBucket rounds pre s =
        .inr (.error (.httpError 404), after s (b.remove (before.filterMap c.reading))
          ((before ++ [name]).map c.objectPath)) := by
  rw [clearBucket_eq hb hrounds, List.take_of_length_le hpage]
  rcases allFound_or_missing c b (b.listed pre) with hfound | ⟨before, name, rest, hlisted, hfound,
    hmissing⟩
  · left
    rw [deleteItems_found hb hfound, afterFirstPage, if_neg (Nat.not_lt_of_le hpage)]
    exact ⟨hfound, rfl⟩
  · right
    have hname : ReadAmong c (b.listed pre) name :=
      (h before name rest hlisted).resolve_right fun hdup => hdup hfound.1
    refine ⟨before, name, rest, hlisted, hfound, hname, ?_⟩
    obtain ⟨object, -, hreading⟩ := hname
    rw [hlisted, deleteItems_missing hb hfound hreading (hmissing object hreading)]
    rfl

/-- After names that are all found, a request is sent for the next one. -/
theorem clearBucket_sends {before rest : List String} {name : String}
    (hlisted : b.listed pre = before ++ name :: rest) (hfound : AllFound c b before) :
    ∃ result left urls, c.clearBucket 1 pre s =
      .inr (result, after s left (before.map c.objectPath ++ c.objectPath name :: urls)) := by
  obtain ⟨left, urls, hafter, hfirst⟩ := deleteItems_after (c := c)
    (s := after s (b.remove (before.filterMap c.reading)) (before.map c.objectPath)) rfl
    (name :: rest) ([] ++ before)
  obtain ⟨urls, rfl⟩ := List.head?_eq_some_iff.mp hfirst
  have hitems : c.deleteItems ((b.listed pre).map item) [] s =
      c.deleteItems ((name :: rest).map item) ([] ++ before)
        (after s (b.remove (before.filterMap c.reading)) (before.map c.objectPath)) := by
    rw [hlisted, List.map_append, deleteItems_append, Act.bind_ok (deleteItems_found hb hfound [])]
  rw [clearBucket_eq hb (Nat.le_refl 1), List.take_of_length_le hpage, hitems]
  set outcome := c.deleteItems ((name :: rest).map item) ([] ++ before)
    (after s (b.remove (before.filterMap c.reading)) (before.map c.objectPath))
  have hstate := afterFirstPage_state s b pre outcome
  rw [hafter, after_after] at hstate
  rcases houtcome : afterFirstPage s b pre outcome with ⟨result, t⟩
  rw [houtcome] at hstate
  exact ⟨result, left, urls, by rw [← hstate]⟩

theorem deletesOnlyListed_of_noneReached (h : NoneReached c (b.listed pre)) :
    DeletesOnlyListed c s b pre := by
  have honly : ∀ {names requested : List String},
      (∀ name ∈ names, ReadAmong c (b.listed pre) name) →
      (∀ name ∈ requested, ReadAmong c (b.listed pre) name) →
      let t := after s (b.remove (names.filterMap c.reading)) (requested.map c.objectPath)
      (∃ urls, t.requested = s.requested ++ urls ∧
        ∀ url ∈ urls, ∃ name ∈ b.listed pre, c.objectOf url = some name) ∧
      ∃ left, t.bucket = some left ∧
        ∀ name ∈ b.names, name ∉ left.names → name ∈ b.listed pre := by
    intro names requested hnames hrequested
    refine ⟨⟨_, rfl, fun url hurl => ?_⟩, _, rfl, fun name hname hgone => ?_⟩
    · obtain ⟨name, hname, rfl⟩ := List.mem_map.mp hurl
      exact hrequested name hname
    · rw [mem_remove, not_and_not_right] at hgone
      obtain ⟨other, hother, hreading⟩ := List.mem_filterMap.mp (hgone hname)
      obtain ⟨object, hobject, hread⟩ := hnames other hother
      rw [hread, Option.some_inj] at hreading
      exact hreading ▸ hobject
  intro rounds result t hrun
  rcases Nat.eq_zero_or_pos rounds with rfl | hrounds
  · cases hrun
  rcases clearBucket_of_noneReached hb hpage h hrounds with
    ⟨hfound, hclear⟩ | ⟨before, name, rest, hlisted, hfound, hname, hclear⟩
  · rw [hclear] at hrun
    cases hrun
    have hread := readAmong_of_noneReached h (List.append_nil _).symm hfound.1
    exact honly hread hread
  · rw [hclear] at hrun
    cases hrun
    have hread := readAmong_of_noneReached h hlisted hfound.1
    refine honly hread fun other hother => ?_
    rcases List.mem_append.mp hother with hmem | hmem
    · exact hread other hmem
    · exact List.mem_singleton.mp hmem ▸ hname

theorem noneReached_of_deletesOnlyListed (h : DeletesOnlyListed c s b pre) :
    NoneReached c (b.listed pre) := by
  intro before
  induction hlength : before.length using Nat.strong_induction_on generalizing before with
  | _ n ih =>
    intro name rest hlisted
    rw [or_iff_not_imp_right, not_not]
    intro hnodup
    -- by the induction, all names before this one are read as listed objects, and so are found
    have hbefore : ∀ other ∈ before, ReadAmong c (b.listed pre) other := by
      intro other hother
      obtain ⟨earlier, later, rfl⟩ := List.append_of_mem hother
      rw [List.append_assoc, List.cons_append] at hlisted
      rw [List.map_append] at hnodup
      refine (ih earlier.length ?_ earlier rfl other _ hlisted).resolve_right fun hdup =>
        hdup hnodup.of_append_left
      rw [← hlength, List.length_append, List.length_cons]
      omega
    obtain ⟨result, left, urls, hclear⟩ :=
      clearBucket_sends hb hpage hlisted (allFound_of_readAmong hnodup hbefore)
    obtain ⟨⟨sent, hsent, hread⟩, -⟩ := h 1 result _ hclear
    obtain rfl : before.map c.objectPath ++ c.objectPath name :: urls = sent :=
      List.append_cancel_left hsent
    exact hread _ (List.mem_append_right _ List.mem_cons_self)

end OnePage

/-! ### Runs that end without an exception -/

def Returns (c : Client) (s : Server) (pre : Option String) : Prop :=
  ∃ rounds ret t, c.clearBucket rounds pre s = .inr (.ok ret, t)

theorem returns_onlyListed_iff (hb : s.bucket = some b)
    (hpage : (b.listed pre).length ≤ s.pageSize) :
    Returns c s pre ∧ DeletesOnlyListed c s b pre ↔ ∀ name ∈ b.listed pre, UrlSafe name := by
  constructor
  · rintro ⟨⟨rounds, ret, t, hrun⟩, honly⟩
    have hnone := noneReached_of_deletesOnlyListed hb hpage honly
    rcases Nat.eq_zero_or_pos rounds with rfl | hrounds
    · cases hrun
    rcases clearBucket_of_noneReached hb hpage hnone hrounds with
      ⟨hfound, -⟩ | ⟨_, _, _, -, -, -, hclear⟩
    · have hread := readAmong_of_noneReached hnone (List.append_nil _).symm hfound.1
      have hsub : (b.listed pre).map c.reading ⊆ (b.listed pre).map some := by
        intro object hobject
        obtain ⟨name, hname, rfl⟩ := List.mem_map.mp hobject
        obtain ⟨listed, hlisted, hreading⟩ := hread name hname
        exact List.mem_map.mpr ⟨listed, hlisted, hreading.symm⟩
      have hlength : ((b.listed pre).map some).length ≤ ((b.listed pre).map c.reading).length := by
        rw [List.length_map, List.length_map]
      exact urlSafe_of_perm c
        ((List.subperm_of_subset hfound.1 hsub).perm_of_length_le hlength)
    · rw [hclear] at hrun
      cases hrun
  · intro hsafe
    refine ⟨⟨1, b.listed pre, _, clearBucket_one_page hb hsafe hpage (Nat.le_refl 1)⟩,
      deletesOnlyListed_of_noneReached hb hpage fun before name rest hlisted => ?_⟩
    have hname : name ∈ b.listed pre := hlisted ▸ List.mem_append_right _ List.mem_cons_self
    exact Or.inl ⟨name, hname, reading_of_urlSafe c (hsafe name hname)⟩

/-- Only listed objects are deleted exactly when no name that is read as an unlisted one
is reached; if the run is to return as well, every listed name must be safe. -/
theorem deletes_only_listed_iff (c : Client) {s : Server} {b : Bucket} {pre : Option String}
    (hb : s.bucket = some b) (hpage : (b.listed pre).length ≤ s.pageSize) :
    (DeletesOnlyListed c s b pre ↔ NoneReached c (b.listed pre)) ∧
      (Returns c s pre ∧ DeletesOnlyListed c s b pre ↔ ∀ name ∈ b.listed pre, UrlSafe name) :=
  ⟨⟨noneReached_of_deletesOnlyListed hb hpage, deletesOnlyListed_of_noneReached hb hpage⟩,
    returns_onlyListed_iff hb hpage⟩

def serverOf (b : Bucket) : Server := ⟨some b, 1000, by decide, [], fun _ => some 404⟩

def animals : Bucket := ⟨["my_pretty_goat", "my_ugly_dog"], by decide, by decide⟩

theorem deletes_only_listed_iff_animals :
    (DeletesOnlyListed someClient (serverOf animals) animals (some "my_p") ↔
        NoneReached someClient (animals.listed (some "my_p"))) ∧
      (Returns someClient (serverOf animals) (some "my_p") ∧
        DeletesOnlyListed someClient (serverOf animals) animals (some "my_p") ↔
        ∀ name ∈ animals.listed (some "my_p"), UrlSafe name) :=
  deletes_only_listed_iff someClient rfl (by decide)

def questions : Bucket := ⟨["a", "a?x"], by decide, by decide⟩

/-- The request for the listed `a?x` deletes `a`, which does not have the prefix. -/
theorem unlisted_object_deleted :
    ¬(∀ (c : Client) (s : Server) (b : Bucket) (pre : Option String), s.bucket = some b →
      (b.listed pre).length ≤ s.pageSize → DeletesOnlyListed c s b pre) ∧
      questions.listed (some "a?") = ["a?x"] ∧
      ∃ t, someClient.clearBucket 1 (some "a?") (serverOf questions) = .inr (.ok ["a?x"], t) ∧
        t.bucket.map Bucket.names = some ["a?x"] := by
  have hlisted : questions.listed (some "a?") = ["a?x"] := by decide
  have hread : someClient.reading "a?x" = some "a" := by decide +kernel
  refine ⟨fun h => ?_, hlisted, ?_⟩
  · have honly := h someClient (serverOf questions) questions (some "a?") rfl (by decide)
    have hnone := noneReached_of_deletesOnlyListed rfl (by decide) honly
    rw [hlisted] at hnone
    rcases hnone [] "a?x" [] rfl with ⟨object, hobject, hreading⟩ | hdup
    · rw [hread, Option.some_inj] at hreading
      exact absurd (hreading ▸ hobject) (by decide)
    · exact hdup List.nodup_nil
  · have hfound : AllFound someClient questions ["a?x"] := by
      refine ⟨List.nodup_singleton _, fun name hname => ⟨"a", by decide, ?_⟩⟩
      rw [List.mem_singleton.mp hname, hread]
    have hgone : ["a?x"].filterMap someClient.reading = ["a"] := by
      rw [filterMap_reading_cons, hread]
      rfl
    refine ⟨after (serverOf questions) (questions.remove ["a"]) [someClient.objectPath "a?x"], ?_,
      by decide⟩
    rw [clearBucket_eq rfl (Nat.le_refl 1), hlisted, List.take_of_length_le (by decide),
      deleteItems_found rfl hfound, afterFirstPage, hlisted, if_neg (by decide), hgone]
    rfl

end Yellowbox.FakeGcs.DeletedNames
