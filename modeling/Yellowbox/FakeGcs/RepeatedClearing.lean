import Yellowbox.FakeGcs.ClearBucket

/-!
Calling `clear_bucket` or `delete_bucket(force=True)` again after it has raised. Each call
takes up the listing where the one before it stopped, so a bucket of several pages loses
one page with each call, and the call that finds the last page is the first to return.
-/
namespace Yellowbox.FakeGcs.RepeatedClearing

open Buckets ClearBucket Deletions Effects

variable {c : Client} {s : Server} {b : Bucket} {pre : Option String}

/-! ### What is left of a listing -/

/-- The bucket without the first objects of its listing. -/
def without (b : Bucket) (pre : Option String) (n : ℕ) : Bucket :=
  b.remove ((b.listed pre).take n)

theorem filter_not_mem_take {l : List String} (hnodup : l.Nodup) (n : ℕ) :
    l.filter (· ∉ l.take n) = l.drop n := by
  have hsplit : l = l.take n ++ l.drop n := (List.take_append_drop n l).symm
  have hdisjoint : ∀ name ∈ l.drop n, name ∉ l.take n := by
    rw [hsplit] at hnodup
    exact fun name hdrop htake => List.disjoint_of_nodup_append hnodup htake hdrop
  calc
    l.filter (· ∉ l.take n)
      = (l.take n).filter (· ∉ l.take n) ++ (l.drop n).filter (· ∉ l.take n) := by
        rw [← List.filter_append, ← hsplit]
    _ = [] ++ l.drop n := by
        rw [List.filter_eq_nil_iff.mpr fun name hname => by simp [hname],
          List.filter_eq_self.mpr fun name hname => decide_eq_true (hdisjoint name hname)]
    _ = l.drop n := List.nil_append _

theorem listed_without (b : Bucket) (pre : Option String) (n : ℕ) :
    (without b pre n).listed pre = (b.listed pre).drop n := by
  rw [← filter_not_mem_take (nodup_listed b pre) n]
  simp only [without, Bucket.listed, Bucket.remove, List.filter_filter]
  exact List.filter_congr fun name _ => Bool.and_comm _ _

/-- The first objects of what is left are the next ones of the listing. -/
theorem without_remove (b : Bucket) (pre : Option String) (n size : ℕ) :
    (without b pre n).remove (((b.listed pre).drop n).take size) =
      without b pre (n + size) := by
  rw [without, remove_remove, without, List.take_add]

theorem without_zero (b : Bucket) (pre : Option String) : without b pre 0 = b := by
  rw [without, List.take_zero, remove_nil]

theorem names_without_all {n : ℕ} (h : b.names.length ≤ n) : (without b none n).names = [] := by
  rw [List.eq_nil_iff_forall_not_mem]
  intro name hname
  rw [without, mem_remove, listed_none, List.take_of_length_le h] at hname
  exact hname.2 hname.1

/-! ### One call -/

/-- The server after a call of `clear_bucket`. -/
def cleared (c : Client) (rounds : ℕ) (pre : Option String) (s : Server) : Server :=
  match c.clearBucket rounds pre s with
  | .inl (_, t) | .inr (_, t) => t

section SafeNames

variable {n rounds : ℕ} (hsafe : ∀ name ∈ b.names, UrlSafe name)
include hsafe

theorem safe_without (n : ℕ) : ∀ name ∈ (without b pre n).listed pre, UrlSafe name :=
  fun name h => hsafe name (mem_remove.mp (mem_listed.mp h).1).1

/-- A call deletes the next page, and returns if no more pages follow. -/
theorem clearBucket_without (hb : s.bucket = some (without b pre n)) (hrounds : 1 ≤ rounds) :
    c.clearBucket rounds pre s = .inr
      (if n + s.pageSize < (b.listed pre).length then .error (.keyError "next_page_token")
        else .ok ((b.listed pre).drop n),
        after s (without b pre (n + s.pageSize))
          ((((b.listed pre).drop n).take s.pageSize).map c.objectPath)) := by
  by_cases hmore : n + s.pageSize < (b.listed pre).length
  · have hpage : s.pageSize < ((without b pre n).listed pre).length := by
      rw [listed_without, List.length_drop]
      omega
    rw [clearBucket_more_pages hb (safe_without hsafe n) hpage hrounds, if_pos hmore,
      listed_without, without_remove]
  · have hpage : ((without b pre n).listed pre).length ≤ s.pageSize := by
      rw [listed_without, List.length_drop]
      omega
    have hlast : ((b.listed pre).drop n).take s.pageSize = (b.listed pre).drop n := by
      rw [List.take_of_length_le]
      rwa [listed_without] at hpage
    rw [clearBucket_one_page hb (safe_without hsafe n) hpage hrounds, if_neg hmore,
      listed_without, ← without_remove, hlast]

theorem cleared_without (hb : s.bucket = some (without b pre n)) (hrounds : 1 ≤ rounds) :
    cleared c rounds pre s = after s (without b pre (n + s.pageSize))
      ((((b.listed pre).drop n).take s.pageSize).map c.objectPath) := by
  rw [cleared, clearBucket_without hsafe hb hrounds]

/-! ### Several calls -/

/-- So many calls in a row, which may raise, delete so many pages. -/
theorem iterate_cleared (hb : s.bucket = some b) (hrounds : 1 ≤ rounds) (calls : ℕ) :
    (cleared c rounds pre)^[calls] s = after s (without b pre (calls * s.pageSize))
      (((b.listed pre).take (calls * s.pageSize)).map c.objectPath) := by
  induction calls with
  | zero =>
    rw [Nat.zero_mul, without_zero, List.take_zero, List.map_nil, after_self hb]
    rfl
  | succ calls ih =>
    rw [Function.iterate_succ_apply', ih, cleared_without hsafe rfl hrounds, after_after,
      ← List.map_append]
    change after s (without b pre (calls * s.pageSize + s.pageSize))
      ((List.take (calls * s.pageSize) (b.listed pre) ++
        List.take s.pageSize (List.drop (calls * s.pageSize) (b.listed pre))).map c.objectPath) = _
    rw [← List.take_add, Nat.succ_mul]

/-- `delete_bucket` by force is as far as `clear_bucket` until the bucket is empty. -/
theorem deleteBucket_without (hb : s.bucket = some (without b none n)) (hrounds : 1 ≤ rounds)
    (missingOk : Bool) :
    let t := after s (without b none (n + s.pageSize))
      (((b.names.drop n).take s.pageSize).map c.objectPath)
    c.deleteBucket rounds true missingOk s = some
      (if n + s.pageSize < b.names.length then (.error (.keyError "next_page_token"), t)
        else (.ok (), { t with bucket := none })) := by
  rw [Client.deleteBucket]
  simp only [if_true, clearBucket_without hsafe hb hrounds, listed_none]
  by_cases hmore : n + s.pageSize < b.names.length
  · simp only [if_pos hmore, Client.unlessMissing]
  · have hempty : (without b none (n + s.pageSize)).names = [] :=
      names_without_all (Nat.le_of_not_lt hmore)
    simp only [if_neg hmore, requestBucketDeletion, after, hempty, if_true]

end SafeNames

/-- After any number of calls the first so many pages are gone, each object by one request,
and nothing else; the call that finds the last page returns its names, all calls before it
raise. `delete_bucket` by force goes on from there, and deletes the bucket when the last
page is gone. -/
theorem clear_bucket_resumes (c : Client) {s : Server} {b : Bucket} (hb : s.bucket = some b)
    (hsafe : ∀ name ∈ b.names, UrlSafe name) (pre : Option String) {rounds : ℕ}
    (hrounds : 1 ≤ rounds) (calls : ℕ) :
    (cleared c rounds pre)^[calls] s =
      after s (b.remove ((b.listed pre).take (calls * s.pageSize)))
        (((b.listed pre).take (calls * s.pageSize)).map c.objectPath) ∧
    (∃ t, c.clearBucket rounds pre ((cleared c rounds pre)^[calls] s) = .inr
      (if (calls + 1) * s.pageSize < (b.listed pre).length then .error (.keyError "next_page_token")
        else .ok ((b.listed pre).drop (calls * s.pageSize)), t)) ∧
    ∀ missingOk, ∃ t,
      c.deleteBucket rounds true missingOk ((cleared c rounds none)^[calls] s) = some
        (if (calls + 1) * s.pageSize < b.names.length then .error (.keyError "next_page_token")
          else .ok (), t) ∧
      ((calls + 1) * s.pageSize < b.names.length ∨ t.bucket = none) := by
  have hcalls : ∀ pre, (cleared c rounds pre)^[calls] s =
      after s (without b pre (calls * s.pageSize))
        (((b.listed pre).take (calls * s.pageSize)).map c.objectPath) :=
    fun pre => iterate_cleared hsafe hb hrounds calls
  refine ⟨hcalls pre, ?_, fun missingOk => ?_⟩
  · rw [hcalls, clearBucket_without hsafe rfl hrounds, Nat.succ_mul]
    exact ⟨_, rfl⟩
  · have hleft : ((cleared c rounds none)^[calls] s).bucket =
        some (without b none (calls * s.pageSize)) := by
      rw [hcalls]
      rfl
    have hsize : ((cleared c rounds none)^[calls] s).pageSize = s.pageSize := by
      rw [hcalls]
      rfl
    have hdelete := deleteBucket_without (c := c) hsafe hleft hrounds missingOk
    simp only [hsize, ← Nat.succ_mul] at hdelete
    by_cases hmore : (calls + 1) * s.pageSize < b.names.length
    · rw [if_pos hmore] at hdelete ⊢
      exact ⟨_, hdelete, Or.inl hmore⟩
    · rw [if_neg hmore] at hdelete ⊢
      exact ⟨_, hdelete, Or.inr rfl⟩

/-- The second call is the first to return. -/
theorem clear_bucket_resumes_two :
    (cleared someClient 1 none)^[1] smallPages =
      after smallPages (twoObjects.remove ((twoObjects.listed none).take (1 * 1)))
        (((twoObjects.listed none).take (1 * 1)).map someClient.objectPath) ∧
    (∃ t, someClient.clearBucket 1 none ((cleared someClient 1 none)^[1] smallPages) = .inr
      (if (1 + 1) * 1 < (twoObjects.listed none).length then .error (.keyError "next_page_token")
        else .ok ((twoObjects.listed none).drop (1 * 1)), t)) ∧
    ∀ missingOk, ∃ t,
      someClient.deleteBucket 1 true missingOk ((cleared someClient 1 none)^[1] smallPages) = some
        (if (1 + 1) * 1 < twoObjects.names.length then .error (.keyError "next_page_token")
          else .ok (), t) ∧
      ((1 + 1) * 1 < twoObjects.names.length ∨ t.bucket = none) :=
  clear_bucket_resumes someClient rfl (by decide) none (Nat.le_refl 1) 1

end Yellowbox.FakeGcs.RepeatedClearing
