import Mathlib.Data.List.Nodup

/-!
A bounded cache that forgets what was used least recently, as in Python's
`functools.lru_cache`. What is stored for a key is whatever the function gave
when it was last called for that key.
-/
namespace Yellowbox.LruCache

variable {κ α : Type} [DecidableEq κ] {maxsize : ℕ}

/-- The stored results, most recently used first, at most one for a key. -/
structure Cache (κ α : Type) (maxsize : ℕ) where
  entries : List (κ × α)
  nodup : (entries.map Prod.fst).Nodup
  bounded : entries.length ≤ maxsize

section Lookup

variable {l : List (κ × α)} {k : κ} {a : α}

theorem mem_of_lookup (h : l.lookup k = some a) : (k, a) ∈ l := by
  obtain ⟨pre, post, hsplit, -⟩ := List.lookup_eq_some_iff.mp h
  rw [hsplit]
  exact List.mem_append_right _ (List.mem_cons_self ..)

theorem lookup_of_mem (hnodup : (l.map Prod.fst).Nodup) (h : (k, a) ∈ l) :
    l.lookup k = some a := by
  induction l with
  | nil => cases h
  | cons p l ih =>
    obtain ⟨hp, hl⟩ := List.nodup_cons.mp hnodup
    rcases List.mem_cons.mp h with rfl | hmem
    · simp
    · have hne : k ≠ p.1 := by
        intro hk
        apply hp
        rw [← hk]
        exact List.mem_map_of_mem hmem
      rw [List.lookup_cons, beq_false_of_ne hne]
      exact ih hl hmem

end Lookup

namespace Cache

def empty : Cache κ α maxsize := ⟨[], List.nodup_nil, Nat.zero_le _⟩

def find (cache : Cache κ α maxsize) (k : κ) : Option α := cache.entries.lookup k

/-- `k` moves to the front with `a`, and the last entry falls out when there is no
room for it. -/
def use (cache : Cache κ α maxsize) (k : κ) (a : α) : Cache κ α maxsize where
  entries := ((k, a) :: cache.entries.filter fun entry => entry.1 ≠ k).take maxsize
  nodup := by
    apply List.Nodup.sublist (List.Sublist.map _ (List.take_sublist ..))
    apply List.nodup_cons.mpr ⟨?_, ?_⟩
    · simp
    · exact cache.nodup.sublist (List.Sublist.map _ List.filter_sublist)
  bounded := by
    rw [List.length_take]
    exact Nat.min_le_left _ _

theorem find_mem {cache : Cache κ α maxsize} {k : κ} {a : α} (h : cache.find k = some a) :
    (k, a) ∈ cache.entries := mem_of_lookup h

/-- What holds of every stored result and of the one being stored keeps holding. -/
theorem forall_use {P : κ → α → Prop} {cache : Cache κ α maxsize} {k : κ} {a : α}
    (hcache : ∀ entry ∈ cache.entries, P entry.1 entry.2) (ha : P k a) :
    ∀ entry ∈ (cache.use k a).entries, P entry.1 entry.2 := by
  intro entry hentry
  rcases List.mem_cons.mp (List.mem_of_mem_take hentry) with rfl | hold
  · exact ha
  · exact hcache entry (List.mem_of_mem_filter hold)

end Cache

end Yellowbox.LruCache
