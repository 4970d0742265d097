import Mathlib.Data.List.Nodup
import Mathlib.Data.List.Perm.Subperm
import Mathlib.Tactic.Common

/-!
Python's `dict`: entries in order of insertion with distinct keys. Two of them are
equal when they have the same keys with equal values, in whatever order.
-/
namespace Yellowbox.Dicts

variable {K V W : Type*}

structure Dict (K V : Type*) where
  entries : List (K × V)
  nodup : (entries.map Prod.fst).Nodup

/-- The entries after `d[k] = v`: an old key keeps its place, a new one comes last. -/
def setEntry [DecidableEq K] (k : K) (v : V) : List (K × V) → List (K × V)
  | [] => [(k, v)]
  | entry :: entries =>
    if entry.1 = k then (k, v) :: entries else entry :: setEntry k v entries

theorem mem_keys_setEntry [DecidableEq K] {k k' : K} {v : V} {entries : List (K × V)} :
    k' ∈ (setEntry k v entries).map Prod.fst ↔ k' = k ∨ k' ∈ entries.map Prod.fst := by
  induction entries with
  | nil => simp [setEntry]
  | cons entry entries ih =>
    rw [setEntry]
    split
    · rename_i heq
      simp [heq]
    · rw [List.map_cons, List.mem_cons, ih, List.map_cons, List.mem_cons]
      tauto

theorem nodup_setEntry [DecidableEq K] (k : K) (v : V) {entries : List (K × V)}
    (h : (entries.map Prod.fst).Nodup) : ((setEntry k v entries).map Prod.fst).Nodup := by
  induction entries with
  | nil => simp [setEntry]
  | cons entry entries ih =>
    obtain ⟨hnot, hnodup⟩ := List.nodup_cons.mp h
    rw [setEntry]
    split
    · rename_i heq
      subst heq
      exact h
    · rename_i hne
      apply List.nodup_cons.mpr
      refine ⟨?_, ih hnodup⟩
      rw [mem_keys_setEntry]
      rintro (heq | hmem)
      · exact hne heq
      · exact hnot hmem

theorem setEntry_of_not_mem [DecidableEq K] {k : K} {entries : List (K × V)}
    (h : k ∉ entries.map Prod.fst) (v : V) : setEntry k v entries = entries ++ [(k, v)] := by
  induction entries with
  | nil => rfl
  | cons entry entries ih =>
    rw [List.map_cons, List.mem_cons, not_or] at h
    rw [setEntry, if_neg (Ne.symm h.1), ih h.2, List.cons_append]

theorem setEntry_append_cons [DecidableEq K] {k : K} {before : List (K × V)}
    (h : k ∉ before.map Prod.fst) (old v : V) (later : List (K × V)) :
    setEntry k v (before ++ (k, old) :: later) = before ++ (k, v) :: later := by
  induction before with
  | nil => exact if_pos rfl
  | cons entry before ih =>
    rw [List.map_cons, List.mem_cons, not_or] at h
    rw [List.cons_append, setEntry, if_neg (Ne.symm h.1), ih h.2, List.cons_append]

theorem filter_ne_of_not_mem [DecidableEq K] {k : K} {entries : List (K × V)}
    (h : k ∉ entries.map Prod.fst) : entries.filter (fun entry => entry.1 ≠ k) = entries := by
  refine List.filter_eq_self.mpr fun entry hentry => decide_eq_true fun heq => h ?_
  exact heq ▸ List.mem_map_of_mem hentry

namespace Dict

def empty : Dict K V := ⟨[], List.nodup_nil⟩

/-- `{k: f(v) for k, v in d.items()}` -/
def mapValues (f : V → W) (d : Dict K V) : Dict K W :=
  ⟨d.entries.map fun entry => (entry.1, f entry.2), by
    rw [List.map_map]
    exact d.nodup⟩

def keys (d : Dict K V) : List K := d.entries.map Prod.fst

def set [DecidableEq K] (d : Dict K V) (k : K) (v : V) : Dict K V :=
  ⟨setEntry k v d.entries, nodup_setEntry k v d.nodup⟩

/-- `del d[k]`, for a key that is there. -/
def erase [DecidableEq K] (d : Dict K V) (k : K) : Dict K V :=
  ⟨d.entries.filter fun entry => entry.1 ≠ k, d.nodup.sublist (List.filter_sublist.map _)⟩

/-- `{k: v for k, v in pairs}` -/
def ofPairs [DecidableEq K] (pairs : List (K × V)) : Dict K V :=
  pairs.foldl (fun d pair => d.set pair.1 pair.2) empty

/-- `d.update(d')` -/
def update [DecidableEq K] (d d' : Dict K V) : Dict K V :=
  d'.entries.foldl (fun d entry => d.set entry.1 entry.2) d

/-- `d.get(k)` -/
def get? [DecidableEq K] (d : Dict K V) (k : K) : Option V := d.entries.lookup k

/-- `d == d'`, when `eq` compares the values. -/
def eqBy [DecidableEq K] (eq : V → W → Bool) (d : Dict K V) (d' : Dict K W) : Bool :=
  d.entries.length == d'.entries.length &&
    d.entries.all fun entry => (d'.get? entry.1).any (eq entry.2)

variable [DecidableEq K]

theorem mem_entries_iff {d : Dict K V} {k : K} {v : V} :
    (k, v) ∈ d.entries ↔ d.get? k = some v := by
  obtain ⟨entries, hnodup⟩ := d
  show (k, v) ∈ entries ↔ entries.lookup k = some v
  induction entries with
  | nil => simp
  | cons entry entries ih =>
    obtain ⟨k', v'⟩ := entry
    obtain ⟨hnot, hnodup⟩ := List.nodup_cons.mp hnodup
    rw [List.lookup_cons, List.mem_cons]
    by_cases heq : k = k'
    · subst heq
      have hmem : (k, v) ∉ entries := fun h => hnot (List.mem_map.mpr ⟨(k, v), h, rfl⟩)
      simp [hmem, eq_comm]
    · have hbeq : (k == k') = false := beq_eq_false_iff_ne.mpr heq
      rw [hbeq]
      simp [heq, ih hnodup]

theorem mem_keys_iff {d : Dict K V} {k : K} : k ∈ d.keys ↔ ∃ v, d.get? k = some v := by
  constructor
  · intro h
    obtain ⟨⟨k', v⟩, hmem, heq⟩ := List.mem_map.mp h
    cases heq
    exact ⟨v, mem_entries_iff.mp hmem⟩
  · rintro ⟨v, hv⟩
    exact List.mem_map_of_mem (mem_entries_iff.mpr hv)

theorem entries_set_of_not_mem {d : Dict K V} {k : K} (h : k ∉ d.keys) (v : V) :
    (d.set k v).entries = d.entries ++ [(k, v)] := setEntry_of_not_mem h v

theorem erase_of_not_mem {d : Dict K V} {k : K} (h : k ∉ d.keys) : d.erase k = d := by
  obtain ⟨entries, hnodup⟩ := d
  simp only [erase, filter_ne_of_not_mem h]

/-- Deleting a key that was new gives back the entries in the same order. -/
theorem erase_set_of_not_mem {d : Dict K V} {k : K} (h : k ∉ d.keys) (v : V) :
    (d.set k v).erase k = d := by
  have hentries := entries_set_of_not_mem h v
  obtain ⟨entries, hnodup⟩ := d
  simp only [erase, mk.injEq, hentries]
  rw [List.filter_append, filter_ne_of_not_mem h, List.filter_cons_of_neg (by simp)]
  exact List.append_nil _

theorem mem_keys_erase {d : Dict K V} {k k' : K} :
    k' ∈ (d.erase k).keys ↔ k' ∈ d.keys ∧ k' ≠ k := by
  simp only [keys, erase, List.mem_map, List.mem_filter, decide_eq_true_eq]
  constructor
  · rintro ⟨entry, ⟨hmem, hne⟩, rfl⟩
    exact ⟨⟨entry, hmem, rfl⟩, hne⟩
  · rintro ⟨⟨entry, hmem, rfl⟩, hne⟩
    exact ⟨entry, ⟨hmem, hne⟩, rfl⟩

/-- A new value for a key stands where the old one stood, and without the key the other
entries stay in their order. -/
theorem split_of_mem_keys {d : Dict K V} {k : K} (h : k ∈ d.keys) :
    ∃ before old later, d.entries = before ++ (k, old) :: later ∧
      (∀ v, (d.set k v).entries = before ++ (k, v) :: later) ∧
      (d.erase k).entries = before ++ later := by
  obtain ⟨⟨k', old⟩, hmem, rfl⟩ := List.mem_map.mp h
  obtain ⟨before, later, hentries⟩ := List.append_of_mem hmem
  have hnodup := d.nodup
  rw [hentries, List.map_append, List.map_cons, List.nodup_middle, List.nodup_cons,
    List.mem_append, not_or] at hnodup
  obtain ⟨⟨hbefore, hlater⟩, -⟩ := hnodup
  refine ⟨before, old, later, hentries, fun v => ?_, ?_⟩
  · change setEntry k' v d.entries = _
    rw [hentries, setEntry_append_cons hbefore]
  · change d.entries.filter (fun entry => entry.1 ≠ k') = _
    rw [hentries, List.filter_append, List.filter_cons_of_neg (by simp),
      filter_ne_of_not_mem hbefore, filter_ne_of_not_mem hlater]

theorem get?_set_self (d : Dict K V) (k : K) (v : V) : (d.set k v).get? k = some v := by
  apply mem_entries_iff.mp
  obtain ⟨entries, hnodup⟩ := d
  show (k, v) ∈ setEntry k v entries
  induction entries with
  | nil => exact List.mem_singleton_self _
  | cons entry entries ih =>
    rw [setEntry]
    split
    · exact List.mem_cons_self
    · exact List.mem_cons_of_mem _ (ih (List.nodup_cons.mp hnodup).2)

theorem get?_set_of_ne (d : Dict K V) {k k' : K} (h : k' ≠ k) (v : V) :
    (d.set k v).get? k' = d.get? k' := by
  obtain ⟨entries, hnodup⟩ := d
  show (setEntry k v entries).lookup k' = entries.lookup k'
  have hbeq : (k' == k) = false := beq_eq_false_iff_ne.mpr h
  induction entries with
  | nil => simp [setEntry, List.lookup_cons, hbeq]
  | cons entry entries ih =>
    rw [setEntry]
    split
    · rename_i heq
      rw [List.lookup_cons, List.lookup_cons, heq, hbeq]
    · rw [List.lookup_cons, List.lookup_cons, ih (List.nodup_cons.mp hnodup).2]

theorem get?_erase_of_ne (d : Dict K V) {k k' : K} (h : k' ≠ k) :
    (d.erase k).get? k' = d.get? k' := by
  apply Option.ext
  intro v
  simp only [← mem_entries_iff, erase, List.mem_filter, decide_eq_true_eq]
  exact and_iff_left h

theorem mem_keys_ofPairs {pairs : List (K × V)} {k : K} :
    k ∈ (ofPairs pairs).keys ↔ k ∈ pairs.map Prod.fst := by
  have hfold : ∀ (d : Dict K V) (rest : List (K × V)),
      k ∈ (rest.foldl (fun d pair => d.set pair.1 pair.2) d).keys ↔
        k ∈ d.keys ∨ k ∈ rest.map Prod.fst := by
    intro d rest
    induction rest generalizing d with
    | nil => simp
    | cons pair rest ih =>
      have hset : k ∈ (d.set pair.1 pair.2).keys ↔ k = pair.1 ∨ k ∈ d.keys := mem_keys_setEntry
      rw [List.foldl_cons, ih, hset, List.map_cons, List.mem_cons]
      tauto
  rw [ofPairs, hfold]
  simp [empty, keys]

theorem entries_foldl_set {d : Dict K V} {pairs : List (K × V)}
    (h : (d.keys ++ pairs.map Prod.fst).Nodup) :
    (pairs.foldl (fun d pair => d.set pair.1 pair.2) d).entries = d.entries ++ pairs := by
  induction pairs generalizing d with
  | nil => exact (List.append_nil _).symm
  | cons pair pairs ih =>
    have hnew : pair.1 ∉ d.entries.map Prod.fst := by
      intro hmem
      exact (List.disjoint_of_nodup_append h) hmem List.mem_cons_self
    have hset : (d.set pair.1 pair.2).entries = d.entries ++ [pair] := setEntry_of_not_mem hnew _
    rw [List.foldl_cons, ih, hset, List.append_assoc, List.singleton_append]
    rw [keys, hset, List.map_append, List.append_assoc]
    exact h

/-- Pairs with distinct keys are the entries, in their order. -/
theorem entries_ofPairs {pairs : List (K × V)} (h : (pairs.map Prod.fst).Nodup) :
    (ofPairs pairs).entries = pairs :=
  entries_foldl_set h

theorem ofPairs_entries (d : Dict K V) : ofPairs d.entries = d := by
  have hentries := entries_ofPairs d.nodup
  generalize ofPairs d.entries = d' at hentries
  cases d
  cases d'
  cases hentries
  rfl

theorem mem_of_get?_ofPairs {pairs : List (K × V)} {k : K} {v : V}
    (h : (ofPairs pairs).get? k = some v) : (k, v) ∈ pairs := by
  have hfold : ∀ (d : Dict K V) (rest : List (K × V)),
      (rest.foldl (fun d pair => d.set pair.1 pair.2) d).get? k = some v →
        d.get? k = some v ∨ (k, v) ∈ rest := by
    intro d rest
    induction rest generalizing d with
    | nil => exact Or.inl
    | cons pair rest ih =>
      intro hrest
      rcases ih _ hrest with hset | hmem
      · by_cases hk : k = pair.1
        · subst hk
          rw [get?_set_self, Option.some_inj] at hset
          exact Or.inr (hset ▸ List.mem_cons_self)
        · rw [get?_set_of_ne _ hk] at hset
          exact Or.inl hset
      · exact Or.inr (List.mem_cons_of_mem _ hmem)
  exact (hfold empty pairs h).resolve_left fun hempty => by cases hempty

theorem entries_update {d d' : Dict K V} (h : List.Disjoint d.keys d'.keys) :
    (d.update d').entries = d.entries ++ d'.entries :=
  entries_foldl_set (List.nodup_append'.mpr ⟨d.nodup, d'.nodup, h⟩)

/-- Equal dicts: what one binds, the other binds to an equal value, and they have the
same keys. -/
theorem eqBy_iff {eq : V → W → Bool} {d : Dict K V} {d' : Dict K W} :
    eqBy eq d d' = true ↔
      (∀ k v, d.get? k = some v → ∃ w, d'.get? k = some w ∧ eq v w = true) ∧
        ∀ k, k ∈ d'.keys → k ∈ d.keys := by
  have hall : (d.entries.all fun entry => (d'.get? entry.1).any (eq entry.2)) = true ↔
      ∀ k v, d.get? k = some v → ∃ w, d'.get? k = some w ∧ eq v w = true := by
    rw [List.all_eq_true]
    constructor
    · intro h k v hkv
      exact (Option.any_eq_true _ _).mp (h (k, v) (mem_entries_iff.mpr hkv))
    · rintro h ⟨k, v⟩ hmem
      exact (Option.any_eq_true _ _).mpr (h k v (mem_entries_iff.mp hmem))
  rw [eqBy, Bool.and_eq_true, beq_iff_eq, hall, and_comm]
  apply and_congr_right
  intro hbound
  have hsubset : d.keys ⊆ d'.keys := by
    intro k hk
    obtain ⟨v, hv⟩ := mem_keys_iff.mp hk
    obtain ⟨w, hw, -⟩ := hbound k v hv
    exact mem_keys_iff.mpr ⟨w, hw⟩
  have hsubperm : d.keys.Subperm d'.keys := List.subperm_of_subset d.nodup hsubset
  have hlength : d.entries.length = d'.entries.length ↔ d.keys.length = d'.keys.length := by
    simp only [keys, List.length_map]
  rw [hlength]
  constructor
  · intro heq k hk
    exact (hsubperm.perm_of_length_le (Nat.le_of_eq heq.symm)).mem_iff.mpr hk
  · intro hback
    have hperm : d.keys.Perm d'.keys := (List.perm_ext_iff_of_nodup d.nodup d'.nodup).mpr
      fun k => ⟨fun hk => hsubset hk, hback k⟩
    exact hperm.length_eq

end Dict

end Yellowbox.Dicts
