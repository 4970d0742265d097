import Yellowbox.Base.Dicts

/-!
Pairs that are written to a `dict` one after the other, a later value of a key over an
earlier one. If no key comes with two values, their order does not matter; otherwise
each of the two values stays in some order.
-/
namespace Yellowbox.Dicts

variable {K V β : Type*}

/-- No key comes with two values. -/
def SingleValued (pairs : List (K × V)) : Prop :=
  ∀ ⦃k : K⦄ ⦃v w : V⦄, (k, v) ∈ pairs → (k, w) ∈ pairs → v = w

theorem SingleValued.of_perm {pairs pairs' : List (K × V)} (h : SingleValued pairs)
    (hperm : pairs'.Perm pairs) : SingleValued pairs' := fun _ _ _ hv hw =>
  h (hperm.mem_iff.mp hv) (hperm.mem_iff.mp hw)

/-- Any element can be the last one. -/
theorem exists_perm_concat {l : List β} {a : β} (h : a ∈ l) : ∃ l', (l' ++ [a]).Perm l := by
  obtain ⟨before, later, rfl⟩ := List.append_of_mem h
  refine ⟨before ++ later, ?_⟩
  rw [List.append_assoc]
  exact (List.perm_append_singleton a later).append_left before

namespace Dict

variable [DecidableEq K]

theorem get?_ofPairs_concat (pairs : List (K × V)) (k : K) (v : V) :
    (ofPairs (pairs ++ [(k, v)])).get? k = some v := by
  rw [ofPairs, List.foldl_append]
  exact get?_set_self _ k v

theorem get?_ofPairs_eq_some_iff {pairs : List (K × V)} (h : SingleValued pairs) {k : K} {v : V} :
    (ofPairs pairs).get? k = some v ↔ (k, v) ∈ pairs := by
  constructor
  · exact mem_of_get?_ofPairs
  · intro hv
    have hkey : k ∈ (ofPairs pairs).keys := mem_keys_ofPairs.mpr (List.mem_map_of_mem hv)
    obtain ⟨w, hw⟩ := mem_keys_iff.mp hkey
    rw [hw, h (mem_of_get?_ofPairs hw) hv]

/-- Equal dicts give every key the same value. -/
theorem eqBy_beq_iff [DecidableEq V] {d d' : Dict K V} :
    eqBy (· == ·) d d' = true ↔ ∀ k, d.get? k = d'.get? k := by
  rw [eqBy_iff]
  constructor
  · rintro ⟨hvalues, hkeys⟩ k
    cases hk : d.get? k with
    | some v =>
      obtain ⟨w, hw, heq⟩ := hvalues k v hk
      rw [hw, eq_of_beq heq]
    | none =>
      cases hk' : d'.get? k with
      | none => rfl
      | some w =>
        obtain ⟨v, hv⟩ := mem_keys_iff.mp (hkeys k (mem_keys_iff.mpr ⟨w, hk'⟩))
        rw [hk] at hv
        cases hv
  · intro h
    refine ⟨fun k v hk => ⟨v, h k ▸ hk, beq_self_eq_true v⟩, fun k hk => ?_⟩
    obtain ⟨w, hw⟩ := mem_keys_iff.mp hk
    exact mem_keys_iff.mpr ⟨w, (h k).trans hw⟩

variable {f : β → Option (K × V)} {l : List β}

/-- Each value of a key is the one that stays in some order. -/
theorem exists_perm_get?_ofPairs {k : K} {v : V} (h : (k, v) ∈ l.filterMap f) :
    ∃ l' : List β, l'.Perm l ∧ (ofPairs (l'.filterMap f)).get? k = some v := by
  obtain ⟨a, ha, hfa⟩ := List.mem_filterMap.mp h
  obtain ⟨l', hperm⟩ := exists_perm_concat ha
  refine ⟨_, hperm, ?_⟩
  rw [List.filterMap_append, List.filterMap_cons_some hfa]
  exact get?_ofPairs_concat _ k v

/-- Whatever the pairs are read from, the `dict` is the same for all its orders exactly
when no key comes with two values. -/
theorem ofPairs_perm_iff :
    (∀ l' : List β, l'.Perm l →
      ∀ k, (ofPairs (l'.filterMap f)).get? k = (ofPairs (l.filterMap f)).get? k) ↔
        SingleValued (l.filterMap f) := by
  constructor
  · intro h k v w hv hw
    obtain ⟨l', hperm, hlast⟩ := exists_perm_get?_ofPairs hv
    obtain ⟨l'', hperm', hlast'⟩ := exists_perm_get?_ofPairs hw
    rw [h l' hperm k] at hlast
    rw [h l'' hperm' k, hlast] at hlast'
    exact Option.some_inj.mp hlast'
  · intro h l' hperm k
    have hpairs : (l'.filterMap f).Perm (l.filterMap f) := hperm.filterMap f
    apply Option.ext
    intro v
    rw [get?_ofPairs_eq_some_iff h, get?_ofPairs_eq_some_iff (h.of_perm hpairs), hpairs.mem_iff]

end Dict

end Yellowbox.Dicts
