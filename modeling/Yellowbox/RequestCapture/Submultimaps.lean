import Yellowbox.RequestCapture.ScopeExpectation

/-!
`_is_submultimap_of` as an inclusion of multisets under every key: an order on
multimaps that does not see the order of the values.
-/
namespace Yellowbox.RequestCapture

open Dicts

variable {K V : Type} [DecidableEq K]

/-- The same keys, each with the same values in some order. -/
def Reordered (d d' : Dict K (List V)) : Prop :=
  ∀ k, Option.Rel List.Perm (d.get? k) (d'.get? k)

/-- `d'` is `d` with keys added, and values added anywhere under the keys it had. -/
def Enlarged (d d' : Dict K (List V)) : Prop :=
  ∀ k v, d.get? k = some v → ∃ v', d'.get? k = some v' ∧ v.Subperm v'

variable {d d' d'' : Dict K (List V)}

theorem Reordered.enlarged (h : Reordered d d') : Enlarged d d' := by
  intro k v hv
  have hrel := h k
  rw [hv] at hrel
  cases hv' : d'.get? k with
  | none =>
    rw [hv'] at hrel
    cases hrel
  | some v' =>
    rw [hv'] at hrel
    cases hrel with
    | some hperm => exact ⟨v', rfl, hperm.subperm⟩

theorem Reordered.symm (h : Reordered d d') : Reordered d' d := by
  intro k
  have hrel := h k
  generalize d.get? k = values at hrel
  generalize d'.get? k = values' at hrel
  cases hrel with
  | none => exact .none
  | some hperm => exact .some hperm.symm

variable [DecidableEq V]

theorem submultimap_refl (d : Dict K (List V)) : Submultimap d d :=
  fun _ v hv => ⟨v, hv, fun _ => Nat.le_refl _⟩

theorem Submultimap.trans (h : Submultimap d d') (h' : Submultimap d' d'') :
    Submultimap d d'' := by
  intro k v hv
  obtain ⟨v', hv', hle⟩ := h k v hv
  obtain ⟨v'', hv'', hle'⟩ := h' k v' hv'
  exact ⟨v'', hv'', fun a => Nat.le_trans (hle a) (hle' a)⟩

theorem Enlarged.submultimap (h : Enlarged d d') : Submultimap d d' := by
  intro k v hv
  obtain ⟨v', hv', hsub⟩ := h k v hv
  exact ⟨v', hv', fun a => hsub.count_le a⟩

/-- Neither map's order of values matters. -/
theorem submultimap_congr {e e' : Dict K (List V)} (h : Reordered d d') (h' : Reordered e e') :
    Submultimap d e ↔ Submultimap d' e' := by
  constructor
  · intro hsub
    exact (h.symm.enlarged.submultimap.trans hsub).trans h'.enlarged.submultimap
  · intro hsub
    exact (h.enlarged.submultimap.trans hsub).trans h'.symm.enlarged.submultimap

/-- `_is_submultimap_of` is `True` exactly for an inclusion: every key is there, and under
it every value at least as often. It is reflexive, transitive, does not depend on the order
of the values, and stays `True` when the larger map grows. -/
theorem is_submultimap_of_iff (A B C : Dict K (List V)) :
    (isSubmultimapOf A B = none ↔
      ∀ k v, A.get? k = some v → ∃ otherV, B.get? k = some otherV ∧
        ∀ a, v.count a ≤ otherV.count a) ∧
    isSubmultimapOf A A = none ∧
    (isSubmultimapOf A B = none → isSubmultimapOf B C = none → isSubmultimapOf A C = none) ∧
    (∀ A' B', Reordered A A' → Reordered B B' →
      (isSubmultimapOf A B = none ↔ isSubmultimapOf A' B' = none)) ∧
    ∀ B', Enlarged B B' → isSubmultimapOf A B = none → isSubmultimapOf A B' = none := by
  simp only [isSubmultimapOf_eq_none_iff]
  refine ⟨Iff.rfl, submultimap_refl A, Submultimap.trans, ?_, ?_⟩
  · intro A' B' hA hB
    exact submultimap_congr hA hB
  · intro B' hB hsub
    exact hsub.trans hB.submultimap

/-- The values of a key in another order, one of them more often. -/
example : isSubmultimapOf (K := ℕ) (.ofPairs [(1, ["x", "y", "x"])])
    (.ofPairs [(2, []), (1, ["y", "x", "x", "x"])]) = none := by rfl

end Yellowbox.RequestCapture
