import Mathlib.Data.List.Forall2
import Mathlib.Data.List.NodupEquivFin
import Mathlib.Tactic.Common

/-!
Items that are matched by distinct items of another list, in order. Taking the first
item that matches is never a mistake, whatever else it would have matched.
-/
namespace Yellowbox.OrderedMatch

open List

variable {α β : Type*} {R : α → β → Prop} {a : α} {b : β} {as : List α} {bs : List β}

theorem sublistForall₂_tail (h : SublistForall₂ R (a :: as) bs) : SublistForall₂ R as bs := by
  obtain ⟨l, hmatch, hsub⟩ := sublistForall₂_iff.mp h
  cases hmatch with
  | cons hab hrest =>
    exact sublistForall₂_iff.mpr ⟨_, hrest, (sublist_cons_self _ _).trans hsub⟩

/-- An item that matches the first of the others may be matched with it. -/
theorem sublistForall₂_cons_of_match (h : R a b) :
    SublistForall₂ R (a :: as) (b :: bs) ↔ SublistForall₂ R as bs := by
  constructor
  · intro hmatch
    cases hmatch with
    | cons _ hrest => exact hrest
    | cons_right hrest => exact sublistForall₂_tail hrest
  · exact .cons h

theorem sublistForall₂_cons_of_not (h : ¬ R a b) :
    SublistForall₂ R (a :: as) (b :: bs) ↔ SublistForall₂ R (a :: as) bs := by
  constructor
  · intro hmatch
    cases hmatch with
    | cons hab _ => exact absurd hab h
    | cons_right hrest => exact hrest
  · exact .cons_right

theorem not_sublistForall₂_nil : ¬ SublistForall₂ R (a :: as) [] := by
  intro h
  cases h

theorem length_le_of_sublistForall₂ (h : SublistForall₂ R as bs) : as.length ≤ bs.length := by
  obtain ⟨l, hmatch, hsub⟩ := sublistForall₂_iff.mp h
  rw [hmatch.length_eq]
  exact hsub.length_le

theorem sublistForall₂_mono {bs' : List β} (hsub : bs <+ bs') (h : SublistForall₂ R as bs) :
    SublistForall₂ R as bs' := by
  obtain ⟨l, hmatch, hl⟩ := sublistForall₂_iff.mp h
  exact sublistForall₂_iff.mpr ⟨l, hmatch, hl.trans hsub⟩

/-- The matching items stand at increasing indices. -/
theorem sublistForall₂_iff_indices : SublistForall₂ R as bs ↔
    ∃ index : Fin as.length → Fin bs.length, StrictMono index ∧
      ∀ j, R (as.get j) (bs.get (index j)) := by
  rw [sublistForall₂_iff]
  constructor
  · rintro ⟨l, hmatch, hsub⟩
    obtain ⟨hlength, hget⟩ := forall₂_iff_get.mp hmatch
    obtain ⟨f, hf⟩ := sublist_iff_exists_fin_orderEmbedding_get_eq.mp hsub
    refine ⟨fun j => f (j.cast hlength), fun i j hij => f.strictMono hij, ?_⟩
    intro j
    rw [← hf]
    exact hget j j.isLt (hlength ▸ j.isLt)
  · rintro ⟨index, hmono, hget⟩
    refine ⟨ofFn fun j => bs.get (index j), ?_, ?_⟩
    · rw [forall₂_iff_get]
      refine ⟨(length_ofFn).symm, ?_⟩
      intro i hi hi'
      rw [get_ofFn]
      exact hget ⟨i, hi⟩
    · rw [sublist_iff_exists_fin_orderEmbedding_get_eq]
      let cast : Fin (ofFn fun j => bs.get (index j)).length → Fin as.length :=
        Fin.cast length_ofFn
      refine ⟨OrderEmbedding.ofStrictMono (fun j => index (cast j)) fun i j hij => hmono hij, ?_⟩
      intro j
      rw [get_ofFn]
      rfl

end Yellowbox.OrderedMatch
