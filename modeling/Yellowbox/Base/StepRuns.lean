import Mathlib.Logic.Function.Basic
import Mathlib.Tactic.Common

/-!
Finite runs of a deterministic step function that takes an input and gives an
observation. A run is driven by its list of inputs; every interleaving of
several parties is such a list. The rules here carry an invariant along a run,
read off what a run observed, and project a run to a coarser step function.
-/
namespace Yellowbox.StepRuns

variable {S I O : Type*}

/-- The state after a list of inputs. -/
def exec (step : S → I → S × O) : S → List I → S
  | s, [] => s
  | s, i :: is => exec step (step s i).1 is

/-- Every input of a run with what its step observed. -/
def trace (step : S → I → S × O) : S → List I → List (I × O)
  | _, [] => []
  | s, i :: is => (i, (step s i).2) :: trace step (step s i).1 is

/-- Every step of the run meets `P`, read in the state before that step. -/
def Along (step : S → I → S × O) (P : S → I → Prop) : S → List I → Prop
  | _, [] => True
  | s, i :: is => P s i ∧ Along step P (step s i).1 is

instance (step : S → I → S × O) (P : S → I → Prop) [∀ s i, Decidable (P s i)] :
    ∀ (s : S) (is : List I), Decidable (Along step P s is)
  | _, [] => isTrue trivial
  | s, i :: is =>
    have := instDecidableAlong step P (step s i).1 is
    inferInstanceAs (Decidable (P s i ∧ Along step P (step s i).1 is))

/-- What the steps of a run show of it: one entry for each step `view` sees. -/
def visible {J : Type*} (step : S → I → S × O) (view : S → I → Option J) :
    S → List I → List J
  | _, [] => []
  | s, i :: is =>
    match view s i with
    | none => visible step view (step s i).1 is
    | some j => j :: visible step view (step s i).1 is

variable (step : S → I → S × O)

@[simp] theorem exec_nil (s : S) : exec step s [] = s := rfl

@[simp] theorem exec_cons (s : S) (i : I) (is : List I) :
    exec step s (i :: is) = exec step (step s i).1 is := rfl

@[simp] theorem trace_nil (s : S) : trace step s [] = [] := rfl

@[simp] theorem trace_cons (s : S) (i : I) (is : List I) :
    trace step s (i :: is) = (i, (step s i).2) :: trace step (step s i).1 is := rfl

@[simp] theorem along_nil (P : S → I → Prop) (s : S) : Along step P s [] := trivial

@[simp] theorem along_cons (P : S → I → Prop) (s : S) (i : I) (is : List I) :
    Along step P s (i :: is) ↔ P s i ∧ Along step P (step s i).1 is := Iff.rfl

theorem exec_append (s : S) (is js : List I) :
    exec step s (is ++ js) = exec step (exec step s is) js := by
  induction is generalizing s with
  | nil => rfl
  | cons i is ih => exact ih (step s i).1

theorem along_append (P : S → I → Prop) (s : S) (is js : List I) :
    Along step P s (is ++ js) ↔ Along step P s is ∧ Along step P (exec step s is) js := by
  induction is generalizing s with
  | nil => simp
  | cons i is ih =>
    simp only [List.cons_append, along_cons, exec_cons, ih, and_assoc]

/-- The condition of a run, read at each of its steps. -/
theorem along_iff {P : S → I → Prop} {s : S} {is : List I} :
    Along step P s is ↔ ∀ pre i post, is = pre ++ i :: post → P (exec step s pre) i := by
  constructor
  · rintro h pre i post rfl
    exact ((along_append step P s pre (i :: post)).mp h).2.1
  · intro h
    induction is generalizing s with
    | nil => trivial
    | cons i is ih =>
      refine ⟨h [] i is rfl, ih ?_⟩
      rintro pre j post rfl
      exact h (i :: pre) j post rfl

theorem along_of_forall {P : S → I → Prop} (s : S) {is : List I} (h : ∀ i ∈ is, ∀ s, P s i) :
    Along step P s is := by
  induction is generalizing s with
  | nil => trivial
  | cons i is ih =>
    exact ⟨h i (List.mem_cons_self ..) s,
      ih (step s i).1 (fun j hj => h j (List.mem_cons_of_mem i hj))⟩

/-- Invariant rule for runs whose steps all meet a condition. -/
theorem exec_invariant_along (P : S → I → Prop) (Inv : S → Prop)
    (hstep : ∀ s i, P s i → Inv s → Inv (step s i).1)
    {s : S} {is : List I} (hrun : Along step P s is) (hs : Inv s) :
    Inv (exec step s is) := by
  induction is generalizing s with
  | nil => exact hs
  | cons i is ih => exact ih hrun.2 (hstep s i hrun.1 hs)

/-- Simulation rule: two step functions stay related along a run of the first whose
steps all meet a condition. -/
theorem exec_related {T O' : Type*} (step' : T → I → T × O') (P : S → I → Prop)
    (Rel : S → T → Prop)
    (hstep : ∀ s t i, P s i → Rel s t → Rel (step s i).1 (step' t i).1)
    {s : S} {t : T} {is : List I} (hrun : Along step P s is) (h : Rel s t) :
    Rel (exec step s is) (exec step' t is) := by
  induction is generalizing s t with
  | nil => exact h
  | cons i is ih => exact ih hrun.2 (hstep s t i hrun.1 h)

/-- Invariant rule for all runs. -/
theorem exec_invariant (Inv : S → Prop) (hstep : ∀ s i, Inv s → Inv (step s i).1)
    {s : S} (is : List I) (hs : Inv s) : Inv (exec step s is) :=
  exec_invariant_along step (fun _ _ => True) Inv (fun s i _ => hstep s i)
    (along_of_forall step s (fun _ _ _ => trivial)) hs

section Projection

variable {J T : Type*} (view : S → I → Option J)

@[simp] theorem visible_nil (s : S) : visible step view s [] = [] := rfl

theorem visible_cons_none {s : S} {i : I} (is : List I) (h : view s i = none) :
    visible step view s (i :: is) = visible step view (step s i).1 is := by
  simp only [visible, h]

theorem visible_cons_some {s : S} {i : I} {j : J} (is : List I) (h : view s i = some j) :
    visible step view s (i :: is) = j :: visible step view (step s i).1 is := by
  simp only [visible, h]

theorem visible_append (s : S) (is js : List I) :
    visible step view s (is ++ js) =
      visible step view s is ++ visible step view (exec step s is) js := by
  induction is generalizing s with
  | nil => rfl
  | cons i is ih =>
    simp only [List.cons_append, visible, exec_cons]
    cases view s i with
    | none => exact ih _
    | some j => exact congrArg (List.cons j) (ih _)

theorem exists_of_mem_visible {s : S} {is : List I} {j : J} (h : j ∈ visible step view s is) :
    ∃ t, ∃ i ∈ is, view t i = some j := by
  induction is generalizing s with
  | nil => cases h
  | cons i is ih =>
    have hlater : j ∈ visible step view (step s i).1 is →
        ∃ t, ∃ i' ∈ i :: is, view t i' = some j := by
      intro hmem
      obtain ⟨t, i', hi', hview⟩ := ih hmem
      exact ⟨t, i', List.mem_cons_of_mem i hi', hview⟩
    cases hi : view s i with
    | none =>
      rw [visible_cons_none step view is hi] at h
      exact hlater h
    | some j' =>
      rw [visible_cons_some step view is hi] at h
      rcases List.mem_cons.mp h with rfl | h
      · exact ⟨s, i, List.mem_cons_self .., hi⟩
      · exact hlater h

/-- Looking only at some of what a run shows. -/
theorem filterMap_visible {J' : Type*} (f : J → Option J') (s : S) (is : List I) :
    (visible step view s is).filterMap f =
      visible step (fun s i => (view s i).bind f) s is := by
  induction is generalizing s with
  | nil => rfl
  | cons i is ih =>
    cases h : view s i with
    | none =>
      rw [visible_cons_none step view is h, ih, visible_cons_none]
      simp [h]
    | some j =>
      rw [visible_cons_some step view is h]
      cases hj : f j with
      | none =>
        rw [List.filterMap_cons_none hj, ih, visible_cons_none]
        simp [h, hj]
      | some j' =>
        rw [List.filterMap_cons_some hj, ih, visible_cons_some]
        simp [h, hj]

/-- A step function is simulated, through `proj`, by the fold of `next` over the
visible steps when each visible step is one of `next` and no other step shows. -/
theorem exec_projection (proj : S → T) (next : T → J → T)
    (hsome : ∀ s i j, view s i = some j → proj (step s i).1 = next (proj s) j)
    (hnone : ∀ s i, view s i = none → proj (step s i).1 = proj s)
    (s : S) (is : List I) :
    proj (exec step s is) = (visible step view s is).foldl next (proj s) := by
  induction is generalizing s with
  | nil => rfl
  | cons i is ih =>
    rw [exec_cons, ih]
    cases h : view s i with
    | none => rw [visible_cons_none step view is h, hnone s i h]
    | some j => rw [visible_cons_some step view is h, hsome s i j h, List.foldl_cons]

end Projection

end Yellowbox.StepRuns
