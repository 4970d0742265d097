import Mathlib.Logic.Function.Basic

/-!
Changes that are applied one after another to a store, each to what one key holds. A
change may be refused, which ends the sequence. Keys do not get in each other's way: what
a key holds at the end is what its own changes, in their order, make of what it held.
-/
namespace Yellowbox.KeyedFolds

variable {K B V A E : Type} [DecidableEq B]

/-- The changes in order, up to the first that is refused, and the store after them. -/
def foldKeyed (encode : K → B) (merge : Option V → A → Except E V) :
    List (K × A) → (B → Option V) → Except E Unit × (B → Option V)
  | [], store => (.ok (), store)
  | (k, a) :: changes, store =>
    match merge (store (encode k)) a with
    | .error e => (.error e, store)
    | .ok v => foldKeyed encode merge changes (Function.update store (encode k) (some v))

/-- The changes of one key. -/
def changesAt (encode : K → B) (b : B) (changes : List (K × A)) : List A :=
  (changes.filter fun change => encode change.1 = b).map Prod.snd

/-- What the changes of a key make of what it held. -/
def mergeAll (merge : Option V → A → Except E V) : Option V → List A → Except E (Option V)
  | old, [] => .ok old
  | old, a :: changes =>
    match merge old a with
    | .error e => .error e
    | .ok v => mergeAll merge (some v) changes

variable {encode : K → B} {merge : Option V → A → Except E V} {store store' : B → Option V}
  {k : K} {a : A} {b : B} {changes : List (K × A)}

theorem changesAt_cons_self (encode : K → B) (k : K) (a : A) (changes : List (K × A)) :
    changesAt encode (encode k) ((k, a) :: changes) = a :: changesAt encode (encode k) changes := by
  rw [changesAt, List.filter_cons_of_pos (by simp)]
  rfl

theorem changesAt_cons_of_ne (h : b ≠ encode k) (a : A) (changes : List (K × A)) :
    changesAt encode b ((k, a) :: changes) = changesAt encode b changes := by
  rw [changesAt, List.filter_cons_of_neg (by simpa using Ne.symm h), changesAt]

theorem mergeAll_cons_ok {old : Option V} {v : V} (h : merge old a = .ok v) (l : List A) :
    mergeAll merge old (a :: l) = mergeAll merge (some v) l := by
  rw [mergeAll, h]

theorem foldKeyed_cons_ok {v : V} (h : merge (store (encode k)) a = .ok v)
    (changes : List (K × A)) :
    foldKeyed encode merge ((k, a) :: changes) store =
      foldKeyed encode merge changes (Function.update store (encode k) (some v)) := by
  rw [foldKeyed, h]

theorem foldKeyed_cons_error {e : E} (h : merge (store (encode k)) a = .error e)
    (changes : List (K × A)) :
    foldKeyed encode merge ((k, a) :: changes) store = (.error e, store) := by
  rw [foldKeyed, h]

theorem foldKeyed_append (h : foldKeyed encode merge changes store = (.ok (), store'))
    (changes' : List (K × A)) :
    foldKeyed encode merge (changes ++ changes') store =
      foldKeyed encode merge changes' store' := by
  induction changes generalizing store with
  | nil =>
    cases h
    rfl
  | cons change changes ih =>
    obtain ⟨k, a⟩ := change
    cases hmerge : merge (store (encode k)) a with
    | error e =>
      rw [foldKeyed_cons_error hmerge] at h
      cases h
    | ok v =>
      rw [foldKeyed_cons_ok hmerge] at h
      rw [List.cons_append, foldKeyed_cons_ok hmerge, ih h]

/-- A change is one of its key alone. -/
theorem mergeAll_changesAt_cons {v : V} (h : merge (store (encode k)) a = .ok v) (b : B)
    (changes : List (K × A)) :
    mergeAll merge (store b) (changesAt encode b ((k, a) :: changes)) =
      mergeAll merge (Function.update store (encode k) (some v) b)
        (changesAt encode b changes) := by
  by_cases hb : b = encode k
  · subst hb
    rw [changesAt_cons_self, mergeAll_cons_ok h, Function.update_self]
  · rw [changesAt_cons_of_ne hb, Function.update_of_ne hb]

/-- All changes are made if and only if those of each key are, taken by themselves. -/
theorem foldKeyed_ok_iff : foldKeyed encode merge changes store = (.ok (), store') ↔
    ∀ b, mergeAll merge (store b) (changesAt encode b changes) = .ok (store' b) := by
  induction changes generalizing store with
  | nil =>
    constructor
    · intro h b
      cases h
      rfl
    · intro h
      have hstore : store = store' := funext fun b => Except.ok.inj (h b)
      rw [hstore]
      rfl
  | cons change changes ih =>
    obtain ⟨k, a⟩ := change
    cases hmerge : merge (store (encode k)) a with
    | error e =>
      rw [foldKeyed_cons_error hmerge]
      refine iff_of_false (fun h => by cases h) fun h => ?_
      have hkey := h (encode k)
      rw [changesAt_cons_self, mergeAll, hmerge] at hkey
      cases hkey
    | ok v =>
      rw [foldKeyed_cons_ok hmerge, ih]
      exact forall_congr' fun b => by rw [mergeAll_changesAt_cons hmerge b changes]

/-- The first change that is refused ends the sequence; those before it are made. -/
theorem foldKeyed_error_iff {e : E} :
    foldKeyed encode merge changes store = (.error e, store') ↔
      ∃ before k a rest, changes = before ++ (k, a) :: rest ∧
        foldKeyed encode merge before store = (.ok (), store') ∧
        merge (store' (encode k)) a = .error e := by
  induction changes generalizing store with
  | nil =>
    refine iff_of_false (fun h => by cases h) ?_
    rintro ⟨before, k, a, rest, heq, -⟩
    exact absurd heq.symm (List.append_ne_nil_of_right_ne_nil _ (List.cons_ne_nil _ _))
  | cons change changes ih =>
    obtain ⟨k, a⟩ := change
    cases hmerge : merge (store (encode k)) a with
    | error e' =>
      rw [foldKeyed_cons_error hmerge]
      constructor
      · intro h
        cases h
        exact ⟨[], k, a, changes, rfl, rfl, hmerge⟩
      · rintro ⟨before, k', a', rest, heq, hbefore, hrefused⟩
        cases before with
        | nil =>
          cases heq
          cases hbefore
          rw [hmerge] at hrefused
          cases hrefused
          rfl
        | cons first before =>
          cases heq
          rw [foldKeyed_cons_error hmerge] at hbefore
          cases hbefore
    | ok v =>
      rw [foldKeyed_cons_ok hmerge, ih]
      constructor
      · rintro ⟨before, k', a', rest, rfl, hbefore, hrefused⟩
        refine ⟨(k, a) :: before, k', a', rest, rfl, ?_, hrefused⟩
        rw [foldKeyed_cons_ok hmerge, hbefore]
      · rintro ⟨before, k', a', rest, heq, hbefore, hrefused⟩
        cases before with
        | nil =>
          cases heq
          cases hbefore
          rw [hmerge] at hrefused
          cases hrefused
        | cons first before =>
          cases heq
          rw [foldKeyed_cons_ok hmerge] at hbefore
          exact ⟨before, k', a', rest, rfl, hbefore, hrefused⟩

/-- However a sequence ends, some first part of it was made. -/
theorem exists_made (encode : K → B) (merge : Option V → A → Except E V)
    (changes : List (K × A)) (store : B → Option V) :
    ∃ made, made <+: changes ∧
      foldKeyed encode merge made store = (.ok (), (foldKeyed encode merge changes store).2) := by
  rcases hfold : foldKeyed encode merge changes store with ⟨e | _, store'⟩
  · obtain ⟨before, k, a, rest, rfl, hbefore, -⟩ := foldKeyed_error_iff.mp hfold
    exact ⟨before, List.prefix_append _ _, hbefore⟩
  · exact ⟨changes, List.prefix_rfl, hfold⟩

end Yellowbox.KeyedFolds
