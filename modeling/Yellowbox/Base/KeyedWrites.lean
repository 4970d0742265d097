import Mathlib.Data.List.Nodup
import Mathlib.Logic.Function.Basic

/-!
Writing bindings one after another into a store whose keys are encodings of the bound
keys. When no two keys are encoded alike, the store then holds exactly what the list of
bindings says.
-/
namespace Yellowbox.KeyedWrites

variable {K B V : Type*} [DecidableEq B]

/-- The store after writing the bindings in order. -/
def writes (encode : K → B) : List (K × V) → (B → Option V) → B → Option V
  | [], store => store
  | (k, v) :: bindings, store =>
    writes encode bindings (Function.update store (encode k) (some v))

/-- What the bindings say about an encoded key. -/
def bound (encode : K → B) (bindings : List (K × V)) (b : B) : Option V :=
  (bindings.find? fun binding => encode binding.1 = b).map Prod.snd

variable {encode : K → B}

theorem bound_cons_self (k : K) (v : V) (bindings : List (K × V)) :
    bound encode ((k, v) :: bindings) (encode k) = some v := by
  simp [bound]

theorem bound_cons_of_ne {k : K} {b : B} (h : b ≠ encode k) (v : V) (bindings : List (K × V)) :
    bound encode ((k, v) :: bindings) b = bound encode bindings b := by
  simp [bound, Ne.symm h]

theorem bound_eq_none {bindings : List (K × V)} {b : B}
    (h : ∀ binding ∈ bindings, encode binding.1 ≠ b) : bound encode bindings b = none := by
  simpa [bound] using fun k v hmem => h (k, v) hmem

theorem bound_eq_none_of_not_mem {bindings : List (K × V)} {b : B}
    (h : b ∉ bindings.map fun binding => encode binding.1) : bound encode bindings b = none := by
  apply bound_eq_none
  intro binding hmem heq
  apply h
  rw [← heq]
  exact List.mem_map_of_mem hmem

theorem bound_of_mem {bindings : List (K × V)}
    (hnodup : (bindings.map fun binding => encode binding.1).Nodup) {k : K} {v : V}
    (h : (k, v) ∈ bindings) : bound encode bindings (encode k) = some v := by
  induction bindings with
  | nil => cases h
  | cons binding bindings ih =>
    obtain ⟨hnot, hnodup⟩ := List.nodup_cons.mp hnodup
    rcases List.mem_cons.mp h with rfl | hmem
    · exact bound_cons_self k v bindings
    · have hne : encode k ≠ encode binding.1 := by
        intro heq
        apply hnot
        exact List.mem_map.mpr ⟨(k, v), hmem, heq⟩
      rw [show binding = (binding.1, binding.2) from rfl, bound_cons_of_ne hne]
      exact ih hnodup hmem

/-- Writing distinct keys: the bindings decide, and the store is kept elsewhere. -/
theorem writes_eq (bindings : List (K × V))
    (hnodup : (bindings.map fun binding => encode binding.1).Nodup) (store : B → Option V)
    (b : B) : writes encode bindings store b = (bound encode bindings b).or (store b) := by
  induction bindings generalizing store with
  | nil => rfl
  | cons binding bindings ih =>
    obtain ⟨k, v⟩ := binding
    obtain ⟨hnot, hnodup⟩ := List.nodup_cons.mp hnodup
    rw [writes, ih hnodup]
    by_cases hb : b = encode k
    · subst hb
      rw [bound_eq_none_of_not_mem hnot, bound_cons_self, Function.update_self]
      rfl
    · rw [bound_cons_of_ne hb, Function.update_of_ne hb]

theorem bound_append (bindings bindings' : List (K × V)) (b : B) :
    bound encode (bindings ++ bindings') b =
      (bound encode bindings b).or (bound encode bindings' b) := by
  simp only [bound, List.find?_append]
  cases bindings.find? fun binding => encode binding.1 = b <;> rfl

/-- Writing keys that may repeat: the last binding of a key decides. -/
theorem writes_eq_last (bindings : List (K × V)) (store : B → Option V) (b : B) :
    writes encode bindings store b = (bound encode bindings.reverse b).or (store b) := by
  induction bindings generalizing store with
  | nil => rfl
  | cons binding bindings ih =>
    obtain ⟨k, v⟩ := binding
    rw [writes, ih, List.reverse_cons, bound_append, Option.or_assoc]
    by_cases hb : b = encode k
    · subst hb
      rw [bound_cons_self, Function.update_self]
      rfl
    · rw [bound_cons_of_ne hb, Function.update_of_ne hb]
      rfl

end Yellowbox.KeyedWrites
