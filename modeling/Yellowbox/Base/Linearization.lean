import Mathlib.Algebra.Order.Group.Nat
import Mathlib.Algebra.Order.BigOperators.Group.List
import Mathlib.Data.List.GetD
import Mathlib.Data.List.Nodup
import Mathlib.Logic.Relation
import Mathlib.Tactic.Common

/-!
The C3 linearization: how a language with multiple inheritance orders a class and its
ancestors. The orders of the bases and the list of the bases itself are merged, always
taking the first head that stands in no tail.
-/
namespace Yellowbox.Linearization

section Merge

variable {α : Type*} [DecidableEq α]

def nextHead (seqs : List (List α)) : Option α :=
  (seqs.filterMap List.head?).find? fun c => seqs.all fun seq => decide (c ∉ seq.tail)

def dropHead (c : α) : List α → List α
  | [] => []
  | x :: xs => if x = c then xs else x :: xs

def mergeFrom : ℕ → List (List α) → Option (List α)
  | 0, seqs => if seqs.flatten.isEmpty then some [] else none
  | fuel + 1, seqs =>
    if seqs.flatten.isEmpty then some []
    else match nextHead seqs with
      | none => none
      | some c => (mergeFrom fuel (seqs.map (dropHead c))).map (c :: ·)

/-- Every round takes an element away, so as many rounds as elements are enough. -/
def merge (seqs : List (List α)) : Option (List α) := mergeFrom seqs.flatten.length seqs

theorem nextHead_spec {seqs : List (List α)} {c : α} (h : nextHead seqs = some c) :
    (∃ seq ∈ seqs, seq.head? = some c) ∧ ∀ seq ∈ seqs, c ∉ seq.tail := by
  obtain ⟨seq, hseq, hhead⟩ := List.mem_filterMap.mp (List.mem_of_find?_eq_some h)
  refine ⟨⟨seq, hseq, hhead⟩, fun seq' hseq' => ?_⟩
  have hall := List.find?_some (p := fun c => seqs.all fun seq => decide (c ∉ seq.tail)) h
  exact of_decide_eq_true (List.all_eq_true.mp hall seq' hseq')

theorem mem_dropHead {c x : α} {seq : List α} (h : c ∉ seq.tail) :
    x ∈ dropHead c seq ↔ x ∈ seq ∧ x ≠ c := by
  cases seq with
  | nil => simp [dropHead]
  | cons y ys =>
    rw [List.tail_cons] at h
    rw [dropHead]
    split
    · rename_i heq
      subst heq
      constructor
      · intro hx
        exact ⟨List.mem_cons_of_mem _ hx, fun hxy => h (hxy ▸ hx)⟩
      · rintro ⟨hx, hne⟩
        exact List.mem_of_ne_of_mem hne hx
    · rename_i hne
      constructor
      · intro hx
        refine ⟨hx, ?_⟩
        rintro rfl
        rcases List.mem_cons.mp hx with heq | htail
        · exact hne heq.symm
        · exact h htail
      · exact And.left

/-- The head that is taken leaves every sequence. -/
theorem mem_flatten_dropHead {seqs : List (List α)} {c x : α} (h : nextHead seqs = some c) :
    x ∈ (seqs.map (dropHead c)).flatten ↔ x ∈ seqs.flatten ∧ x ≠ c := by
  obtain ⟨-, htails⟩ := nextHead_spec h
  simp only [List.mem_flatten, List.mem_map]
  constructor
  · rintro ⟨_, ⟨seq, hseq, rfl⟩, hx⟩
    obtain ⟨hmem, hne⟩ := (mem_dropHead (htails seq hseq)).mp hx
    exact ⟨⟨seq, hseq, hmem⟩, hne⟩
  · rintro ⟨⟨seq, hseq, hmem⟩, hne⟩
    exact ⟨_, ⟨seq, hseq, rfl⟩, (mem_dropHead (htails seq hseq)).mpr ⟨hmem, hne⟩⟩

theorem length_dropHead_le (c : α) (seq : List α) : (dropHead c seq).length ≤ seq.length := by
  cases seq with
  | nil => exact Nat.le_refl _
  | cons x xs =>
    rw [dropHead]
    split
    · exact Nat.le_succ _
    · exact Nat.le_refl _

theorem length_dropHead_lt {c : α} {seq : List α} (h : seq.head? = some c) :
    (dropHead c seq).length < seq.length := by
  obtain ⟨xs, rfl⟩ := List.head?_eq_some_iff.mp h
  rw [dropHead, if_pos rfl]
  exact Nat.lt_succ_self _

theorem length_flatten_dropHead_lt {seqs : List (List α)} {c : α}
    (h : nextHead seqs = some c) :
    (seqs.map (dropHead c)).flatten.length < seqs.flatten.length := by
  obtain ⟨⟨seq, hseq, hhead⟩, -⟩ := nextHead_spec h
  rw [List.length_flatten, List.length_flatten, List.map_map]
  exact List.sum_lt_sum _ _ (fun seq' _ => length_dropHead_le c seq')
    ⟨seq, hseq, length_dropHead_lt hhead⟩

theorem mergeFrom_of_le {fuel : ℕ} {seqs : List (List α)} (h : seqs.flatten.length ≤ fuel) :
    mergeFrom fuel seqs = merge seqs := by
  have hboth : ∀ (n m : ℕ) (seqs : List (List α)), seqs.flatten.length ≤ n →
      seqs.flatten.length ≤ m → mergeFrom n seqs = mergeFrom m seqs := by
    intro n
    induction n with
    | zero =>
      intro m seqs hn _
      have hnil : seqs.flatten.isEmpty = true := by
        rw [List.isEmpty_iff_length_eq_zero]
        omega
      cases m <;> simp [mergeFrom, hnil]
    | succ n ih =>
      intro m seqs hn hm
      by_cases hnil : seqs.flatten.isEmpty = true
      · cases m <;> simp [mergeFrom, hnil]
      · have hpos : 0 < seqs.flatten.length := by
          rw [List.isEmpty_iff_length_eq_zero] at hnil
          omega
        obtain ⟨m, rfl⟩ : ∃ k, m = k + 1 := ⟨m - 1, by omega⟩
        rw [mergeFrom, mergeFrom, if_neg hnil, if_neg hnil]
        cases hnext : nextHead seqs with
        | none => rfl
        | some c =>
          have hlt := length_flatten_dropHead_lt hnext
          show (mergeFrom n _).map _ = (mergeFrom m _).map _
          rw [ih m (seqs.map (dropHead c)) (by omega) (by omega)]
  exact hboth _ _ seqs h (Nat.le_refl _)

/-- One round of the merge. -/
theorem merge_eq (seqs : List (List α)) :
    merge seqs = if seqs.flatten.isEmpty then some []
      else (nextHead seqs).bind fun c => (merge (seqs.map (dropHead c))).map (c :: ·) := by
  rw [← mergeFrom_of_le (Nat.le_succ seqs.flatten.length), mergeFrom]
  split
  · rfl
  · cases hnext : nextHead seqs with
    | none => rfl
    | some c =>
      have hlt := length_flatten_dropHead_lt hnext
      show (mergeFrom _ _).map _ = _
      rw [mergeFrom_of_le (by omega)]
      rfl

/-- A merge that succeeds lists the elements of the sequences, each once. -/
theorem merge_spec {seqs : List (List α)} {merged : List α} (h : merge seqs = some merged) :
    merged.Nodup ∧ ∀ x, x ∈ merged ↔ x ∈ seqs.flatten := by
  induction hlength : seqs.flatten.length using Nat.strongRecOn
    generalizing seqs merged with
  | ind length ih =>
    subst hlength
    rw [merge_eq] at h
    split at h
    · rename_i hnil
      cases h
      rw [List.isEmpty_iff] at hnil
      simp [hnil]
    · cases hnext : nextHead seqs with
      | none =>
        rw [hnext] at h
        cases h
      | some c =>
        rw [hnext, Option.bind_some] at h
        obtain ⟨rest, hrest, rfl⟩ := Option.map_eq_some_iff.mp h
        obtain ⟨hnodup, hmem⟩ := ih _ (length_flatten_dropHead_lt hnext) hrest rfl
        simp only [mem_flatten_dropHead hnext] at hmem
        refine ⟨List.nodup_cons.mpr ⟨fun hc => ((hmem c).mp hc).2 rfl, hnodup⟩, fun x => ?_⟩
        rw [List.mem_cons, hmem]
        obtain ⟨⟨seq, hseq, hhead⟩, -⟩ := nextHead_spec hnext
        have hc : c ∈ seqs.flatten := List.mem_flatten.mpr ⟨seq, hseq, List.mem_of_head? hhead⟩
        constructor
        · rintro (rfl | ⟨hx, -⟩)
          · exact hc
          · exact hx
        · intro hx
          by_cases hxc : x = c
          · exact .inl hxc
          · exact .inr ⟨hx, hxc⟩

end Merge

/-! The classes of a program are numbered in the order of their definitions; `graph` lists
the bases of each. -/

def IsBase (graph : List (List ℕ)) (c b : ℕ) : Prop := ∃ bases, graph[c]? = some bases ∧ b ∈ bases

/-- A class or one of its ancestors. -/
def Inherits (graph : List (List ℕ)) : ℕ → ℕ → Prop := Relation.ReflTransGen (IsBase graph)

/-- The order of a new class, given those of the classes before it. `none` where two bases
are the same class or the orders contradict each other. -/
def linearize (orders : List (List ℕ)) (bases : List ℕ) : Option (List ℕ) :=
  if bases.Nodup then
    (merge (bases.map (fun b => orders.getD b []) ++ [bases])).map (orders.length :: ·)
  else none

def linearizeFrom (orders : List (List ℕ)) : List (List ℕ) → Option (List (List ℕ))
  | [] => some orders
  | bases :: graph =>
    (linearize orders bases).bind fun order => linearizeFrom (orders ++ [order]) graph

def linearizations (graph : List (List ℕ)) : Option (List (List ℕ)) := linearizeFrom [] graph

theorem inherits_iff {graph : List (List ℕ)} {c a : ℕ} {bases : List ℕ}
    (h : graph[c]? = some bases) :
    Inherits graph c a ↔ c = a ∨ ∃ b ∈ bases, Inherits graph b a := by
  rw [Inherits, Relation.ReflTransGen.cases_head_iff]
  apply or_congr_right
  constructor
  · rintro ⟨b, ⟨bases', hbases', hb⟩, hba⟩
    rw [h] at hbases'
    cases hbases'
    exact ⟨b, hb, hba⟩
  · rintro ⟨b, hb, hba⟩
    exact ⟨b, ⟨bases, h, hb⟩, hba⟩

/-- The order of a class lists the class and its ancestors, each once. -/
def Lists (graph : List (List ℕ)) (c : ℕ) (order : List ℕ) : Prop :=
  order.Nodup ∧ ∀ a, a ∈ order ↔ Inherits graph c a

theorem le_of_inherits {graph : List (List ℕ)} (hgraph : ∀ c b, IsBase graph c b → b < c)
    {c a : ℕ} (h : Inherits graph c a) : a ≤ c := by
  induction h with
  | refl => exact Nat.le_refl _
  | tail _ hstep ih => exact Nat.le_trans (Nat.le_of_lt (hgraph _ _ hstep)) ih

theorem linearize_lists {graph : List (List ℕ)} (hgraph : ∀ c b, IsBase graph c b → b < c)
    {orders : List (List ℕ)} (horders : ∀ c order, orders[c]? = some order → Lists graph c order)
    {bases order : List ℕ} (hbases : graph[orders.length]? = some bases)
    (h : linearize orders bases = some order) : Lists graph orders.length order := by
  rw [linearize] at h
  split at h
  · obtain ⟨merged, hmerged, rfl⟩ := Option.map_eq_some_iff.mp h
    obtain ⟨hnodup, hmem⟩ := merge_spec hmerged
    have hlt : ∀ b ∈ bases, b < orders.length := fun b hb => hgraph _ _ ⟨bases, hbases, hb⟩
    have hinherits : ∀ a, a ∈ merged ↔ ∃ b ∈ bases, Inherits graph b a := by
      intro a
      rw [hmem, List.flatten_append, List.mem_append, List.flatten_singleton, List.mem_flatten]
      constructor
      · rintro (⟨_, hseq, ha⟩ | ha)
        · obtain ⟨b, hb, rfl⟩ := List.mem_map.mp hseq
          rw [List.getD_eq_getElem _ _ (hlt b hb)] at ha
          have hlists := horders b _ (List.getElem?_eq_getElem (hlt b hb))
          exact ⟨b, hb, (hlists.2 a).mp ha⟩
        · exact ⟨a, ha, Relation.ReflTransGen.refl⟩
      · rintro ⟨b, hb, hba⟩
        left
        refine ⟨orders.getD b [], List.mem_map_of_mem hb, ?_⟩
        rw [List.getD_eq_getElem _ _ (hlt b hb)]
        exact ((horders b _ (List.getElem?_eq_getElem (hlt b hb))).2 a).mpr hba
    refine ⟨List.nodup_cons.mpr ⟨?_, hnodup⟩, fun a => ?_⟩
    · rw [hinherits]
      rintro ⟨b, hb, hback⟩
      exact Nat.not_le_of_lt (hlt b hb) (le_of_inherits hgraph hback)
    · rw [List.mem_cons, hinherits, inherits_iff hbases, eq_comm]
  · cases h

theorem forall_getElem?_concat {β : Type*} {P : ℕ → β → Prop} {xs : List β} {x : β}
    (h : ∀ i y, xs[i]? = some y → P i y) (hnew : P xs.length x) :
    ∀ i y, (xs ++ [x])[i]? = some y → P i y := by
  intro i y hi
  rw [List.getElem?_append] at hi
  split at hi
  · exact h i y hi
  · rename_i hge
    rw [List.getElem?_singleton] at hi
    split at hi
    · cases hi
      rwa [show i = xs.length by omega]
    · cases hi

theorem linearizeFrom_lists {graph : List (List ℕ)} (hgraph : ∀ c b, IsBase graph c b → b < c)
    {orders : List (List ℕ)} (horders : ∀ c order, orders[c]? = some order → Lists graph c order)
    {seen rest orders' : List (List ℕ)} (hsplit : graph = seen ++ rest)
    (hseen : orders.length = seen.length) (h : linearizeFrom orders rest = some orders') :
    ∀ c order, orders'[c]? = some order → Lists graph c order := by
  induction rest generalizing seen orders with
  | nil =>
    cases h
    exact horders
  | cons bases rest ih =>
    rw [linearizeFrom] at h
    obtain ⟨order, horder, hrest⟩ := Option.bind_eq_some_iff.mp h
    have hbases : graph[orders.length]? = some bases := by
      rw [hsplit, hseen, List.getElem?_append_right (Nat.le_refl _), Nat.sub_self]
      rfl
    refine ih ?_ (hsplit.trans (List.append_cons seen bases rest)) ?_ hrest
    · exact forall_getElem?_concat horders (linearize_lists hgraph horders hbases horder)
    · rw [List.length_append, List.length_append, hseen]
      rfl

theorem linearizations_list {graph orders : List (List ℕ)}
    (hgraph : ∀ c b, IsBase graph c b → b < c) (h : linearizations graph = some orders) :
    ∀ c order, orders[c]? = some order → Lists graph c order :=
  linearizeFrom_lists hgraph (fun _ _ hnone => by cases hnone) (List.nil_append _).symm rfl h

end Yellowbox.Linearization
