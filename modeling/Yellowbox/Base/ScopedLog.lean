import Mathlib.Data.List.Infix
import Mathlib.Data.List.Nodup
import Mathlib.Logic.Function.Basic

/-!
Scopes that are entered and exited in last-in first-out order, and a log whose
entries go to every open scope. The list kept for a scope is compared with its
window: what was logged between its entry and its exit.
-/
namespace Yellowbox.ScopedLog

variable {K A : Type*}

inductive Op (K A : Type*)
  | enter (k : K)
  | exit (k : K)
  | log (a : A)
  deriving DecidableEq

/-- The scope entered by an operation. -/
def Op.entered : Op K A → Option K
  | enter k => some k
  | exit _ | log _ => none

def Op.logged : Op K A → Option A
  | log a => some a
  | enter _ | exit _ => none

/-- The scopes entered in `ops`, in order. -/
def entered (ops : List (Op K A)) : List K := ops.filterMap Op.entered

/-- Everything logged in `ops`, in order. -/
def logged (ops : List (Op K A)) : List A := ops.filterMap Op.logged

/-- With the scopes `st` open, innermost first, every exit leaves the innermost. -/
def WellNested : List K → List (Op K A) → Prop
  | _, [] => True
  | st, .enter k :: ops => WellNested (k :: st) ops
  | st, .log _ :: ops => WellNested st ops
  | [], .exit _ :: _ => False
  | j :: st, .exit k :: ops => j = k ∧ WellNested st ops

/-- `o` was entered and not yet exited when `k` was entered. -/
def Encloses (o k : K) (ops : List (Op K A)) : Prop :=
  ∃ pre post, ops = pre ++ .enter k :: post ∧ .enter o ∈ pre ∧ .exit o ∉ pre

section Definitions

variable [DecidableEq K]

/-- What is logged before the next exit of `k`. -/
def untilExit (k : K) : List (Op K A) → List A
  | [] => []
  | .exit j :: ops => if j = k then [] else untilExit k ops
  | .log a :: ops => a :: untilExit k ops
  | .enter _ :: ops => untilExit k ops

/-- What is logged between the first entry of `k` and the exit that follows it. -/
def window (k : K) : List (Op K A) → List A
  | [] => []
  | .enter j :: ops => if j = k then untilExit k ops else window k ops
  | .exit _ :: ops | .log _ :: ops => window k ops

instance instDecidableWellNested :
    ∀ (st : List K) (ops : List (Op K A)), Decidable (WellNested st ops)
  | _, [] => isTrue trivial
  | st, .enter k :: ops => instDecidableWellNested (k :: st) ops
  | st, .log _ :: ops => instDecidableWellNested st ops
  | [], .exit _ :: _ => isFalse id
  | j :: st, .exit k :: ops =>
    have := instDecidableWellNested st ops
    inferInstanceAs (Decidable (j = k ∧ WellNested st ops))

/-- The open scopes, innermost last, and the list of every scope. -/
structure Logs (K A : Type*) where
  active : List K
  entries : K → List A

/-- An exit of a scope that is not the innermost one is refused. -/
def Logs.next (s : Logs K A) : Op K A → Logs K A
  | .enter k => ⟨s.active ++ [k], Function.update s.entries k []⟩
  | .exit k => if s.active.getLast? = some k then ⟨s.active.dropLast, s.entries⟩ else s
  | .log a => ⟨s.active, fun k => s.entries k ++ List.replicate (s.active.count k) a⟩

def Logs.run (s : Logs K A) (ops : List (Op K A)) : Logs K A := ops.foldl Logs.next s

/-- The log after a step that may be one of it. -/
def Logs.advance (s : Logs K A) : Option (Op K A) → Logs K A
  | none => s
  | some op => s.next op

end Definitions

@[simp] theorem entered_enter (k : K) (ops : List (Op K A)) :
    entered (.enter k :: ops) = k :: entered ops := rfl

@[simp] theorem entered_exit (k : K) (ops : List (Op K A)) :
    entered (.exit k :: ops) = entered ops := rfl

@[simp] theorem entered_append (ops ops' : List (Op K A)) :
    entered (ops ++ ops') = entered ops ++ entered ops' := List.filterMap_append

@[simp] theorem logged_append (ops ops' : List (Op K A)) :
    logged (ops ++ ops') = logged ops ++ logged ops' := List.filterMap_append

theorem mem_entered {k : K} {ops : List (Op K A)} : k ∈ entered ops ↔ .enter k ∈ ops := by
  rw [entered, List.mem_filterMap]
  constructor
  · rintro ⟨op, hop, hk⟩
    cases op with
    | enter j =>
      obtain rfl := Option.some.inj hk
      exact hop
    | exit j => cases hk
    | log a => cases hk
  · intro hop
    exact ⟨.enter k, hop, rfl⟩

section Nesting

variable {st : List K} {k : K}

theorem wellNested_append {pre post : List (Op K A)} (h : WellNested st (pre ++ post)) :
    WellNested st pre := by
  induction pre generalizing st with
  | nil => trivial
  | cons op pre ih =>
    cases op with
    | enter i => exact ih h
    | log a => exact ih h
    | exit i =>
      cases st with
      | nil => exact h
      | cons i' st => exact ⟨h.1, ih h.2⟩

/-- Only a scope that was entered is exited. -/
theorem mem_of_wellNested_exit {pre post : List (Op K A)}
    (h : WellNested st (pre ++ .exit k :: post)) : k ∈ st ∨ k ∈ entered pre := by
  induction pre generalizing st with
  | nil =>
    cases st with
    | nil => exact absurd h id
    | cons i st => exact Or.inl (by simp [h.1])
  | cons op pre ih =>
    cases op with
    | log a => exact ih h
    | enter i =>
      rcases ih h with hst | hpre
      · rcases List.mem_cons.mp hst with rfl | hst
        · exact Or.inr (List.mem_cons_self ..)
        · exact Or.inl hst
      · exact Or.inr (List.mem_cons_of_mem i hpre)
    | exit i =>
      cases st with
      | nil => exact absurd h id
      | cons i' st =>
        rcases ih h.2 with hst | hpre
        · exact Or.inl (List.mem_cons_of_mem i' hst)
        · exact Or.inr hpre

/-- An exit leaves the innermost scope, which a list of scopes has last. -/
theorem wellNested_exit {active : List K} {ops : List (Op K A)}
    (h : WellNested active.reverse (.exit k :: ops)) :
    ∃ front, active = front ++ [k] ∧ WellNested front.reverse ops := by
  cases hst : active.reverse with
  | nil =>
    rw [hst] at h
    exact absurd h id
  | cons i st =>
    rw [hst] at h
    refine ⟨st.reverse, ?_, ?_⟩
    · rw [← h.1]
      exact List.reverse_eq_cons_iff.mp hst
    · rw [List.reverse_reverse]
      exact h.2

/-- A scope entered and not exited is on the stack: what follows exits every
scope entered after it first. -/
theorem wellNested_rest {pre post : List (Op K A)} (h : WellNested st (pre ++ post)) :
    ∃ st', WellNested st' post ∧ st'.Sublist ((entered pre).reverse ++ st) ∧
      ∀ i ∈ (entered pre).reverse ++ st, .exit i ∉ pre → i ∈ st' := by
  induction pre generalizing st with
  | nil => exact ⟨st, h, List.Sublist.refl st, fun i hi _ => hi⟩
  | cons op pre ih =>
    cases op with
    | log a =>
      obtain ⟨st', hpost, hsub, hopen⟩ := ih h
      exact ⟨st', hpost, hsub, fun i hi hexit =>
        hopen i hi (fun hmem => hexit (List.mem_cons_of_mem _ hmem))⟩
    | enter i =>
      obtain ⟨st', hpost, hsub, hopen⟩ := ih h
      refine ⟨st', hpost, ?_, ?_⟩
      · simpa using hsub
      · intro i' hi' hexit
        exact hopen i' (by simpa using hi') (fun hmem => hexit (List.mem_cons_of_mem _ hmem))
    | exit i =>
      cases st with
      | nil => exact absurd h id
      | cons i' st =>
        obtain ⟨st', hpost, hsub, hopen⟩ := ih h.2
        refine ⟨st', hpost, ?_, ?_⟩
        · exact hsub.trans (List.Sublist.append_left (List.sublist_cons_self i' st) _)
        · intro k hk hexit
          have hne : k ≠ i' := by
            intro hki
            exact hexit (by simp [hki, h.1])
          rw [entered_exit] at hk
          simp only [List.mem_append, List.mem_cons, hne, false_or] at hk
          exact hopen k (List.mem_append.mpr hk)
            (fun hmem => hexit (List.mem_cons_of_mem _ hmem))

end Nesting

variable [DecidableEq K]

theorem untilExit_sublist (k : K) (ops : List (Op K A)) :
    List.Sublist (untilExit k ops) (logged ops) := by
  induction ops with
  | nil => exact .slnil
  | cons op ops ih =>
    cases op with
    | enter j => exact ih
    | log a => exact ih.cons_cons a
    | exit j =>
      by_cases hj : j = k
      · simp only [untilExit, if_pos hj]
        exact List.nil_sublist _
      · simp only [untilExit, if_neg hj]
        exact ih

theorem window_sublist (k : K) (ops : List (Op K A)) :
    List.Sublist (window k ops) (logged ops) := by
  induction ops with
  | nil => exact .slnil
  | cons op ops ih =>
    cases op with
    | exit j => exact ih
    | log a => exact ih.cons a
    | enter j =>
      by_cases hj : j = k
      · simp only [window, if_pos hj]
        exact untilExit_sublist k ops
      · simp only [window, if_neg hj]
        exact ih

theorem untilExit_append {k : K} {pre : List (Op K A)} (post : List (Op K A))
    (h : .exit k ∉ pre) : untilExit k (pre ++ post) = untilExit k pre ++ untilExit k post := by
  induction pre with
  | nil => rfl
  | cons op pre ih =>
    have ih := ih (fun hmem => h (List.mem_cons_of_mem _ hmem))
    cases op with
    | enter j => exact ih
    | log a => exact congrArg (List.cons a) ih
    | exit j =>
      have hj : j ≠ k := by
        intro hj
        exact h (by simp [hj])
      simpa only [List.cons_append, untilExit, if_neg hj] using ih

/-- What follows an exit does not count. -/
theorem untilExit_append_exit (k : K) (pre post : List (Op K A)) :
    untilExit k (pre ++ .exit k :: post) = untilExit k pre := by
  induction pre with
  | nil => simp [untilExit]
  | cons op pre ih =>
    cases op with
    | enter j => exact ih
    | log a => exact congrArg (List.cons a) ih
    | exit j =>
      by_cases hj : j = k
      · simp only [List.cons_append, untilExit, if_pos hj]
      · simpa only [List.cons_append, untilExit, if_neg hj] using ih

/-- The window of a scope starts at its first entry. -/
theorem window_append_enter {k : K} {pre : List (Op K A)} (post : List (Op K A))
    (h : k ∉ entered pre) : window k (pre ++ .enter k :: post) = untilExit k post := by
  induction pre with
  | nil => simp [window]
  | cons op pre ih =>
    cases op with
    | exit j => exact ih h
    | log a => exact ih h
    | enter j =>
      rw [entered_enter, List.mem_cons, not_or] at h
      simp only [List.cons_append, window, if_neg (Ne.symm h.1)]
      exact ih h.2

/-- The window of a scope that is open after `pre` goes on. -/
theorem window_append_open {k : K} {pre : List (Op K A)} (post : List (Op K A))
    (hk : k ∈ entered pre) (h : .exit k ∉ pre) :
    window k (pre ++ post) = window k pre ++ untilExit k post := by
  induction pre with
  | nil => cases hk
  | cons op pre ih =>
    have hpre : .exit k ∉ pre := fun hmem => h (List.mem_cons_of_mem _ hmem)
    cases op with
    | exit j => exact ih hk hpre
    | log a => exact ih hk hpre
    | enter j =>
      by_cases hj : j = k
      · simp only [List.cons_append, window, if_pos hj]
        exact untilExit_append post hpre
      · simp only [List.cons_append, window, if_neg hj]
        have hkj : k ≠ j := Ne.symm hj
        exact ih (by simpa [hkj] using hk) hpre

/-- The window of a scope does not grow after its exit. -/
theorem window_append_exit {k : K} {pre : List (Op K A)} (post : List (Op K A))
    (hk : k ∈ entered pre) : window k (pre ++ .exit k :: post) = window k pre := by
  induction pre with
  | nil => cases hk
  | cons op pre ih =>
    cases op with
    | exit j => exact ih hk
    | log a => exact ih hk
    | enter j =>
      by_cases hj : j = k
      · simp only [List.cons_append, window, if_pos hj]
        exact untilExit_append_exit k pre post
      · simp only [List.cons_append, window, if_neg hj]
        have hkj : k ≠ j := Ne.symm hj
        exact ih (by simpa [hkj] using hk)

/-- Above `o` on the stack, the exit of `k` comes before that of `o`. -/
theorem untilExit_prefix {ops : List (Op K A)} {k o : K} (above : List K) {below : List K}
    (h : WellNested (above ++ k :: below) ops) (ho : o ∈ below)
    (hdistinct : ((entered ops).reverse ++ (above ++ k :: below)).Nodup) :
    untilExit k ops <+: untilExit o ops := by
  induction ops generalizing above with
  | nil => exact List.prefix_refl _
  | cons op ops ih =>
    cases op with
    | log a =>
      obtain ⟨rest, hrest⟩ := ih above h hdistinct
      exact ⟨rest, congrArg (List.cons a) hrest⟩
    | enter i => exact ih (i :: above) h (by simpa using hdistinct)
    | exit i =>
      rw [entered_exit] at hdistinct
      have hstack := (List.nodup_append.mp hdistinct).2.1
      cases above with
      | nil =>
        have hki : i = k := h.1.symm
        simp only [untilExit, if_pos hki]
        exact List.nil_prefix
      | cons i' above =>
        have hi : i' = i := h.1
        have hfresh := (List.nodup_cons.mp hstack).1
        have hik : i ≠ k := by
          intro hik
          exact hfresh (by simp [hi, hik])
        have hio : i ≠ o := by
          intro hio
          exact hfresh (by simp [hi, hio, ho])
        simp only [untilExit, if_neg hik, if_neg hio]
        refine ih above h.2 (hdistinct.sublist ?_)
        exact List.Sublist.append_left (List.sublist_cons_self i' _) _

/-- The window of a scope is a segment of the window of a scope around it. -/
theorem window_infix {ops : List (Op K A)} {k o : K} (h : WellNested [] ops)
    (hdistinct : (entered ops).Nodup) (hencloses : Encloses o k ops) :
    window k ops <:+: window o ops := by
  obtain ⟨pre, post, rfl, ho, hexit⟩ := hencloses
  obtain ⟨st, hpost, hsub, hopen⟩ := wellNested_rest h
  rw [List.append_nil] at hsub hopen
  have ho := mem_entered.mpr ho
  have host : o ∈ st := hopen o (List.mem_reverse.mpr ho) hexit
  have hstack : ((entered post).reverse ++ ([] ++ k :: st)).Nodup := by
    have hall := List.nodup_reverse.mpr hdistinct
    rw [entered_append, entered_enter, List.reverse_append, List.reverse_cons,
      List.append_assoc] at hall
    exact hall.sublist (List.Sublist.append_left (hsub.cons_cons k) _)
  have hk : k ∉ entered pre := by
    rw [entered_append, entered_enter] at hdistinct
    exact fun hk => (List.nodup_append.mp hdistinct).2.2 k hk k (List.mem_cons_self ..) rfl
  have hbegins := untilExit_prefix [] hpost host hstack
  rw [window_append_enter post hk, window_append_open _ ho hexit]
  exact hbegins.isInfix.trans (List.suffix_append _ _).isInfix

/-- The windows of two scopes that are not nested come one after the other. -/
theorem window_append_sublist {ops : List (Op K A)} {j k : K} (h : WellNested [] ops)
    (hdistinct : (entered ops).Nodup) {pre post : List (Op K A)}
    (hsplit : ops = pre ++ .enter k :: post) (hj : j ∈ entered pre)
    (hnot : ¬ Encloses j k ops) : (window j ops ++ window k ops).Sublist (logged ops) := by
  have hexit : .exit j ∈ pre := by
    by_contra hexit
    exact hnot ⟨pre, post, hsplit, mem_entered.mp hj, hexit⟩
  subst hsplit
  have hk : k ∉ entered pre := by
    rw [entered_append, entered_enter] at hdistinct
    exact fun hk => (List.nodup_append.mp hdistinct).2.2 k hk k (List.mem_cons_self ..) rfl
  rw [window_append_enter post hk, logged_append]
  refine List.Sublist.append ?_ (untilExit_sublist k post)
  obtain ⟨p, q, rfl⟩ := List.append_of_mem hexit
  rw [List.append_assoc, List.cons_append] at h ⊢
  have hp : j ∈ entered p := (mem_of_wellNested_exit h).resolve_left List.not_mem_nil
  rw [window_append_exit _ hp, logged_append]
  exact (window_sublist j p).trans (List.sublist_append_left _ _)

section Run

variable (s : Logs K A)

@[simp] theorem run_nil : s.run [] = s := rfl

@[simp] theorem run_cons (op : Op K A) (ops : List (Op K A)) :
    s.run (op :: ops) = (s.next op).run ops := rfl

theorem next_enter_reverse (k : K) :
    (s.next (.enter k)).active.reverse = k :: s.active.reverse := by
  simp [Logs.next]

theorem next_exit {front : List K} {k : K} (h : s.active = front ++ [k]) :
    s.next (.exit k) = ⟨front, s.entries⟩ := by
  simp [Logs.next, h]

theorem run_closed {ops : List (Op K A)} {k : K} (hk : k ∉ s.active)
    (hentered : k ∉ entered ops) : (s.run ops).entries k = s.entries k := by
  induction ops generalizing s with
  | nil => rfl
  | cons op ops ih =>
    rw [run_cons]
    cases op with
    | log a =>
      rw [ih (s.next (.log a)) hk hentered]
      simp [Logs.next, List.count_eq_zero_of_not_mem hk]
    | enter j =>
      rw [entered_enter, List.mem_cons, not_or] at hentered
      rw [ih (s.next (.enter j)) (by simp [Logs.next, hk, hentered.1]) hentered.2]
      simp [Logs.next, hentered.1]
    | exit j =>
      by_cases hlast : s.active.getLast? = some j
      · have hdrop : k ∉ s.active.dropLast := fun hmem => hk (List.mem_of_mem_dropLast hmem)
        simp only [Logs.next, if_pos hlast]
        exact ih ⟨s.active.dropLast, s.entries⟩ hdrop hentered
      · simp only [Logs.next, if_neg hlast]
        exact ih s hk hentered

/-- The list of a scope that is not entered again only grows, at its end. -/
theorem entries_prefix {ops : List (Op K A)} {k : K} (hentered : k ∉ entered ops) :
    s.entries k <+: (s.run ops).entries k := by
  induction ops generalizing s with
  | nil => exact List.prefix_refl _
  | cons op ops ih =>
    rw [run_cons]
    cases op with
    | log a => exact (List.prefix_append _ _).trans (ih (s.next (.log a)) hentered)
    | enter j =>
      rw [entered_enter, List.mem_cons, not_or] at hentered
      have hkeep : (s.next (.enter j)).entries k = s.entries k :=
        Function.update_of_ne hentered.1 _ _
      rw [← hkeep]
      exact ih (s.next (.enter j)) hentered.2
    | exit j =>
      have hkeep : (s.next (.exit j)).entries k = s.entries k := by
        unfold Logs.next
        dsimp only
        split <;> rfl
      rw [← hkeep]
      exact ih (s.next (.exit j)) hentered

theorem run_open {ops : List (Op K A)} {k : K} (hnest : WellNested s.active.reverse ops)
    (hdistinct : (s.active ++ entered ops).Nodup) (hk : k ∈ s.active) :
    (s.run ops).entries k = s.entries k ++ untilExit k ops := by
  induction ops generalizing s with
  | nil => simp [untilExit]
  | cons op ops ih =>
    rw [run_cons]
    cases op with
    | log a =>
      have hcount : s.active.count k = 1 :=
        List.count_eq_one_of_mem (List.nodup_append.mp hdistinct).1 hk
      rw [ih (s.next (.log a)) hnest hdistinct hk]
      simp [Logs.next, hcount, untilExit]
    | enter j =>
      have hkj : k ≠ j := by
        rw [entered_enter] at hdistinct
        exact (List.nodup_append.mp hdistinct).2.2 k hk j (List.mem_cons_self ..)
      have hnest' : WellNested (s.next (.enter j)).active.reverse ops := by
        rw [next_enter_reverse]
        exact hnest
      rw [ih _ hnest' (by simpa [Logs.next] using hdistinct) (by simp [Logs.next, hk])]
      simp [Logs.next, hkj, untilExit]
    | exit j =>
      obtain ⟨front, hactive, hnest⟩ := wellNested_exit hnest
      rw [next_exit s hactive]
      rw [entered_exit, hactive, List.append_assoc] at hdistinct
      have hparts := List.nodup_append.mp hdistinct
      by_cases hj : j = k
      · subst hj
        rw [run_closed]
        · simp [untilExit]
        · exact fun hmem => hparts.2.2 j hmem j (List.mem_cons_self ..) rfl
        · exact (List.nodup_cons.mp hparts.2.1).1
      · have hkfront : k ∈ front := by
          rw [hactive] at hk
          simpa [Ne.symm hj] using hk
        have hdistinct' : (front ++ entered ops).Nodup :=
          hdistinct.sublist (List.Sublist.append_left (List.sublist_cons_self j _) _)
        rw [ih ⟨front, s.entries⟩ hnest hdistinct' hkfront]
        simp [untilExit, hj]

/-- The list of a scope is its window. -/
theorem run_entered (ops : List (Op K A)) {k : K} (hnest : WellNested s.active.reverse ops)
    (hdistinct : (s.active ++ entered ops).Nodup) (hk : k ∈ entered ops) :
    (s.run ops).entries k = window k ops := by
  induction ops generalizing s with
  | nil => cases hk
  | cons op ops ih =>
    rw [run_cons]
    cases op with
    | log a => exact ih _ hnest hdistinct hk
    | enter j =>
      have hnest' : WellNested (s.next (.enter j)).active.reverse ops := by
        rw [next_enter_reverse]
        exact hnest
      have hdistinct' : ((s.next (.enter j)).active ++ entered ops).Nodup := by
        simpa [Logs.next] using hdistinct
      by_cases hj : j = k
      · subst hj
        rw [run_open _ hnest' hdistinct' (by simp [Logs.next])]
        simp [Logs.next, window]
      · have hkops : k ∈ entered ops := by simpa [Ne.symm hj] using hk
        rw [ih _ hnest' hdistinct' hkops]
        simp [window, hj]
    | exit j =>
      obtain ⟨front, hactive, hnest⟩ := wellNested_exit hnest
      rw [next_exit s hactive]
      rw [entered_exit, hactive, List.append_assoc] at hdistinct
      refine ih ⟨front, s.entries⟩ hnest ?_ hk
      exact hdistinct.sublist (List.Sublist.append_left (List.sublist_cons_self j _) _)

end Run

end Yellowbox.ScopedLog
