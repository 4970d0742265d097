import Mathlib.Data.List.Find
import Yellowbox.WebsocketService.Routes

/-!
When `set` is `remove` and then `add`. For an exact path it always is. For a regex it is
unless some path is also matched by a regex that stands behind it with another side
effect. A regex stands where it was inserted, and of those that match a path the one
inserted last resolves it.
-/
namespace Yellowbox.WebsocketService.RouteOrder

open Dicts Effects Routes StepRuns

variable {R S : Type} {re : Regexes R}

/-! ### Lookups -/

/-- The entries that match a path, in their order. -/
def matching (re : Regexes R) (path : String) (entries : List (R × S)) : List (R × S) :=
  entries.filter fun item => re.fullmatch item.1 path

theorem matching_append (path : String) (l l' : List (R × S)) :
    matching re path (l ++ l') = matching re path l ++ matching re path l' := List.filter_append ..

theorem matching_singleton (path : String) (r : R) (s : S) :
    matching re path [(r, s)] = if re.fullmatch r path then [(r, s)] else [] := by
  rw [matching, List.filter_singleton]
  cases re.fullmatch r path <;> rfl

theorem find?_reverse_eq (path : String) (entries : List (R × S)) :
    entries.reverse.find? (fun item => re.fullmatch item.1 path) =
      (matching re path entries).getLast? := by
  rw [← List.head?_filter, List.filter_reverse, List.head?_reverse]
  rfl

theorem matching_cons_of_not {r : R} {path : String} (h : re.fullmatch r path = false) (s : S)
    (entries : List (R × S)) : matching re path ((r, s) :: entries) = matching re path entries :=
  List.filter_cons_of_neg (by simp [h])

variable {t u : Table R S} {key : Key R}

/-- A path without an exact route is resolved by the last entry that matches it. -/
theorem getGenerator_eq (path : String) :
    t.getGenerator re path =
      (t.routes.get? path).or (((matching re path t.reRoutes.entries).getLast?).map Prod.snd) := by
  unfold Table.getGenerator
  rw [find?_reverse_eq]
  cases t.routes.get? path <;> rfl

/-! ### One call -/

variable {path : PathArg} {regex : RegexArg R} {s : S}

/-- What a call selects does not depend on what it raises for other arguments. -/
theorem selectKey_ok {notText notText' : Exc R}
    (h : selectKey re notText path regex = .ok key) :
    selectKey re notText' path regex = .ok key := by
  unfold selectKey at h ⊢
  split at h
  · cases h
  · cases h
  · cases h
  · exact h
  · split at h
    · exact h
    · cases h
    · cases h

variable [DecidableEq R]

/-- The entries that stand behind that of a regex. -/
def Behind (t : Table R S) (r : R) : List (R × S) :=
  (t.reRoutes.entries.dropWhile fun item => item.1 ≠ r).tail

/-- What a path would be resolved to by the regexes behind this one alone. -/
def overtaking (re : Regexes R) (t : Table R S) (r : R) (path : String) : Option S :=
  ((matching re path (Behind t r)).getLast?).map Prod.snd

/-- The key is a path, or no path that its regex matches is resolved to another side
effect by a regex that stands behind it. -/
def KeepsRule (re : Regexes R) (t : Table R S) (key : Key R) (sideEffect : S) : Prop :=
  match key with
  | .path _ => True
  | .regex r => ∀ path, t.routes.get? path = none → re.fullmatch r path = true →
      overtaking re t r path = none ∨ overtaking re t r path = some sideEffect

/-- How the entries change when a regex that is there is set, and when it is removed. -/
theorem split_of_has {r : R} (h : t.Has (.regex r)) :
    ∃ before old, t.reRoutes.entries = before ++ (r, old) :: Behind t r ∧
      (∀ s, (t.reRoutes.set r s).entries = before ++ (r, s) :: Behind t r) ∧
      (t.reRoutes.erase r).entries = before ++ Behind t r := by
  obtain ⟨before, old, later, hentries, hset, herase⟩ := Dict.split_of_mem_keys h
  have hbefore : ∀ item ∈ before, item.1 ≠ r := by
    intro item hitem heq
    have hnodup := t.reRoutes.nodup
    rw [hentries, List.map_append] at hnodup
    refine List.disjoint_of_nodup_append hnodup (List.mem_map_of_mem hitem) ?_
    rw [heq]
    exact List.mem_cons_self
  have hbehind : Behind t r = later := by
    rw [Behind, hentries, List.dropWhile_append_of_pos fun item hitem =>
      decide_eq_true (hbefore item hitem), List.dropWhile_cons_of_neg (by simp), List.tail_cons]
  rw [hbehind]
  exact ⟨before, old, hentries, hset, herase⟩

theorem not_has_drop (t : Table R S) (key : Key R) : ¬(t.drop key).Has key := by
  cases key with
  | path text => exact fun h => (Dict.mem_keys_erase.mp h).2 rfl
  | regex r => exact fun h => (Dict.mem_keys_erase.mp h).2 rfl

/-- Removed and added, a regex stands behind all others. -/
theorem entries_drop_place (t : Table R S) (r : R) (s : S) :
    ((t.drop (.regex r)).place (.regex r) s).reRoutes.entries =
      (t.reRoutes.erase r).entries ++ [(r, s)] :=
  Dict.entries_set_of_not_mem (not_has_drop t (.regex r)) s

/-- What is behind a regex wins over its new side effect. -/
theorem getGenerator_place {r : R} (h : t.Has (.regex r)) (s : S) {path : String}
    (hmatch : re.fullmatch r path = true) :
    (t.place (.regex r) s).getGenerator re path =
      (t.routes.get? path).or ((overtaking re t r path).or (some s)) := by
  obtain ⟨before, old, -, hset, -⟩ := split_of_has h
  have hlast : ((matching re path (before ++ (r, s) :: Behind t r)).getLast?).map Prod.snd =
      (overtaking re t r path).or (some s) := by
    rw [← List.singleton_append, ← List.append_assoc, matching_append, matching_append,
      matching_singleton, if_pos hmatch, List.getLast?_append, List.getLast?_concat, overtaking]
    cases (matching re path (Behind t r)).getLast? <;> rfl
  rw [getGenerator_eq, ← hlast, ← hset s]
  rfl

theorem getGenerator_drop_place (r : R) (s : S) {path : String}
    (hmatch : re.fullmatch r path = true) :
    ((t.drop (.regex r)).place (.regex r) s).getGenerator re path =
      (t.routes.get? path).or (some s) := by
  rw [getGenerator_eq, entries_drop_place, matching_append, matching_singleton, if_pos hmatch,
    List.getLast?_concat]
  rfl

theorem getGenerator_of_not_match {r : R} (h : t.Has (.regex r)) (s : S) {path : String}
    (hmatch : re.fullmatch r path = false) :
    (t.place (.regex r) s).getGenerator re path =
      ((t.drop (.regex r)).place (.regex r) s).getGenerator re path := by
  obtain ⟨before, old, -, hset, herase⟩ := split_of_has h
  have hplaced : (t.place (.regex r) s).reRoutes.entries = before ++ (r, s) :: Behind t r := hset s
  have hsame : matching re path (t.place (.regex r) s).reRoutes.entries =
      matching re path ((t.drop (.regex r)).place (.regex r) s).reRoutes.entries := by
    rw [entries_drop_place, herase, hplaced, matching_append, matching_append, matching_append,
      matching_cons_of_not hmatch, matching_cons_of_not hmatch]
    exact (List.append_nil _).symm
  rw [getGenerator_eq, getGenerator_eq, hsame]
  rfl

/-- A path that is set has the same routes as one that is removed and added. -/
theorem routes_drop_place (t : Table R S) (text : String) (s : S) (path : String) :
    (t.place (.path text) s).routes.get? path =
      ((t.drop (.path text)).place (.path text) s).routes.get? path := by
  simp only [Table.place, Table.drop]
  by_cases hpath : path = text
  · rw [hpath, Dict.get?_set_self, Dict.get?_set_self]
  · rw [Dict.get?_set_of_ne _ hpath, Dict.get?_set_of_ne _ hpath, Dict.get?_erase_of_ne _ hpath]

theorem place_eq_drop_place_iff (h : t.Has key) (s : S) :
    (∀ path, (t.place key s).getGenerator re path =
        ((t.drop key).place key s).getGenerator re path) ↔ KeepsRule re t key s := by
  cases key with
  | path text =>
    refine iff_of_true (fun path => ?_) trivial
    rw [getGenerator_eq, getGenerator_eq, routes_drop_place]
    rfl
  | regex r =>
    constructor
    · intro heq path hexact hmatch
      have hpath := heq path
      rw [getGenerator_place h s hmatch, getGenerator_drop_place r s hmatch, hexact,
        Option.none_or, Option.none_or] at hpath
      cases hover : overtaking re t r path with
      | none => exact Or.inl rfl
      | some s' =>
        rw [hover] at hpath
        exact Or.inr hpath
    · intro hkeeps path
      cases hmatch : re.fullmatch r path with
      | false => exact getGenerator_of_not_match h s hmatch
      | true =>
        rw [getGenerator_place h s hmatch, getGenerator_drop_place r s hmatch]
        cases hexact : t.routes.get? path with
        | some callback => rfl
        | none =>
          rcases hkeeps path hexact hmatch with hover | hover
          · rw [hover]
            rfl
          · rw [hover]
            rfl

theorem set_eq {notText : Exc R} (h : selectKey re notText path regex = .ok key) :
    Service.set re s path regex t = (.ok (), t.place key s) := by
  have hselect : selectKey re (.typeError "path must be a string.") path regex = .ok key :=
    selectKey_ok h
  simp only [Service.set, Service.addWith, Act.ofExcept_bind, hselect, Act.get_bind,
    Act.raiseIf_bind, Bool.not_true, Bool.false_and, Bool.false_eq_true, if_false]
  rfl

theorem remove_eq {notText : Exc R} (h : selectKey re notText path regex = .ok key)
    (hhas : t.Has key) : Service.remove re path regex t = (.ok (), t.drop key) := by
  have hselect : selectKey re .keyError path regex = .ok key := selectKey_ok h
  simp only [Service.remove, Act.ofExcept_bind, hselect, Act.get_bind, Act.raiseIf_bind, hhas,
    decide_true, Bool.not_true, Bool.false_eq_true, if_false]
  rfl

theorem add_eq {notText : Exc R} (h : selectKey re notText path regex = .ok key)
    (hhas : ¬t.Has key) : Service.add re s path regex t = (.ok (), t.place key s) := by
  have hselect : selectKey re (.typeError "path must be a string.") path regex = .ok key :=
    selectKey_ok h
  simp only [Service.add, Service.addWith, Act.ofExcept_bind, hselect, Act.get_bind,
    Act.raiseIf_bind, hhas, decide_false, Bool.and_false, Bool.false_eq_true, if_false]
  rfl

/-- The table after a call that does this with the key that it selects. -/
def afterKey (selected : Except (Exc R) (Key R)) (t : Table R S) (change : Key R → Table R S) :
    Table R S :=
  match selected with
  | .error _ => t
  | .ok key => change key

theorem add_snd (re : Regexes R) (s : S) (path : PathArg) (regex : RegexArg R) (t : Table R S) :
    (Service.add re s path regex t).2 =
      afterKey (selectKey re (.typeError "path must be a string.") path regex) t fun key =>
        if t.Has key then t else t.place key s := by
  rw [Service.add, Service.addWith, Act.ofExcept_bind]
  cases selectKey re (.typeError "path must be a string.") path regex with
  | error e => rfl
  | ok key =>
    simp only [Act.get_bind, Act.raiseIf_bind, afterKey]
    by_cases hhas : t.Has key
    · simp [hhas]
    · simp [hhas, Act.modify]

theorem set_snd (re : Regexes R) (s : S) (path : PathArg) (regex : RegexArg R) (t : Table R S) :
    (Service.set re s path regex t).2 =
      afterKey (selectKey re (.typeError "path must be a string.") path regex) t fun key =>
        t.place key s := by
  rw [Service.set, Service.addWith, Act.ofExcept_bind]
  cases selectKey re (.typeError "path must be a string.") path regex <;> rfl

theorem remove_snd (re : Regexes R) (path : PathArg) (regex : RegexArg R) (t : Table R S) :
    (Service.remove re path regex t).2 =
      afterKey (selectKey re .keyError path regex) t fun key =>
        if t.Has key then t.drop key else t := by
  rw [Service.remove, Act.ofExcept_bind]
  cases selectKey re .keyError path regex with
  | error e => rfl
  | ok key =>
    simp only [Act.get_bind, Act.raiseIf_bind, afterKey]
    by_cases hhas : t.Has key
    · simp [hhas, Act.modify]
    · simp [hhas]

/-! ### The order of insertion -/

/-- The regex that is inserted where a key is bound: one that was not there. -/
def newRegex (t : Table R S) : Except (Exc R) (Key R) → Option R
  | .ok (.regex r) => if t.Has (.regex r) then none else some r
  | .ok (.path _) | .error _ => none

/-- The regex that a call inserts. -/
def inserted (re : Regexes R) (t : Table R S) : Service.Call R S → Option R
  | .add _ path regex | .set _ path regex | .enterPatch _ path regex =>
    newRegex t (selectKey re (.typeError "path must be a string.") path regex)
  | .remove .. | .clear | .exitPatch .. => none

/-- The regexes in the order in which these calls inserted them, also those that are no
longer there. -/
def insertions (re : Regexes R) (calls : List (Service.Call R S)) : List R :=
  visible (Service.step re) (inserted re) Table.empty calls

/-- An exact path wins, otherwise among the regexes that are there and fully match the one
inserted last. -/
def lastInserted (re : Regexes R) (calls : List (Service.Call R S)) (path : String) : Option S :=
  let t := Service.run re calls
  (t.routes.get? path).or
    (((insertions re calls).reverse.find? fun r =>
      decide (t.Has (.regex r)) && re.fullmatch r path).bind t.reRoutes.get?)

/-- Whatever is looked for among the regexes that are there, it is found last in the
insertions where it is found last in the table. -/
def InOrder (history : List R) (t : Table R S) : Prop :=
  ∀ q : R → Bool, (∀ r, q r = true → t.Has (.regex r)) →
    history.reverse.find? q = t.reRoutes.keys.reverse.find? q

variable {history : List R}

omit [DecidableEq R] in
theorem InOrder.of_keys (h : InOrder history t) (hkeys : u.reRoutes.keys = t.reRoutes.keys) :
    InOrder history u := by
  intro q hq
  rw [hkeys]
  refine h q fun r hr => ?_
  have hmem : r ∈ u.reRoutes.keys := hq r hr
  rwa [hkeys] at hmem

theorem keys_place_of_has {r : R} (h : t.Has (.regex r)) (s : S) :
    (t.place (.regex r) s).reRoutes.keys = t.reRoutes.keys := by
  obtain ⟨before, old, hentries, hset, -⟩ := split_of_has h
  change (t.reRoutes.set r s).entries.map Prod.fst = t.reRoutes.entries.map Prod.fst
  rw [hset, hentries]
  simp only [List.map_append, List.map_cons]

/-- A new regex comes last in both. -/
theorem InOrder.place_new (h : InOrder history t) {r : R} (hnew : ¬t.Has (.regex r)) (s : S) :
    InOrder (history ++ [r]) (t.place (.regex r) s) := by
  intro q hq
  have hkeys : (t.place (.regex r) s).reRoutes.keys = t.reRoutes.keys ++ [r] := by
    change (t.reRoutes.set r s).entries.map Prod.fst = _
    rw [Dict.entries_set_of_not_mem hnew, List.map_append]
    rfl
  rw [hkeys, List.reverse_concat, List.reverse_concat, List.find?_cons, List.find?_cons]
  cases hr : q r with
  | true => rfl
  | false =>
    refine h q fun r' hr' => ?_
    have hmem : r' ∈ (t.place (.regex r) s).reRoutes.keys := hq r' hr'
    rw [hkeys, List.mem_append, List.mem_singleton] at hmem
    refine hmem.resolve_right fun heq => ?_
    rw [heq, hr] at hr'
    cases hr'

/-- What is removed is looked for no longer. -/
theorem InOrder.drop (h : InOrder history t) (r : R) : InOrder history (t.drop (.regex r)) := by
  intro q hq
  have hkept : ∀ r', q r' = true → t.Has (.regex r') ∧ r' ≠ r :=
    fun r' hr' => Dict.mem_keys_erase.mp (hq r' hr')
  have hkeys : (t.drop (.regex r)).reRoutes.keys =
      t.reRoutes.keys.filter fun r' => decide (r' ≠ r) := by
    rw [Dict.keys, Dict.keys, List.filter_map]
    rfl
  rw [h q fun r' hr' => (hkept r' hr').1, hkeys, ← List.filter_reverse, List.find?_filter]
  refine List.find?_congr fun r' _ => ?_
  cases hr' : q r' with
  | false => simp
  | true => simp [(hkept r' hr').2]

theorem newRegex_of_has (h : t.Has key) : newRegex t (.ok key) = none := by
  cases key with
  | path text => rfl
  | regex r => exact if_pos h

theorem InOrder.place (h : InOrder history t) (key : Key R) (s : S) :
    InOrder (history ++ (newRegex t (.ok key)).toList) (t.place key s) := by
  by_cases hhas : t.Has key
  · rw [newRegex_of_has hhas, Option.toList_none, List.append_nil]
    cases key with
    | path text => exact h.of_keys rfl
    | regex r => exact h.of_keys (keys_place_of_has hhas s)
  · cases key with
    | path text =>
      rw [newRegex, Option.toList_none, List.append_nil]
      exact h.of_keys rfl
    | regex r =>
      rw [newRegex, if_neg hhas]
      exact h.place_new hhas s

theorem InOrder.add (h : InOrder history t) (s : S) (path : PathArg) (regex : RegexArg R) :
    InOrder (history ++ (inserted re t (.add s path regex)).toList)
      (Service.add re s path regex t).2 := by
  rw [add_snd, inserted]
  cases selectKey re (.typeError "path must be a string.") path regex with
  | error e => rwa [newRegex, Option.toList_none, List.append_nil]
  | ok key =>
    rw [afterKey]
    by_cases hhas : t.Has key
    · rwa [if_pos hhas, newRegex_of_has hhas, Option.toList_none, List.append_nil]
    · rw [if_neg hhas]
      exact h.place key s

theorem InOrder.set (h : InOrder history t) (s : S) (path : PathArg) (regex : RegexArg R) :
    InOrder (history ++ (inserted re t (.set s path regex)).toList)
      (Service.set re s path regex t).2 := by
  rw [set_snd, inserted]
  cases selectKey re (.typeError "path must be a string.") path regex with
  | error e => rwa [newRegex, Option.toList_none, List.append_nil]
  | ok key => exact h.place key s

theorem InOrder.remove (h : InOrder history t) (path : PathArg) (regex : RegexArg R) :
    InOrder history (Service.remove re path regex t).2 := by
  rw [remove_snd]
  cases selectKey re .keyError path regex with
  | error e => exact h
  | ok key =>
    rw [afterKey]
    by_cases hhas : t.Has key
    · rw [if_pos hhas]
      cases key with
      | path text => exact h.of_keys rfl
      | regex r => exact h.drop r
    · rwa [if_neg hhas]

omit [DecidableEq R] in
theorem inOrder_empty (history : List R) : InOrder history (Table.empty : Table R S) := by
  intro q hq
  refine List.find?_eq_none.mpr fun r _ hr => ?_
  exact List.not_mem_nil (hq r hr)

/-- A call inserts at the end, if it inserts a regex. -/
theorem InOrder.step (re : Regexes R) (h : InOrder history t) (c : Service.Call R S) :
    InOrder (history ++ (inserted re t c).toList) (Service.step re t c).1 := by
  cases c with
  | add sideEffect path regex => exact h.add sideEffect path regex
  | enterPatch sideEffect path regex => exact h.add sideEffect path regex
  | set sideEffect path regex => exact h.set sideEffect path regex
  | remove path regex =>
    rw [inserted, Option.toList_none, List.append_nil]
    exact h.remove path regex
  | exitPatch path regex =>
    rw [inserted, Option.toList_none, List.append_nil]
    exact h.remove path regex
  | clear => exact inOrder_empty _

theorem InOrder.exec (h : InOrder history t) (calls : List (Service.Call R S)) :
    InOrder (history ++ visible (Service.step re) (inserted re) t calls)
      (exec (Service.step re) t calls) := by
  induction calls generalizing history t with
  | nil => rwa [visible_nil, List.append_nil]
  | cons c calls ih =>
    have hrest := ih (h.step re c)
    cases hinserted : inserted re t c with
    | none =>
      rw [hinserted, Option.toList_none, List.append_nil] at hrest
      rwa [visible_cons_none (Service.step re) (inserted re) calls hinserted]
    | some r =>
      rw [hinserted, List.append_assoc] at hrest
      rwa [visible_cons_some (Service.step re) (inserted re) calls hinserted]

/-- The side effect of the last entry that matches is what its regex is bound to. -/
theorem find?_entries_eq (d : Dict R S) (path : String) :
    (d.entries.reverse.find? fun item => re.fullmatch item.1 path).map Prod.snd =
      (d.keys.reverse.find? fun r => re.fullmatch r path).bind d.get? := by
  rw [Dict.keys, ← List.map_reverse, List.find?_map]
  cases hfind : d.entries.reverse.find? (fun item => re.fullmatch item.1 path) with
  | none => rw [Function.comp_def, hfind]; rfl
  | some item =>
    rw [Function.comp_def, hfind]
    have hmem := List.mem_reverse.mp (List.mem_of_find?_eq_some hfind)
    exact (Dict.mem_entries_iff.mp hmem).symm

theorem getGenerator_run (re : Regexes R) (calls : List (Service.Call R S)) (path : String) :
    (Service.run re calls).getGenerator re path = lastInserted re calls path := by
  have horder : InOrder (insertions re calls) (Service.run re calls) :=
    (inOrder_empty []).exec calls
  have hfind := horder
    (fun r => decide ((Service.run re calls).Has (.regex r)) && re.fullmatch r path)
    fun r hr => of_decide_eq_true (Bool.and_eq_true_iff.mp hr).1
  have hkeys : (Service.run re calls).reRoutes.keys.reverse.find?
        (fun r => decide ((Service.run re calls).Has (.regex r)) && re.fullmatch r path) =
      (Service.run re calls).reRoutes.keys.reverse.find? fun r => re.fullmatch r path := by
    refine List.find?_congr fun r hr => ?_
    have hhas : (Service.run re calls).Has (.regex r) := List.mem_reverse.mp hr
    rw [decide_eq_true hhas, Bool.true_and]
  rw [lastInserted, hfind, hkeys, ← find?_entries_eq, Table.getGenerator]
  cases (Service.run re calls).routes.get? path <;> rfl

/-- On a table that has the key, `set` resolves every path as `remove` and then `add`
exactly when the key is a path or no regex behind it stands in its way; and every service
resolves each path by an exact route, or else by the regex inserted last. -/
theorem set_remove_add_iff (re : Regexes R) :
    (∀ (t : Table R S) (path : PathArg) (regex : RegexArg R) (key : Key R) (s : S),
      selectKey re .keyError path regex = .ok key → t.Has key →
      ((∀ p, (Service.set re s path regex t).2.getGenerator re p =
          ((Service.remove re path regex >>= fun _ => Service.add re s path regex) t).2.getGenerator
            re p) ↔
        KeepsRule re t key s)) ∧
      ∀ (calls : List (Service.Call R S)) (p : String),
        (Service.run re calls).getGenerator re p = lastInserted re calls p := by
  refine ⟨fun t path regex key s hselect hhas => ?_, getGenerator_run re⟩
  rw [set_eq hselect, Act.bind_ok (remove_eq hselect hhas), add_eq hselect (not_has_drop t key)]
  exact place_eq_drop_place_iff hhas s

/-- Patterns that are a text, or a text with `.*` behind it. -/
def simplePatterns : Regexes String where
  compile := some
  fullmatch pattern path :=
    if ".*".toList.isSuffixOf pattern.toList then
      (pattern.toList.take (pattern.toList.length - 2)).isPrefixOf path.toList
    else pattern == path

/-- Two regexes that overlap, the wider one bound last. -/
def overlapping : Table String String :=
  Service.run simplePatterns [.add "a" .omitted (.text "/a.*"), .add "b" .omitted (.text "/.*")]

theorem set_remove_add_iff_overlapping :
    (∀ p, (Service.set simplePatterns "c" .omitted (.text "/.*") overlapping).2.getGenerator
          simplePatterns p =
        ((Service.remove simplePatterns .omitted (.text "/.*") >>= fun _ =>
          Service.add simplePatterns "c" .omitted (.text "/.*")) overlapping).2.getGenerator
          simplePatterns p) ↔
      KeepsRule simplePatterns overlapping (.regex "/.*") "c" :=
  (set_remove_add_iff simplePatterns).1 overlapping .omitted (.text "/.*") (.regex "/.*") "c"
    rfl (by decide)

/-- After a new side effect for `/a.*`, the path `/ab` is still resolved by `/.*`. -/
theorem set_regex_not_last :
    ¬(∀ (re : Regexes String) (calls : List (Service.Call String String)) (path : PathArg)
      (regex : RegexArg String) (key : Key String) (s : String),
      selectKey re .keyError path regex = .ok key → (Service.run re calls).Has key →
      ∀ p, (Service.set re s path regex (Service.run re calls)).2.getGenerator re p =
        ((Service.remove re path regex >>= fun _ => Service.add re s path regex)
          (Service.run re calls)).2.getGenerator re p) := by
  intro h
  have hpath := h simplePatterns
    [.add "a" .omitted (.text "/a.*"), .add "b" .omitted (.text "/.*")] .omitted (.text "/a.*")
    (.regex "/a.*") "c" rfl (by decide) "/ab"
  exact absurd hpath (by decide +kernel)

end Yellowbox.WebsocketService.RouteOrder
