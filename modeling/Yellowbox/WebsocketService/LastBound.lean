import Yellowbox.WebsocketService.RouteOrder

/-!
Runs in which the regex bound last is also the one inserted last. A service that moves a
regex to the end with each `set` resolves every path as the service does, as long as each
`set` of a regex that is there has no other regex behind it for the same path.
-/
namespace Yellowbox.WebsocketService.LastBound

open Dicts Effects RouteOrder Routes StepRuns

variable {R S : Type} {re : Regexes R} {t u : Table R S} {key : Key R}

/-- The same routes, with the entries that match a path in the same order. -/
structure Same (re : Regexes R) (t u : Table R S) : Prop where
  routes : ∀ path, t.routes.get? path = u.routes.get? path
  perm : t.reRoutes.entries.Perm u.reRoutes.entries
  matching : ∀ path, matching re path t.reRoutes.entries = matching re path u.reRoutes.entries

theorem Same.refl (re : Regexes R) (t : Table R S) : Same re t t :=
  ⟨fun _ => rfl, .rfl, fun _ => rfl⟩

theorem Same.getGenerator (h : Same re t u) (path : String) :
    t.getGenerator re path = u.getGenerator re path := by
  rw [getGenerator_eq, getGenerator_eq, h.routes, h.matching]

theorem Same.trans {w : Table R S} (h : Same re t u) (h' : Same re u w) : Same re t w :=
  ⟨fun path => (h.routes path).trans (h'.routes path), h.perm.trans h'.perm,
    fun path => (h.matching path).trans (h'.matching path)⟩

variable [DecidableEq R]

/-! ### The service by the rule -/

/-- `set` by the rule: what is bound last stands last. -/
def setByRule (re : Regexes R) (s : S) (path : PathArg) (regex : RegexArg R) :
    Act (Table R S) (Exc R) Unit := do
  let key ← Act.ofExcept (selectKey re (.typeError "path must be a string.") path regex)
  Act.modify fun t => (t.drop key).place key s

/-- Calls on a service that keeps the regexes in the order in which they were last bound. -/
def callByRule (re : Regexes R) : Service.Call R S → Act (Table R S) (Exc R) Unit
  | .set sideEffect path regex => setByRule re sideEffect path regex
  | c => Service.call re c

def stepByRule (re : Regexes R) (t : Table R S) (c : Service.Call R S) :
    Table R S × Except (Exc R) Unit :=
  ((callByRule re c t).2, (callByRule re c t).1)

/-- No regex behind this one matches a path that it matches. -/
def Alone (re : Regexes R) (t : Table R S) (r : R) : Prop :=
  ∀ item ∈ Behind t r, ∀ path, re.fullmatch r path = true → re.fullmatch item.1 path = false

/-- A `set` is for a path, for a new regex, or for one that is alone. -/
def SetsAlone (re : Regexes R) (t : Table R S) : Service.Call R S → Prop
  | .set _ path regex => ∀ r, selectKey re .keyError path regex = .ok (.regex r) → Alone re t r
  | .add .. | .remove .. | .clear | .enterPatch .. | .exitPatch .. => True

/-! ### Changes of a table -/

omit [DecidableEq R] in
theorem Same.has (h : Same re t u) : t.Has key ↔ u.Has key := by
  cases key with
  | path text =>
    change text ∈ t.routes.keys ↔ text ∈ u.routes.keys
    rw [Dict.mem_keys_iff, Dict.mem_keys_iff, h.routes]
  | regex r => exact (h.perm.map Prod.fst).mem_iff

theorem matching_filter_ne (r : R) (path : String) (entries : List (R × S)) :
    matching re path (entries.filter fun item => item.1 ≠ r) =
      (matching re path entries).filter fun item => item.1 ≠ r := by
  rw [matching, matching, List.filter_filter, List.filter_filter]
  exact List.filter_congr fun item _ => Bool.and_comm _ _

theorem Same.drop (h : Same re t u) (key : Key R) : Same re (t.drop key) (u.drop key) := by
  cases key with
  | path text =>
    refine ⟨fun path => ?_, h.perm, h.matching⟩
    change (t.routes.erase text).get? path = (u.routes.erase text).get? path
    by_cases hpath : path = text
    · have hnone : ∀ d : Dict String S, (d.erase text).get? text = none := by
        intro d
        refine Option.eq_none_iff_forall_ne_some.mpr fun v hv => ?_
        exact (Dict.mem_keys_erase.mp (Dict.mem_keys_iff.mpr ⟨v, hv⟩)).2 rfl
      rw [hpath, hnone, hnone]
    · rw [Dict.get?_erase_of_ne _ hpath, Dict.get?_erase_of_ne _ hpath, h.routes]
  | regex r =>
    refine ⟨h.routes, h.perm.filter _, fun path => ?_⟩
    have hmatching := congrArg (List.filter fun item => item.1 ≠ r) (h.matching path)
    rwa [← matching_filter_ne, ← matching_filter_ne] at hmatching

theorem same_place_path (t : Table R S) (text : String) (s : S) :
    Same re (t.place (.path text) s) ((t.drop (.path text)).place (.path text) s) :=
  ⟨routes_drop_place t text s, .rfl, fun _ => rfl⟩

/-- A path is placed in the same way wherever it stands. -/
theorem Same.place_path (h : Same re t u) (text : String) (s : S) :
    Same re (t.place (.path text) s) (u.place (.path text) s) := by
  refine ⟨fun path => ?_, h.perm, h.matching⟩
  change (t.routes.set text s).get? path = (u.routes.set text s).get? path
  by_cases hpath : path = text
  · rw [hpath, Dict.get?_set_self, Dict.get?_set_self]
  · rw [Dict.get?_set_of_ne _ hpath, Dict.get?_set_of_ne _ hpath, h.routes]

theorem Same.place_new (h : Same re t u) (hnew : ¬t.Has key) (s : S) :
    Same re (t.place key s) (u.place key s) := by
  cases key with
  | path text => exact h.place_path text s
  | regex r =>
    have ht : (t.place (.regex r) s).reRoutes.entries = t.reRoutes.entries ++ [(r, s)] :=
      Dict.entries_set_of_not_mem hnew s
    have hu : (u.place (.regex r) s).reRoutes.entries = u.reRoutes.entries ++ [(r, s)] :=
      Dict.entries_set_of_not_mem (fun hmem => hnew (h.has.mpr hmem)) s
    refine ⟨h.routes, ?_, fun path => ?_⟩
    · rw [ht, hu]
      exact h.perm.append_right _
    · rw [ht, hu, matching_append, matching_append, h.matching]

/-- A regex that is alone is set as if it were removed and added. -/
theorem same_drop_place {r : R} (h : t.Has (.regex r)) (halone : Alone re t r) (s : S) :
    Same re (t.place (.regex r) s) ((t.drop (.regex r)).place (.regex r) s) := by
  obtain ⟨before, old, -, hset, herase⟩ := split_of_has h
  have hplaced : (t.place (.regex r) s).reRoutes.entries = before ++ (r, s) :: Behind t r := hset s
  have hmoved : ((t.drop (.regex r)).place (.regex r) s).reRoutes.entries =
      before ++ Behind t r ++ [(r, s)] := by
    rw [entries_drop_place, herase]
  refine ⟨fun _ => rfl, ?_, fun path => ?_⟩
  · rw [hplaced, hmoved, List.append_assoc]
    exact (List.perm_append_singleton _ _).symm.append_left before
  · rw [hplaced, hmoved, matching_append, matching_append, matching_append, matching_singleton]
    cases hmatch : re.fullmatch r path with
    | false =>
      rw [matching_cons_of_not hmatch, List.append_assoc]
      exact congrArg _ (List.append_nil _).symm
    | true =>
      have hbehind : matching re path (Behind t r) = [] :=
        List.filter_eq_nil_iff.mpr fun item hitem => by simp [halone item hitem path hmatch]
      have hfirst : matching re path ((r, s) :: Behind t r) = [(r, s)] := by
        rw [matching, List.filter_cons_of_pos (by exact hmatch)]
        exact congrArg _ hbehind
      rw [hfirst, hbehind, List.append_nil]
      rfl

/-- Dropping a key that is not there changes nothing. -/
theorem drop_of_not_has (h : ¬t.Has key) : t.drop key = t := by
  cases key with
  | path text => exact congrArg (Table.mk · t.reRoutes) (Dict.erase_of_not_mem h)
  | regex r => exact congrArg (Table.mk t.routes) (Dict.erase_of_not_mem h)

theorem Same.set (h : Same re t u) (key : Key R) (halone : ∀ r, key = .regex r → Alone re t r)
    (s : S) : Same re (t.place key s) ((u.drop key).place key s) := by
  have hdropped : Same re ((t.drop key).place key s) ((u.drop key).place key s) :=
    (h.drop key).place_new (not_has_drop t key) s
  by_cases hhas : t.Has key
  · cases key with
    | path text => exact (same_place_path t text s).trans hdropped
    | regex r => exact (same_drop_place hhas (halone r rfl) s).trans hdropped
  · have hnew := h.place_new hhas s
    rwa [← drop_of_not_has fun hu => hhas (h.has.mpr hu)] at hnew

/-! ### Calls and runs -/

theorem setByRule_snd (re : Regexes R) (s : S) (path : PathArg) (regex : RegexArg R)
    (t : Table R S) :
    (setByRule re s path regex t).2 =
      afterKey (selectKey re (.typeError "path must be a string.") path regex) t fun key =>
        (t.drop key).place key s := by
  rw [setByRule, Act.ofExcept_bind]
  cases selectKey re (.typeError "path must be a string.") path regex <;> rfl

omit [DecidableEq R] in
theorem Same.afterKey (h : Same re t u) {selected : Except (Exc R) (Key R)}
    {change change' : Key R → Table R S}
    (hchange : ∀ key, selected = .ok key → Same re (change key) (change' key)) :
    Same re (afterKey selected t change) (afterKey selected u change') := by
  cases selected with
  | error e => exact h
  | ok key => exact hchange key rfl

theorem Same.add (h : Same re t u) (s : S) (path : PathArg) (regex : RegexArg R) :
    Same re (Service.add re s path regex t).2 (Service.add re s path regex u).2 := by
  rw [add_snd, add_snd]
  refine h.afterKey fun key _ => ?_
  by_cases hhas : t.Has key
  · rw [if_pos hhas, if_pos (h.has.mp hhas)]
    exact h
  · rw [if_neg hhas, if_neg fun hu => hhas (h.has.mpr hu)]
    exact h.place_new hhas s

theorem Same.remove (h : Same re t u) (path : PathArg) (regex : RegexArg R) :
    Same re (Service.remove re path regex t).2 (Service.remove re path regex u).2 := by
  rw [remove_snd, remove_snd]
  refine h.afterKey fun key _ => ?_
  by_cases hhas : t.Has key
  · rw [if_pos hhas, if_pos (h.has.mp hhas)]
    exact h.drop key
  · rw [if_neg hhas, if_neg fun hu => hhas (h.has.mpr hu)]
    exact h

/-- A call leaves the routes the same as the rule has them. -/
theorem Same.step (t u : Table R S) (c : Service.Call R S) (halone : SetsAlone re t c)
    (h : Same re t u) : Same re (Service.step re t c).1 (stepByRule re u c).1 := by
  cases c with
  | add sideEffect path regex => exact h.add sideEffect path regex
  | enterPatch sideEffect path regex => exact h.add sideEffect path regex
  | remove path regex => exact h.remove path regex
  | exitPatch path regex => exact h.remove path regex
  | clear => exact Same.refl re _
  | set sideEffect path regex =>
    change Same re (Service.set re sideEffect path regex t).2
      (setByRule re sideEffect path regex u).2
    rw [set_snd, setByRule_snd]
    refine h.afterKey fun key hkey => h.set key (fun r hr => ?_) sideEffect
    exact halone r (hr ▸ selectKey_ok hkey)

/-- A service whose calls of `set` are alone resolves every path by what was bound last. -/
theorem run_resolves_by_last_bound {calls : List (Service.Call R S)}
    (hrun : Along (Service.step re) (SetsAlone re) Table.empty calls) (path : String) :
    (Service.run re calls).getGenerator re path =
      (exec (stepByRule re) Table.empty calls).getGenerator re path :=
  (exec_related (Service.step re) (stepByRule re) (SetsAlone re) (Same re) Same.step hrun
    (Same.refl re Table.empty)).getGenerator path

end Yellowbox.WebsocketService.LastBound
