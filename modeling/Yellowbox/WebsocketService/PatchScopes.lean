import Yellowbox.WebsocketService.RouteOrder

/-!
Programs that patch the routes of a `WebsocketService` by `with service.patch(..)`, to any
depth, while clients connect. To such a program the table of the service looks like an
environment: a path is resolved by the patches around the place where the program is, the
innermost first, over the routes from before. Nothing of a patch is left behind it.
-/
namespace Yellowbox.WebsocketService.PatchScopes

open Dicts Effects RouteOrder Routes

instance {R : Type} [DecidableEq R] : DecidableEq (Key R)
  | .path text, .path text' => decidable_of_iff (text = text') (by rw [Key.path.injEq])
  | .regex r, .regex r' => decidable_of_iff (r = r') (by rw [Key.regex.injEq])
  | .path _, .regex _ => isFalse (fun h => by cases h)
  | .regex _, .path _ => isFalse (fun h => by cases h)

/-- What a program raises: the error of a call, or an exception of its own. -/
inductive Raised (R E : Type)
  | call (error : Exc R)
  | own (error : E)

/-- The table, and the side effects that the connections made so far were given. -/
structure World (R S : Type) where
  table : Table R S
  resolved : List (Option S)

/-- The statements of a program; what it does next may depend on what a client was given,
and on what was raised. -/
inductive Program (R S E : Type)
  | pass
  | raise (error : E)
  | connect (path : String) (next : Option S → Program R S E)
  | seq (first second : Program R S E)
  | tryExcept (body : Program R S E) (handler : Raised R E → Program R S E)
  | patch (sideEffect : S) (path : PathArg) (regex : RegexArg R) (body : Program R S E)

variable {R S E : Type} [DecidableEq R]

/-- A call on the service, as a statement of a program. -/
def onTable (call : Act (Table R S) (Exc R) Unit) : Act (World R S) (Raised R E) Unit := fun w =>
  ((call w.table).1.mapError .call, { w with table := (call w.table).2 })

/-- What `connected` asks for. -/
def connect (re : Regexes R) (path : String) : Act (World R S) (Raised R E) (Option S) := do
  let w ← Act.get
  let callback := w.table.getGenerator re path
  Act.modify fun w => { w with resolved := w.resolved ++ [callback] }
  return callback

def Program.run (re : Regexes R) : Program R S E → Act (World R S) (Raised R E) Unit
  | .pass => pure ()
  | .raise error => Act.raise (.own error)
  | .connect path next => PatchScopes.connect re path >>= fun callback => (next callback).run re
  | .seq first second => first.run re >>= fun _ => second.run re
  | .tryExcept body handler => Act.handle (body.run re) fun error => (handler error).run re
  | .patch sideEffect path regex body =>
    Act.withScope (onTable (Service.add re sideEffect path regex))
      (onTable (Service.remove re path regex)) (body.run re)

/-! ### The environment -/

def isPath (path : String) : Key R → Bool
  | .path text => text = path
  | .regex _ => false

def matchesPath (re : Regexes R) (path : String) : Key R → Bool
  | .path _ => false
  | .regex r => re.fullmatch r path

/-- The patches around a place in the program, the innermost first. -/
abbrev Patches (R S : Type) := List (Key R × S)

/-- An exact path wins over every regex, and a patch over everything outside it. -/
def resolve (re : Regexes R) (t : Table R S) (patches : Patches R S) (path : String) :
    Option S :=
  let exact := (patches.find? fun patch => isPath path patch.1).map Prod.snd
  let regex := (patches.find? fun patch => matchesPath re path patch.1).map Prod.snd
  (exact.or (t.routes.get? path)).or
    (regex.or ((t.reRoutes.entries.reverse.find? fun item => re.fullmatch item.1 path).map
      Prod.snd))

/-- How a program ends that is inside these patches, and what its clients are given. -/
def Program.eval (re : Regexes R) (t : Table R S) :
    Program R S E → Patches R S → Except (Raised R E) Unit × List (Option S)
  | .pass, _ => (.ok (), [])
  | .raise error, _ => (.error (.own error), [])
  | .connect path next, patches =>
    let callback := resolve re t patches path
    let (result, resolved) := (next callback).eval re t patches
    (result, callback :: resolved)
  | .seq first second, patches =>
    match first.eval re t patches with
    | (.error error, resolved) => (.error error, resolved)
    | (.ok (), resolved) =>
      let (result, resolved') := second.eval re t patches
      (result, resolved ++ resolved')
  | .tryExcept body handler, patches =>
    match body.eval re t patches with
    | (.ok (), resolved) => (.ok (), resolved)
    | (.error error, resolved) =>
      let (result, resolved') := (handler error).eval re t patches
      (result, resolved ++ resolved')
  | .patch sideEffect path regex body, patches =>
    match selectKey re (.typeError "path must be a string.") path regex with
    | .error error => (.error (.call error), [])
    | .ok key =>
      if t.Has key ∨ key ∈ patches.map Prod.fst then (.error (.call (.runtimeError key)), [])
      else body.eval re t ((key, sideEffect) :: patches)

/-! ### The table that stands for an environment -/

/-- The table inside these patches. -/
def patched (t : Table R S) (patches : Patches R S) : Table R S :=
  patches.foldr (fun patch u => u.place patch.1 patch.2) t

/-- Every patch was new where it was entered. -/
def Fresh (t : Table R S) : Patches R S → Prop
  | [] => True
  | patch :: patches => ¬(patched t patches).Has patch.1 ∧ Fresh t patches

variable {re : Regexes R} {t : Table R S} {key : Key R} {patches : Patches R S}

theorem has_place (t : Table R S) (key key' : Key R) (s : S) :
    (t.place key s).Has key' ↔ key' = key ∨ t.Has key' := by
  cases key with
  | path text =>
    cases key' with
    | path text' =>
      have hset : text' ∈ (t.routes.set text s).keys ↔ text' = text ∨ text' ∈ t.routes.keys :=
        mem_keys_setEntry
      rw [Key.path.injEq]
      exact hset
    | regex r => exact ⟨Or.inr, fun h => h.resolve_left (fun heq => by cases heq)⟩
  | regex r =>
    cases key' with
    | path text' => exact ⟨Or.inr, fun h => h.resolve_left (fun heq => by cases heq)⟩
    | regex r' =>
      have hset : r' ∈ (t.reRoutes.set r s).keys ↔ r' = r ∨ r' ∈ t.reRoutes.keys :=
        mem_keys_setEntry
      rw [Key.regex.injEq]
      exact hset

theorem has_patched (t : Table R S) (patches : Patches R S) (key : Key R) :
    (patched t patches).Has key ↔ t.Has key ∨ key ∈ patches.map Prod.fst := by
  induction patches with
  | nil => simp [patched]
  | cons patch patches ih =>
    rw [patched, List.foldr_cons, has_place, List.map_cons, List.mem_cons]
    change key = patch.1 ∨ (patched t patches).Has key ↔ _
    rw [ih]
    tauto

/-- Leaving a patch gives back the table, with its routes in the same order. -/
theorem drop_place (h : ¬t.Has key) (s : S) : (t.place key s).drop key = t := by
  cases key with
  | path text => exact congrArg (Table.mk · t.reRoutes) (Dict.erase_set_of_not_mem h s)
  | regex r => exact congrArg (Table.mk t.routes) (Dict.erase_set_of_not_mem h s)

/-! ### Lookups inside patches -/

theorem routes_place (t : Table R S) (key : Key R) (s : S) (path : String) :
    (t.place key s).routes.get? path = if isPath path key then some s else t.routes.get? path := by
  cases key with
  | path text =>
    by_cases hpath : text = path
    · rw [hpath, if_pos (by simp [isPath])]
      exact Dict.get?_set_self t.routes path s
    · rw [if_neg (by simp [isPath, hpath])]
      exact Dict.get?_set_of_ne t.routes (Ne.symm hpath) s
  | regex r => rfl

/-- The side effect of the last regex that matches. -/
def lastMatch (re : Regexes R) (t : Table R S) (path : String) : Option S :=
  (t.reRoutes.entries.reverse.find? fun item => re.fullmatch item.1 path).map Prod.snd

theorem lastMatch_place (h : ¬t.Has key) (s : S) (path : String) :
    lastMatch re (t.place key s) path =
      if matchesPath re path key then some s else lastMatch re t path := by
  cases key with
  | path text => rfl
  | regex r =>
    have hentries : (t.place (.regex r) s).reRoutes.entries = t.reRoutes.entries ++ [(r, s)] :=
      Dict.entries_set_of_not_mem h s
    rw [lastMatch, hentries, List.reverse_concat, List.find?_cons]
    cases hmatch : re.fullmatch r path with
    | true => simp [matchesPath, hmatch]
    | false =>
      simp only [matchesPath, hmatch]
      rfl

theorem routes_patched (t : Table R S) (patches : Patches R S) (path : String) :
    (patched t patches).routes.get? path =
      ((patches.find? fun patch => isPath path patch.1).map Prod.snd).or (t.routes.get? path) := by
  induction patches with
  | nil => rfl
  | cons patch patches ih =>
    rw [patched, List.foldr_cons, routes_place, List.find?_cons]
    cases hpath : isPath path patch.1 with
    | true => rfl
    | false => exact ih

theorem lastMatch_patched (h : Fresh t patches) (path : String) :
    lastMatch re (patched t patches) path =
      ((patches.find? fun patch => matchesPath re path patch.1).map Prod.snd).or
        (lastMatch re t path) := by
  induction patches with
  | nil => rfl
  | cons patch patches ih =>
    obtain ⟨hnew, hfresh⟩ := h
    rw [patched, List.foldr_cons, List.find?_cons]
    refine (lastMatch_place hnew patch.2 path).trans ?_
    cases hmatch : matchesPath re path patch.1 with
    | true => rfl
    | false => exact ih hfresh

theorem getGenerator_patched (h : Fresh t patches) (path : String) :
    (patched t patches).getGenerator re path = resolve re t patches path := by
  have hgenerator : (patched t patches).getGenerator re path =
      ((patched t patches).routes.get? path).or (lastMatch re (patched t patches) path) := by
    unfold Table.getGenerator
    cases (patched t patches).routes.get? path <;> rfl
  rw [hgenerator, routes_patched, lastMatch_patched h]
  rfl

/-! ### Programs -/

omit [DecidableEq R] in
theorem onTable_ok {call : Act (Table R S) (Exc R) Unit} {u : Table R S}
    (h : call t = (.ok (), u)) (resolved : List (Option S)) :
    (onTable call : Act (World R S) (Raised R E) Unit) ⟨t, resolved⟩ = (.ok (), ⟨u, resolved⟩) := by
  rw [onTable, h]
  rfl

omit [DecidableEq R] in
theorem onTable_error {call : Act (Table R S) (Exc R) Unit} {u : Table R S} {error : Exc R}
    (h : call t = (.error error, u)) (resolved : List (Option S)) :
    (onTable call : Act (World R S) (Raised R E) Unit) ⟨t, resolved⟩ =
      (.error (.call error), ⟨u, resolved⟩) := by
  rw [onTable, h]
  rfl

theorem connect_patched (h : Fresh t patches) (path : String) (resolved : List (Option S)) :
    (connect re path : Act (World R S) (Raised R E) (Option S)) ⟨patched t patches, resolved⟩ =
      (.ok (resolve re t patches path),
        ⟨patched t patches, resolved ++ [resolve re t patches path]⟩) := by
  rw [← getGenerator_patched h]
  rfl

section Entry

variable {path : PathArg} {regex : RegexArg R} {s : S}

/-- A key that is there cannot be patched. -/
theorem add_of_has (hselect : selectKey re (.typeError "path must be a string.") path regex =
    .ok key) (h : t.Has key) : Service.add re s path regex t = (.error (.runtimeError key), t) := by
  simp only [Service.add, Service.addWith, Act.ofExcept_bind, hselect, Act.get_bind,
    Act.raiseIf_bind, h, decide_true, Bool.not_false, Bool.and_true, if_true]

theorem add_of_error {error : Exc R} (hselect :
    selectKey re (.typeError "path must be a string.") path regex = .error error) :
    Service.add re s path regex t = (.error error, t) := by
  rw [Service.add, Service.addWith, Act.ofExcept_bind, hselect]

/-- Inside a patch of a new key, a body that leaves the table as it finds it; behind the
patch, the table is as it was. -/
theorem withScope_patched (hselect : selectKey re (.typeError "path must be a string.") path regex =
    .ok key) (hnew : ¬t.Has key) {body : Act (World R S) (Raised R E) Unit}
    {result : Except (Raised R E) Unit} {resolved resolved' : List (Option S)}
    (hbody : body ⟨t.place key s, resolved⟩ = (result, ⟨t.place key s, resolved'⟩)) :
    Act.withScope (onTable (Service.add re s path regex)) (onTable (Service.remove re path regex))
      body ⟨t, resolved⟩ = (result, ⟨t, resolved'⟩) := by
  have hentered : (t.place key s).Has key := (has_place t key key s).mpr (Or.inl rfl)
  have hleave := remove_eq hselect hentered
  rw [drop_place hnew] at hleave
  rw [Act.withScope_ok (onTable_ok (add_eq hselect hnew) resolved)]
  exact Act.ensure_of_ok hbody (onTable_ok hleave resolved')

end Entry

/-- Inside patches a program does what its environment says, and leaves the table alone. -/
theorem run_patched (re : Regexes R) (t : Table R S) (p : Program R S E) (h : Fresh t patches)
    (resolved : List (Option S)) :
    p.run re ⟨patched t patches, resolved⟩ =
      ((p.eval re t patches).1, ⟨patched t patches, resolved ++ (p.eval re t patches).2⟩) := by
  induction p generalizing patches resolved with
  | pass =>
    rw [Program.eval, List.append_nil]
    rfl
  | raise error =>
    rw [Program.eval, List.append_nil]
    rfl
  | connect path next ih =>
    rw [Program.run, Act.bind_ok (connect_patched h path resolved), ih _ h, Program.eval,
      List.append_assoc, List.singleton_append]
  | seq first second ihfirst ihsecond =>
    have hfirst := ihfirst h resolved
    rw [Program.run, Program.eval]
    rcases heval : first.eval re t patches with ⟨error | _, resolved'⟩
    · rw [heval] at hfirst
      exact Act.bind_error hfirst
    · rw [heval] at hfirst
      rw [Act.bind_ok hfirst, ihsecond h, List.append_assoc]
  | tryExcept body handler ihbody ihhandler =>
    have hbody := ihbody h resolved
    rw [Program.run, Program.eval]
    rcases heval : body.eval re t patches with ⟨error | _, resolved'⟩
    · rw [heval] at hbody
      rw [Act.handle_error hbody, ihhandler error h, List.append_assoc]
    · rw [heval] at hbody
      exact Act.handle_ok hbody
  | patch sideEffect path regex body ih =>
    rw [Program.run]
    cases hselect : selectKey re (.typeError "path must be a string.") path regex with
    | error error =>
      have heval : (Program.patch sideEffect path regex body).eval re t patches =
          (.error (.call error), []) := by
        rw [Program.eval, hselect]
      rw [heval, List.append_nil]
      exact Act.withScope_error (onTable_error (add_of_error hselect) resolved) _ _
    | ok key =>
      by_cases hhas : (patched t patches).Has key
      · have heval : (Program.patch sideEffect path regex body).eval re t patches =
            (.error (.call (.runtimeError key)), []) := by
          rw [Program.eval, hselect]
          exact if_pos ((has_patched t patches key).mp hhas)
        rw [heval, List.append_nil]
        exact Act.withScope_error (onTable_error (add_of_has hselect hhas) resolved) _ _
      · have heval : (Program.patch sideEffect path regex body).eval re t patches =
            body.eval re t ((key, sideEffect) :: patches) := by
          rw [Program.eval, hselect]
          exact if_neg fun hbound => hhas ((has_patched t patches key).mpr hbound)
        have hfresh : Fresh t ((key, sideEffect) :: patches) := ⟨hhas, h⟩
        rw [heval]
        exact withScope_patched hselect hhas (ih hfresh resolved)

/-- To a program the routes are an environment that its patches extend, and behind the
program they are what they were, in the same order. -/
theorem patches_are_lexical (re : Regexes R) (t : Table R S) (p : Program R S E) :
    p.run re ⟨t, []⟩ = ((p.eval re t []).1, ⟨t, (p.eval re t []).2⟩) := by
  have hfresh : Fresh t [] := trivial
  exact run_patched re t p hfresh []

end Yellowbox.WebsocketService.PatchScopes
