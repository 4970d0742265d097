import Mathlib.Logic.Function.Basic
import Yellowbox.Base.ScopePrograms
import Yellowbox.Sql.ConnectionStrings

/-!
`with service.database(name)`. The database is created if it is not there, and one that
is there is used as it is; on exit either is dropped. So what nested scopes leave of the
server is all that they did not enter. Only a scope inside one of the same database makes
an exit fail, that of the outer one.
-/
namespace Yellowbox.Sql.DatabaseScopes

open ConnectionStrings Effects OptionStrings ScopePrograms

/-- The databases of a server, with what they hold. -/
abbrev Databases (D C : Type) := D → Option C

/-- The functions of `sqlalchemy_utils`, which take connection strings. -/
structure Engine (D C ε : Type) where
  databaseExists : Text → Act (Databases D C) ε Bool
  createDatabase : Text → Act (Databases D C) ε Unit
  dropDatabase : Text → Act (Databases D C) ε Unit

/-- They do this to the database that the string is for: a new database is empty, and one
that is not there cannot be dropped. -/
structure Engine.Documented {D C ε : Type} [DecidableEq D] (engine : Engine D C ε)
    (target : Text → D) (empty : C) : Prop where
  exists_eq : ∀ s w, engine.databaseExists s w = (.ok (w (target s)).isSome, w)
  create_eq : ∀ s w, w (target s) = none →
    engine.createDatabase s w = (.ok (), Function.update w (target s) (some empty))
  drop_eq : ∀ s w, (w (target s)).isSome = true →
    engine.dropDatabase s w = (.ok (), Function.update w (target s) none)
  drop_missing : ∀ s w, w (target s) = none → ∃ e, engine.dropDatabase s w = (.error e, w)

/-- An error of the service, of the engine, or one of the program. -/
inductive Exc (ε E : Type)
  | valueError (message : Text)
  | engine (e : ε)
  | own (e : E)

variable {D C ε E α : Type}

def fromEngine (x : Act (Databases D C) ε α) : Act (Databases D C) (Exc ε E) α := fun w =>
  ((x w).1.mapError .engine, (x w).2)

/-! ### The service -/

/-- A service, by what its `local_connection_string(database=name)` gives. -/
structure Owner (D C ε : Type) where
  engine : Engine D C ε
  localConnectionString : Text → Text

def SQLService.owner (s : SQLService) (engine : Engine D C ε) : Owner D C ε where
  engine
  localConnectionString name := s.localConnectionString .asDefault .asDefault name .asDefault

def PostgreSQLService.owner (s : PostgreSQLService) (engine : Engine D C ε) : Owner D C ε where
  engine
  localConnectionString name :=
    s.localConnectionString .asDefault .asDefault (some name) .asDefault

namespace Owner

variable (owner : Owner D C ε)

def createDatabase (name : Text) : Act (Databases D C) (Exc ε E) Unit := do
  let cs := owner.localConnectionString name
  let present ← fromEngine (owner.engine.databaseExists cs)
  Act.raiseIf present (.valueError ("Database ".toList ++ name ++ " already exists".toList))
  fromEngine (owner.engine.createDatabase cs)

def dropDatabase (name : Text) : Act (Databases D C) (Exc ε E) Unit :=
  fromEngine (owner.engine.dropDatabase (owner.localConnectionString name))

def databaseExists (name : Text) : Act (Databases D C) (Exc ε E) Bool :=
  fromEngine (owner.engine.databaseExists (owner.localConnectionString name))

/-- `database(name)`; the `Database` that it returns knows the name. -/
def database (name : Text) : Act (Databases D C) (Exc ε E) Unit := do
  if ← owner.databaseExists name then pure () else owner.createDatabase name

end Owner

/-! ### Programs -/

/-- What a program did: it entered a database, or used one. -/
inductive Event (D C : Type)
  | entered (name : Text)
  | used (database : D) (change : C → C)

structure World (D C : Type) where
  databases : Databases D C
  events : List (Event D C)

def World.withDatabase [DecidableEq D] (w : World D C) (d : D) (content : Option C) : World D C :=
  { w with databases := Function.update w.databases d content }

theorem withDatabase_self [DecidableEq D] (w : World D C) (d : D) (content : Option C) :
    (w.withDatabase d content).databases d = content := Function.update_self ..

theorem withDatabase_of_ne [DecidableEq D] (w : World D C) {d d' : D} (h : d' ≠ d)
    (content : Option C) : (w.withDatabase d content).databases d' = w.databases d' :=
  Function.update_of_ne h ..

def onDatabases (x : Act (Databases D C) (Exc ε E) α) : Act (World D C) (Exc ε E) α := fun w =>
  ((x w.databases).1, { w with databases := (x w.databases).2 })

def record (event : Event D C) : Act (World D C) (Exc ε E) Unit :=
  Act.modify fun w => { w with events := w.events ++ [event] }

variable [DecidableEq D]

/-- What a program does itself: it changes what a database holds, or raises. -/
inductive Statement (D C E : Type)
  | use (database : D) (change : C → C)
  | raise (e : E)

def Statement.exec : Statement D C E → Act (World D C) (Exc ε E) Unit
  | .use database change => do
    Act.modify fun w => w.withDatabase database ((w.databases database).map change)
    record (.used database change)
  | .raise e => Act.raise (.own e)

/-- `__exit__` drops the database of its scope. -/
def meaning (owner : Owner D C ε) : Meaning (Statement D C E) Text (World D C) (Exc ε E) where
  exec := Statement.exec
  enter name := do
    onDatabases (owner.database name)
    record (.entered name)
  exit name := onDatabases (owner.dropDatabase name)

/-- What is left of a database after these events: a database that was entered is gone. -/
def after (target : Text → D) (d : D) (content : Option C) : List (Event D C) → Option C
  | [] => content
  | .entered name :: events => after target d (if target name = d then none else content) events
  | .used d' change :: events =>
    after target d (if d' = d then content.map change else content) events

theorem after_append (target : Text → D) (d : D) (content : Option C)
    (events events' : List (Event D C)) :
    after target d content (events ++ events') =
      after target d (after target d content events) events' := by
  induction events generalizing content with
  | nil => rfl
  | cons event events ih =>
    cases event with
    | entered name => exact ih _
    | used d' change => exact ih _

theorem after_none (target : Text → D) (d : D) (events : List (Event D C)) :
    after target d none events = none := by
  induction events with
  | nil => rfl
  | cons event events ih =>
    cases event with
    | entered name => rw [after, ite_self, ih]
    | used d' change => rw [after, Option.map_none, ite_self, ih]

/-! ### The two ends of a scope -/

section Ends

variable {owner : Owner D C ε} {target : Text → D} {empty : C} {name : Text} {w : World D C}

/-- The database that a name stands for. -/
def Owner.databaseOf (owner : Owner D C ε) (target : Text → D) (name : Text) : D :=
  target (owner.localConnectionString name)

/-- What `database` finds of a database, or makes it. -/
def found (owner : Owner D C ε) (target : Text → D) (empty : C) (databases : Databases D C)
    (name : Text) : Option C :=
  some ((databases (owner.databaseOf target name)).getD empty)

/-- A database that is there is left as it is, and one that is not is made. -/
theorem database_eq (h : owner.engine.Documented target empty) (databases : Databases D C) :
    owner.database name databases = ((.ok () : Except (Exc ε E) Unit),
      Function.update databases (owner.databaseOf target name)
        (found owner target empty databases name)) := by
  have hexists : fromEngine (owner.engine.databaseExists (owner.localConnectionString name))
      databases = ((.ok (databases (owner.databaseOf target name)).isSome :
        Except (Exc ε E) Bool), databases) := by
    rw [fromEngine, h.exists_eq]
    rfl
  rw [Owner.database, Owner.databaseExists, Act.bind_ok hexists, found]
  cases hcontent : databases (owner.databaseOf target name) with
  | some content =>
    rw [Option.isSome_some, if_pos rfl, Option.getD_some, ← hcontent, Function.update_eq_self]
    rfl
  | none =>
    have hcreate := h.create_eq (owner.localConnectionString name) databases hcontent
    rw [hcontent] at hexists
    rw [Option.isSome_none, if_neg Bool.false_ne_true, Owner.createDatabase, Act.bind_ok hexists,
      Act.raiseIf_bind, Option.isSome_none, if_neg Bool.false_ne_true, fromEngine, hcreate]
    rfl

/-- The world in the body of a scope, before the body has begun. -/
def inside (owner : Owner D C ε) (target : Text → D) (empty : C) (w : World D C) (name : Text) :
    World D C where
  databases := (w.withDatabase (owner.databaseOf target name)
    (found owner target empty w.databases name)).databases
  events := w.events ++ [.entered name]

theorem inside_self (owner : Owner D C ε) (target : Text → D) (empty : C) (w : World D C)
    (name : Text) : (inside owner target empty w name).databases (owner.databaseOf target name) =
      found owner target empty w.databases name := withDatabase_self ..

theorem inside_of_ne {d : D} (h : d ≠ owner.databaseOf target name) (empty : C) :
    (inside owner target empty w name).databases d = w.databases d := withDatabase_of_ne w h _

theorem enter_eq (h : owner.engine.Documented target empty) :
    (meaning owner).enter name w =
      ((.ok () : Except (Exc ε E) Unit), inside owner target empty w name) := by
  have hdatabase : onDatabases (owner.database name) w = ((.ok () : Except (Exc ε E) Unit),
      w.withDatabase (owner.databaseOf target name)
        (found owner target empty w.databases name)) := by
    rw [onDatabases, database_eq h]
    rfl
  exact Act.bind_ok hdatabase

theorem exit_eq (h : owner.engine.Documented target empty)
    (hpresent : (w.databases (owner.databaseOf target name)).isSome = true) :
    (meaning owner).exit name w = ((.ok () : Except (Exc ε E) Unit),
      w.withDatabase (owner.databaseOf target name) none) := by
  have hdrop := h.drop_eq (owner.localConnectionString name) w.databases hpresent
  change onDatabases (owner.dropDatabase name) w = _
  rw [onDatabases, Owner.dropDatabase, fromEngine, hdrop]
  rfl

theorem exit_missing (h : owner.engine.Documented target empty)
    (hmissing : w.databases (owner.databaseOf target name) = none) :
    ∃ e, (meaning owner).exit name w = ((.error (.engine e) : Except (Exc ε E) Unit), w) := by
  obtain ⟨e, hdrop⟩ := h.drop_missing (owner.localConnectionString name) w.databases hmissing
  refine ⟨e, ?_⟩
  change onDatabases (owner.dropDatabase name) w = _
  rw [onDatabases, Owner.dropDatabase, fromEngine, hdrop]
  rfl

/-- However a scope is left, its database is gone and the others are untouched. -/
theorem exit_snd (h : owner.engine.Documented target empty) {r : Except (Exc ε E) Unit}
    {v : World D C} (hexit : (meaning owner).exit name w = (r, v)) :
    v = w.withDatabase (owner.databaseOf target name) none := by
  cases hcontent : w.databases (owner.databaseOf target name) with
  | some content =>
    have hdrop := exit_eq (E := E) h (Option.isSome_iff_exists.mpr ⟨content, hcontent⟩)
    exact congrArg Prod.snd (hexit.symm.trans hdrop)
  | none =>
    obtain ⟨e, hraise⟩ := exit_missing (E := E) h hcontent
    rw [World.withDatabase, ← hcontent, Function.update_eq_self]
    exact congrArg Prod.snd (hexit.symm.trans hraise)

end Ends

/-! ### Whole programs -/

section Programs

variable {owner : Owner D C ε} {target : Text → D} {empty : C}

/-- The events tell what became of every database. -/
def Explained (owner : Owner D C ε) (target : Text → D) :
    Ends Text (World D C) (Exc ε E) := fun _ w _ v =>
  ∃ events, v.events = w.events ++ events ∧
    ∀ d, v.databases d = after (owner.databaseOf target) d (w.databases d) events

theorem explained_rules (h : owner.engine.Documented target empty) :
    Rules (meaning owner) (fun _ _ => True) (Explained (E := E) owner target) := by
  have hleave : ∀ {live name w t u v} {r r' r'' : Except (Exc ε E) Unit},
      (meaning owner).enter name w = ((.ok () : Except (Exc ε E) Unit), t) →
      Explained owner target (name :: live) t r u → (meaning owner).exit name u = (r', v) →
      Explained owner target live w r'' v := by
    intro live name w t u v r r' r'' henter hbody hexit
    obtain rfl : _ = t := congrArg Prod.snd ((enter_eq (E := E) h).symm.trans henter)
    obtain rfl := exit_snd h hexit
    obtain ⟨events, hevents, hdatabases⟩ := hbody
    refine ⟨.entered name :: events, ?_, fun d => ?_⟩
    · rw [List.append_cons]
      exact hevents
    · rw [after]
      by_cases hd : owner.databaseOf target name = d
      · rw [if_pos hd, after_none, ← hd, withDatabase_self]
      · have hbefore : d ≠ owner.databaseOf target name := Ne.symm hd
        rw [if_neg hd, withDatabase_of_ne u hbefore, hdatabases, inside_of_ne hbefore]
  exact {
    pass := ⟨[], (List.append_nil _).symm, fun _ => rfl⟩
    act := fun {live w} statement => by
      cases statement with
      | raise e => exact ⟨[], (List.append_nil _).symm, fun _ => rfl⟩
      | use database change =>
        refine ⟨[.used database change], rfl, fun d => ?_⟩
        rw [after, after]
        by_cases hd : database = d
        · subst hd
          rw [if_pos rfl]
          exact withDatabase_self ..
        · rw [if_neg hd]
          exact withDatabase_of_ne w (Ne.symm hd) _
    next := fun {live w t u r} hfirst hsecond => by
      obtain ⟨events, hevents, hdatabases⟩ := hfirst
      obtain ⟨events', hevents', hdatabases'⟩ := hsecond
      refine ⟨events ++ events', by rw [hevents', hevents, List.append_assoc], fun d => ?_⟩
      rw [after_append, ← hdatabases, hdatabases']
    handled := fun {live w t u e r} hfirst hsecond => by
      obtain ⟨events, hevents, hdatabases⟩ := hfirst
      obtain ⟨events', hevents', hdatabases'⟩ := hsecond
      refine ⟨events ++ events', by rw [hevents', hevents, List.append_assoc], fun d => ?_⟩
      rw [after_append, ← hdatabases, hdatabases']
    refused := fun {live name w t e} _ hraise => by
      cases (enter_eq (E := E) h).symm.trans hraise
    left := fun _ henter hbody hexit => hleave henter hbody hexit
    leftRaising := fun _ henter hbody hexit => hleave henter hbody hexit }

/-- No scope of the same database is around. -/
def Apart (owner : Owner D C ε) (target : Text → D) (live : List Text) (name : Text) : Prop :=
  ∀ outer ∈ live, owner.databaseOf target outer ≠ owner.databaseOf target name

/-- The databases of the scopes around stay there, and only the program itself raises. -/
def Undisturbed (owner : Owner D C ε) (target : Text → D) :
    Ends Text (World D C) (Exc ε E) := fun live w r v =>
  (∀ name ∈ live, (w.databases (owner.databaseOf target name)).isSome = true) →
    (∀ name ∈ live, (v.databases (owner.databaseOf target name)).isSome = true) ∧
      ∀ e, r = .error e → ∃ own, e = .own own

theorem isSome_after_use (w : World D C) (database d : D) (change : C → C) :
    ((w.withDatabase database ((w.databases database).map change)).databases d).isSome =
      (w.databases d).isSome := by
  by_cases hd : d = database
  · subst hd
    rw [withDatabase_self, Option.isSome_map]
  · rw [withDatabase_of_ne w hd]

theorem undisturbed_rules (h : owner.engine.Documented target empty) :
    Rules (meaning owner) (Apart owner target) (Undisturbed (E := E) owner target) := by
  have hbody : ∀ {live name w t u} {r : Except (Exc ε E) Unit},
      (∀ outer ∈ live, (w.databases (owner.databaseOf target outer)).isSome = true) →
      (meaning owner).enter name w = ((.ok () : Except (Exc ε E) Unit), t) →
      Undisturbed owner target (name :: live) t r u →
      (∀ outer ∈ name :: live, (u.databases (owner.databaseOf target outer)).isSome = true) ∧
        ∀ e, r = .error e → ∃ own, e = .own own := by
    intro live name w t u r hlive henter hbody
    obtain rfl : _ = t := congrArg Prod.snd ((enter_eq (E := E) h).symm.trans henter)
    refine hbody fun outer houter => ?_
    by_cases hsame : owner.databaseOf target outer = owner.databaseOf target name
    · rw [hsame, inside_self]
      rfl
    · rw [inside_of_ne hsame]
      refine hlive outer ((List.mem_cons.mp houter).resolve_left fun heq => hsame ?_)
      rw [heq]
  exact {
    pass := fun hlive => ⟨hlive, fun e he => by cases he⟩
    act := fun {live w} statement hlive => by
      cases statement with
      | raise e => exact ⟨hlive, fun e' he' => ⟨e, (Except.error.inj he').symm⟩⟩
      | use database change =>
        refine ⟨fun name hname => ?_, fun e he => by cases he⟩
        exact (isSome_after_use w database _ change).trans (hlive name hname)
    next := fun hfirst hsecond hlive => hsecond (hfirst hlive).1
    handled := fun hfirst hsecond hlive => hsecond (hfirst hlive).1
    refused := fun _ hraise => by
      cases (enter_eq (E := E) h).symm.trans hraise
    left := fun {live name w t u v r} hapart henter hrun hexit hlive => by
      obtain ⟨hpresent, hown⟩ := hbody hlive henter hrun
      obtain rfl := exit_snd h hexit
      refine ⟨fun outer houter => ?_, hown⟩
      rw [withDatabase_of_ne u (hapart outer houter)]
      exact hpresent outer (List.mem_cons_of_mem _ houter)
    leftRaising := fun {live name w t u v r e} _ henter hrun hexit hlive => by
      have hpresent := (hbody hlive henter hrun).1 name List.mem_cons_self
      cases (exit_eq (E := E) h hpresent).symm.trans hexit }

/-- Behind a scope its database is not there, whatever its body did. -/
theorem gone_behind (h : owner.engine.Documented target empty) (name : Text)
    (p : Program (Statement D C E) Text (World D C) (Exc ε E)) (w : World D C) :
    ((Program.withScope name p).run (meaning owner) w).2.databases
      (owner.databaseOf target name) = none := by
  rw [Program.run, Act.withScope_ok (enter_eq h), Act.ensure_snd]
  rw [exit_snd h Prod.mk.eta.symm]
  exact withDatabase_self ..

/-- The exit of the outer scope finds its database gone. -/
theorem nested_raises (h : owner.engine.Documented target empty) {name inner : Text}
    (hsame : owner.databaseOf target name = owner.databaseOf target inner)
    (p : Program (Statement D C E) Text (World D C) (Exc ε E)) (w : World D C) :
    ∃ e, ((Program.withScope name (.withScope inner p)).run (meaning owner) w).1 =
      .error (.engine e) := by
  have hgone := gone_behind h inner p (inside owner target empty w name)
  rw [← hsame] at hgone
  obtain ⟨e, hexit⟩ := exit_missing (E := E) h hgone
  refine ⟨e, ?_⟩
  rw [Program.run, Act.withScope_ok (enter_eq h)]
  exact Act.ensure_error (congrArg Prod.fst hexit)

/-- What scopes leave of each database is what the program did to it, and nothing of those
that it entered. No exit fails unless a scope is inside one of the same database; then
that of the outer one does. -/
theorem database_scopes_spec (h : owner.engine.Documented target empty)
    (p : Program (Statement D C E) Text (World D C) (Exc ε E)) (databases : Databases D C) :
    (∀ d, (p.run (meaning owner) ⟨databases, []⟩).2.databases d =
      after (owner.databaseOf target) d (databases d)
        (p.run (meaning owner) ⟨databases, []⟩).2.events) ∧
    (p.Scoped (Apart owner target) [] → ∀ e,
      (p.run (meaning owner) ⟨databases, []⟩).1 = .error e → ∃ own, e = .own own) ∧
    ∀ name inner, owner.databaseOf target name = owner.databaseOf target inner →
      ∃ e, ((Program.withScope name (.withScope inner p)).run (meaning owner)
        ⟨databases, []⟩).1 = .error (.engine e) := by
  refine ⟨fun d => ?_, fun hp => ?_, fun name inner hsame => nested_raises h hsame p _⟩
  · obtain ⟨events, hevents, hdatabases⟩ :=
      (explained_rules h).run (p.scoped_trivial []) ⟨databases, []⟩
    rw [hevents]
    exact hdatabases d
  · exact ((undisturbed_rules h).run hp ⟨databases, []⟩ fun name hname => by cases hname).2

end Programs

/-! ### A server -/

/-- A server that keeps its databases by the names in the strings. -/
def serverEngine (target : Text → D) (empty : C) : Engine D C String where
  databaseExists s := fun w => (.ok (w (target s)).isSome, w)
  createDatabase s := do
    Act.raiseIf ((← Act.get) (target s)).isSome "database already exists"
    Act.modify fun w => Function.update w (target s) (some empty)
  dropDatabase s := do
    Act.raiseIf ((← Act.get) (target s)).isNone "database does not exist"
    Act.modify fun w => Function.update w (target s) none

theorem serverEngine_documented (target : Text → D) (empty : C) :
    (serverEngine target empty).Documented target empty where
  exists_eq _ _ := rfl
  create_eq s w h := by
    simp only [serverEngine, Act.get_bind, Act.raiseIf_bind, h]
    rfl
  drop_eq s w h := by
    have hsome : (w (target s)).isNone = false := Option.isNone_eq_false_iff.mpr h
    simp only [serverEngine, Act.get_bind, Act.raiseIf_bind, hsome]
    rfl
  drop_missing s w h := by
    have hnone : (w (target s)).isNone = true := Option.isNone_iff_eq_none.mpr h
    refine ⟨"database does not exist", ?_⟩
    simp only [serverEngine, Act.get_bind, Act.raiseIf_bind, hnone]
    rfl

/-- The database that a connection string names. -/
def named (s : Text) : Option Text := (parse s).map Components.database

def server : Owner (Option Text) (List ℕ) String :=
  SQLService.owner (serviceOf "sa".toList "Swordfish1!".toList) (serverEngine named [])

/-- One scope that puts a row into its database, and another behind it. -/
def twoScopes : Program (Statement (Option Text) (List ℕ) Unit) Text (World (Option Text) (List ℕ))
    (Exc String Unit) :=
  .seq (.withScope "orders".toList (.act (.use (some "orders".toList) (7 :: ·))))
    (.withScope "stock".toList .pass)

theorem database_scopes_spec_twoScopes :
    (∀ d, (twoScopes.run (meaning server) ⟨fun _ => some [1], []⟩).2.databases d =
      after (server.databaseOf named) d (some [1])
        (twoScopes.run (meaning server) ⟨fun _ => some [1], []⟩).2.events) ∧
    (twoScopes.Scoped (Apart server named) [] → ∀ e,
      (twoScopes.run (meaning server) ⟨fun _ => some [1], []⟩).1 = .error e → ∃ own, e = .own own) ∧
    ∀ name inner, server.databaseOf named name = server.databaseOf named inner →
      ∃ e, ((Program.withScope name (.withScope inner twoScopes)).run (meaning server)
        ⟨fun _ => some [1], []⟩).1 = .error (.engine e) :=
  database_scopes_spec (serverEngine_documented named []) twoScopes fun _ => some [1]

end Yellowbox.Sql.DatabaseScopes
