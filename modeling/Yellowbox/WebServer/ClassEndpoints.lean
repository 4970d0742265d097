import Yellowbox.Base.Dicts
import Yellowbox.Base.Linearization

/-!
Class statements that derive from `WebServer`. `type.__new__` orders the new class and its
ancestors and then calls `WebServer.__init_subclass__`, which collects the endpoint
templates of the bases, base by base, and those of the class body. Its overlap check looks
at names only, so two bases that share a template overlap in it.
-/
namespace Yellowbox.ClassEndpoints

open Dicts Linearization

variable {H W : Type*}

inductive EndpointTemplate (H W : Type*) where
  | http (template : H)
  | ws (template : W)

/-- A value in `vars(cls)`. -/
inductive Attribute (H W : Type*) where
  | template (template : EndpointTemplate H W)
  | other

abbrev Templates (H W : Type*) := Dict String (EndpointTemplate H W)

/-- The classes are numbered in the order of their statements; `WebServer` is number 0. -/
structure ClassStatement (H W : Type*) where
  bases : List ℕ
  vars : Dict String (Attribute H W)

structure ClassObject (H W : Type*) where
  mro : List ℕ
  classEndpointTemplates : Templates H W

/-- The `TypeError`s: the first is the language's own. -/
inductive ClassError where
  | inconsistentBases
  | overlapping (names : List String)
  | alreadyDefined (name : String)

/-- A round of the loop over `cls.__bases__`, with what `getattr` finds on the base. -/
def mergeBase (endpoints : Templates H W) :
    Option (Templates H W) → Except ClassError (Templates H W)
  | none => .ok endpoints
  | some templates =>
    if templates.entries.isEmpty then .ok endpoints
    else
      let overlapping := templates.keys.filter (· ∈ endpoints.keys)
      if overlapping.isEmpty then .ok (endpoints.update templates)
      else .error (.overlapping overlapping)

/-- A round of the loop over `vars(cls)`. -/
def addOwn (endpoints : Templates H W) (entry : String × Attribute H W) :
    Except ClassError (Templates H W) :=
  match entry.2 with
  | .other => .ok endpoints
  | .template template =>
    if entry.1 ∈ endpoints.keys then .error (.alreadyDefined entry.1)
    else .ok (endpoints.set entry.1 template)

def initSubclass (bases : List (Option (Templates H W))) (vars : Dict String (Attribute H W)) :
    Except ClassError (Templates H W) :=
  bases.foldlM mergeBase Dict.empty >>= fun endpoints => vars.entries.foldlM addOwn endpoints

/-- `type.__new__` -/
def newClass (world : List (ClassObject H W)) (stmt : ClassStatement H W) :
    Except ClassError (ClassObject H W) :=
  match linearize (world.map ClassObject.mro) stmt.bases with
  | none => .error .inconsistentBases
  | some mro =>
    initSubclass (stmt.bases.map fun b => world[b]?.map ClassObject.classEndpointTemplates)
        stmt.vars >>= fun templates => .ok ⟨mro, templates⟩

def createClasses (world : List (ClassObject H W)) :
    List (ClassStatement H W) → Except ClassError (List (ClassObject H W))
  | [] => .ok world
  | stmt :: stmts => newClass world stmt >>= fun cls => createClasses (world ++ [cls]) stmts

def webServer : ClassObject H W := ⟨[0], Dict.empty⟩

def boundTemplate (entry : String × Attribute H W) : Option (String × EndpointTemplate H W) :=
  match entry.2 with
  | .other => none
  | .template template => some (entry.1, template)

/-- The templates that a class body binds. -/
def boundTemplates (vars : Dict String (Attribute H W)) : List (String × EndpointTemplate H W) :=
  vars.entries.filterMap boundTemplate

/-- All classes, with `WebServer` itself, whose body binds no template. -/
def withWebServer (stmts : List (ClassStatement H W)) : List (ClassStatement H W) :=
  ⟨[], Dict.empty⟩ :: stmts

def graph (stmts : List (ClassStatement H W)) : List (List ℕ) :=
  (withWebServer stmts).map ClassStatement.bases

def Binds (stmts : List (ClassStatement H W)) (c : ℕ) (name : String)
    (template : EndpointTemplate H W) : Prop :=
  ∃ stmt, (withWebServer stmts)[c]? = some stmt ∧ (name, template) ∈ boundTemplates stmt.vars

/-- Subclasses of `WebServer` in the order of their statements, each endpoint name bound to
a template in one body. -/
structure Hierarchy (H W : Type*) where
  statements : List (ClassStatement H W)
  bases_ne_nil : ∀ stmt ∈ statements, stmt.bases ≠ []
  bases_earlier : ∀ c b, IsBase (graph statements) c b → b < c
  bound_once : ∀ c c' name template template', Binds statements c name template →
    Binds statements c' name template' → c = c'

/-- What the body of the class or of one of its ancestors binds. -/
def Inherited (stmts : List (ClassStatement H W)) (c : ℕ) (name : String)
    (template : EndpointTemplate H W) : Prop :=
  ∃ a, Inherits (graph stmts) c a ∧ Binds stmts a name template

/-- The classes so far hold what their bodies and their ancestors' bodies bind, each once. -/
def Collected (stmts : List (ClassStatement H W)) (world : List (ClassObject H W)) : Prop :=
  ∀ c cls, world[c]? = some cls → cls.classEndpointTemplates.entries.Nodup ∧
    ∀ name template, (name, template) ∈ cls.classEndpointTemplates.entries ↔
      Inherited stmts c name template

def CollectsTemplates (h : Hierarchy H W) : Prop :=
  ∃ world, createClasses [webServer] h.statements = .ok world ∧
    world.length = h.statements.length + 1 ∧ Collected h.statements world

/-- No class that both are or descend from binds a template. -/
def Apart (stmts : List (ClassStatement H W)) (b b' : ℕ) : Prop :=
  ∀ a name template, Inherits (graph stmts) b a → Inherits (graph stmts) b' a →
    ¬ Binds stmts a name template

section Merging

theorem bind_eq_ok_iff {α β : Type _} {x : Except ClassError α} {f : α → Except ClassError β}
    {b : β} : x >>= f = .ok b ↔ ∃ a, x = .ok a ∧ f a = .ok b := by
  cases x with
  | error err =>
    constructor
    · intro h
      cases h
    · rintro ⟨a, ha, -⟩
      cases ha
  | ok a =>
    constructor
    · intro h
      exact ⟨a, rfl, h⟩
    · rintro ⟨a', ha', h⟩
      cases ha'
      exact h

theorem mergeBase_eq_ok_iff {endpoints templates endpoints' : Templates H W} :
    mergeBase endpoints (some templates) = .ok endpoints' ↔
      List.Disjoint endpoints.keys templates.keys ∧ endpoints' = endpoints.update templates := by
  rw [mergeBase]
  split
  · rename_i hempty
    rw [List.isEmpty_iff] at hempty
    have hkeys : templates.keys = [] := by rw [Dict.keys, hempty, List.map_nil]
    have hupdate : endpoints.update templates = endpoints := by
      rw [Dict.update, hempty, List.foldl_nil]
    rw [hkeys, hupdate, Except.ok.injEq, eq_comm]
    exact (and_iff_right (List.disjoint_nil_right _)).symm
  · have hdisjoint : (templates.keys.filter (· ∈ endpoints.keys)).isEmpty = true ↔
        List.Disjoint endpoints.keys templates.keys := by
      rw [List.isEmpty_iff, List.filter_eq_nil_iff]
      constructor
      · intro hnone name hname hname'
        exact hnone name hname' (decide_eq_true hname)
      · intro hdisjoint name hname' hname
        exact hdisjoint (of_decide_eq_true hname) hname'
    simp only
    split
    · rename_i hoverlap
      rw [Except.ok.injEq, eq_comm]
      exact (and_iff_right (hdisjoint.mp hoverlap)).symm
    · rename_i hoverlap
      constructor
      · intro h
        cases h
      · rintro ⟨h, -⟩
        exact absurd (hdisjoint.mpr h) hoverlap

theorem mem_keys_update {d d' : Templates H W} (h : List.Disjoint d.keys d'.keys) {name : String} :
    name ∈ (d.update d').keys ↔ name ∈ d.keys ∨ name ∈ d'.keys := by
  rw [Dict.keys, Dict.entries_update h, List.map_append, List.mem_append]
  rfl

/-- Merging two templates without a common name keeps what they overlap with. -/
theorem pairwise_update_iff {d d' : Templates H W} (h : List.Disjoint d.keys d'.keys)
    {bases : List (Templates H W)} :
    (d.update d' :: bases).Pairwise (fun d d' => List.Disjoint d.keys d'.keys) ↔
      (d :: d' :: bases).Pairwise fun d d' => List.Disjoint d.keys d'.keys := by
  simp only [List.pairwise_cons, List.forall_mem_cons]
  constructor
  · rintro ⟨hmerged, hbases⟩
    refine ⟨⟨h, fun base hbase name hname => ?_⟩, fun base hbase name hname => ?_, hbases⟩
    · exact hmerged base hbase ((mem_keys_update h).mpr (.inl hname))
    · exact hmerged base hbase ((mem_keys_update h).mpr (.inr hname))
  · rintro ⟨⟨-, hd⟩, hd', hbases⟩
    refine ⟨fun base hbase name hname => ?_, hbases⟩
    rcases (mem_keys_update h).mp hname with hold | hnew
    · exact hd base hbase hold
    · exact hd' base hbase hnew

/-- The loop over the bases succeeds on templates with distinct names only. -/
theorem pairwise_of_foldlM_mergeBase {bases : List (Templates H W)}
    {endpoints endpoints' : Templates H W}
    (h : (bases.map some).foldlM mergeBase endpoints = .ok endpoints') :
    (endpoints :: bases).Pairwise (fun d d' => List.Disjoint d.keys d'.keys) ∧
      endpoints'.entries = endpoints.entries ++ bases.flatMap Dict.entries := by
  induction bases generalizing endpoints with
  | nil =>
    cases h
    exact ⟨List.pairwise_singleton _ _, (List.append_nil _).symm⟩
  | cons templates bases ih =>
    rw [List.map_cons, List.foldlM_cons, bind_eq_ok_iff] at h
    obtain ⟨merged, hmerged, hrest⟩ := h
    obtain ⟨hdisjoint, rfl⟩ := mergeBase_eq_ok_iff.mp hmerged
    obtain ⟨hpairwise, hentries⟩ := ih hrest
    refine ⟨(pairwise_update_iff hdisjoint).mp hpairwise, ?_⟩
    rw [hentries, Dict.entries_update hdisjoint, List.flatMap_cons, List.append_assoc]

theorem foldlM_mergeBase_of_pairwise {bases : List (Templates H W)} {endpoints : Templates H W}
    (h : (endpoints :: bases).Pairwise fun d d' => List.Disjoint d.keys d'.keys) :
    ∃ endpoints', (bases.map some).foldlM mergeBase endpoints = .ok endpoints' := by
  induction bases generalizing endpoints with
  | nil => exact ⟨endpoints, rfl⟩
  | cons templates bases ih =>
    have hdisjoint := (List.pairwise_cons.mp h).1 templates List.mem_cons_self
    obtain ⟨endpoints', hendpoints'⟩ := ih ((pairwise_update_iff hdisjoint).mpr h)
    refine ⟨endpoints', ?_⟩
    rw [List.map_cons, List.foldlM_cons, bind_eq_ok_iff]
    exact ⟨_, mergeBase_eq_ok_iff.mpr ⟨hdisjoint, rfl⟩, hendpoints'⟩

theorem entries_foldlM_addOwn {vars : List (String × Attribute H W)}
    {endpoints endpoints' : Templates H W} (h : vars.foldlM addOwn endpoints = .ok endpoints') :
    endpoints'.entries = endpoints.entries ++ vars.filterMap boundTemplate := by
  induction vars generalizing endpoints with
  | nil =>
    cases h
    exact (List.append_nil _).symm
  | cons entry vars ih =>
    obtain ⟨name, value⟩ := entry
    rw [List.foldlM_cons, bind_eq_ok_iff] at h
    obtain ⟨added, hadded, hrest⟩ := h
    rw [ih hrest]
    cases value with
    | other =>
      cases hadded
      rfl
    | template template =>
      rw [addOwn] at hadded
      simp only at hadded
      split at hadded
      · cases hadded
      · rename_i hnew
        cases hadded
        have hset : (endpoints.set name template).entries =
            endpoints.entries ++ [(name, template)] :=
          setEntry_of_not_mem hnew _
        rw [hset, List.append_assoc]
        rfl

theorem foldlM_addOwn_of_nodup {vars : List (String × Attribute H W)} {endpoints : Templates H W}
    (h : (endpoints.keys ++ (vars.filterMap boundTemplate).map Prod.fst).Nodup) :
    ∃ endpoints', vars.foldlM addOwn endpoints = .ok endpoints' := by
  induction vars generalizing endpoints with
  | nil => exact ⟨endpoints, rfl⟩
  | cons entry vars ih =>
    obtain ⟨name, value⟩ := entry
    cases value with
    | other => exact ih h
    | template template =>
      have hcons : ((name, Attribute.template template) :: vars).filterMap boundTemplate =
          (name, template) :: vars.filterMap boundTemplate := rfl
      rw [hcons, List.map_cons] at h
      have hnew : name ∉ endpoints.keys := fun hmem =>
        List.disjoint_of_nodup_append h hmem List.mem_cons_self
      have hset : (endpoints.set name template).keys = endpoints.keys ++ [name] := by
        show (setEntry name template endpoints.entries).map Prod.fst = _
        rw [setEntry_of_not_mem hnew, List.map_append]
        rfl
      have hnext : ((endpoints.set name template).keys ++
          (vars.filterMap boundTemplate).map Prod.fst).Nodup := by
        rw [hset, List.append_assoc]
        exact h
      obtain ⟨endpoints', hendpoints'⟩ := ih hnext
      refine ⟨endpoints', ?_⟩
      rw [List.foldlM_cons, bind_eq_ok_iff]
      refine ⟨_, ?_, hendpoints'⟩
      exact if_neg hnew

theorem nodup_boundTemplates (vars : Dict String (Attribute H W)) :
    ((boundTemplates vars).map Prod.fst).Nodup := by
  have hsublist : ∀ entries : List (String × Attribute H W),
      ((entries.filterMap boundTemplate).map Prod.fst).Sublist (entries.map Prod.fst) := by
    intro entries
    induction entries with
    | nil => exact List.Sublist.refl _
    | cons entry entries ih =>
      obtain ⟨name, value⟩ := entry
      cases value with
      | other => exact ih.cons name
      | template template => exact ih.cons_cons name
  exact vars.nodup.sublist (hsublist vars.entries)

/-- `__init_subclass__` over bases that all have templates. -/
theorem initSubclass_ok {bases : List (Templates H W)} {vars : Dict String (Attribute H W)}
    {templates : Templates H W} (h : initSubclass (bases.map some) vars = .ok templates) :
    bases.Pairwise (fun d d' => List.Disjoint d.keys d'.keys) ∧
      templates.entries = bases.flatMap Dict.entries ++ boundTemplates vars := by
  rw [initSubclass, bind_eq_ok_iff] at h
  obtain ⟨merged, hmerged, hown⟩ := h
  obtain ⟨hpairwise, hentries⟩ := pairwise_of_foldlM_mergeBase hmerged
  refine ⟨(List.pairwise_cons.mp hpairwise).2, ?_⟩
  rw [entries_foldlM_addOwn hown, hentries]
  rfl

theorem initSubclass_of_pairwise {bases : List (Templates H W)}
    {vars : Dict String (Attribute H W)}
    (hbases : bases.Pairwise fun d d' => List.Disjoint d.keys d'.keys)
    (hvars : ∀ d ∈ bases, List.Disjoint d.keys ((boundTemplates vars).map Prod.fst)) :
    ∃ templates, initSubclass (bases.map some) vars = .ok templates := by
  have hempty : (Dict.empty :: bases).Pairwise
      fun d d' : Templates H W => List.Disjoint d.keys d'.keys :=
    List.pairwise_cons.mpr ⟨fun d _ => List.disjoint_nil_left _, hbases⟩
  obtain ⟨merged, hmerged⟩ := foldlM_mergeBase_of_pairwise hempty
  obtain ⟨-, hentries⟩ := pairwise_of_foldlM_mergeBase hmerged
  have hnodup : (merged.keys ++ (boundTemplates vars).map Prod.fst).Nodup := by
    refine List.nodup_append'.mpr ⟨merged.nodup, nodup_boundTemplates vars, ?_⟩
    intro name hname hname'
    rw [Dict.keys, hentries] at hname
    obtain ⟨entry, hentry, rfl⟩ := List.mem_map.mp hname
    obtain ⟨d, hd, hmem⟩ := List.mem_flatMap.mp hentry
    exact hvars d hd (List.mem_map_of_mem hmem) hname'
  obtain ⟨templates, htemplates⟩ := foldlM_addOwn_of_nodup hnodup
  refine ⟨templates, ?_⟩
  rw [initSubclass, bind_eq_ok_iff]
  exact ⟨merged, hmerged, htemplates⟩

end Merging

theorem graph_of_statement {stmts : List (ClassStatement H W)} {c : ℕ}
    {stmt : ClassStatement H W} (h : (withWebServer stmts)[c]? = some stmt) :
    (graph stmts)[c]? = some stmt.bases := by
  rw [graph, List.getElem?_map, h]
  rfl

theorem inherited_iff {stmts : List (ClassStatement H W)} {c : ℕ} {stmt : ClassStatement H W}
    (h : (withWebServer stmts)[c]? = some stmt) {name : String}
    {template : EndpointTemplate H W} : Inherited stmts c name template ↔
      (name, template) ∈ boundTemplates stmt.vars ∨
        ∃ b ∈ stmt.bases, Inherited stmts b name template := by
  constructor
  · rintro ⟨a, ha, hbinds⟩
    rcases (inherits_iff (graph_of_statement h)).mp ha with rfl | ⟨b, hb, hba⟩
    · obtain ⟨stmt', hstmt', hmem⟩ := hbinds
      rw [h] at hstmt'
      cases hstmt'
      exact .inl hmem
    · exact .inr ⟨b, hb, a, hba, hbinds⟩
  · rintro (hmem | ⟨b, hb, a, hba, hbinds⟩)
    · exact ⟨c, Relation.ReflTransGen.refl, stmt, h, hmem⟩
    · exact ⟨a, (inherits_iff (graph_of_statement h)).mpr (.inr ⟨b, hb, hba⟩), hbinds⟩

section Creation

variable {h : Hierarchy H W} {world : List (ClassObject H W)} {stmt : ClassStatement H W}

def templatesAt (world : List (ClassObject H W)) (b : ℕ) : Templates H W :=
  (world[b]?.map ClassObject.classEndpointTemplates).getD Dict.empty

theorem map_templatesAt {bases : List ℕ} (hbases : ∀ b ∈ bases, b < world.length) :
    (bases.map fun b => world[b]?.map ClassObject.classEndpointTemplates) =
      (bases.map (templatesAt world)).map some := by
  rw [List.map_map]
  apply List.map_congr_left
  intro b hb
  simp [templatesAt, List.getElem?_eq_getElem (hbases b hb)]

theorem mem_templatesAt (hworld : Collected h.statements world) {b : ℕ} (hb : b < world.length)
    {name : String} {template : EndpointTemplate H W} :
    (name, template) ∈ (templatesAt world b).entries ↔
      Inherited h.statements b name template := by
  have hclass := List.getElem?_eq_getElem hb
  have hmem := (hworld b _ hclass).2 name template
  simpa [templatesAt, hclass] using hmem

/-- Two bases have names in common exactly when they share a class that binds a template. -/
theorem disjoint_iff_apart (hworld : Collected h.statements world) {b b' : ℕ}
    (hb : b < world.length) (hb' : b' < world.length) :
    List.Disjoint (templatesAt world b).keys (templatesAt world b').keys ↔
      Apart h.statements b b' := by
  constructor
  · intro hdisjoint a name template ha ha' hbinds
    have hname := (mem_templatesAt hworld hb).mpr ⟨a, ha, hbinds⟩
    have hname' := (mem_templatesAt hworld hb').mpr ⟨a, ha', hbinds⟩
    exact hdisjoint (List.mem_map_of_mem hname) (List.mem_map_of_mem hname')
  · intro hapart name hname hname'
    obtain ⟨⟨_, template⟩, hmem, rfl⟩ := List.mem_map.mp hname
    obtain ⟨⟨_, template'⟩, hmem', heq⟩ := List.mem_map.mp hname'
    cases heq
    obtain ⟨a, ha, hbinds⟩ := (mem_templatesAt hworld hb).mp hmem
    obtain ⟨a', ha', hbinds'⟩ := (mem_templatesAt hworld hb').mp hmem'
    cases h.bound_once _ _ _ _ _ hbinds hbinds'
    exact hapart a _ _ ha ha' hbinds

theorem bases_lt (hstmt : (withWebServer h.statements)[world.length]? = some stmt) :
    ∀ b ∈ stmt.bases, b < world.length :=
  fun b hb => h.bases_earlier _ b ⟨stmt.bases, graph_of_statement hstmt, hb⟩

theorem pairwise_iff_apart (hworld : Collected h.statements world)
    (hstmt : (withWebServer h.statements)[world.length]? = some stmt) :
    (stmt.bases.map (templatesAt world)).Pairwise (fun d d' => List.Disjoint d.keys d'.keys) ↔
      stmt.bases.Pairwise (Apart h.statements) := by
  rw [List.pairwise_map]
  apply List.Pairwise.iff_of_mem
  intro b b' hb hb'
  exact disjoint_iff_apart hworld (bases_lt hstmt b hb) (bases_lt hstmt b' hb')

/-- What the creation of a class says about it. -/
theorem newClass_ok (hworld : Collected h.statements world)
    (hstmt : (withWebServer h.statements)[world.length]? = some stmt) {cls : ClassObject H W}
    (hnew : newClass world stmt = .ok cls) :
    linearize (world.map ClassObject.mro) stmt.bases = some cls.mro ∧
      stmt.bases.Pairwise (Apart h.statements) ∧
      Collected h.statements (world ++ [cls]) := by
  rw [newClass] at hnew
  split at hnew
  · cases hnew
  · rename_i mro hmro
    rw [map_templatesAt (bases_lt hstmt), bind_eq_ok_iff] at hnew
    obtain ⟨templates, htemplates, hcls⟩ := hnew
    cases hcls
    obtain ⟨hpairwise, hentries⟩ := initSubclass_ok htemplates
    refine ⟨hmro, (pairwise_iff_apart hworld hstmt).mp hpairwise, ?_⟩
    refine forall_getElem?_concat hworld ⟨templates.nodup.of_map Prod.fst, ?_⟩
    intro name template
    show (name, template) ∈ templates.entries ↔ _
    rw [hentries, inherited_iff hstmt, List.mem_append, List.mem_flatMap, or_comm]
    apply or_congr_right
    simp only [List.mem_map]
    constructor
    · rintro ⟨_, ⟨b, hb, rfl⟩, hmem⟩
      exact ⟨b, hb, (mem_templatesAt hworld (bases_lt hstmt b hb)).mp hmem⟩
    · rintro ⟨b, hb, hinherited⟩
      exact ⟨_, ⟨b, hb, rfl⟩, (mem_templatesAt hworld (bases_lt hstmt b hb)).mpr hinherited⟩

theorem newClass_of_apart (hworld : Collected h.statements world)
    (hstmt : (withWebServer h.statements)[world.length]? = some stmt) {mro : List ℕ}
    (hmro : linearize (world.map ClassObject.mro) stmt.bases = some mro)
    (hapart : stmt.bases.Pairwise (Apart h.statements)) :
    ∃ cls, newClass world stmt = .ok cls := by
  have hvars : ∀ d ∈ stmt.bases.map (templatesAt world),
      List.Disjoint d.keys ((boundTemplates stmt.vars).map Prod.fst) := by
    intro d hd name hname hname'
    obtain ⟨b, hb, rfl⟩ := List.mem_map.mp hd
    obtain ⟨⟨_, template⟩, hmem, rfl⟩ := List.mem_map.mp hname
    obtain ⟨⟨_, template'⟩, hmem', heq⟩ := List.mem_map.mp hname'
    cases heq
    -- the name would be bound both by an ancestor, which is earlier, and by the new class
    obtain ⟨a, ha, hbinds⟩ := (mem_templatesAt hworld (bases_lt hstmt b hb)).mp hmem
    have heq := h.bound_once _ _ _ _ _ hbinds ⟨stmt, hstmt, hmem'⟩
    have hle := le_of_inherits h.bases_earlier ha
    have hlt := bases_lt hstmt b hb
    omega
  obtain ⟨templates, htemplates⟩ :=
    initSubclass_of_pairwise ((pairwise_iff_apart hworld hstmt).mpr hapart) hvars
  refine ⟨⟨mro, templates⟩, ?_⟩
  rw [newClass, hmro]
  simp only
  rw [map_templatesAt (bases_lt hstmt), bind_eq_ok_iff]
  exact ⟨templates, htemplates, rfl⟩

theorem statement_at {stmts seen rest : List (ClassStatement H W)} {n : ℕ}
    (hsplit : withWebServer stmts = seen ++ stmt :: rest) (hseen : n = seen.length) :
    (withWebServer stmts)[n]? = some stmt := by
  rw [hsplit, hseen, List.getElem?_append_right (Nat.le_refl _), Nat.sub_self]
  rfl

theorem createClasses_ok {seen rest : List (ClassStatement H W)}
    {world' : List (ClassObject H W)} (hworld : Collected h.statements world)
    (hsplit : withWebServer h.statements = seen ++ rest) (hseen : world.length = seen.length)
    (hcreate : createClasses world rest = .ok world') :
    linearizeFrom (world.map ClassObject.mro) (rest.map ClassStatement.bases) =
        some (world'.map ClassObject.mro) ∧
      (∀ stmt ∈ rest, stmt.bases.Pairwise (Apart h.statements)) ∧
      world'.length = h.statements.length + 1 ∧ Collected h.statements world' := by
  induction rest generalizing world seen with
  | nil =>
    cases hcreate
    refine ⟨rfl, ?_, ?_, hworld⟩
    · intro stmt hnone
      cases hnone
    · rw [hseen, ← List.append_nil seen, ← hsplit]
      rfl
  | cons stmt rest ih =>
    rw [createClasses, bind_eq_ok_iff] at hcreate
    obtain ⟨cls, hcls, hrest⟩ := hcreate
    obtain ⟨hmro, hapart, hcollected⟩ := newClass_ok hworld (statement_at hsplit hseen) hcls
    have hnext := hsplit.trans (List.append_cons seen stmt rest)
    have hlength : (world ++ [cls]).length = (seen ++ [stmt]).length := by
      rw [List.length_append, List.length_append, hseen]
      rfl
    obtain ⟨horders, hrestApart, hdone, hfinal⟩ := ih hcollected hnext hlength hrest
    refine ⟨?_, ?_, hdone, hfinal⟩
    · rw [List.map_cons, linearizeFrom, hmro, Option.bind_some, ← horders, List.map_append]
      rfl
    · intro stmt' hmem
      rcases List.mem_cons.mp hmem with rfl | hmem
      · exact hapart
      · exact hrestApart stmt' hmem

theorem createClasses_of_apart {seen rest : List (ClassStatement H W)} {orders : List (List ℕ)}
    (hworld : Collected h.statements world)
    (hsplit : withWebServer h.statements = seen ++ rest) (hseen : world.length = seen.length)
    (horders : linearizeFrom (world.map ClassObject.mro) (rest.map ClassStatement.bases) =
      some orders)
    (hapart : ∀ stmt ∈ rest, stmt.bases.Pairwise (Apart h.statements)) :
    ∃ world', createClasses world rest = .ok world' := by
  induction rest generalizing world seen with
  | nil => exact ⟨world, rfl⟩
  | cons stmt rest ih =>
    rw [List.map_cons, linearizeFrom] at horders
    obtain ⟨mro, hmro, hrest⟩ := Option.bind_eq_some_iff.mp horders
    have hstmt := statement_at hsplit hseen
    obtain ⟨cls, hcls⟩ := newClass_of_apart hworld hstmt hmro (hapart stmt List.mem_cons_self)
    obtain ⟨hmro', -, hcollected⟩ := newClass_ok hworld hstmt hcls
    rw [hmro] at hmro'
    cases hmro'
    have hnext := hsplit.trans (List.append_cons seen stmt rest)
    have hlength : (world ++ [cls]).length = (seen ++ [stmt]).length := by
      rw [List.length_append, List.length_append, hseen]
      rfl
    have hmros : world.map ClassObject.mro ++ [cls.mro] = (world ++ [cls]).map ClassObject.mro := by
      rw [List.map_append]
      rfl
    rw [hmros] at hrest
    obtain ⟨world', hworld'⟩ := ih hcollected hnext hlength hrest
      fun stmt' hmem => hapart stmt' (List.mem_cons_of_mem _ hmem)
    refine ⟨world', ?_⟩
    rw [createClasses, bind_eq_ok_iff]
    exact ⟨cls, hcls, hworld'⟩

theorem collected_webServer (h : Hierarchy H W) : Collected h.statements [webServer] := by
  intro c cls hcls
  obtain ⟨rfl, rfl⟩ : c = 0 ∧ webServer = cls := by
    cases c with
    | zero => exact ⟨rfl, Option.some.inj hcls⟩
    | succ c => cases hcls
  refine ⟨List.nodup_nil, fun name template => ?_⟩
  have hroot : (withWebServer h.statements)[0]? = some ⟨[], Dict.empty⟩ := rfl
  rw [inherited_iff hroot]
  simp [webServer, Dict.empty, boundTemplates]

theorem withWebServer_eq (stmts : List (ClassStatement H W)) :
    withWebServer stmts = [⟨[], Dict.empty⟩] ++ stmts := rfl

theorem linearizations_graph (stmts : List (ClassStatement H W)) :
    linearizations (graph stmts) =
      linearizeFrom ([webServer (H := H) (W := W)].map ClassObject.mro)
        (stmts.map ClassStatement.bases) := rfl

/-- The `__mro__` of a created class lists the class and its ancestors, each once. -/
theorem created_mro {h : Hierarchy H W} {world : List (ClassObject H W)}
    (hcreate : createClasses [webServer] h.statements = .ok world) {c : ℕ} {cls : ClassObject H W}
    (hcls : world[c]? = some cls) : Lists (graph h.statements) c cls.mro := by
  obtain ⟨horders, -⟩ := createClasses_ok (collected_webServer h) (withWebServer_eq _) rfl hcreate
  apply linearizations_list h.bases_earlier ((linearizations_graph _).trans horders)
  rw [List.getElem?_map, hcls]
  rfl

end Creation

/-- The classes are all created, each with the templates of its body and of its ancestors'
bodies, exactly when the language accepts their bases and no class has two bases that share
a class whose body binds a template. -/
theorem collects_templates_iff (h : Hierarchy H W) :
    CollectsTemplates h ↔ (linearizations (graph h.statements)).isSome ∧
      ∀ stmt ∈ h.statements, stmt.bases.Pairwise (Apart h.statements) := by
  rw [linearizations_graph]
  constructor
  · rintro ⟨world, hcreate, -, -⟩
    obtain ⟨horders, hapart, -⟩ :=
      createClasses_ok (collected_webServer h) (withWebServer_eq _) rfl hcreate
    rw [horders]
    exact ⟨rfl, hapart⟩
  · rintro ⟨hsome, hapart⟩
    obtain ⟨orders, horders⟩ := Option.isSome_iff_exists.mp hsome
    obtain ⟨world, hcreate⟩ :=
      createClasses_of_apart (collected_webServer h) (withWebServer_eq _) rfl horders hapart
    obtain ⟨-, -, hlength, hworld⟩ :=
      createClasses_ok (collected_webServer h) (withWebServer_eq _) rfl hcreate
    exact ⟨world, hcreate, hlength, hworld⟩

/-- `class A(WebServer)` with an endpoint `health`, `class B(A)`, `class C(A)` and
`class D(B, C)`. -/
def diamondStatements : List (ClassStatement Unit Unit) :=
  [⟨[0], Dict.empty.set "health" (.template (.http ()))⟩, ⟨[1], Dict.empty⟩, ⟨[1], Dict.empty⟩,
    ⟨[2, 3], Dict.empty⟩]

theorem diamond_binds {c : ℕ} {name : String} {template : EndpointTemplate Unit Unit}
    (h : Binds diamondStatements c name template) : c = 1 := by
  obtain ⟨stmt, hstmt, hmem⟩ := h
  rcases c with _ | _ | _ | _ | _ | c <;> cases hstmt
  · cases hmem
  · rfl
  all_goals cases hmem

def diamond : Hierarchy Unit Unit where
  statements := diamondStatements
  bases_ne_nil := by simp [diamondStatements]
  bases_earlier := by
    rintro c b ⟨bases, hbases, hb⟩
    rcases c with _ | _ | _ | _ | _ | c <;> cases hbases
    all_goals
      simp at hb
      try omega
  bound_once := by
    intro c c' name template template' hc hc'
    rw [diamond_binds hc, diamond_binds hc']

/-- The templates of `B` and of `C` are the same one, but `D` raises. -/
theorem diamond_raises : ¬ CollectsTemplates diamond := by
  have hraises : createClasses [webServer] diamond.statements =
      .error (.overlapping ["health"]) := rfl
  rintro ⟨world, hcreate, -⟩
  rw [hraises] at hcreate
  cases hcreate

end Yellowbox.ClassEndpoints
