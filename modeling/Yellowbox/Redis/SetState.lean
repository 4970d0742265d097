import Mathlib.Data.Int.Notation
import Yellowbox.Base.Effects
import Yellowbox.Base.KeyedWrites

/-!
`RedisService.set_state`. Values are told apart by Python's abstract types, and a
`str` and a `bytes` are sequences, so they are pushed as lists of their items.
-/
namespace Yellowbox.Redis

open Effects KeyedWrites

abbrev Bytes := List UInt8

/-- A primitive, over the type `F` of Python's floats. -/
inductive Primitive (F : Type)
  | str (text : String)
  | int (n : ℤ)
  | float (x : F)
  | bytes (data : Bytes)

/-- A field name, a `str` or a `bytes`. -/
inductive FieldName
  | str (text : String)
  | bytes (data : Bytes)

/-- The values of a `RedisState`: primitives, sequences of primitives, and mappings of
field names to primitives. -/
inductive Value (F : Type)
  | primitive (p : Primitive F)
  | sequence (items : List (Primitive F))
  | mapping (fields : List (FieldName × Primitive F))

variable {F : Type}

/-- What a key of the database holds; a set, a sorted set or a stream is given by its
`DUMP`. -/
inductive Stored
  | string (data : Bytes)
  | list (items : List Bytes)
  | hash (fields : Bytes → Option Bytes)
  | other (dump : Bytes)

/-- The database, by encoded key. -/
abbrev Db := Bytes → Option Stored

inductive Exc
  | wrongType
  | dataError
  | responseError
  deriving DecidableEq, Repr

/-! ### The client -/

/-- `text.encode()` -/
def encodeStr (text : String) : Bytes := text.toUTF8.data.toList

/-- The client's encoder: bytes as they are, numbers by their `repr`. -/
def encode (reprFloat : F → String) : Primitive F → Bytes
  | .str text => encodeStr text
  | .int n => encodeStr (toString n)
  | .float x => encodeStr (reprFloat x)
  | .bytes data => data

def encodeName : FieldName → Bytes
  | .str text => encodeStr text
  | .bytes data => data

def encodeFields (reprFloat : F → String) (fields : List (FieldName × Primitive F)) :
    List (FieldName × Bytes) :=
  fields.map fun field => (field.1, encode reprFloat field.2)

def write (k : String) (stored : Stored) : Act Db Exc Unit :=
  Act.modify fun db => Function.update db (encodeStr k) (some stored)

def flushall : Act Db Exc Unit := Act.modify fun _ _ => none

/-- `SET`: whatever the key held is replaced; the client refuses what it cannot encode. -/
def set (reprFloat : F → String) (k : String) : Value F → Act Db Exc Unit
  | .primitive p => write k (.string (encode reprFloat p))
  | .sequence _ | .mapping _ => Act.raise .dataError

/-- `HSET`: the client refuses an empty mapping, the server a key of another type. Of
two names that are encoded alike the later sets the field. -/
def hset (reprFloat : F → String) (k : String) (fields : List (FieldName × Primitive F)) :
    Act Db Exc Unit := do
  Act.raiseIf fields.isEmpty .dataError
  match (← Act.get) (encodeStr k) with
  | none => write k (.hash (writes encodeName (encodeFields reprFloat fields) fun _ => none))
  | some (.hash old) =>
    write k (.hash (writes encodeName (encodeFields reprFloat fields) old))
  | some (.string _) | some (.list _) | some (.other _) => Act.raise .wrongType

/-- `RPUSH`: the server refuses a command without items, and a key of another type. -/
def rpush (reprFloat : F → String) (k : String) (items : List (Primitive F)) :
    Act Db Exc Unit := do
  Act.raiseIf items.isEmpty .responseError
  match (← Act.get) (encodeStr k) with
  | none => write k (.list (items.map (encode reprFloat)))
  | some (.list old) => write k (.list (old ++ items.map (encode reprFloat)))
  | some (.string _) | some (.hash _) | some (.other _) => Act.raise .wrongType

/-! ### The code -/

/-- `isinstance(v, Sequence)`, with what `*v` unpacks then: the characters of a `str`, the
numbers of a `bytes`. -/
def asSequence : Value F → Option (List (Primitive F))
  | .primitive (.str text) => some (text.toList.map fun c => .str (String.singleton c))
  | .primitive (.bytes data) => some (data.map fun b => .int b.toNat)
  | .primitive (.int _) | .primitive (.float _) => none
  | .sequence items => some items
  | .mapping _ => none

/-- `isinstance(v, Mapping)` -/
def asMapping : Value F → Option (List (FieldName × Primitive F))
  | .mapping fields => some fields
  | .primitive _ | .sequence _ => none

def appendEntry (reprFloat : F → String) (entry : String × Value F) : Act Db Exc Unit :=
  match asSequence entry.2, asMapping entry.2 with
  | some items, _ => rpush reprFloat entry.1 items
  | none, some fields => hset reprFloat entry.1 fields
  | none, none => set reprFloat entry.1 entry.2

/-- `append_state(client, db_state)` -/
def appendState (reprFloat : F → String) (dbState : List (String × Value F)) :
    Act Db Exc Unit :=
  Act.forEach (appendEntry reprFloat) dbState

/-- `RedisService.set_state(db_dict)` -/
def setState (reprFloat : F → String) (dbDict : List (String × Value F)) : Act Db Exc Unit := do
  flushall
  appendState reprFloat dbDict

/-! ### What the state says -/

/-- Sequences and mappings are not empty, and no two field names are encoded alike, as no
two `str` names are. -/
def Value.Documented : Value F → Prop
  | primitive _ => True
  | sequence items => items ≠ []
  | mapping fields => fields ≠ [] ∧ (fields.map fun field => encodeName field.1).Nodup

/-- A `db_dict`: distinct keys with documented values. -/
structure RedisState (F : Type) where
  entries : List (String × Value F)
  nodup : (entries.map Prod.fst).Nodup
  documented : ∀ entry ∈ entries, entry.2.Documented

/-- What a documented value stands for. -/
def Value.stored (reprFloat : F → String) : Value F → Stored
  | primitive p => .string (encode reprFloat p)
  | sequence items => .list (items.map (encode reprFloat))
  | mapping fields => .hash (bound encodeName (encodeFields reprFloat fields))

/-- The database that holds exactly the keys of the state, each with its value. -/
def RedisState.contents (reprFloat : F → String) (state : RedisState F) : Db :=
  bound encodeStr (state.entries.map fun entry => (entry.1, entry.2.stored reprFloat))

/-- A `str` or `bytes` as the whole value of a key. -/
def Value.isText : Value F → Bool
  | primitive (.str _) | primitive (.bytes _) => true
  | primitive (.int _) | primitive (.float _) | sequence _ | mapping _ => false

theorem encodeStr_injective : Function.Injective encodeStr := by
  intro s t h
  have hdata : s.toUTF8 = t.toUTF8 := ByteArray.ext (Array.toList_inj.mp h)
  exact String.toByteArray_inj.mp hdata

/-! ### One entry -/

/-- What `append_state` makes of a value under a key that held nothing. -/
def outcome (reprFloat : F → String) (v : Value F) : Except Exc Stored :=
  match asSequence v with
  | some [] => .error .responseError
  | some (item :: items) => .ok (.list ((item :: items).map (encode reprFloat)))
  | none => .ok (v.stored reprFloat)

variable {reprFloat : F → String} {db : Db} {k : String} {v : Value F}

theorem encodeFields_names (reprFloat : F → String) (fields : List (FieldName × Primitive F)) :
    (encodeFields reprFloat fields).map (fun field => encodeName field.1) =
      fields.map fun field => encodeName field.1 := by
  simp [encodeFields, Function.comp_def]

theorem rpush_fresh (h : db (encodeStr k) = none) (items : List (Primitive F)) :
    rpush reprFloat k items db =
      match items with
      | [] => (.error .responseError, db)
      | _ :: _ => write k (.list (items.map (encode reprFloat))) db := by
  cases items with
  | nil => rfl
  | cons item items =>
    rw [rpush, Act.raiseIf_bind]
    simp only [List.isEmpty_cons, Bool.false_eq_true, if_false, Act.get_bind, h]

theorem hset_fresh (h : db (encodeStr k) = none) {fields : List (FieldName × Primitive F)}
    (hfields : (Value.mapping fields).Documented) :
    hset reprFloat k fields db = write k ((Value.mapping fields).stored reprFloat) db := by
  obtain ⟨hne, hnodup⟩ := hfields
  have hhash : writes encodeName (encodeFields reprFloat fields) (fun _ => none) =
      bound encodeName (encodeFields reprFloat fields) := by
    funext b
    rw [← encodeFields_names reprFloat fields] at hnodup
    rw [writes_eq _ hnodup, Option.or_none]
  have hempty : fields.isEmpty = false := List.isEmpty_eq_false_iff.mpr hne
  rw [hset, Act.raiseIf_bind, hempty]
  simp only [Bool.false_eq_true, if_false, Act.get_bind, h, hhash]
  rfl

theorem appendEntry_fresh (h : db (encodeStr k) = none) (hv : v.Documented) :
    appendEntry reprFloat (k, v) db =
      match outcome reprFloat v with
      | .error e => (.error e, db)
      | .ok stored => write k stored db := by
  cases hseq : asSequence v with
  | some items =>
    simp only [appendEntry, outcome, hseq, rpush_fresh h]
    cases items <;> rfl
  | none =>
    simp only [appendEntry, outcome, hseq]
    cases v with
    | primitive p => rfl
    | sequence items => cases hseq
    | mapping fields => exact hset_fresh h hv

/-! ### All entries -/

/-- No entry has a key of the database. -/
def Fresh (entries : List (String × Value F)) (db : Db) : Prop :=
  ∀ entry ∈ entries, db (encodeStr entry.1) = none

/-- The entries with what the code makes of their values, as far as it makes something. -/
def outcomes (reprFloat : F → String) (entries : List (String × Value F)) :
    List (String × Stored) :=
  entries.filterMap fun entry =>
    match outcome reprFloat entry.2 with
    | .ok stored => some (entry.1, stored)
    | .error _ => none

theorem Fresh.tail {entry : String × Value F} {entries : List (String × Value F)}
    (h : Fresh (entry :: entries) db) (hnot : entry.1 ∉ entries.map Prod.fst)
    (stored : Stored) :
    Fresh entries (Function.update db (encodeStr entry.1) (some stored)) := by
  intro other hmem
  have hne : encodeStr other.1 ≠ encodeStr entry.1 := by
    intro heq
    apply hnot
    rw [← encodeStr_injective heq]
    exact List.mem_map_of_mem hmem
  rw [Function.update_of_ne hne]
  exact h other (List.mem_cons_of_mem entry hmem)

/-- Entries with distinct new keys are all written, unless one of them raises. -/
theorem appendState_fresh (reprFloat : F → String) (entries : List (String × Value F))
    (hnodup : (entries.map Prod.fst).Nodup)
    (hdocumented : ∀ entry ∈ entries, entry.2.Documented) (db : Db)
    (hfresh : Fresh entries db) :
    ((∃ entry ∈ entries, ∃ e, outcome reprFloat entry.2 = .error e) →
      ∃ e db', appendState reprFloat entries db = (.error e, db')) ∧
    ((¬ ∃ entry ∈ entries, ∃ e, outcome reprFloat entry.2 = .error e) →
      appendState reprFloat entries db =
        (.ok (), writes encodeStr (outcomes reprFloat entries) db)) := by
  induction entries generalizing db with
  | nil =>
    constructor
    · rintro ⟨_, hmem, -⟩
      cases hmem
    · exact fun _ => rfl
  | cons entry entries ih =>
    obtain ⟨hnot, hnodup⟩ := List.nodup_cons.mp hnodup
    have hhead : appendEntry reprFloat (entry.1, entry.2) db = _ :=
      appendEntry_fresh (hfresh entry (List.mem_cons_self ..))
        (hdocumented entry (List.mem_cons_self ..))
    cases hout : outcome reprFloat entry.2 with
    | error e =>
      rw [hout] at hhead
      refine ⟨fun _ => ⟨e, db, Act.forEach_cons_error hhead entries⟩, fun h => ?_⟩
      exact absurd ⟨entry, List.mem_cons_self .., e, hout⟩ h
    | ok stored =>
      rw [hout] at hhead
      have hstep : appendState reprFloat (entry :: entries) db =
          appendState reprFloat entries
            (Function.update db (encodeStr entry.1) (some stored)) :=
        Act.forEach_cons_ok hhead entries
      have hexists : (∃ other ∈ entry :: entries, ∃ e, outcome reprFloat other.2 = .error e) ↔
          ∃ other ∈ entries, ∃ e, outcome reprFloat other.2 = .error e := by
        simp [hout]
      have houtcomes : outcomes reprFloat (entry :: entries) =
          (entry.1, stored) :: outcomes reprFloat entries := by
        simp [outcomes, hout]
      rw [hstep, hexists, houtcomes]
      exact ih hnodup (fun other hmem => hdocumented other (List.mem_cons_of_mem entry hmem)) _
        (hfresh.tail hnot stored)

theorem outcomes_sublist (reprFloat : F → String) (entries : List (String × Value F)) :
    ((outcomes reprFloat entries).map Prod.fst).Sublist (entries.map Prod.fst) := by
  induction entries with
  | nil => exact List.Sublist.refl _
  | cons entry entries ih =>
    cases hout : outcome reprFloat entry.2 with
    | error e => simpa [outcomes, hout] using ih.cons entry.1
    | ok stored => simpa [outcomes, hout] using ih

theorem mem_outcomes {entries : List (String × Value F)} {entry : String × Value F}
    {stored : Stored} (h : entry ∈ entries) (hout : outcome reprFloat entry.2 = .ok stored) :
    (entry.1, stored) ∈ outcomes reprFloat entries := by
  apply List.mem_filterMap.mpr
  exact ⟨entry, h, by simp only [hout]⟩

theorem outcome_of_not_text (h : v.isText = false) (hv : v.Documented) :
    outcome reprFloat v = .ok (v.stored reprFloat) := by
  cases v with
  | primitive p =>
    cases p with
    | str | bytes => cases h
    | int | float => rfl
  | sequence items =>
    cases items with
    | nil => exact absurd rfl hv
    | cons item items => rfl
  | mapping fields => rfl

/-- A `str` or `bytes` becomes a list, or raises when it is empty. -/
theorem outcome_of_text (h : v.isText = true) :
    outcome reprFloat v ≠ .ok (v.stored reprFloat) := by
  have hlist : ∀ (p : Primitive F) (items : List (Primitive F)),
      asSequence (.primitive p) = some items →
      outcome reprFloat (.primitive p) ≠ .ok ((Value.primitive p).stored reprFloat) := by
    intro p items hseq
    cases items <;> simp [outcome, hseq, Value.stored]
  cases v with
  | primitive p =>
    cases p with
    | str text => exact hlist _ _ rfl
    | bytes data => exact hlist _ _ rfl
    | int | float => cases h
  | sequence | mapping => cases h

/-- Distinct keys have distinct encodings. -/
theorem encoded_nodup {V : Type} {entries : List (String × V)}
    (h : (entries.map Prod.fst).Nodup) :
    (entries.map fun entry => encodeStr entry.1).Nodup := by
  have hmap := h.map encodeStr_injective
  rwa [List.map_map] at hmap

theorem contents_of_mem {state : RedisState F} {entry : String × Value F}
    (h : entry ∈ state.entries) :
    state.contents reprFloat (encodeStr entry.1) = some (entry.2.stored reprFloat) := by
  apply bound_of_mem
  · simpa [List.map_map, Function.comp_def] using encoded_nodup state.nodup
  · exact List.mem_map_of_mem h

theorem outcomes_of_not_text {state : RedisState F}
    (h : ∀ entry ∈ state.entries, entry.2.isText = false) :
    outcomes reprFloat state.entries =
      state.entries.map fun entry => (entry.1, entry.2.stored reprFloat) := by
  rw [outcomes, ← List.filterMap_eq_map]
  apply List.filterMap_congr
  intro entry hentry
  simp only [outcome_of_not_text (h entry hentry) (state.documented entry hentry),
    Function.comp_apply]

/-- Some value raises. -/
def Raises (reprFloat : F → String) (state : RedisState F) : Prop :=
  ∃ entry ∈ state.entries, ∃ e, outcome reprFloat entry.2 = .error e

theorem setState_raises {state : RedisState F} (h : Raises reprFloat state) (db : Db) :
    (setState reprFloat state.entries db).1 ≠ .ok () := by
  obtain ⟨e, db', hraise⟩ := (appendState_fresh reprFloat state.entries state.nodup
    state.documented (fun _ => none) (fun _ _ => rfl)).1 h
  have hset : setState reprFloat state.entries db = (.error e, db') := hraise
  simp [hset]

theorem setState_writes {state : RedisState F} (h : ¬ Raises reprFloat state) (db : Db) :
    setState reprFloat state.entries db =
      (.ok (), bound encodeStr (outcomes reprFloat state.entries)) := by
  have hwrites := (appendState_fresh reprFloat state.entries state.nodup
    state.documented (fun _ => none) (fun _ _ => rfl)).2 h
  have hset : setState reprFloat state.entries db =
      (.ok (), writes encodeStr (outcomes reprFloat state.entries) fun _ => none) := hwrites
  have hnodup := encoded_nodup ((outcomes_sublist reprFloat state.entries).nodup state.nodup)
  have hbound : writes encodeStr (outcomes reprFloat state.entries) (fun _ => none) =
      bound encodeStr (outcomes reprFloat state.entries) := by
    funext b
    rw [writes_eq _ hnodup, Option.or_none]
  rw [hset, hbound]

/-- `set_state` leaves exactly what the state says if and only if no value is a `str` or
a `bytes`. -/
theorem set_state_iff (reprFloat : F → String) (state : RedisState F) (db : Db) :
    setState reprFloat state.entries db = (.ok (), state.contents reprFloat) ↔
      ∀ entry ∈ state.entries, entry.2.isText = false := by
  constructor
  · intro h entry hentry
    have hquiet : ¬ Raises reprFloat state :=
      fun hraises => setState_raises hraises db (by rw [h])
    rw [setState_writes hquiet] at h
    have hnodup := encoded_nodup ((outcomes_sublist reprFloat state.entries).nodup state.nodup)
    cases hout : outcome reprFloat entry.2 with
    | error e => exact absurd ⟨entry, hentry, e, hout⟩ hquiet
    | ok stored =>
      have hdb := congrFun (Prod.mk.inj h).2 (encodeStr entry.1)
      rw [bound_of_mem hnodup (mem_outcomes hentry hout), contents_of_mem hentry] at hdb
      rw [Option.some.inj hdb] at hout
      by_contra htext
      exact outcome_of_text (by simpa using htext) hout
  · intro h
    have hquiet : ¬ Raises reprFloat state := by
      rintro ⟨entry, hentry, e, he⟩
      rw [outcome_of_not_text (h entry hentry) (state.documented entry hentry)] at he
      cases he
    rw [setState_writes hquiet, outcomes_of_not_text h]
    rfl

/-- A `str` is pushed character by character. -/
theorem text_becomes_list :
    ¬ ∀ (reprFloat : Unit → String) (state : RedisState Unit) (db : Db),
      setState reprFloat state.entries db = (.ok (), state.contents reprFloat) := by
  intro h
  let state : RedisState Unit := {
    entries := [("a", .primitive (.str "bc"))]
    nodup := by decide
    documented := fun entry hentry => by
      rw [List.mem_singleton.mp hentry]
      trivial
  }
  have hdb := congrArg (fun r => r.2 (encodeStr "a")) (h (fun _ => "") state fun _ => none)
  have hlist : (setState (fun _ => "") state.entries fun _ => none).2 (encodeStr "a") =
      some (.list [[98], [99]]) := by
    rfl
  rw [hlist] at hdb
  cases hdb

end Yellowbox.Redis
