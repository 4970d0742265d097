import Yellowbox.Base.KeyedFolds
import Yellowbox.Redis.SetState

/-!
`append_state` on any database, also one with sets or streams, and services on which
`reset_state`, `set_state` and `append_state` are called in any order. A key holds what was
appended to it since the last flush: lists grow, hashes take up new fields and numbers are
replaced, while a value of another type is refused by the server and ends the call.
-/
namespace Yellowbox.Redis

open Effects KeyedFolds KeyedWrites

variable {F : Type} {reprFloat : F → String} {db db' : Db}

/-! ### One entry -/

/-- A list with these items at its end. -/
def pushed (reprFloat : F → String) (items : List (Primitive F)) :
    Option Stored → Except Exc Stored
  | none => .ok (.list (items.map (encode reprFloat)))
  | some (.list old) => .ok (.list (old ++ items.map (encode reprFloat)))
  | some (.string _) | some (.hash _) | some (.other _) => .error .wrongType

/-- A hash with these fields set. -/
def hashed (reprFloat : F → String) (fields : List (FieldName × Primitive F)) :
    Option Stored → Except Exc Stored
  | none => .ok (.hash (writes encodeName (encodeFields reprFloat fields) fun _ => none))
  | some (.hash old) => .ok (.hash (writes encodeName (encodeFields reprFloat fields) old))
  | some (.string _) | some (.list _) | some (.other _) => .error .wrongType

/-- What one entry makes of what its key holds. -/
def merge (reprFloat : F → String) (old : Option Stored) (v : Value F) : Except Exc Stored :=
  match asSequence v, asMapping v with
  | some items, _ => if items.isEmpty then .error .responseError else pushed reprFloat items old
  | none, some fields => if fields.isEmpty then .error .dataError else hashed reprFloat fields old
  | none, none => .ok (v.stored reprFloat)

/-- The outcome of a command that is about one key. -/
def place (k : String) (result : Except Exc Stored) (db : Db) : Except Exc Unit × Db :=
  match result with
  | .error e => (.error e, db)
  | .ok stored => (.ok (), Function.update db (encodeStr k) (some stored))

theorem rpush_eq (reprFloat : F → String) (k : String) (items : List (Primitive F)) (db : Db) :
    rpush reprFloat k items db =
      place k (if items.isEmpty then .error .responseError
        else pushed reprFloat items (db (encodeStr k))) db := by
  rw [rpush, Act.raiseIf_bind]
  cases items.isEmpty with
  | true => rfl
  | false =>
    rw [if_neg Bool.false_ne_true, if_neg Bool.false_ne_true, Act.get_bind]
    rcases db (encodeStr k) with _ | _ | _ | _ | _ <;> rfl

theorem hset_eq (reprFloat : F → String) (k : String) (fields : List (FieldName × Primitive F))
    (db : Db) : hset reprFloat k fields db =
      place k (if fields.isEmpty then .error .dataError
        else hashed reprFloat fields (db (encodeStr k))) db := by
  rw [hset, Act.raiseIf_bind]
  cases fields.isEmpty with
  | true => rfl
  | false =>
    rw [if_neg Bool.false_ne_true, if_neg Bool.false_ne_true, Act.get_bind]
    rcases db (encodeStr k) with _ | _ | _ | _ | _ <;> rfl

/-- An entry changes its own key, or nothing. -/
theorem appendEntry_eq (reprFloat : F → String) (k : String) (v : Value F) (db : Db) :
    appendEntry reprFloat (k, v) db = place k (merge reprFloat (db (encodeStr k)) v) db := by
  cases hseq : asSequence v with
  | some items =>
    simp only [appendEntry, merge, hseq]
    exact rpush_eq reprFloat k items db
  | none =>
    cases hmap : asMapping v with
    | some fields =>
      simp only [appendEntry, merge, hseq, hmap]
      exact hset_eq reprFloat k fields db
    | none =>
      simp only [appendEntry, merge, hseq, hmap]
      cases v with
      | primitive p => rfl
      | sequence items => cases hseq
      | mapping fields => cases hmap

theorem appendState_eq (reprFloat : F → String) (entries : List (String × Value F)) (db : Db) :
    appendState reprFloat entries db = foldKeyed encodeStr (merge reprFloat) entries db := by
  induction entries generalizing db with
  | nil => rfl
  | cons entry entries ih =>
    obtain ⟨k, v⟩ := entry
    have hentry := appendEntry_eq reprFloat k v db
    cases hmerge : merge reprFloat (db (encodeStr k)) v with
    | error e =>
      rw [hmerge] at hentry
      rw [foldKeyed_cons_error hmerge]
      exact Act.forEach_cons_error hentry entries
    | ok stored =>
      rw [hmerge] at hentry
      rw [foldKeyed_cons_ok hmerge, ← ih]
      exact Act.forEach_cons_ok hentry entries

/-! ### A service in use -/

/-- The calls that change the database; a client may append to it at any time. -/
inductive Call (F : Type)
  | resetState
  | setState (dbDict : List (String × Value F))
  | appendState (dbState : List (String × Value F))

def Call.act (reprFloat : F → String) : Call F → Act Db Exc Unit
  | .resetState => flushall
  | .setState dbDict => Redis.setState reprFloat dbDict
  | .appendState dbState => Redis.appendState reprFloat dbState

/-- The database after these calls, some of which may have raised. -/
def run (reprFloat : F → String) (calls : List (Call F)) (db : Db) : Db :=
  calls.foldl (fun db call => (call.act reprFloat db).2) db

/-- What a call asks to be appended, and whether it flushes the database before. -/
def Call.entries : Call F → List (String × Value F)
  | .resetState => []
  | .setState dbDict => dbDict
  | .appendState dbState => dbState

def Call.flushes : Call F → Bool
  | .resetState | .setState _ => true
  | .appendState _ => false

theorem Call.act_eq (reprFloat : F → String) (call : Call F) (db : Db) :
    call.act reprFloat db = foldKeyed encodeStr (merge reprFloat) call.entries
      (if call.flushes then fun _ => none else db) := by
  cases call with
  | resetState => rfl
  | setState dbDict => exact appendState_eq reprFloat dbDict _
  | appendState dbState => exact appendState_eq reprFloat dbState db

/-- The calls since the last flush, the one that flushed among them. -/
def sinceFlush : List (Call F) → List (Call F)
  | [] => []
  | call :: calls => if calls.any Call.flushes then sinceFlush calls else call :: calls

theorem sinceFlush_of_not {calls : List (Call F)} (h : calls.any Call.flushes = false) :
    sinceFlush calls = calls := by
  cases calls with
  | nil => rfl
  | cons call calls =>
    rw [List.any_cons, Bool.or_eq_false_iff] at h
    rw [sinceFlush, if_neg (by simp [h.2])]

/-- First parts of the calls since the last flush make the database of nothing, or of what
it was at the beginning if there was no flush. -/
theorem run_eq (reprFloat : F → String) (calls : List (Call F)) (db : Db) :
    ∃ made : List (List (String × Value F)),
      List.Forall₂ (fun part call => part <+: Call.entries call) made (sinceFlush calls) ∧
      foldKeyed encodeStr (merge reprFloat) made.flatten
        (if calls.any Call.flushes then fun _ => none else db) =
          (.ok (), run reprFloat calls db) := by
  induction calls generalizing db with
  | nil => exact ⟨[], List.Forall₂.nil, rfl⟩
  | cons call calls ih =>
    obtain ⟨made, hmade, hrun⟩ := ih (call.act reprFloat db).2
    cases hflush : calls.any Call.flushes with
    | true =>
      rw [hflush, if_pos rfl] at hrun
      refine ⟨made, ?_, ?_⟩
      · rw [sinceFlush, if_pos hflush]
        exact hmade
      · rw [List.any_cons, hflush, Bool.or_true, if_pos rfl]
        exact hrun
    | false =>
      -- what this call made comes before what the later ones make
      rw [hflush, if_neg Bool.false_ne_true] at hrun
      rw [sinceFlush_of_not hflush] at hmade
      obtain ⟨part, hpart, hfold⟩ := exists_made encodeStr (merge reprFloat) call.entries
        (if call.flushes then fun _ => none else db)
      rw [← Call.act_eq] at hfold
      refine ⟨part :: made, ?_, ?_⟩
      · rw [sinceFlush, if_neg (by simp [hflush])]
        exact List.Forall₂.cons hpart hmade
      · rw [List.any_cons, hflush, Bool.or_false, List.flatten_cons, foldKeyed_append hfold]
        exact hrun

/-- A call of `append_state` succeeds exactly when the entries of each key do, which alone
decide what the key holds; the first entry that is refused ends the call, behind what was
appended before it. So at any time a key holds what was appended since the last flush. -/
theorem append_state_spec (reprFloat : F → String) :
    (∀ (entries : List (String × Value F)) (db db' : Db),
      appendState reprFloat entries db = (.ok (), db') ↔
        ∀ b, mergeAll (merge reprFloat) (db b) (changesAt encodeStr b entries) = .ok (db' b)) ∧
    (∀ (entries : List (String × Value F)) (db db' : Db) (e : Exc),
      appendState reprFloat entries db = (.error e, db') ↔
        ∃ before k v rest, entries = before ++ (k, v) :: rest ∧
          appendState reprFloat before db = (.ok (), db') ∧
          merge reprFloat (db' (encodeStr k)) v = .error e) ∧
    ∀ (calls : List (Call F)) (db : Db), ∃ made : List (List (String × Value F)),
      List.Forall₂ (fun part call => part <+: Call.entries call) made (sinceFlush calls) ∧
      ∀ b, mergeAll (merge reprFloat) (if calls.any Call.flushes then none else db b)
        (changesAt encodeStr b made.flatten) = .ok (run reprFloat calls db b) := by
  refine ⟨fun entries db db' => ?_, fun entries db db' e => ?_, fun calls db => ?_⟩
  · rw [appendState_eq]
    exact foldKeyed_ok_iff
  · simp only [appendState_eq]
    exact foldKeyed_error_iff
  · obtain ⟨made, hmade, hrun⟩ := run_eq reprFloat calls db
    refine ⟨made, hmade, fun b => ?_⟩
    have hkey := foldKeyed_ok_iff.mp hrun b
    cases hflush : calls.any Call.flushes with
    | true =>
      rw [hflush] at hkey
      exact hkey
    | false =>
      rw [hflush] at hkey
      exact hkey

end Yellowbox.Redis
