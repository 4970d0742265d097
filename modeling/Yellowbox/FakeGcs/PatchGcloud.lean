import Mathlib.Data.Nat.Notation
import Yellowbox.Base.Effects
import Yellowbox.Base.Json

/-!
`patch_gcloud_aio`: a context manager that saves globals of the process, overwrites them
and writes them back behind its `yield`. What is behind a `yield` is not reached when the
body raises, so the context restores the globals when the body returns, and leaves them
as a raising body did.
-/
namespace Yellowbox.FakeGcs.PatchGcloud

open Effects Json

/-- The constants of the module `gcloud.aio.storage.storage`. -/
structure Constants where
  API_ROOT : Value
  API_ROOT_UPLOAD : Value
  VERIFY_SSL : Value
  STORAGE_EMULATOR_HOST : Value

/-- The state of the process: an environment variable, the constants and all else. -/
structure Globals (W : Type) where
  environ : Option String
  gcloudModule : Constants
  rest : W

inductive Exc
  | importError
  | keyError (key : String)
  | warning
  | raised (name : String)
  deriving DecidableEq

/-- The version of the package, if it is there, and whether warnings are exceptions. -/
structure Process where
  gcloudAioVersion : Option String
  warningsRaise : Bool

structure Service where
  scheme : String
  exposeHost : String
  clientPort : Option ℕ

variable {W β : Type}

/-- `self.local_url(scheme)`, where no argument is the `...` of the signature. -/
def Service.localUrl (self : Service) (scheme : Option (Option String)) : Except Exc String :=
  match self.clientPort with
  | none => .error (.keyError "4443")
  | some port =>
    let ret := self.exposeHost ++ ":" ++ port.repr
    if (scheme.getD (some self.scheme)).any (· ≠ "") then .ok (self.scheme ++ "://" ++ ret)
    else .ok ret

/-- What a context keeps for its exit. -/
inductive Saved
  | environ (prevEnv : Option String)
  | constants (previousState : Constants)

/-- `not gcloud_aio_version.startswith("7.")` -/
def isNewer (version : String) : Bool := !"7.".toList.isPrefixOf version.toList

/-- What comes before the `yield`. -/
def enter (process : Process) (self : Service) : Act (Globals W) Exc Saved := fun g =>
  match process.gcloudAioVersion with
  | none => (.error .importError, g)
  | some version =>
    if isNewer version then
      if process.warningsRaise then (.error .warning, g)
      else
        match self.localUrl (some none) with
        | .error e => (.error e, g)
        | .ok url => (.ok (.environ g.environ), { g with environ := some url })
    else
      match self.localUrl none, self.localUrl (some (some "")) with
      | .ok url, .ok bare =>
        (.ok (.constants g.gcloudModule),
          { g with gcloudModule :=
            { API_ROOT := .str (url ++ "/storage/v1/b")
              API_ROOT_UPLOAD := .str (url ++ "/upload/storage/v1/b")
              VERIFY_SSL := .bool false
              STORAGE_EMULATOR_HOST := .str bare } })
      | .error e, _ => (.error e, g)
      | _, .error e => (.error e, g)

/-- `del environ["STORAGE_EMULATOR_HOST"]` -/
def deleteVariable : Act (Globals W) Exc Unit := fun g =>
  match g.environ with
  | none => (.error (.keyError "STORAGE_EMULATOR_HOST"), g)
  | some _ => (.ok (), { g with environ := none })

/-- What comes behind the `yield`. -/
def leave : Saved → Act (Globals W) Exc Unit
  | .environ none => deleteVariable
  | .environ (some prevEnv) => Act.modify fun g => { g with environ := some prevEnv }
  | .constants previousState => Act.modify fun g => { g with gcloudModule := previousState }

/-- `with self.patch_gcloud_aio(): body`; the exception of a body is raised at the
`yield`, where nothing handles it. -/
def patchGcloudAio (process : Process) (self : Service) (body : Act (Globals W) Exc β) :
    Act (Globals W) Exc β := do
  let saved ← enter process self
  let result ← body
  leave saved
  return result

/-- The globals that a context patches have the same values, or none, in both states. -/
def Kept (process : Process) (g t : Globals W) : Prop :=
  match process.gcloudAioVersion with
  | none => True
  | some version =>
    if isNewer version then t.environ = g.environ else t.gcloudModule = g.gcloudModule

variable {process : Process} {self : Service} {g t : Globals W} {saved : Saved} {e : Exc}

theorem kept_refl (process : Process) (g : Globals W) : Kept process g g := by
  unfold Kept
  split
  · trivial
  · split <;> rfl

/-- A context that is not entered changes nothing. -/
theorem enter_error (h : enter process self g = (.error e, t)) : t = g := by
  unfold enter at h
  split at h
  · cases h
    rfl
  · split at h
    · split at h
      · cases h
        rfl
      · split at h
        · cases h
          rfl
        · cases h
    · split at h
      · cases h
      · cases h
        rfl
      · cases h
        rfl

/-- What a context saves is what the patched globals were. -/
theorem enter_ok (h : enter process self g = (.ok saved, t)) :
    ∃ version, process.gcloudAioVersion = some version ∧
      saved = if isNewer version then .environ g.environ else .constants g.gcloudModule := by
  unfold enter at h
  split at h
  · cases h
  · rename_i version hversion
    refine ⟨version, hversion, ?_⟩
    split at h
    · rename_i hnewer
      rw [if_pos hnewer]
      split at h
      · cases h
      · split at h
        · cases h
        · cases h
          rfl
    · rename_i hnewer
      rw [if_neg hnewer]
      split at h
      · cases h
        rfl
      · cases h
      · cases h

/-- A variable that cannot be deleted is not there. -/
theorem environ_deleteVariable (g : Globals W) : (deleteVariable g).2.environ = none := by
  unfold deleteVariable
  split
  · assumption
  · rfl

/-- Whatever the body did, the exit gives the patched globals their saved values. -/
theorem leave_keeps (h : enter process self g = (.ok saved, t)) (u : Globals W) :
    Kept process g (leave saved u).2 := by
  obtain ⟨version, hversion, rfl⟩ := enter_ok h
  simp only [Kept, hversion]
  by_cases hnewer : isNewer version = true
  · rw [if_pos hnewer, if_pos hnewer]
    rcases hprev : g.environ with _ | prevEnv
    · exact environ_deleteVariable u
    · rfl
  · rw [if_neg hnewer, if_neg hnewer]
    rfl

variable {body : Act (Globals W) Exc β}

theorem patchGcloudAio_enter_error (h : enter process self g = (.error e, t)) :
    patchGcloudAio process self body g = (.error e, t) := Act.bind_error h

/-- An exception of the body leaves the context without its exit. -/
theorem patchGcloudAio_body_error {inner : Globals W}
    (h : enter process self g = (.ok saved, inner)) (hbody : body inner = (.error e, t)) :
    patchGcloudAio process self body g = (.error e, t) := by
  rw [patchGcloudAio, Act.bind_ok h, Act.bind_error hbody]

theorem patchGcloudAio_body_ok {inner : Globals W} {result : β}
    (h : enter process self g = (.ok saved, inner)) (hbody : body inner = (.ok result, t)) :
    (patchGcloudAio process self body g).2 = (leave saved t).2 := by
  rw [patchGcloudAio, Act.bind_ok h, Act.bind_ok hbody]
  rcases hleave : leave saved t with ⟨e | u, t'⟩
  · rw [Act.bind_error hleave]
  · rw [Act.bind_ok hleave]
    rfl

/-- Once a context has exited, the globals that it patched are as they were exactly when
its body, with all contexts in it, returned or raised with them as they were. -/
theorem patch_gcloud_aio_restores_iff (process : Process) (self : Service)
    (body : Act (Globals W) Exc β) (g : Globals W) :
    Kept process g (patchGcloudAio process self body g).2 ↔
      ∀ saved inner e t, enter process self g = (.ok saved, inner) →
        body inner = (.error e, t) → Kept process g t := by
  rcases henter : enter process self g with ⟨e | saved, inner⟩
  · rw [patchGcloudAio_enter_error henter, enter_error henter]
    refine iff_of_true (kept_refl process g) fun saved inner e t h => ?_
    cases h
  · rcases hbody : body inner with ⟨e | result, t⟩
    · rw [patchGcloudAio_body_error henter hbody]
      constructor
      · intro hkept saved' inner' e' t' h hbody'
        cases h
        rw [hbody] at hbody'
        cases hbody'
        exact hkept
      · intro h
        exact h saved inner e t rfl hbody
    · rw [patchGcloudAio_body_ok henter hbody]
      refine iff_of_true (leave_keeps henter t) fun saved' inner' e' t' h hbody' => ?_
      cases h
      rw [hbody] at hbody'
      cases hbody'

/-! ### Contexts in each other -/

/-- `with s1.patch_gcloud_aio(): with s2.patch_gcloud_aio(): ... body` -/
def patchAll (process : Process) (services : List Service) (body : Act (Globals W) Exc β) :
    Act (Globals W) Exc β :=
  services.foldr (fun self inner => patchGcloudAio process self inner) body

/-- The state in which the innermost body begins, if all contexts are entered. -/
def enterAll (process : Process) : List Service → Act (Globals W) Exc Unit
  | [] => Act.pure ()
  | self :: services => do
    let _ ← enter process self
    enterAll process services

/-- None of the contexts around a raising body restores anything. -/
theorem patchAll_body_error {services : List Service} {inner : Globals W}
    (h : enterAll process services g = (.ok (), inner)) (hbody : body inner = (.error e, t)) :
    patchAll process services body g = (.error e, t) := by
  induction services generalizing g with
  | nil =>
    cases h
    exact hbody
  | cons self services ih =>
    rw [enterAll] at h
    rcases henter : enter process self g with ⟨e' | saved, next⟩
    · rw [Act.bind_error henter] at h
      cases h
    · rw [Act.bind_ok henter] at h
      exact patchGcloudAio_body_error henter (ih h)

def someService : Service := ⟨"http", "127.0.0.1", some 49153⟩

def someGlobals : Globals Unit :=
  ⟨none, ⟨.str "https://www.googleapis.com/storage/v1/b", .null, .bool true, .null⟩, ()⟩

/-- The variable that was not set stays set behind a body that raises, and so do the
constants of the older version. -/
theorem raising_body_not_restored :
    ¬(∀ (process : Process) (self : Service) (body : Act (Globals Unit) Exc Unit)
      (g : Globals Unit), Kept process g (patchGcloudAio process self body g).2) ∧
      (patchGcloudAio ⟨some "8.3.0", false⟩ someService (Act.raise (.raised "ValueError") :
        Act (Globals Unit) Exc Unit) someGlobals).2.environ = some "127.0.0.1:49153" ∧
      ¬Kept ⟨some "7.1.0", false⟩ someGlobals
        (patchGcloudAio ⟨some "7.1.0", false⟩ someService (Act.raise (.raised "ValueError") :
          Act (Globals Unit) Exc Unit) someGlobals).2 := by
  refine ⟨fun h => ?_, by decide +kernel, fun h => ?_⟩
  · have hkept := h ⟨some "8.3.0", false⟩ someService (Act.raise (.raised "ValueError"))
      someGlobals
    have hset : (patchGcloudAio ⟨some "8.3.0", false⟩ someService
        (Act.raise (.raised "ValueError") : Act (Globals Unit) Exc Unit)
        someGlobals).2.environ = none := hkept
    exact absurd hset (by decide +kernel)
  · have hverify := congrArg (fun c => c.VERIFY_SSL.truthy) h
    exact absurd hverify (by decide +kernel)

end Yellowbox.FakeGcs.PatchGcloud
