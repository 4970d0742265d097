import Mathlib.Data.Int.Notation
import Mathlib.Data.Nat.Notation
import Mathlib.Logic.Function.Basic
import Yellowbox.Base.Effects

/-!
Docker containers as the library drives them. The daemon holds a status for
every container that exists; a container object holds the attributes of its last
reload. Each call reaches the daemon, which refuses it in the states where
docker does.
-/
namespace Yellowbox.Docker

open Effects

abbrev ContainerId := ℕ

inductive Status
  | created
  | running
  | paused
  | exited (code : ℤ)
  deriving DecidableEq, Repr

namespace Status

/-- `container.status`, as docker spells it. -/
def text : Status → String
  | created => "created"
  | running => "running"
  | paused => "paused"
  | exited _ => "exited"

theorem text_toLower (s : Status) : s.text.toLower = s.text := by
  cases s with
  | created | running | paused => decide +kernel
  | exited =>
    show "exited".toLower = "exited"
    decide +kernel

/-- The process is there, possibly frozen: docker's `State.Running`. -/
def up : Status → Bool
  | running | paused => true
  | created | exited _ => false

end Status

/-- What becomes of a container that is up when it gets a signal: it exits, or it stays up,
running or paused. A signal that docker does not know is refused. -/
inductive Reaction
  | exits (code : ℤ)
  | stays (paused : Bool)
  | refused
  deriving DecidableEq, Repr

theorem Reaction.exits_killed (_ : ContainerId) (_ : Status) :
    ∃ code, Reaction.exits 137 = .exits code := ⟨137, rfl⟩

def Reaction.next (s : Status) : Reaction → Status
  | exits code => .exited code
  | stays paused => if paused then .paused else .running
  | refused => s

inductive Error
  | notFound
  | conflict
  | badRequest
  | timeout
  | raised (name : String)
  deriving DecidableEq, Repr

/-- A call that reached the daemon, whether or not the daemon refused it. -/
inductive Request
  | start (c : ContainerId)
  | kill (c : ContainerId) (signal : String)
  | wait (c : ContainerId)
  | remove (c : ContainerId)
  deriving DecidableEq, Repr

/-- The daemon and the container objects: `status` of the containers that exist,
the `attrs` each object last loaded, how each container that is up reacts to a
signal, the containers connected to the network at hand, the first id the daemon has not
given out, and what was asked. No container can ignore the signal `SIGKILL`. -/
structure World where
  status : ContainerId → Option Status
  attrs : ContainerId → Status
  connected : ContainerId → Bool
  reaction : ContainerId → Status → String → Reaction
  sigkill : ∀ c s, ∃ code, reaction c s "SIGKILL" = .exits code
  next : ContainerId
  requests : List Request

namespace World

def setStatus (w : World) (c : ContainerId) (s : Option Status) : World :=
  { w with status := Function.update w.status c s }

def setConnected (w : World) (c : ContainerId) (b : Bool) : World :=
  { w with connected := Function.update w.connected c b }

def load (w : World) (c : ContainerId) (s : Status) : World :=
  { w with attrs := Function.update w.attrs c s }

def ask (w : World) (r : Request) : World :=
  { w with requests := w.requests ++ [r] }

/-- The container exists and its process is there. -/
def up (w : World) (c : ContainerId) : Bool := (w.status c).any Status.up

/-- The container exits on the signal. -/
def EndsOn (w : World) (c : ContainerId) (signal : String) : Prop :=
  ∀ s, s.up = true → ∃ code, w.reaction c s signal = .exits code

@[simp] theorem status_setStatus_self (w : World) (c : ContainerId) (s : Option Status) :
    (w.setStatus c s).status c = s := by
  simp only [setStatus, Function.update_self]

theorem status_setStatus_of_ne {c d : ContainerId} (h : d ≠ c) (w : World)
    (s : Option Status) : (w.setStatus c s).status d = w.status d := by
  simp only [setStatus, Function.update_of_ne h]

theorem connected_setConnected_of_ne {c d : ContainerId} (h : d ≠ c) (w : World) (b : Bool) :
    (w.setConnected c b).connected d = w.connected d := by
  simp only [setConnected, Function.update_of_ne h]

@[simp] theorem status_load (w : World) (c : ContainerId) (s : Status) :
    (w.load c s).status = w.status := rfl

@[simp] theorem status_ask (w : World) (r : Request) : (w.ask r).status = w.status := rfl

@[simp] theorem requests_setStatus (w : World) (c : ContainerId) (s : Option Status) :
    (w.setStatus c s).requests = w.requests := rfl

@[simp] theorem requests_load (w : World) (c : ContainerId) (s : Status) :
    (w.load c s).requests = w.requests := rfl

@[simp] theorem requests_ask (w : World) (r : Request) :
    (w.ask r).requests = w.requests ++ [r] := rfl

theorem up_iff {w : World} {c : ContainerId} :
    w.up c = true ↔ ∃ s, w.status c = some s ∧ s.up = true := by
  simp only [up, Option.any_eq_true]

theorem up_congr {w w' : World} {c : ContainerId} (h : w'.status c = w.status c) :
    w'.up c = w.up c := by
  simp only [up, h]

end World

/-- `container.reload()` -/
def reload (c : ContainerId) : Act World Error Unit := do
  match (← Act.get).status c with
  | none => Act.raise .notFound
  | some s => Act.modify fun w => w.load c s

/-- `container.start()`: starting a running container changes nothing. -/
def start (c : ContainerId) : Act World Error Unit := do
  Act.modify fun w => w.ask (.start c)
  match (← Act.get).status c with
  | none => Act.raise .notFound
  | some .paused => Act.raise .conflict
  | some _ => Act.modify fun w => w.setStatus c (some .running)

/-- `container.kill(signal)`, which only a container that is up can be sent. -/
def kill (signal : String) (c : ContainerId) : Act World Error Unit := do
  Act.modify fun w => w.ask (.kill c signal)
  match (← Act.get).status c with
  | none => Act.raise .notFound
  | some s =>
    Act.raiseIf (!s.up) .conflict
    let reaction := (← Act.get).reaction c s signal
    Act.raiseIf (reaction = .refused) .badRequest
    Act.modify fun w => w.setStatus c (some (reaction.next s))

/-- `container.wait(timeout=..)`: a container that is up keeps the call waiting
until its timeout. -/
def wait (c : ContainerId) : Act World Error Unit := do
  Act.modify fun w => w.ask (.wait c)
  match (← Act.get).status c with
  | none => Act.raise .notFound
  | some s => Act.raiseIf s.up .timeout

/-- `network.connect(container)` -/
def networkConnect (c : ContainerId) : Act World Error Unit := do
  match (← Act.get).status c with
  | none => Act.raise .notFound
  | some _ =>
    Act.raiseIf ((← Act.get).connected c) .conflict
    Act.modify fun w => w.setConnected c true

/-- `network.disconnect(container)` -/
def networkDisconnect (c : ContainerId) : Act World Error Unit := do
  match (← Act.get).status c with
  | none => Act.raise .notFound
  | some _ =>
    Act.raiseIf (!(← Act.get).connected c) .conflict
    Act.modify fun w => w.setConnected c false

/-- `container.remove(v=True)` -/
def remove (c : ContainerId) : Act World Error Unit := do
  Act.modify fun w => w.ask (.remove c)
  match (← Act.get).status c with
  | none => Act.raise .notFound
  | some s =>
    Act.raiseIf s.up .conflict
    Act.modify fun w => w.setStatus c none

/-- Every error of `reload` is an `HTTPError`. -/
def isRemoved (c : ContainerId) : Act World Error Bool :=
  Act.handle
    (do
      reload c
      return false)
    (fun _ => return true)

def isAlive (c : ContainerId) : Act World Error Bool := do
  if ← isRemoved c then
    return false
  let status := ((← Act.get).attrs c).text
  return status.toLower != "exited" && status.toLower != "stopped"

/-! ### What each call does -/

section Calls

variable {w : World} {c : ContainerId} {s : Status}

theorem reload_missing (h : w.status c = none) : reload c w = (.error .notFound, w) := by
  simp only [reload, Act.get_bind, h]
  rfl

theorem reload_present (h : w.status c = some s) : reload c w = (.ok (), w.load c s) := by
  simp only [reload, Act.get_bind, h]
  rfl

theorem reload_status : (reload c w).2.status = w.status := by
  cases h : w.status c with
  | none => rw [reload_missing h]
  | some s => rw [reload_present h, World.status_load]

theorem isRemoved_missing (h : w.status c = none) : isRemoved c w = (.ok true, w) := by
  rw [isRemoved, Act.handle_error (Act.bind_error (reload_missing h))]
  rfl

theorem isRemoved_present (h : w.status c = some s) :
    isRemoved c w = (.ok false, w.load c s) :=
  Act.handle_ok (Act.bind_ok (reload_present h))

theorem isRemoved_status : (isRemoved c w).2.status = w.status := by
  cases h : w.status c with
  | none => rw [isRemoved_missing h]
  | some s => rw [isRemoved_present h, World.status_load]

theorem isAlive_missing (h : w.status c = none) : isAlive c w = (.ok false, w) := by
  rw [isAlive, Act.bind_ok (isRemoved_missing h)]
  rfl

/-- Among the containers that exist only the exited ones are not alive. -/
theorem isAlive_present (h : w.status c = some s) :
    isAlive c w = (.ok (s.up || s == .created), w.load c s) := by
  rw [isAlive, Act.bind_ok (isRemoved_present h)]
  have hload : (w.load c s).attrs c = s := by
    simp only [World.load, Function.update_self]
  simp only [Bool.false_eq_true, if_false, Act.get_bind, hload, Status.text_toLower]
  cases s <;> rfl

theorem kill_up (signal : String) (h : w.status c = some s) (hup : s.up = true) :
    kill signal c w =
      if w.reaction c s signal = .refused then (.error .badRequest, w.ask (.kill c signal))
      else (.ok (), (w.ask (.kill c signal)).setStatus c
        (some ((w.reaction c s signal).next s))) := by
  have hasked : (w.ask (.kill c signal)).reaction = w.reaction := rfl
  simp only [kill, Act.modify_bind, Act.get_bind, World.status_ask, h, Act.raiseIf_bind, hup,
    hasked, decide_eq_true_eq]
  rfl

theorem kill_exits {signal : String} {code : ℤ} (h : w.status c = some s) (hup : s.up = true)
    (hexits : w.reaction c s signal = .exits code) :
    kill signal c w =
      (.ok (), (w.ask (.kill c signal)).setStatus c (some (.exited code))) := by
  rw [kill_up signal h hup, hexits]
  rfl

theorem kill_down (signal : String) (h : w.status c = some s) (hdown : s.up = false) :
    kill signal c w = (.error .conflict, w.ask (.kill c signal)) := by
  simp only [kill, Act.modify_bind, Act.get_bind, World.status_ask, h, Act.raiseIf_bind, hdown]
  rfl

theorem wait_down (h : w.status c = some s) (hup : s.up = false) :
    wait c w = (.ok (), w.ask (.wait c)) := by
  simp only [wait, Act.modify_bind, Act.get_bind, World.status_ask, h, hup]
  rfl

theorem remove_down (h : w.status c = some s) (hup : s.up = false) :
    remove c w = (.ok (), (w.ask (.remove c)).setStatus c none) := by
  simp only [remove, Act.modify_bind, Act.get_bind, World.status_ask, h, Act.raiseIf_bind, hup]
  rfl

theorem remove_missing (h : w.status c = none) :
    remove c w = (.error .notFound, w.ask (.remove c)) := by
  simp only [remove, Act.modify_bind, Act.get_bind, World.status_ask, h]
  rfl

theorem start_missing (h : w.status c = none) :
    start c w = (.error .notFound, w.ask (.start c)) := by
  simp only [start, Act.modify_bind, Act.get_bind, World.status_ask, h]
  rfl

theorem start_paused (h : w.status c = some .paused) :
    start c w = (.error .conflict, w.ask (.start c)) := by
  simp only [start, Act.modify_bind, Act.get_bind, World.status_ask, h]
  rfl

theorem start_present (h : w.status c = some s) (hs : s ≠ .paused) :
    start c w = (.ok (), (w.ask (.start c)).setStatus c (some .running)) := by
  simp only [start, Act.modify_bind, Act.get_bind, World.status_ask, h]
  cases s with
  | paused => exact absurd rfl hs
  | created | running | exited => rfl

theorem networkConnect_missing (h : w.status c = none) :
    networkConnect c w = (.error .notFound, w) := by
  simp only [networkConnect, Act.get_bind, h]
  rfl

theorem networkConnect_present (h : w.status c = some s) :
    networkConnect c w =
      if w.connected c then (.error .conflict, w) else (.ok (), w.setConnected c true) := by
  simp only [networkConnect, Act.get_bind, h, Act.raiseIf_bind]
  rfl

/-- Neither call of a network changes what runs. -/
theorem networkDisconnect_status : (networkDisconnect c w).2.status = w.status := by
  simp only [networkDisconnect, Act.get_bind]
  cases w.status c with
  | none => rfl
  | some s =>
    simp only [Act.get_bind, Act.raiseIf_bind]
    cases w.connected c <;> rfl

end Calls

end Yellowbox.Docker
