import Mathlib.Logic.Function.Basic
import Yellowbox.Base.Effects
import Yellowbox.Base.StepRuns
import Yellowbox.Base.StreamSplit

/-!
The background thread of the fake logstash service: a loop over the file objects
that the selector reports, which accepts connections and runs the callback of a
connection that has data. What the operating system does with a socket is an
argument of the event.
-/
namespace Yellowbox.LogstashService

open Effects StreamSplit

abbrev Bytes := List UInt8

/-- `_CLOSE_SENTINEL` -/
def closeSentinel : Bytes := [0]

structure OSError where
  errno : ℕ
  deriving DecidableEq

/-- Why a line does not parse: `json.JSONDecodeError`, or any other exception, such
as the `UnicodeDecodeError` of `decode`. -/
inductive LineError
  | jsonDecodeError
  | other (name : String)
  deriving DecidableEq

inductive ServiceError
  | osError (e : OSError)
  | keyError
  | valueError (message : String)
  | line (e : LineError)
  | assertionError
  deriving DecidableEq

/-- The attributes of the service that its thread reads. `parse` is
`json.loads(line.decode(encoding))`. -/
structure Setup (ρ : Type) where
  delimiter : Bytes
  parse : Bytes → Except LineError ρ

/-- What `sock.recv(1024)` does, and what `sock.shutdown` would do. -/
structure SocketIO where
  recv : Except OSError Bytes
  shutdown : Except OSError Unit
  deriving DecidableEq

inductive FileObj
  | rshutdown
  | root
  | socket (c : ℕ)
  deriving DecidableEq

/-- A selector key of a file object that is ready: `received` is read from the
shutdown socket, `root` has a connection to accept. -/
inductive Key
  | rshutdown (received : Bytes)
  | root
  | socket (c : ℕ) (io : SocketIO)

def Key.fileobj : Key → FileObj
  | rshutdown _ => .rshutdown
  | root => .root
  | socket c _ => .socket c

/-- What is ready at a call of `select`, each file object once. -/
structure Ready where
  keys : List Key
  distinct : (keys.map Key.fileobj).Nodup

/-- The state of the thread. Connections are numbered as they are accepted;
`partialChunks` is the list in the closure of a connection's callback, and a
record is kept with the connection it came from. -/
structure Service (ρ : Type) where
  accepted : ℕ
  registered : ℕ → Bool
  partialChunks : ℕ → List Bytes
  closed : ℕ → Bool
  records : List (ℕ × ρ)

variable {ρ : Type}

namespace Service

def setRegistered (s : Service ρ) (c : ℕ) (b : Bool) : Service ρ :=
  { s with registered := Function.update s.registered c b }

def setPartialChunks (s : Service ρ) (c : ℕ) (chunks : List Bytes) : Service ρ :=
  { s with partialChunks := Function.update s.partialChunks c chunks }

def setClosed (s : Service ρ) (c : ℕ) : Service ρ :=
  { s with closed := Function.update s.closed c true }

def append (s : Service ρ) (c : ℕ) (rs : List ρ) : Service ρ :=
  { s with records := s.records ++ rs.map (Prod.mk c) }

/-- A new connection, with the callback that `_create_data_callback` makes for it. -/
def accept (s : Service ρ) : Service ρ :=
  { ((s.setRegistered s.accepted true).setPartialChunks s.accepted []) with
    accepted := s.accepted + 1 }

end Service

/-- `self._selector.unregister(sock)` -/
def unregister (c : ℕ) : Act (Service ρ) ServiceError Unit := do
  let s ← Act.get
  Act.raiseIf (!s.registered c) .keyError
  Act.modify (·.setRegistered c false)

/-- The three calls that both `except` clauses make on a socket. -/
def cleanUp (c : ℕ) (io : SocketIO) : Act (Service ρ) ServiceError Unit := do
  unregister c
  Act.ofExcept (io.shutdown.mapError .osError)
  Act.modify (·.setClosed c)

/-- `bytes.split` -/
def bytesSplit (data delimiter : Bytes) : Except ServiceError (List Bytes) :=
  if delimiter = [] then .error (.valueError "empty separator") else .ok (splitAt delimiter data)

/-- The loop over the complete lines. -/
def parseChunks (cfg : Setup ρ) (c : ℕ) : List Bytes → Act (Service ρ) ServiceError Unit
  | [] => pure ()
  | chunk :: chunks => do
    let record ← Act.ofExcept ((cfg.parse chunk).mapError .line)
    Act.modify (·.append c [record])
    parseChunks cfg c chunks

/-- The `except json.JSONDecodeError` clause of `process_socket_data`. -/
def onLineError (c : ℕ) (io : SocketIO) : ServiceError → Act (Service ρ) ServiceError Unit
  | .line .jsonDecodeError => cleanUp c io
  | err => Act.raise err

def processSocketData (cfg : Setup ρ) (c : ℕ) (io : SocketIO) :
    Act (Service ρ) ServiceError Unit := do
  let data ← Act.ofExcept (io.recv.mapError .osError)
  if data = [] then unregister c
  else do
    let chunks ← Act.ofExcept (bytesSplit data cfg.delimiter)
    let s ← Act.get
    match chunks with
    | [] => pure ()
    | [chunk] => Act.modify (·.setPartialChunks c (s.partialChunks c ++ [chunk]))
    | first :: second :: others => do
      -- the last piece has no delimiter yet, the first completes what was begun
      let last := (second :: others).getLast (List.cons_ne_nil second others)
      Act.modify (·.setPartialChunks c [last])
      Act.handle
        (parseChunks cfg c ((s.partialChunks c ++ [first]).flatten :: (second :: others).dropLast))
        (onLineError c io)

/-- The body of the loop over the events; it returns whether the thread is to end. -/
def handleKey (cfg : Setup ρ) : Key → Act (Service ρ) ServiceError Bool
  | .rshutdown received => do
    Act.raiseIf (received != closeSentinel) .assertionError
    pure true
  | .root => do
    Act.modify Service.accept
    pure false
  | .socket c io => do
    Act.handle (processSocketData cfg c io) (fun _ => cleanUp c io)
    pure false

def handleKeys (cfg : Setup ρ) : List Key → Act (Service ρ) ServiceError Bool
  | [] => pure false
  | key :: keys => do
    let done ← handleKey cfg key
    if done then pure true else handleKeys cfg keys

/-- A key can only be of a file object that is registered. -/
def Reported (s : Service ρ) : Key → Bool
  | .socket c _ => s.registered c
  | .rshutdown _ | .root => true

def select (s : Service ρ) (ready : Ready) : List Key := ready.keys.filter (Reported s)

inductive Status
  | serving
  | returned
  | crashed (err : ServiceError)
  deriving DecidableEq

structure Loop (ρ : Type) where
  service : Service ρ
  status : Status

/-- One round of `_background_thread`. -/
def backgroundRound (cfg : Setup ρ) (loop : Loop ρ) (ready : Ready) : Loop ρ × Unit :=
  match loop.status with
  | .serving =>
    match handleKeys cfg (select loop.service ready) loop.service with
    | (.ok false, s) => (⟨s, .serving⟩, ())
    | (.ok true, s) => (⟨s, .returned⟩, ())
    | (.error err, s) => (⟨s, .crashed err⟩, ())
  | _ => (loop, ())

/-- The service as `start` leaves it. -/
def started : Loop ρ where
  service := ⟨0, fun _ => false, fun _ => [], fun _ => false, []⟩
  status := .serving

end Yellowbox.LogstashService
