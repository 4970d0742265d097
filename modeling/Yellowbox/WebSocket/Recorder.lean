import Mathlib.Data.List.Basic
import Yellowbox.Base.Effects
import Yellowbox.Base.StepRuns
import Yellowbox.WebServer.Handlers

/-!
The recorder of a websocket conversation: a websocket whose `receive` and `send`
write to a transcript. What the underlying channel does with a call, that is the
message it delivers, or whether it accepts one, is an argument of the call.
-/
namespace Yellowbox.WebSocketRecorder

open Effects StepRuns WebServerState WebServerHandlers

inductive Sender
  | client
  | server
  deriving DecidableEq

/-- The `type` of an ASGI message, without its prefix `websocket.`. -/
inductive MessageType
  | connect
  | receive
  | disconnect
  | accept
  | close
  | send
  | other (name : String)
  deriving DecidableEq

/-- A payload, `str` or `bytes`. -/
inductive Data
  | text (s : String)
  | bytes (b : List UInt8)
  deriving DecidableEq

/-- An ASGI message; a key that is absent is `none`. -/
structure Message where
  type : Option MessageType
  text : Option String := none
  bytes : Option (List UInt8) := none
  code : Option ℕ := none
  deriving DecidableEq

/-- `message.get("text")`, or `message.get("bytes")` when that is `None`. -/
def Message.data (message : Message) : Option Data :=
  match message.text with
  | some text => some (.text text)
  | none => message.bytes.map .bytes

/-- `message.get("code", 1000)` -/
def Message.closeCode (message : Message) : ℕ := message.code.getD 1000

structure RecordedWSMessage where
  data : Option Data
  sender : Sender
  timestamp : Time
  deriving DecidableEq

structure RecordedWSTranscript where
  messages : List RecordedWSMessage := []
  accepted : Bool := false
  close : Option (Sender × ℕ) := none
  deriving DecidableEq

namespace RecordedWSTranscript

def append (t : RecordedWSTranscript) (m : RecordedWSMessage) : RecordedWSTranscript :=
  { t with messages := t.messages ++ [m] }

def setAccepted (t : RecordedWSTranscript) : RecordedWSTranscript := { t with accepted := true }

def setClose (t : RecordedWSTranscript) (close : Sender × ℕ) : RecordedWSTranscript :=
  { t with close := some close }

end RecordedWSTranscript

/-- What a call of the recorder raises: the `KeyError` of `message["type"]`, or the
exception of the channel. -/
inductive RecorderError
  | keyError (key : String)
  | channel (ex : Exc)
  deriving DecidableEq

/-- `WebSocketRecorder.receive`, when `super().receive()` gives `received`. -/
def receive (received : Except Exc Message) (now : Time) :
    Act RecordedWSTranscript RecorderError Message := do
  let message ← Act.ofExcept (received.mapError .channel)
  match message.type with
  | some .receive => Act.modify (·.append ⟨message.data, .client, now⟩)
  | some .disconnect => Act.modify (·.setClose (.client, message.closeCode))
  | _ => pure ()
  pure message

/-- What `send` does to the transcript before it delegates. -/
def recordSend (message : Message) (now : Time) :
    MessageType → Act RecordedWSTranscript RecorderError Unit
  | .accept => Act.modify (·.setAccepted)
  | .close => Act.modify (·.setClose (.server, message.closeCode))
  | .send => Act.modify (·.append ⟨message.data, .server, now⟩)
  | _ => pure ()

/-- `WebSocketRecorder.send`, when `super().send(message)` gives `sent`. -/
def send (message : Message) (sent : Except Exc Unit) (now : Time) :
    Act RecordedWSTranscript RecorderError Unit := do
  match message.type with
  | none => Act.raise (.keyError "type")
  | some type =>
    recordSend message now type
    Act.ofExcept (sent.mapError .channel)

/-- A call of the recorder with what the channel does. -/
inductive RecorderCall
  | receive (received : Except Exc Message) (now : Time)
  | send (message : Message) (sent : Except Exc Unit) (now : Time)

def runRecorder : RecorderCall → Act RecordedWSTranscript RecorderError Unit
  | .receive received now => discard (receive received now)
  | .send message sent now => send message sent now

def recorderStep (t : RecordedWSTranscript) (call : RecorderCall) :
    RecordedWSTranscript × Except RecorderError Unit :=
  ((runRecorder call t).2, (runRecorder call t).1)

/-- The transcript of a new connection after some calls. -/
def transcript (calls : List RecorderCall) : RecordedWSTranscript := exec recorderStep {} calls

/-- `websocket.close(code)` -/
def closeCall (code : ℕ) (sent : Except Exc Unit) (now : Time) : RecorderCall :=
  .send { type := some .close, code := some code } sent now

/-- The calls that `MockWSEndpoint.get` makes, through its side effect and on its
own. `refused` tells that the endpoint has no owner or an exception is pending,
`result` how the side effect ends, `sent` what becomes of the close. -/
def getCalls (refused allowAbruptDisconnect : Bool) (sideEffect : List RecorderCall)
    (result : Except Exc (Option ℕ)) (sent : Except Exc Unit) (now : Time) : List RecorderCall :=
  if refused then [closeCall wsInternalError sent now]
  else
    match (wsOutcome allowAbruptDisconnect result).2 with
    | none => sideEffect
    | some code => sideEffect ++ [closeCall code sent now]

/-- The message that a call adds to the transcript. -/
def recordedMessage : RecorderCall → Option RecordedWSMessage
  | .receive (.ok message) now =>
    if message.type = some .receive then some ⟨message.data, .client, now⟩ else none
  | .receive (.error _) _ => none
  | .send message _ now =>
    if message.type = some .send then some ⟨message.data, .server, now⟩ else none

/-- The call sends a message of this type. -/
def Sends (type : MessageType) : RecorderCall → Bool
  | .receive _ _ => false
  | .send message _ _ => decide (message.type = some type)

/-- The channel rejects what the call sends. -/
def Rejected : RecorderCall → Bool
  | .send _ (.error _) _ => true
  | _ => false

/-- The sender and the code of a disconnect that is received, or of a close that is to
be sent, whatever the channel does with it. -/
def closeAttempt : RecorderCall → Option (Sender × ℕ)
  | .receive (.ok message) _ =>
    if message.type = some .disconnect then some (.client, message.closeCode) else none
  | .receive (.error _) _ => none
  | .send message _ _ =>
    if message.type = some .close then some (.server, message.closeCode) else none

variable (t : RecordedWSTranscript)

theorem receive_ok (message : Message) (now : Time) :
    (recorderStep t (.receive (.ok message) now)).1 =
      match message.type with
      | some .receive => t.append ⟨message.data, .client, now⟩
      | some .disconnect => t.setClose (.client, message.closeCode)
      | _ => t := by
  rcases message with ⟨_ | type, text, bytes, code⟩
  · rfl
  · cases type <;> rfl

theorem receive_error (ex : Exc) (now : Time) :
    (recorderStep t (.receive (.error ex) now)).1 = t := rfl

/-- The transcript is written to whether or not the channel accepts the message. -/
theorem send_any (message : Message) (sent : Except Exc Unit) (now : Time) :
    (recorderStep t (.send message sent now)).1 =
      match message.type with
      | some .accept => t.setAccepted
      | some .close => t.setClose (.server, message.closeCode)
      | some .send => t.append ⟨message.data, .server, now⟩
      | _ => t := by
  rcases message with ⟨_ | type, text, bytes, code⟩
  · rfl
  · cases type <;> rfl

/-- Everything that a call does to the transcript. -/
theorem recorderStep_transcript (call : RecorderCall) :
    (recorderStep t call).1 =
      ⟨t.messages ++ (recordedMessage call).toList, t.accepted || Sends .accept call,
        (closeAttempt call).or t.close⟩ := by
  cases call with
  | receive received now =>
    cases received with
    | error ex =>
      rw [receive_error]
      simp [recordedMessage, Sends, closeAttempt]
    | ok message =>
      rw [receive_ok]
      split <;> simp_all [recordedMessage, Sends, closeAttempt, RecordedWSTranscript.append,
        RecordedWSTranscript.setClose]
  | send message sent now =>
    rw [send_any]
    split <;> simp_all [recordedMessage, Sends, closeAttempt, RecordedWSTranscript.append,
      RecordedWSTranscript.setClose, RecordedWSTranscript.setAccepted]

theorem exec_messages (calls : List RecorderCall) :
    (exec recorderStep t calls).messages = t.messages ++ calls.filterMap recordedMessage := by
  induction calls generalizing t with
  | nil => simp
  | cons call calls ih =>
    rw [exec_cons, ih, recorderStep_transcript]
    cases h : recordedMessage call <;> simp [h]

theorem exec_accepted (calls : List RecorderCall) :
    (exec recorderStep t calls).accepted = (t.accepted || calls.any (Sends .accept)) := by
  induction calls generalizing t with
  | nil => simp
  | cons call calls ih =>
    rw [exec_cons, ih, recorderStep_transcript, List.any_cons, Bool.or_assoc]

theorem transcript_append (pre post : List RecorderCall) :
    transcript (pre ++ post) = exec recorderStep (transcript pre) post :=
  exec_append recorderStep _ pre post

theorem transcript_snoc_close (pre : List RecorderCall) (call : RecorderCall) :
    (transcript (pre ++ [call])).close = (closeAttempt call).or (transcript pre).close := by
  rw [transcript_append, exec_cons, exec_nil, recorderStep_transcript]

end Yellowbox.WebSocketRecorder
