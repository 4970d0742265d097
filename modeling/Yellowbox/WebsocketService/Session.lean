import Yellowbox.Base.Effects
import Yellowbox.Base.Generators
import Yellowbox.Base.StepRuns

/-!
A `WebsocketService` session: the generator that a side effect is turned into, and the
callbacks that drive it. Each client message is sent into the generator, so an
iterable side effect is delegated to with values it has no way to receive.
-/
namespace Yellowbox.WebsocketService

open Effects Generators StepRuns

inductive Primitive
  | str (text : String)
  | bytes (data : List UInt8)
  | bytearray (data : List UInt8)
  | memoryview (data : List UInt8)
  deriving DecidableEq, Repr

/-- `bool(value)` -/
def Primitive.truthy : Primitive → Bool
  | str text => text ≠ ""
  | bytes data | bytearray data | memoryview data => data ≠ []

/-- What may be raised; `connectionAborted` is the one object that `handle_close` makes. -/
inductive Exc
  | attributeError
  | typeError
  | runtimeError
  | stopIteration
  | generatorExit
  | connectionAborted
  | raised (name : String)
  deriving DecidableEq, Repr

instance : ProtocolErrors Exc where
  attributeError := .attributeError
  typeError := .typeError
  runtimeError := .runtimeError
  generatorExit := .generatorExit
  isExit e := decide (e = .generatorExit)

/-- A user's generator over its suspension points `σ`: it yields primitives or `None`, is
sent what the client sends, and returns a primitive or `None`. -/
abbrev UserBody (σ : Type) := Body σ Primitive (Option Primitive) (Option Primitive) Exc

/-- What calling a side effect with the websocket gives. -/
inductive CallResult (σ : Type)
  | value (result : Option Primitive)
  | raises (error : Exc)
  | iterable (values : List (Option Primitive))
  | generator (start : σ)

inductive SideEffect (σ : Type)
  | primitive (value : Primitive)
  | iterable (values : List (Option Primitive))
  | callable (result : CallResult σ)

/-- The suspension points of the generator made by `_to_generator`. -/
inductive Point (σ : Type)
  | start
  | delegating (it : Iter σ (Option Primitive))

variable {σ : Type}

/-- `yield from it`, whose value is handed to `result`. -/
def yieldFrom (user : UserBody σ) (result : Option Primitive → Option Primitive)
    (it : Iter σ (Option Primitive)) (resume : Resume Primitive Exc) :
    Reply (Point σ) (Option Primitive) (Option Primitive) Exc :=
  match delegate user none it resume with
  | .yielded y it' => .yielded y (.delegating it')
  | .returned r => .returned (result r)
  | .raised e => .raised e

/-- `_to_generator`: the body of `gen`. -/
def toGenerator (user : UserBody σ) (sideEffect : SideEffect σ) : UserBody (Point σ) where
  resume
    | .start, .throw e => .raised e
    | .start, .send _ =>
      match sideEffect with
      | .primitive value => .returned (some value)
      | .iterable values => yieldFrom user (fun _ => none) (.plain values) (.send none)
      | .callable (.value result) => .returned result
      | .callable (.raises e) => .raised e
      -- `return (yield from result)`
      | .callable (.iterable values) => yieldFrom user id (.plain values) (.send none)
      | .callable (.generator start) =>
        yieldFrom user id (.generator (.created start)) (.send none)
    | .delegating it, resume =>
      match sideEffect with
      | .iterable _ => yieldFrom user (fun _ => none) it resume
      | .primitive _ | .callable _ => yieldFrom user id it resume

/-- What the server does to a connection. -/
inductive Action
  | sent (message : Primitive)
  | closed
  deriving DecidableEq

/-- The websocket of one connection: its generator, and what has been done to it. -/
structure Session (σ : Type) where
  generator : Option (Generator (Point σ))
  actions : List Action

def Session.closed (s : Session σ) : Bool := decide (Action.closed ∈ s.actions)

def sendMessage (message : Primitive) : Act (Session σ) Exc Unit :=
  Act.modify fun s => { s with actions := s.actions ++ [.sent message] }

def close : Act (Session σ) Exc Unit :=
  Act.modify fun s => { s with actions := s.actions ++ [.closed] }

/-- `_advance_generator(data)`, over the body of the session's generator. -/
def advanceGenerator (gen : UserBody (Point σ)) (data : Option Primitive) :
    Act (Session σ) Exc Unit := do
  match (← Act.get).generator with
  | none => Act.raise .attributeError
  | some generator =>
    let (reply, generator') := generator.send gen none data
    Act.modify fun s => { s with generator := some generator' }
    match reply with
    | .returned value =>
      match value with
      | some message => if message.truthy then sendMessage message
      | none => pure ()
      close
    | .yielded message _ =>
      match message with
      | some message => sendMessage message
      | none => pure ()
    | .raised e => Act.raise e

/-- `connected()`, with what `_get_generator` found for the path. -/
def connected (found : Option (UserBody (Point σ))) : Act (Session σ) Exc Unit :=
  match found with
  | none => close
  | some gen => do
    Act.modify fun s => { s with generator := some (.created .start) }
    advanceGenerator gen none

/-- What the server calls on the websocket. -/
inductive Event
  | connect
  | message (data : Primitive)

/-- What a callback did, in order, and what it raised. -/
structure Observed where
  actions : List Action
  raised : Option Exc
  deriving DecidableEq

def Observed.nothing : Observed := ⟨[], none⟩

/-- A connection the server still serves: not closed, and no callback has raised. -/
structure Connection (σ : Type) where
  session : Session σ
  served : Bool

def start : Connection σ := ⟨⟨none, []⟩, true⟩

def callback (gen : UserBody (Point σ)) : Event → Act (Session σ) Exc Unit
  | .connect => connected (some gen)
  | .message data => advanceGenerator gen (some data)

/-- One event; the server passes on nothing for a connection it no longer serves. -/
def step (gen : UserBody (Point σ)) (c : Connection σ) (event : Event) :
    Connection σ × Observed :=
  if c.served then
    match callback gen event c.session with
    | (r, session) =>
      let raised := match r with
        | .ok () => none
        | .error e => some e
      ({ session := session, served := !session.closed && raised.isNone },
        ⟨session.actions.drop c.session.actions.length, raised⟩)
  else
    (c, .nothing)

/-- What each event of a connection did: the connecting, then each client message. -/
def observe (user : UserBody σ) (sideEffect : SideEffect σ) (messages : List Primitive) :
    List Observed :=
  (trace (step (toGenerator user sideEffect)) start
    (.connect :: messages.map .message)).map Prod.snd

/-- The first value upon connecting and the next one upon each client message, until a
message finds no value left and the connection is closed. -/
def oneByOne : List Primitive → List Primitive → List Observed
  | [], messages => ⟨[.closed], none⟩ :: messages.map fun _ => .nothing
  | value :: _, [] => [⟨[.sent value], none⟩]
  | value :: values, _ :: messages => ⟨[.sent value], none⟩ :: oneByOne values messages

/-! ### Iterable side effects -/

/-- The body delegates to a plain iterator: it has yielded `value`, and cannot be sent a
client message. -/
structure DelegatesToPlain (gen : UserBody (Point σ)) (value : Primitive)
    (rest : List (Option Primitive)) : Prop where
  first : gen.resume .start (.send none) =
    .yielded (some value) (.delegating (.plain rest))
  message : ∀ data, gen.resume (.delegating (.plain rest)) (.send (some data)) =
    .raised .attributeError

theorem iterable_delegates (user : UserBody σ) (value : Primitive)
    (rest : List (Option Primitive)) :
    DelegatesToPlain (toGenerator user (.iterable (some value :: rest))) value rest := by
  refine ⟨rfl, fun data => ?_⟩
  show yieldFrom user _ _ _ = _
  rw [yieldFrom, delegate_value]
  rfl

theorem callable_delegates (user : UserBody σ) (value : Primitive)
    (rest : List (Option Primitive)) :
    DelegatesToPlain (toGenerator user (.callable (.iterable (some value :: rest)))) value
      rest := by
  refine ⟨rfl, fun data => ?_⟩
  show yieldFrom user _ _ _ = _
  rw [yieldFrom, delegate_value]
  rfl

section Delegating

variable {gen : UserBody (Point σ)} {value : Primitive} {rest : List (Option Primitive)}

/-- The session once the first value has been sent. -/
def afterConnect (value : Primitive) (rest : List (Option Primitive)) : Connection σ where
  session := ⟨some (.suspended (.delegating (.plain rest))), [.sent value]⟩
  served := true

theorem step_connect (h : DelegatesToPlain gen value rest) :
    step gen start .connect = (afterConnect value rest, ⟨[.sent value], none⟩) := by
  have hcallback : callback gen .connect start.session =
      (.ok (), (afterConnect value rest).session) := by
    simp only [callback, connected, Act.modify_bind, advanceGenerator, Act.get_bind,
      Generator.send_created, h.first]
    rfl
  rw [step, hcallback]
  rfl

theorem step_message (h : DelegatesToPlain gen value rest) (data : Primitive) :
    (step gen (afterConnect value rest) (.message data)).2 =
      ⟨[], some .attributeError⟩ := by
  have hcallback : callback gen (.message data) (afterConnect value rest).session =
      (.error .attributeError, ⟨some .finished, [.sent value]⟩) := by
    simp only [callback, afterConnect, advanceGenerator, Act.get_bind, Act.modify_bind,
      Generator.send_suspended, h.message]
    rfl
  rw [step, hcallback]
  rfl

end Delegating

/-- The first client message already raises, where the next value should be sent or the
connection closed. -/
theorem observe_oneByOne_iff {user : UserBody σ} {sideEffect : SideEffect σ}
    {value : Primitive} {rest : List (Option Primitive)}
    (h : DelegatesToPlain (toGenerator user sideEffect) value rest)
    (values messages : List Primitive) :
    observe user sideEffect messages = oneByOne (value :: values) messages ↔ messages = [] := by
  cases messages with
  | nil =>
    simp [observe, step_connect h, oneByOne]
  | cons data messages =>
    simp only [observe, List.map_cons, trace_cons, step_connect h, step_message h, oneByOne,
      List.cons.injEq, true_and, reduceCtorEq, iff_false]
    cases values <;> cases messages <;> simp [oneByOne]

/-- An iterable side effect, whether registered directly or returned by a callable, is sent
one by one exactly when the client sends nothing. -/
theorem iterable_one_by_one_iff (user : UserBody σ) (value : Primitive)
    (values messages : List Primitive) :
    (observe user (.iterable ((value :: values).map some)) messages =
        oneByOne (value :: values) messages ↔ messages = []) ∧
      (observe user (.callable (.iterable ((value :: values).map some))) messages =
        oneByOne (value :: values) messages ↔ messages = []) :=
  ⟨observe_oneByOne_iff (iterable_delegates user value _) values messages,
    observe_oneByOne_iff (callable_delegates user value _) values messages⟩

/-- The list `["a", "b"]` and one client message: `"b"` is never sent. -/
theorem second_value_not_sent :
    ¬ ∀ (user : UserBody Unit) (value : Primitive) (values messages : List Primitive),
      observe user (.iterable ((value :: values).map some)) messages =
        oneByOne (value :: values) messages := by
  intro h
  let user : UserBody Unit := ⟨fun _ _ => .returned none⟩
  have hsent := h user (.str "a") [.str "b"] [.str "next"]
  have hraised : observe user (.iterable ([.str "a", .str "b"].map some)) [.str "next"] =
      [⟨[.sent (.str "a")], none⟩, ⟨[], some .attributeError⟩] := by decide
  rw [List.map_cons, List.map_singleton] at hraised hsent
  rw [hraised] at hsent
  exact absurd hsent (by decide)

end Yellowbox.WebsocketService
