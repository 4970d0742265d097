import Yellowbox.WebsocketService.Session

/-!
What a session sends of the primitives that its side effect produces. Yielded values are
sent unless they are `None`; a returned one is tested for its truth, so an empty one is
lost.
-/
namespace Yellowbox.WebsocketService.Delivery

open Effects Generators StepRuns

variable {σ : Type}

/-- A primitive, a function that returns one or `None`, or a generator function. -/
inductive Script (σ : Type)
  | primitive (value : Primitive)
  | function (result : Option Primitive)
  | generator (start : σ)

abbrev UserReply (σ : Type) := Reply σ (Option Primitive) (Option Primitive) Exc

namespace Script

def sideEffect : Script σ → SideEffect σ
  | primitive value => .primitive value
  | function result => .callable (.value result)
  | generator start => .callable (.generator start)

/-- What it produces first. -/
def reply (user : UserBody σ) : Script σ → UserReply σ
  | primitive value => .returned (some value)
  | function result => .returned result
  | generator start => user.resume start (.send none)

end Script

/-- What the events of a connection do, if a returned value is sent as `last` has it before
the connection is closed: one reply of the script upon connecting, and one to each client
message. -/
def outcomes (last : Option Primitive → List Primitive) (user : UserBody σ) :
    UserReply σ → List Primitive → List Observed
  | .yielded value _, [] => [⟨value.toList.map .sent, none⟩]
  | .yielded value point, message :: messages =>
    ⟨value.toList.map .sent, none⟩ ::
      outcomes last user (user.resume point (.send (some message))) messages
  | .returned value, messages =>
    ⟨(last value).map .sent ++ [.closed], none⟩ :: messages.map fun _ => .nothing
  | .raised e, messages => ⟨[], some e⟩ :: messages.map fun _ => .nothing

/-- Every primitive is sent, and the connection is closed after the returned one. -/
def delivered (user : UserBody σ) (script : Script σ) (messages : List Primitive) :
    List Observed :=
  outcomes Option.toList user (script.reply user) messages

/-- The value that is returned while these messages come in, if any is. -/
def returnedIn (user : UserBody σ) : UserReply σ → List Primitive → Option (Option Primitive)
  | .yielded _ _, [] => none
  | .yielded _ point, message :: messages =>
    returnedIn user (user.resume point (.send (some message))) messages
  | .returned value, _ => some value
  | .raised _, _ => none

theorem map_sent_inj {l l' : List Primitive} : l.map Action.sent = l'.map Action.sent ↔ l = l' :=
  List.map_inj_right fun _ _ => Action.sent.inj

/-- Two ways to send a returned value differ only where one is returned. -/
theorem outcomes_eq_iff {last last' : Option Primitive → List Primitive} (user : UserBody σ)
    (reply : UserReply σ) (messages : List Primitive) :
    outcomes last user reply messages = outcomes last' user reply messages ↔
      ∀ value, returnedIn user reply messages = some value → last value = last' value := by
  induction messages generalizing reply with
  | nil =>
    cases reply with
    | yielded value point => simp [outcomes, returnedIn]
    | returned value => simp [outcomes, returnedIn, map_sent_inj]
    | raised e => simp [outcomes, returnedIn]
  | cons message messages ih =>
    cases reply with
    | yielded value point =>
      simp only [outcomes, returnedIn, List.cons.injEq, true_and]
      exact ih _
    | returned value => simp [outcomes, returnedIn, map_sent_inj]
    | raised e => simp [outcomes, returnedIn]

/-! ### The session -/

/-- A reply of the script, as the generator of the session gives it. -/
def wrapped : UserReply σ → Reply (Point σ) (Option Primitive) (Option Primitive) Exc
  | .yielded value point => .yielded value (.delegating (.generator (.suspended point)))
  | .returned value => .returned value
  | .raised e => .raised e

theorem resume_start (user : UserBody σ) (script : Script σ) :
    (toGenerator user script.sideEffect).resume .start (.send none) =
      wrapped (script.reply user) := by
  cases script with
  | primitive value => rfl
  | function result => rfl
  | generator start =>
    change yieldFrom user id (.generator (.created start)) (.send none) = _
    simp only [yieldFrom, delegate, Generator.send_created, Script.reply]
    cases user.resume start (.send none) <;> rfl

theorem resume_message (user : UserBody σ) (script : Script σ) (point : σ)
    (message : Option Primitive) :
    (toGenerator user script.sideEffect).resume (.delegating (.generator (.suspended point)))
        (.send message) =
      wrapped (user.resume point (.send message)) := by
  have hyield : yieldFrom user id (.generator (.suspended point)) (.send message) =
      wrapped (user.resume point (.send message)) := by
    simp only [yieldFrom, delegate, Generator.send_suspended]
    cases user.resume point (.send message) <;> rfl
  cases script with
  | primitive value => exact hyield
  | function result => exact hyield
  | generator start => exact hyield

/-- A value whose truth is tested before it is sent. -/
def ifTruthy (value : Option Primitive) : List Primitive := (value.filter Primitive.truthy).toList

theorem ifTruthy_some (message : Primitive) :
    ifTruthy (some message) = if message.truthy = true then [message] else [] := by
  simp only [ifTruthy, Option.filter]
  split <;> rfl

/-- The connection while the script waits at a point, with these messages sent. -/
def waiting (point : σ) (sent : List Primitive) : Connection σ where
  session := ⟨some (.suspended (.delegating (.generator (.suspended point)))), sent.map .sent⟩
  served := true

/-- The session behind a callback that got this reply. -/
def afterReply (sent : List Primitive) : UserReply σ → Except Exc Unit × Session σ
  | .yielded value point => (.ok (), (waiting point (sent ++ value.toList)).session)
  | .returned value =>
    (.ok (), ⟨some .finished, (sent ++ ifTruthy value).map .sent ++ [.closed]⟩)
  | .raised e => (.error e, ⟨some .finished, sent.map .sent⟩)

theorem advanceGenerator_reply {gen : UserBody (Point σ)} {generator : Generator (Point σ)}
    {data : Option Primitive} {reply : UserReply σ}
    (h : generator.send gen none data = (wrapped reply, Generator.after (wrapped reply)))
    (sent : List Primitive) :
    advanceGenerator gen data ⟨some generator, sent.map .sent⟩ = afterReply sent reply := by
  simp only [advanceGenerator, Act.get_bind, h, Act.modify_bind]
  cases reply with
  | raised e => rfl
  | yielded value point =>
    cases value with
    | none => simp [wrapped, Generator.after, afterReply, waiting, pure, Act.pure]
    | some message =>
      simp only [afterReply, waiting, Option.toList_some, List.map_append]
      rfl
  | returned value =>
    cases value with
    | none => simp [wrapped, Generator.after, afterReply, ifTruthy]; rfl
    | some message =>
      simp only [wrapped, Generator.after, afterReply, ifTruthy_some]
      cases message.truthy with
      | false =>
        rw [if_neg Bool.false_ne_true, if_neg Bool.false_ne_true, List.append_nil]
        rfl
      | true =>
        rw [if_pos rfl, if_pos rfl, List.map_append]
        rfl

/-! ### The events of a connection -/

/-- The connection behind an event that got this reply, and what the event did. -/
def stepped (sent : List Primitive) : UserReply σ → Connection σ × Observed
  | .yielded value point =>
    (waiting point (sent ++ value.toList), ⟨value.toList.map .sent, none⟩)
  | .returned value =>
    (⟨⟨some .finished, (sent ++ ifTruthy value).map .sent ++ [.closed]⟩, false⟩,
      ⟨(ifTruthy value).map .sent ++ [.closed], none⟩)
  | .raised e => (⟨⟨some .finished, sent.map .sent⟩, false⟩, ⟨[], some e⟩)

theorem step_of_callback {gen : UserBody (Point σ)} {c : Connection σ} {event : Event}
    {sent : List Primitive} {reply : UserReply σ} (hserved : c.served = true)
    (hsent : c.session.actions = sent.map .sent)
    (h : callback gen event c.session = afterReply sent reply) :
    step gen c event = stepped sent reply := by
  rw [step, if_pos hserved, h, hsent]
  cases reply with
  | yielded value point => simp [afterReply, stepped, waiting, Session.closed]
  | returned value => simp [afterReply, stepped, Session.closed]
  | raised e => simp [afterReply, stepped, Session.closed]

theorem step_start (user : UserBody σ) (script : Script σ) :
    step (toGenerator user script.sideEffect) start .connect = stepped [] (script.reply user) := by
  refine step_of_callback rfl rfl ?_
  rw [callback, connected, Act.modify_bind]
  refine advanceGenerator_reply ?_ []
  rw [Generator.send_created, resume_start]

theorem step_waiting (user : UserBody σ) (script : Script σ) (point : σ) (sent : List Primitive)
    (message : Primitive) :
    step (toGenerator user script.sideEffect) (waiting point sent) (.message message) =
      stepped sent (user.resume point (.send (some message))) := by
  refine step_of_callback rfl rfl (advanceGenerator_reply ?_ sent)
  rw [Generator.send_suspended, resume_message]

/-- Nothing is passed on to a connection that is not served. -/
theorem trace_not_served (gen : UserBody (Point σ)) {c : Connection σ} (h : c.served = false)
    (messages : List Primitive) :
    (trace (step gen) c (messages.map .message)).map Prod.snd =
      messages.map fun _ => Observed.nothing := by
  induction messages with
  | nil => rfl
  | cons message messages ih =>
    have hstep : step gen c (.message message) = (c, .nothing) := by
      rw [step, h]
      rfl
    simp only [List.map_cons, trace_cons, hstep, ih]

theorem trace_stepped (user : UserBody σ) (script : Script σ) {c : Connection σ} {event : Event}
    {sent : List Primitive} {reply : UserReply σ} (messages : List Primitive)
    (h : step (toGenerator user script.sideEffect) c event = stepped sent reply) :
    (trace (step (toGenerator user script.sideEffect)) c
        (event :: messages.map .message)).map Prod.snd =
      outcomes ifTruthy user reply messages := by
  induction messages generalizing c event sent reply with
  | nil =>
    rw [List.map_nil, trace_cons, trace_nil, h]
    cases reply <;> rfl
  | cons message messages ih =>
    rw [trace_cons, h, List.map_cons]
    cases reply with
    | yielded value point =>
      exact congrArg _ (ih (step_waiting user script point (sent ++ value.toList) message))
    | returned value => exact congrArg _ (trace_not_served _ rfl (message :: messages))
    | raised e => exact congrArg _ (trace_not_served _ rfl (message :: messages))

/-- What a session does: a returned value is sent if it is not empty. -/
theorem observe_eq (user : UserBody σ) (script : Script σ) (messages : List Primitive) :
    observe user script.sideEffect messages =
      outcomes ifTruthy user (script.reply user) messages :=
  trace_stepped user script messages (step_start user script)

theorem ifTruthy_eq_toList_iff (value : Option Primitive) :
    ifTruthy value = value.toList ↔
      ∀ primitive, value = some primitive → primitive.truthy = true := by
  cases value with
  | none => simp [ifTruthy]
  | some primitive =>
    rw [ifTruthy_some]
    cases htruthy : primitive.truthy <;> simp [htruthy]

/-- Every primitive is delivered, the last one before the connection is closed, exactly when
the value that is returned while the messages come in, if there is one, is `None` or not
empty. -/
theorem session_delivers_iff (user : UserBody σ) (script : Script σ)
    (messages : List Primitive) :
    observe user script.sideEffect messages = delivered user script messages ↔
      ∀ primitive, returnedIn user (script.reply user) messages = some (some primitive) →
        primitive.truthy = true := by
  rw [observe_eq, delivered, outcomes_eq_iff]
  constructor
  · intro h primitive hreturned
    exact (ifTruthy_eq_toList_iff _).mp (h _ hreturned) primitive rfl
  · intro h value hreturned
    exact (ifTruthy_eq_toList_iff value).mpr fun primitive hvalue =>
      h primitive (hvalue ▸ hreturned)

/-- The side effect `""`: the connection is closed without a message. -/
theorem empty_primitive_not_sent :
    ¬(∀ (user : UserBody Unit) (script : Script Unit) (messages : List Primitive),
      observe user script.sideEffect messages = delivered user script messages) ∧
      observe (⟨fun _ _ => .returned none⟩ : UserBody Unit) (Script.primitive (.str "")).sideEffect
        [] = [⟨[.closed], none⟩] := by
  have hobserved : observe (⟨fun _ _ => .returned none⟩ : UserBody Unit)
      (Script.primitive (.str "")).sideEffect [] = [⟨[.closed], none⟩] := by decide
  refine ⟨fun h => ?_, hobserved⟩
  have hsent := h ⟨fun _ _ => .returned none⟩ (.primitive (.str "")) []
  rw [hobserved] at hsent
  exact absurd hsent (by decide)

end Yellowbox.WebsocketService.Delivery
