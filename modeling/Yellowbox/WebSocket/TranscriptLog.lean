import Yellowbox.WebSocket.Recorder

/-!
The messages of a transcript against those that went over the channel. `receive`
records after the channel delivered a message, `send` before the channel accepts
one, so the two agree as long as the channel accepts what is sent.
-/
namespace Yellowbox.TranscriptLog

open StepRuns WebServerState WebSocketRecorder

/-- The message that went over the channel with a call: one that was received, or
one that the channel accepted. -/
def transmitted : RecorderCall → Option (Sender × Option Data)
  | .receive (.ok message) _ =>
    if message.type = some .receive then some (.client, message.data) else none
  | .send message (.ok ()) _ =>
    if message.type = some .send then some (.server, message.data) else none
  | .receive (.error _) _ | .send _ (.error _) _ => none

/-- The channel accepted a message of this type. -/
def Accepts (type : MessageType) (call : RecorderCall) : Bool := Sends type call && !Rejected call

/-- The transcript holds the transmitted messages, and is accepted when an accept was. -/
def Faithful (calls : List RecorderCall) : Prop :=
  (transcript calls).messages.map (fun m => (m.sender, m.data)) = calls.filterMap transmitted ∧
    ((transcript calls).accepted = true ↔ ∃ call ∈ calls, Accepts .accept call = true)

/-- A call transmits what it records, unless the channel rejects a message sent. -/
theorem recorded_eq_transmitted {call : RecorderCall}
    (h : ¬ (Sends .send call = true ∧ Rejected call = true)) :
    (recordedMessage call).map (fun m => (m.sender, m.data)) = transmitted call := by
  cases call with
  | receive received now =>
    cases received with
    | error ex => rfl
    | ok message =>
      by_cases htype : message.type = some .receive <;>
        simp [recordedMessage, transmitted, htype]
  | send message sent now =>
    cases sent with
    | ok _ =>
      by_cases htype : message.type = some .send <;> simp [recordedMessage, transmitted, htype]
    | error ex =>
      have htype : message.type ≠ some .send := by simpa [Sends, Rejected] using h
      simp [recordedMessage, transmitted, htype]

theorem rejected_recorded {call : RecorderCall} (hsend : Sends .send call = true)
    (hrejected : Rejected call = true) :
    (recordedMessage call).isSome = true ∧ transmitted call = none := by
  cases call with
  | receive received now => cases hsend
  | send message sent now =>
    cases sent with
    | ok _ => cases hrejected
    | error ex =>
      have htype : message.type = some .send := by simpa [Sends] using hsend
      exact ⟨by simp [recordedMessage, htype], rfl⟩

/-- There are as many recorded messages as transmitted and rejected ones. -/
theorem recorded_length (calls : List RecorderCall) :
    (calls.filterMap recordedMessage).length = (calls.filterMap transmitted).length +
      calls.countP (fun call => Sends .send call && Rejected call) := by
  induction calls with
  | nil => rfl
  | cons call calls ih =>
    by_cases h : Sends .send call = true ∧ Rejected call = true
    · obtain ⟨hsome, hnone⟩ := rejected_recorded h.1 h.2
      obtain ⟨m, hm⟩ := Option.isSome_iff_exists.mp hsome
      rw [List.filterMap_cons_some hm, List.filterMap_cons_none hnone, List.length_cons, ih,
        List.countP_cons_of_pos (by simp [h])]
      omega
    · rw [List.countP_cons_of_neg (by simpa using h)]
      have heq := recorded_eq_transmitted h
      cases hm : recordedMessage call with
      | none =>
        rw [hm] at heq
        rw [List.filterMap_cons_none hm, List.filterMap_cons_none heq.symm, ih]
      | some m =>
        rw [hm] at heq
        rw [List.filterMap_cons_some hm, List.filterMap_cons_some heq.symm, List.length_cons,
          List.length_cons, ih]
        omega

theorem messages_faithful_iff (calls : List RecorderCall) :
    (transcript calls).messages.map (fun m => (m.sender, m.data)) = calls.filterMap transmitted ↔
      ∀ call ∈ calls, Sends .send call = true → Rejected call = false := by
  have hmessages : (transcript calls).messages = calls.filterMap recordedMessage :=
    (exec_messages {} calls).trans (List.nil_append _)
  rw [hmessages]
  constructor
  · intro heq
    have hlength := congrArg List.length heq
    rw [List.length_map, recorded_length] at hlength
    have hzero : calls.countP (fun call => Sends .send call && Rejected call) = 0 := by omega
    intro call hcall hsend
    have hnot := List.countP_eq_zero.mp hzero call hcall
    simpa [hsend] using hnot
  · intro hall
    rw [List.map_filterMap]
    apply List.filterMap_congr
    intro call hcall
    apply recorded_eq_transmitted
    rintro ⟨hsend, hrejected⟩
    rw [hall call hcall hsend] at hrejected
    exact Bool.noConfusion hrejected

theorem accepted_faithful_iff (calls : List RecorderCall) :
    ((transcript calls).accepted = true ↔ ∃ call ∈ calls, Accepts .accept call = true) ↔
      ((∃ call ∈ calls, Sends .accept call = true ∧ Rejected call = true) →
        ∃ call ∈ calls, Accepts .accept call = true) := by
  have haccepted : (transcript calls).accepted = true ↔
      ∃ call ∈ calls, Sends .accept call = true := by
    rw [transcript, exec_accepted]
    simp
  rw [haccepted]
  constructor
  · rintro h ⟨call, hcall, hsend, -⟩
    exact h.mp ⟨call, hcall, hsend⟩
  · intro h
    constructor
    · rintro ⟨call, hcall, hsend⟩
      by_cases hrejected : Rejected call = true
      · exact h ⟨call, hcall, hsend, hrejected⟩
      · exact ⟨call, hcall, by simp [Accepts, hsend, hrejected]⟩
    · rintro ⟨call, hcall, haccepts⟩
      refine ⟨call, hcall, ?_⟩
      simp only [Accepts, Bool.and_eq_true] at haccepts
      exact haccepts.1

/-- A transcript is faithful if and only if the channel rejects no `websocket.send`, and
rejects a `websocket.accept` only when it accepts another one. -/
theorem faithful_iff (calls : List RecorderCall) :
    Faithful calls ↔
      (∀ call ∈ calls, Sends .send call = true → Rejected call = false) ∧
      ((∃ call ∈ calls, Sends .accept call = true ∧ Rejected call = true) →
        ∃ call ∈ calls, Accepts .accept call = true) :=
  and_congr (messages_faithful_iff calls) (accepted_faithful_iff calls)

/-- A text sent after the close, which the channel refuses. -/
theorem rejected_send_recorded :
    let calls : List RecorderCall := [.send { type := some .accept } (.ok ()) 0,
      closeCall 1000 (.ok ()) 1,
      .send { type := some .send, text := some "late" }
        (.error ⟨0, "RuntimeError('Cannot call \"send\" once a close message has been sent.')",
          .exception⟩) 2]
    (transcript calls).messages = [⟨some (.text "late"), .server, 2⟩] ∧
      calls.filterMap transmitted = [] ∧ ¬ Faithful calls := by
  intro calls
  refine ⟨by decide, by decide, ?_⟩
  intro hfaithful
  exact absurd hfaithful.1 (by decide)

end Yellowbox.TranscriptLog
