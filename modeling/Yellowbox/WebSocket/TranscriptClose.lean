import Mathlib.Data.List.Induction
import Yellowbox.WebSocket.Recorder

/-!
The `close` of a transcript against the event that closed the connection. The
recorder sets it on every disconnect it receives and on every close it is to send,
also on one that comes after the connection was closed and that the channel rejects.
-/
namespace Yellowbox.TranscriptClose

open StepRuns WebServerState WebServerHandlers WebSocketRecorder

/-- The closing event of a call: a disconnect that was received, or a close that
the channel accepted. -/
def closing : RecorderCall → Option (Sender × ℕ)
  | .send _ (.error _) _ => none
  | call => closeAttempt call

/-- The sender and the code of the event that closed the connection. -/
def firstClosing (calls : List RecorderCall) : Option (Sender × ℕ) :=
  (calls.filterMap closing).head?

/-- The channel keeps the event that closed it. -/
def channelStep (closed : Option (Sender × ℕ)) (call : RecorderCall) :
    Option (Sender × ℕ) × Unit :=
  (closed.or (closing call), ())

/-- Once closed, the channel rejects a close. -/
def RejectsClose (closed : Option (Sender × ℕ)) (call : RecorderCall) : Prop :=
  closed ≠ none → Sends .close call = true → Rejected call = true

instance (closed : Option (Sender × ℕ)) (call : RecorderCall) :
    Decidable (RejectsClose closed call) :=
  inferInstanceAs (Decidable (_ → _ → _))

/-- A disconnect that is received, or a close that is to be sent, closes the connection,
or has the sender and the code of the event that closed it before. -/
def Agrees (closed : Option (Sender × ℕ)) (call : RecorderCall) : Prop :=
  ∀ e, closeAttempt call = some e → (closed = none ∧ closing call = some e) ∨ closed = some e

/-- At every moment `close` is the event that closed the connection. -/
def CloseFaithful (calls : List RecorderCall) : Prop :=
  ∀ pre post, calls = pre ++ post → (transcript pre).close = firstClosing pre

theorem closeAttempt_of_closing {call : RecorderCall} {e : Sender × ℕ}
    (h : closing call = some e) : closeAttempt call = some e := by
  unfold closing at h
  split at h
  · cases h
  · exact h

theorem exec_channelStep (closed : Option (Sender × ℕ)) (calls : List RecorderCall) :
    exec channelStep closed calls = closed.or (firstClosing calls) := by
  induction calls generalizing closed with
  | nil => simp [firstClosing]
  | cons call calls ih =>
    rw [exec_cons, ih]
    cases closed with
    | some e => rfl
    | none => cases h : closing call <;> simp [channelStep, firstClosing, h]

theorem firstClosing_snoc (pre : List RecorderCall) (call : RecorderCall) :
    firstClosing (pre ++ [call]) = (firstClosing pre).or (closing call) := by
  rw [firstClosing, List.filterMap_append, List.head?_append]
  cases h : closing call <;> simp [firstClosing, h]

/-- The calls agree as long as `close` is that of the channel. -/
theorem snoc_close_iff {pre : List RecorderCall} (call : RecorderCall)
    (hpre : (transcript pre).close = firstClosing pre) :
    (transcript (pre ++ [call])).close = firstClosing (pre ++ [call]) ↔
      Agrees (firstClosing pre) call := by
  rw [transcript_snoc_close, firstClosing_snoc, hpre]
  cases hrec : closeAttempt call with
  | none =>
    have hnone : closing call = none := by
      cases hclosing : closing call with
      | none => rfl
      | some e =>
        rw [closeAttempt_of_closing hclosing] at hrec
        cases hrec
    simp [Agrees, hrec, hnone]
  | some e =>
    cases hfirst : firstClosing pre with
    | none =>
      constructor
      · intro h e' he'
        rw [hrec] at he'
        cases he'
        exact Or.inl ⟨rfl, h.symm⟩
      · intro h
        rcases h e hrec with ⟨-, h⟩ | h
        · exact h.symm
        · cases h
    | some e' =>
      constructor
      · intro h e'' he''
        rw [hrec] at he''
        cases he''
        exact Or.inr h.symm
      · intro h
        rcases h e hrec with ⟨h, -⟩ | h
        · cases h
        · exact h.symm

/-- The `close` of a transcript is at every moment the event that closed the connection
if and only if every disconnect received and every close sent either is that event
or repeats it. -/
theorem close_faithful_iff (calls : List RecorderCall) :
    CloseFaithful calls ↔ Along channelStep Agrees none calls := by
  have hstate : ∀ pre, exec channelStep none pre = firstClosing pre := exec_channelStep none
  rw [along_iff]
  constructor
  · rintro h pre call post rfl
    rw [hstate]
    have hpre := h pre (call :: post) rfl
    exact (snoc_close_iff call hpre).mp (h (pre ++ [call]) post (by simp))
  · intro h pre post hsplit
    induction pre using List.reverseRecOn generalizing post with
    | nil => rfl
    | append_singleton pre call ih =>
      have hsplit' : calls = pre ++ call :: post := by simpa using hsplit
      apply (snoc_close_iff call (ih (call :: post) hsplit')).mpr
      rw [← hstate]
      exact h pre call post hsplit'

/-- When a code is returned, or an exception is stored, after the connection was closed,
`get` still sends its close and the transcript ends with that. -/
theorem get_overwrites_close {sideEffect : List RecorderCall} {allowAbruptDisconnect : Bool}
    {result : Except Exc (Option ℕ)} {code : ℕ} (sent : Except Exc Unit) (now : Time)
    (hcode : (wsOutcome allowAbruptDisconnect result).2 = some code) :
    (transcript (getCalls false allowAbruptDisconnect sideEffect result sent now)).close =
      some (.server, code) := by
  have hcalls : getCalls false allowAbruptDisconnect sideEffect result sent now =
      sideEffect ++ [closeCall code sent now] := by
    simp [getCalls, hcode]
  rw [hcalls, transcript_snoc_close]
  rfl

/-- The client closes and the side effect then returns a code. -/
theorem client_close_overwritten :
    let calls := getCalls false true [.send { type := some .accept } (.ok ()) 0,
      .receive (.ok { type := some .disconnect, code := some 1001 }) 1] (.ok (some 1000))
      (.error ⟨0, "RuntimeError()", .exception⟩) 2
    Along channelStep RejectsClose none calls ∧ firstClosing calls = some (.client, 1001) ∧
      (transcript calls).close = some (.server, 1000) ∧ ¬ CloseFaithful calls := by
  intro calls
  refine ⟨by decide, by decide, by decide, ?_⟩
  intro hfaithful
  exact absurd (hfaithful calls [] (List.append_nil calls).symm) (by decide)

end Yellowbox.TranscriptClose
