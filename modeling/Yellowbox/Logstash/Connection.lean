import Yellowbox.Logstash.Service

/-!
What the thread does with the data of one connection, stated once: the records it
appends, what it keeps for the next time, and whether the connection ends. An end
by a failure runs a clean-up, and that is where an exception can escape.
-/
namespace Yellowbox.LogstashConnection

open Effects StepRuns StreamSplit LogstashService

inductive Ending
  | peerClosed
  | failed
  deriving DecidableEq

/-- What comes of a call of `recv`. -/
structure Read (ρ : Type) where
  records : List ρ
  partialChunks : List Bytes
  ending : Option Ending

variable {ρ : Type} {cfg : Setup ρ}

def readPieces (cfg : Setup ρ) (buffer : List Bytes) : List Bytes → Read ρ
  | [] => ⟨[], buffer, none⟩
  | [chunk] => ⟨[], buffer ++ [chunk], none⟩
  | first :: second :: others =>
    let ls := (buffer ++ [first]).flatten :: (second :: others).dropLast
    ⟨parsed cfg.parse ls, [(second :: others).getLast (List.cons_ne_nil second others)],
      if Parses cfg.parse ls then none else some .failed⟩

def read (cfg : Setup ρ) (buffer : List Bytes) : Except OSError Bytes → Read ρ
  | .error _ => ⟨[], buffer, some .failed⟩
  | .ok data =>
    if data = [] then ⟨[], buffer, some .peerClosed⟩
    else if cfg.delimiter = [] then ⟨[], buffer, some .failed⟩
    else readPieces cfg buffer (splitAt cfg.delimiter data)

/-- The service after connection `c` was read and, if it failed, cleaned up. -/
def afterRead (s : Service ρ) (c : ℕ) (rd : Read ρ) : Service ρ :=
  let t := (s.setPartialChunks c rd.partialChunks).append c rd.records
  match rd.ending with
  | none => t
  | some .peerClosed => t.setRegistered c false
  | some .failed => (t.setRegistered c false).setClosed c

/-- The result of a callback and of what the loop does when it raises. -/
def outcome (s : Service ρ) (c : ℕ) (rd : Read ρ) (io : SocketIO)
    (result : Except ServiceError Bool × Service ρ) : Prop :=
  match rd.ending, io.shutdown with
  | some .failed, .error _ => ∃ err, result.1 = .error err
  | _, _ => result = (.ok false, afterRead s c rd)

section Service

variable (s : Service ρ) (c : ℕ)

@[simp] theorem append_nil : s.append c [] = s := by simp [Service.append]

theorem append_append (rs rs' : List ρ) :
    (s.append c rs).append c rs' = s.append c (rs ++ rs') := by
  simp [Service.append]

@[simp] theorem setPartialChunks_same : s.setPartialChunks c (s.partialChunks c) = s := by
  simp [Service.setPartialChunks]

theorem parseChunks_eq (cfg : Setup ρ) (ls : List Bytes) :
    parseChunks cfg c ls s =
      ((match (parseAll cfg.parse ls).2 with
        | none => .ok ()
        | some e => .error (.line e)), s.append c (parsed cfg.parse ls)) := by
  rw [← parseAll_fst]
  induction ls generalizing s with
  | nil =>
    simp only [parseAll, append_nil]
    rfl
  | cons l ls ih =>
    rw [parseChunks, Act.ofExcept_bind]
    cases h : cfg.parse l with
    | error e =>
      simp only [parseAll, h, append_nil]
      rfl
    | ok r =>
      simp only [parseAll, h, Except.mapError, Act.modify_bind, ih, append_append]
      rfl

theorem unregister_ok (h : s.registered c = true) :
    unregister c s = (.ok (), s.setRegistered c false) := by
  rw [unregister, Act.get_bind, Act.raiseIf_bind, if_neg (by simp [h])]
  rfl

/-- A clean-up of a registered connection fails only when the shutdown does. -/
theorem cleanUp_ok {io : SocketIO} (h : s.registered c = true) (hio : io.shutdown = .ok ()) :
    cleanUp c io s = (.ok (), (s.setRegistered c false).setClosed c) := by
  rw [cleanUp, Act.bind_ok (unregister_ok s c h), Act.ofExcept_bind, hio]
  rfl

theorem cleanUp_error {io : SocketIO} {e : OSError} (h : s.registered c = true)
    (hio : io.shutdown = .error e) :
    cleanUp c io s = (.error (.osError e), s.setRegistered c false) := by
  rw [cleanUp, Act.bind_ok (unregister_ok s c h), Act.ofExcept_bind, hio]
  rfl

/-- A second clean-up fails: the connection is not registered any more. -/
theorem cleanUp_twice (io : SocketIO) (h : s.registered c = false) :
    cleanUp c io s = (.error .keyError, s) := by
  have hunregister : unregister c s = (.error .keyError, s) := by
    rw [unregister, Act.get_bind, Act.raiseIf_bind, if_pos (by simp [h])]
  rw [cleanUp, Act.bind_error hunregister]

theorem processSocketData_eq (cfg : Setup ρ) (io : SocketIO) (hreg : s.registered c = true) :
    processSocketData cfg c io s =
      match io.recv with
      | .error e => (.error (.osError e), s)
      | .ok data =>
        if data = [] then (.ok (), s.setRegistered c false)
        else if cfg.delimiter = [] then (.error (.valueError "empty separator"), s)
        else
          match splitAt cfg.delimiter data with
          | [] => (.ok (), s)
          | [chunk] => (.ok (), s.setPartialChunks c (s.partialChunks c ++ [chunk]))
          | first :: second :: others =>
            Act.handle (parseChunks cfg c
              ((s.partialChunks c ++ [first]).flatten :: (second :: others).dropLast))
              (onLineError c io) (s.setPartialChunks c
                [(second :: others).getLast (List.cons_ne_nil second others)]) := by
  rw [processSocketData, Act.ofExcept_bind]
  cases io.recv with
  | error e => rfl
  | ok data =>
    simp only [Except.mapError]
    split
    · exact unregister_ok s c hreg
    · by_cases hdelimiter : cfg.delimiter = []
      · rw [Act.ofExcept_bind, bytesSplit, if_pos hdelimiter, if_pos hdelimiter]
      · rw [Act.ofExcept_bind, bytesSplit, if_neg hdelimiter, if_neg hdelimiter]
        rcases splitAt cfg.delimiter data with _ | ⟨first, _ | ⟨second, others⟩⟩ <;> rfl

theorem handleKey_socket (io : SocketIO) {result : Except ServiceError Unit × Service ρ}
    (h : Act.handle (processSocketData cfg c io) (fun _ => cleanUp c io) s = result) :
    handleKey cfg (.socket c io) s = (result.1.map fun _ => false, result.2) := by
  rcases result with ⟨_ | _, t⟩
  · exact Act.bind_error h
  · exact Act.bind_ok h

end Service

/-- A callback that raises is cleaned up after, unless the shutdown fails. -/
theorem outcome_of_raised {s t : Service ρ} {c : ℕ} {io : SocketIO} {rd : Read ρ}
    {err : ServiceError} (hreg : t.registered c = true) (hfailed : rd.ending = some .failed)
    (ht : (s.setPartialChunks c rd.partialChunks).append c rd.records = t)
    (h : processSocketData cfg c io s = (.error err, t)) :
    outcome s c rd io (handleKey cfg (.socket c io) s) := by
  rw [handleKey_socket s c io (Act.handle_error h)]
  unfold outcome
  rw [hfailed]
  cases hio : io.shutdown with
  | error e =>
    rw [cleanUp_error t c hreg hio]
    exact ⟨_, rfl⟩
  | ok u =>
    rw [cleanUp_ok t c hreg hio]
    simp only [afterRead, hfailed, ht]
    rfl

theorem outcome_of_returned {s : Service ρ} {c : ℕ} {io : SocketIO} {rd : Read ρ}
    (hnot : rd.ending = some .failed → io.shutdown = .ok ())
    (h : processSocketData cfg c io s = (.ok (), afterRead s c rd)) :
    outcome s c rd io (handleKey cfg (.socket c io) s) := by
  rw [handleKey_socket s c io (Act.handle_ok h)]
  unfold outcome
  split
  · rename_i e hfailed hio
    rw [hnot hfailed] at hio
    cases hio
  · rfl

/-- The lines of a chunk with a delimiter; a line that is not JSON is cleaned up after
inside the callback, and a second time by the loop if that fails. -/
theorem outcome_of_lines {s t : Service ρ} {c : ℕ} {io : SocketIO} {rd : Read ρ}
    {ls : List Bytes} (hreg : s.registered c = true)
    (ht : s.setPartialChunks c rd.partialChunks = t) (hrecords : rd.records = parsed cfg.parse ls)
    (hending : rd.ending = if Parses cfg.parse ls then none else some .failed)
    (h : processSocketData cfg c io s =
      Act.handle (parseChunks cfg c ls) (onLineError c io) t) :
    outcome s c rd io (handleKey cfg (.socket c io) s) := by
  have hregt : (t.append c rd.records).registered c = true := by
    rw [← ht]
    exact hreg
  have hparse := parseChunks_eq t c cfg ls
  rw [← hrecords] at hparse
  cases hfirst : (parseAll cfg.parse ls).2 with
  | none =>
    have hall : Parses cfg.parse ls := (parseAll_snd cfg.parse ls).mp hfirst
    rw [if_pos hall] at hending
    simp only [hfirst] at hparse
    rw [Act.handle_ok hparse] at h
    refine outcome_of_returned ?_ ?_
    · intro hfailed
      rw [hending] at hfailed
      cases hfailed
    · simp only [h, afterRead, hending, ht]
  | some e =>
    have hnot : ¬ Parses cfg.parse ls := by
      intro hall
      rw [(parseAll_snd cfg.parse ls).mpr hall] at hfirst
      cases hfirst
    rw [if_neg hnot] at hending
    simp only [hfirst] at hparse
    rw [Act.handle_error hparse] at h
    cases e with
    | other name => exact outcome_of_raised hregt hending (by rw [ht]) h
    | jsonDecodeError =>
      cases hio : io.shutdown with
      | ok u =>
        apply outcome_of_returned (fun _ => hio)
        rw [h]
        simp only [onLineError, cleanUp_ok _ c hregt hio, afterRead, hending, ht]
      | error e =>
        simp only [onLineError, cleanUp_error _ c hregt hio] at h
        have htwice := cleanUp_twice ((t.append c rd.records).setRegistered c false) c io
          (Function.update_self ..)
        rw [handleKey_socket s c io ((Act.handle_error h).trans htwice)]
        unfold outcome
        rw [hending, hio]
        exact ⟨_, rfl⟩

/-- Everything that a ready connection makes the thread do. -/
theorem handleKey_socket_outcome (cfg : Setup ρ) {s : Service ρ} {c : ℕ} (io : SocketIO)
    (hreg : s.registered c = true) :
    outcome s c (read cfg (s.partialChunks c) io.recv) io (handleKey cfg (.socket c io) s) := by
  have hread := processSocketData_eq s c cfg io hreg
  cases hrecv : io.recv with
  | error e =>
    simp only [hrecv] at hread
    exact outcome_of_raised hreg rfl (by simp [read]) hread
  | ok data =>
    simp only [hrecv] at hread
    by_cases hdata : data = []
    · rw [if_pos hdata] at hread
      refine outcome_of_returned ?_ ?_
      · simp [read, hdata]
      · simp [hread, read, hdata, afterRead]
    · rw [if_neg hdata] at hread
      by_cases hdelimiter : cfg.delimiter = []
      · rw [if_pos hdelimiter] at hread
        refine outcome_of_raised hreg ?_ ?_ hread
        · simp [read, hdata, hdelimiter]
        · simp [read, hdata, hdelimiter]
      · rw [if_neg hdelimiter] at hread
        simp only [read, if_neg hdata, if_neg hdelimiter]
        cases hpieces : splitAt cfg.delimiter data with
        | nil => exact absurd hpieces (splitAt_ne_nil _ _)
        | cons first others =>
          simp only [hpieces] at hread
          cases others with
          | nil =>
            apply outcome_of_returned (by simp [readPieces])
            simp [hread, readPieces, afterRead]
          | cons second others => exact outcome_of_lines hreg rfl rfl rfl hread

end Yellowbox.LogstashConnection
