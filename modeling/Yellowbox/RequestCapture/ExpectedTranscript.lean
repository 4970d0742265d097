import Mathlib.Data.List.Induction
import Yellowbox.RequestCapture.ScopeExpectation
import Yellowbox.WebSocket.Recorder

/-!
`ExpectedWSTranscript`: the messages that a recorded conversation should have, with an
ellipsis before or after them where more messages may stand. The search tries the starts
of the expected messages in the recorded ones, from lists of candidate indices.
-/
namespace Yellowbox.RequestCapture

open Dicts WebSocketRecorder

/-- A transcript with the scope of its connection. -/
structure RecordedTranscript (V : Type) extends RecordedWSTranscript, RecordedScope V

/-! ### Messages -/

/-- The `data` of an expected message. -/
inductive ExpectedData
  | ellipsis
  | strPattern (pattern : Pattern String)
  | bytesPattern (pattern : Pattern Bytes)
  | exact (data : Data)

structure ExpectedWSMessage where
  data : ExpectedData
  sender : Sender

/-- The reasons of a message; a pattern is shown by its source. -/
inductive MessageReason
  | senderIsNe (expected got : Sender)
  | noMatch (pattern : Data) (got : Option Data)
  | dataIsNe (expected : Data) (got : Option Data)

/-- The branches of `ExpectedWSMessage.matches` about the data. A pattern over `str` raises
a `TypeError` on anything else and one over `bytes` likewise; both count as no match. -/
def matchesData : ExpectedData → Option Data → Option MessageReason
  | .ellipsis, _ => none
  | .strPattern pattern, data =>
    match data with
    | some (.text text) =>
      if pattern.fullmatch text then none else some (.noMatch (.text pattern.pattern) data)
    | _ => some (.noMatch (.text pattern.pattern) data)
  | .bytesPattern pattern, data =>
    match data with
    | some (.bytes bytes) =>
      if pattern.fullmatch bytes then none else some (.noMatch (.bytes pattern.pattern) data)
    | _ => some (.noMatch (.bytes pattern.pattern) data)
  | .exact expected, data => if some expected ≠ data then some (.dataIsNe expected data) else none

/-- `ExpectedWSMessage.matches` -/
def ExpectedWSMessage.matchesMessage (m : ExpectedWSMessage) (message : RecordedWSMessage) :
    Option MessageReason :=
  if m.sender ≠ message.sender then some (.senderIsNe m.sender message.sender)
  else matchesData m.data message.data

/-! ### Transcripts -/

/-- An item of the `messages` that the constructor is given. -/
inductive MessageArg
  | ellipsis
  | message (m : ExpectedWSMessage)

namespace MessageArg

def isEllipsis : MessageArg → Bool
  | ellipsis => true
  | message _ => false

def message? : MessageArg → Option ExpectedWSMessage
  | ellipsis => none
  | message m => some m

end MessageArg

structure TranscriptArgs (V : Type) extends ScopeArgs V where
  messages : List MessageArg := [.ellipsis]
  close : Option (Sender × ℕ) := none
  accepted : Option Bool := some true

structure ExpectedWSTranscript (V : Type) extends ScopeExpectation V where
  anyStart : Bool
  anyEnd : Bool
  expectedMessages : List ExpectedWSMessage
  accepted : Option Bool
  close : Option (Sender × ℕ)

/-- `messages` without an ellipsis at the start, and whether there was one. -/
def stripStart : List MessageArg → List MessageArg × Bool
  | .ellipsis :: messages => (messages, true)
  | messages => (messages, false)

/-- `messages` without an ellipsis at the end, and whether there was one. -/
def stripEnd (messages : List MessageArg) : List MessageArg × Bool :=
  match messages.getLast? with
  | some .ellipsis => (messages.dropLast, true)
  | _ => (messages, false)

/-- The reasons of a transcript that do not look at its messages one by one. -/
inductive TranscriptReason (V : Type)
  | scope (reason : ScopeReason V)
  | closeIsNe (expected got : Sender × ℕ)
  | acceptedIsNe (expected got : Bool)
  | notExactly (expected found : ℕ)
  | notAtLeast (expected found : ℕ)

/-- Why the expected messages do not start at a candidate index. -/
structure WhyNot where
  recorded : RecordedWSMessage
  expected : ExpectedWSMessage
  reason : MessageReason

inductive TranscriptMismatch (V : Type)
  | reasons (reasons : List (TranscriptReason V))
  | notFound (whynots : List WhyNot)

/-- `l[i]`, for an index that may count from the end. -/
def item? {α : Type} (l : List α) (i : ℤ) : Option α :=
  if 0 ≤ i then l[i.toNat]?
  else if 0 ≤ l.length + i then l[(l.length + i).toNat]?
  else none

/-- `range(n)` -/
def range (n : ℤ) : List ℤ := (List.range n.toNat).map Int.ofNat

/-- The loop over the expected messages, the first of which stands at index `i`. -/
def matchFrom (recorded : List RecordedWSMessage) (i : ℤ) :
    List ExpectedWSMessage → Except Exc (Option WhyNot)
  | [] => .ok none
  | expected :: rest =>
    match item? recorded i with
    | none => .error .indexError
    | some rec =>
      match expected.matchesMessage rec with
      | some reason => .ok (some ⟨rec, expected, reason⟩)
      | none => matchFrom recorded (i + 1) rest

/-- The loop over the candidate indices, up to one at which all messages match. -/
def search (recorded : List RecordedWSMessage) (expected : List ExpectedWSMessage) :
    List ℤ → Except Exc (Option (List WhyNot))
  | [] => .ok (some [])
  | start :: indices =>
    match matchFrom recorded start expected with
    | .error exc => .error exc
    | .ok none => .ok none
    | .ok (some whynot) => (search recorded expected indices).map (·.map (whynot :: ·))

variable {V : Type}

namespace ExpectedWSTranscript

/-- `ExpectedWSTranscript.__init__` -/
def init (lower : String → String) (args : TranscriptArgs V) :
    Except Exc (ExpectedWSTranscript V) := do
  let scope ← ScopeExpectation.init lower args.toScopeArgs
  let (messages, anyStart) := stripStart args.messages
  let (messages, anyEnd) := stripEnd messages
  if messages.any MessageArg.isEllipsis then
    .error (.typeError
      "ExpectedWSTranscript can only contain ellipsis at the start and at the end")
  else
    return ⟨scope, anyStart, anyEnd, messages.filterMap MessageArg.message?, args.accepted,
      args.close⟩

/-- The reasons collected before the search. -/
def mismatchReasons [BEq V] (e : ExpectedWSTranscript V) (recorded : RecordedTranscript V)
    (close : Sender × ℕ) : List (TranscriptReason V) :=
  let expected := e.expectedMessages.length
  let found := recorded.messages.length
  (e.scopeMismatchReasons recorded.toRecordedScope).map .scope ++
    (match e.close with
      | none => []
      | some c => if close ≠ c then [.closeIsNe c close] else []) ++
    (match e.accepted with
      | none => []
      | some a => if recorded.accepted ≠ a then [.acceptedIsNe a recorded.accepted] else []) ++
    (if !e.anyStart && !e.anyEnd && found != expected then [.notExactly expected found] else []) ++
    (if found < expected then [.notAtLeast expected found] else [])

/-- The candidate indices of the first expected message. -/
def indices (e : ExpectedWSTranscript V) (recorded : RecordedTranscript V) : List ℤ :=
  let expected : ℤ := e.expectedMessages.length
  let found : ℤ := recorded.messages.length
  if !e.anyStart then [0]
  else if !e.anyEnd then [found - expected]
  else range (found - expected + 1)

/-- `ExpectedWSTranscript.matches`: nothing for `True`, or the reason. -/
def matchesTranscript [BEq V] (e : ExpectedWSTranscript V) (recorded : RecordedTranscript V) :
    Except Exc (Option (TranscriptMismatch V)) :=
  match recorded.close with
  | none => .error (.runtimeError "the transcript is not yet done")
  | some close =>
    match e.mismatchReasons recorded close with
    | reason :: reasons => .ok (some (.reasons (reason :: reasons)))
    | [] =>
      (search recorded.messages e.expectedMessages (e.indices recorded)).map (·.map .notFound)

end ExpectedWSTranscript

/-! ### The pattern language -/

/-- The data that an expected message describes. -/
def DataMatches : ExpectedData → Option Data → Prop
  | .ellipsis, _ => True
  | .strPattern pattern, data => ∃ text, data = some (.text text) ∧ pattern.fullmatch text = true
  | .bytesPattern pattern, data =>
    ∃ bytes, data = some (.bytes bytes) ∧ pattern.fullmatch bytes = true
  | .exact expected, data => data = some expected

/-- A message of the expected sender with data as expected. -/
def MessageMatches (m : ExpectedWSMessage) (message : RecordedWSMessage) : Prop :=
  message.sender = m.sender ∧ DataMatches m.data message.data

/-- The recorded messages are some that match, with others before them only after a leading
ellipsis and others after them only before a trailing one. -/
def Describes (messages : List MessageArg) (recorded : List RecordedWSMessage) : Prop :=
  ∃ pre mid post, recorded = pre ++ mid ++ post ∧
    List.Forall₂ MessageMatches (messages.filterMap MessageArg.message?) mid ∧
    (pre ≠ [] → messages.head? = some .ellipsis) ∧
    (post ≠ [] → messages.getLast? = some .ellipsis)

/-- An ellipsis stands in the first or in the last position only. -/
def OuterEllipses (messages : List MessageArg) : Prop :=
  ∀ i : ℕ, messages[i]? = some .ellipsis → i = 0 ∨ i + 1 = messages.length

theorem matchesData_eq_none_iff (expected : ExpectedData) (data : Option Data) :
    matchesData expected data = none ↔ DataMatches expected data := by
  cases expected with
  | ellipsis => simp [matchesData, DataMatches]
  | strPattern pattern =>
    rcases data with _ | ⟨text⟩ | ⟨bytes⟩ <;> simp [matchesData, DataMatches]
  | bytesPattern pattern =>
    rcases data with _ | ⟨text⟩ | ⟨bytes⟩ <;> simp [matchesData, DataMatches]
  | exact expected => simp [matchesData, DataMatches, eq_comm]

theorem matchesMessage_eq_none_iff (m : ExpectedWSMessage) (message : RecordedWSMessage) :
    m.matchesMessage message = none ↔ MessageMatches m message := by
  unfold ExpectedWSMessage.matchesMessage MessageMatches
  by_cases h : m.sender = message.sender
  · simp [h, matchesData_eq_none_iff]
  · simp [h, Ne.symm h]

/-! ### The constructor -/

theorem ellipsis_of_isEllipsis {m : MessageArg} : m.isEllipsis = true ↔ m = .ellipsis := by
  cases m <;> simp [MessageArg.isEllipsis]

theorem stripEnd_any (messages : List MessageArg) :
    (stripEnd messages).1.any MessageArg.isEllipsis =
      messages.dropLast.any MessageArg.isEllipsis := by
  induction messages using List.reverseRecOn with
  | nil => rfl
  | append_singleton messages last =>
    cases last with
    | ellipsis => simp [stripEnd]
    | message m => simp [stripEnd, MessageArg.isEllipsis]

theorem strip_any (messages : List MessageArg) :
    (stripEnd (stripStart messages).1).1.any MessageArg.isEllipsis =
      messages.tail.dropLast.any MessageArg.isEllipsis := by
  rw [stripEnd_any]
  cases messages with
  | nil => rfl
  | cons first messages =>
    cases first with
    | ellipsis => rfl
    | message m =>
      cases messages with
      | nil => rfl
      | cons second messages => simp [stripStart, MessageArg.isEllipsis]

theorem outerEllipses_iff (messages : List MessageArg) :
    OuterEllipses messages ↔ messages.tail.dropLast.any MessageArg.isEllipsis = false := by
  rw [List.any_eq_false]
  constructor
  · intro h m hm hellipsis
    obtain ⟨i, hi⟩ := List.mem_iff_getElem?.mp hm
    rw [ellipsis_of_isEllipsis.mp hellipsis, List.getElem?_dropLast] at hi
    split at hi
    · rename_i hlt
      rw [List.getElem?_tail] at hi
      rw [List.length_tail] at hlt
      rcases h (i + 1) hi with hzero | hlast
      · omega
      · omega
    · contradiction
  · intro h i hi
    by_contra hinner
    have hlt : i < messages.length := (List.getElem?_eq_some_iff.mp hi).1
    have htail : messages.tail.dropLast[i - 1]? = some .ellipsis := by
      rw [List.getElem?_dropLast, List.length_tail, if_pos (by omega), List.getElem?_tail]
      rw [show i - 1 + 1 = i by omega]
      exact hi
    exact h _ (List.mem_of_getElem? htail) rfl

theorem stripEnd_filterMap (messages : List MessageArg) :
    (stripEnd messages).1.filterMap MessageArg.message? =
      messages.filterMap MessageArg.message? := by
  induction messages using List.reverseRecOn with
  | nil => rfl
  | append_singleton messages last =>
    cases last with
    | ellipsis => simp [stripEnd, MessageArg.message?]
    | message m => simp [stripEnd]

theorem strip_filterMap (messages : List MessageArg) :
    (stripEnd (stripStart messages).1).1.filterMap MessageArg.message? =
      messages.filterMap MessageArg.message? := by
  rw [stripEnd_filterMap]
  rcases messages with _ | ⟨_ | m, messages⟩ <;> rfl

theorem stripStart_snd (messages : List MessageArg) :
    (stripStart messages).2 = true ↔ messages.head? = some .ellipsis := by
  rcases messages with _ | ⟨_ | m, messages⟩ <;> simp [stripStart]

theorem stripEnd_snd (messages : List MessageArg) :
    (stripEnd messages).2 = true ↔ messages.getLast? = some .ellipsis := by
  rw [stripEnd]
  split
  · rename_i h
    simp [h]
  · rename_i h
    simpa using h

/-- The ellipsis of a list that is nothing else counts as the one at the start. -/
theorem strip_snd {messages : List MessageArg} (h : messages ≠ [.ellipsis]) :
    (stripEnd (stripStart messages).1).2 = true ↔ messages.getLast? = some .ellipsis := by
  rw [stripEnd_snd]
  rcases messages with _ | ⟨_ | m, _ | ⟨second, messages⟩⟩
  · rfl
  · contradiction
  · simp [stripStart]
  · rfl
  · rfl

variable {lower : String → String} {args : TranscriptArgs V} {e : ExpectedWSTranscript V}

theorem init_eq_ok_iff : ExpectedWSTranscript.init lower args = .ok e ↔
    ScopeExpectation.init lower args.toScopeArgs = .ok e.toScopeExpectation ∧
      OuterEllipses args.messages ∧ e.anyStart = (stripStart args.messages).2 ∧
      e.anyEnd = (stripEnd (stripStart args.messages).1).2 ∧
      e.expectedMessages = args.messages.filterMap MessageArg.message? ∧
      e.accepted = args.accepted ∧ e.close = args.close := by
  rw [outerEllipses_iff, ← strip_any, ← strip_filterMap, ExpectedWSTranscript.init]
  cases ScopeExpectation.init lower args.toScopeArgs with
  | error exc =>
    constructor
    · intro h
      cases h
    · rintro ⟨h, -⟩
      cases h
  | ok scope =>
    obtain ⟨scope', anyStart, anyEnd, expectedMessages, accepted, close⟩ := e
    simp only [bind, Except.bind, pure, Except.pure]
    split
    · rename_i hany
      simp [hany]
    · rename_i hany
      simp only [Bool.not_eq_true] at hany
      simp only [hany, Except.ok.injEq, ExpectedWSTranscript.mk.injEq, true_and]
      constructor
      · rintro ⟨rfl, rfl, rfl, rfl, rfl, rfl⟩
        exact ⟨rfl, rfl, rfl, rfl, rfl, rfl⟩
      · rintro ⟨rfl, rfl, rfl, rfl, rfl, rfl⟩
        exact ⟨rfl, rfl, rfl, rfl, rfl, rfl⟩

/-- With the flags that the constructor sets, the pattern language. -/
theorem describes_iff (messages : List MessageArg) (recorded : List RecordedWSMessage) :
    Describes messages recorded ↔
      ∃ pre mid post, recorded = pre ++ mid ++ post ∧
        List.Forall₂ MessageMatches (messages.filterMap MessageArg.message?) mid ∧
        ((stripStart messages).2 = false → pre = []) ∧
        ((stripEnd (stripStart messages).1).2 = false → post = []) := by
  by_cases hlone : messages = [.ellipsis]
  · subst hlone
    constructor
    · intro _
      exact ⟨recorded, [], [], by simp, .nil, nofun, fun _ => rfl⟩
    · intro _
      exact ⟨recorded, [], [], by simp, .nil, fun _ => rfl, nofun⟩
  · have hstart := stripStart_snd messages
    have hend := strip_snd hlone
    unfold Describes
    rw [← hstart, ← hend]
    simp only [ne_eq, ← Bool.not_eq_true, not_imp_comm]

/-! ### The search -/

section Search

variable {recorded : List RecordedWSMessage} {expected : List ExpectedWSMessage}

/-- The expected messages match those that start at the index `k`. -/
def MatchesAt (recorded : List RecordedWSMessage) (expected : List ExpectedWSMessage) (k : ℕ) :
    Prop :=
  List.Forall₂ MessageMatches expected ((recorded.drop k).take expected.length)

theorem item?_natCast {α : Type} (l : List α) (i : ℕ) : item? l i = l[i]? := by
  simp [item?]

/-- From a start with enough messages after it, every access is inside the list. -/
theorem matchFrom_spec (recorded : List RecordedWSMessage) (expected : List ExpectedWSMessage)
    (k : ℕ) (hk : k + expected.length ≤ recorded.length) :
    ∃ result, matchFrom recorded k expected = .ok result ∧
      (result = none ↔ MatchesAt recorded expected k) := by
  induction expected generalizing k with
  | nil => exact ⟨none, rfl, by simp [MatchesAt]⟩
  | cons m expected ih =>
    rw [List.length_cons] at hk
    have hlt : k < recorded.length := by omega
    have hitem : item? recorded k = some recorded[k] := by
      rw [item?_natCast, List.getElem?_eq_getElem hlt]
    have hat : MatchesAt recorded (m :: expected) k ↔
        MessageMatches m recorded[k] ∧ MatchesAt recorded expected (k + 1) := by
      rw [MatchesAt, List.drop_eq_getElem_cons hlt, List.length_cons, List.take_succ_cons,
        List.forall₂_cons, MatchesAt]
    rw [hat, ← matchesMessage_eq_none_iff, matchFrom, hitem]
    cases hreason : m.matchesMessage recorded[k] with
    | some reason =>
      exact ⟨some ⟨recorded[k], m, reason⟩, by simp only [hreason], by simp⟩
    | none =>
      obtain ⟨result, hresult, hiff⟩ := ih (k + 1) (by omega)
      rw [Int.natCast_succ] at hresult
      exact ⟨result, by simpa only [hreason] using hresult, by simp [hiff]⟩

/-- The search over starts with enough messages after them finds one that matches. -/
theorem search_spec (recorded : List RecordedWSMessage) (expected : List ExpectedWSMessage)
    (starts : List ℤ)
    (hstarts : ∀ start ∈ starts, ∃ k : ℕ, start = k ∧ k + expected.length ≤ recorded.length) :
    ∃ result, search recorded expected starts = .ok result ∧
      (result = none ↔ ∃ k : ℕ, (k : ℤ) ∈ starts ∧ MatchesAt recorded expected k) := by
  induction starts with
  | nil => exact ⟨some [], rfl, by simp⟩
  | cons start starts ih =>
    obtain ⟨k, rfl, hk⟩ := hstarts start List.mem_cons_self
    obtain ⟨result, hresult, hiff⟩ := ih fun s hs => hstarts s (List.mem_cons_of_mem _ hs)
    obtain ⟨first, hfirst, hmatch⟩ := matchFrom_spec recorded expected k hk
    rw [search, hfirst, hresult]
    cases first with
    | none => exact ⟨none, rfl, iff_of_true rfl ⟨k, List.mem_cons_self, hmatch.mp rfl⟩⟩
    | some whynot =>
      have hnot : ¬ MatchesAt recorded expected k := fun h => by simpa using hmatch.mpr h
      refine ⟨_, rfl, ?_⟩
      rw [Option.map_eq_none_iff, hiff]
      constructor
      · rintro ⟨j, hj, hat⟩
        exact ⟨j, List.mem_cons_of_mem _ hj, hat⟩
      · rintro ⟨j, hj, hat⟩
        rcases List.mem_cons.mp hj with heq | hmem
        · have hjk : j = k := Int.ofNat_inj.mp heq
          subst hjk
          exact absurd hat hnot
        · exact ⟨j, hmem, hat⟩

/-- A start is a split of the recorded messages into what is before the matching ones,
these, and what is after them. -/
theorem exists_start_iff {atStart atEnd : Prop} :
    (∃ k : ℕ, (k + expected.length ≤ recorded.length ∧ (atStart → k = 0) ∧
        (atEnd → k + expected.length = recorded.length)) ∧ MatchesAt recorded expected k) ↔
      ∃ pre mid post, recorded = pre ++ mid ++ post ∧
        List.Forall₂ MessageMatches expected mid ∧
        (atStart → pre = []) ∧ (atEnd → post = []) := by
  constructor
  · rintro ⟨k, ⟨hk, hstart, hend⟩, hat⟩
    refine ⟨recorded.take k, (recorded.drop k).take expected.length,
      recorded.drop (k + expected.length), ?_, hat, ?_, ?_⟩
    · rw [List.append_assoc, ← List.drop_drop, List.take_append_drop, List.take_append_drop]
    · intro h
      rw [hstart h, List.take_zero]
    · intro h
      rw [hend h, List.drop_length]
  · rintro ⟨pre, mid, post, rfl, hmatch, hstart, hend⟩
    have hlength : expected.length = mid.length := hmatch.length_eq
    refine ⟨pre.length, ⟨?_, ?_, ?_⟩, ?_⟩
    · simp only [List.length_append]
      omega
    · intro h
      rw [hstart h, List.length_nil]
    · intro h
      simp only [hend h, List.length_append, List.length_nil]
      omega
    · show List.Forall₂ MessageMatches expected
        (((pre ++ mid ++ post).drop pre.length).take expected.length)
      rw [List.append_assoc, List.drop_left, hlength, List.take_left]
      exact hmatch

end Search

/-! ### Matching -/

/-- The lengths leave room for the expected messages. -/
def LengthsFit (e : ExpectedWSTranscript V) (recorded : RecordedTranscript V) : Prop :=
  (e.anyStart = false → e.anyEnd = false →
      recorded.messages.length = e.expectedMessages.length) ∧
    e.expectedMessages.length ≤ recorded.messages.length

theorem mem_indices_iff {recorded : RecordedTranscript V} (hfit : LengthsFit e recorded)
    (start : ℤ) : start ∈ e.indices recorded ↔
      ∃ k : ℕ, start = k ∧ k + e.expectedMessages.length ≤ recorded.messages.length ∧
        (e.anyStart = false → k = 0) ∧
        (e.anyEnd = false → k + e.expectedMessages.length = recorded.messages.length) := by
  obtain ⟨hexact, hle⟩ := hfit
  unfold ExpectedWSTranscript.indices
  cases hstart : e.anyStart with
  | false =>
    simp only [Bool.not_false, if_true, List.mem_singleton]
    constructor
    · intro h
      refine ⟨0, h, by omega, fun _ => rfl, ?_⟩
      intro hend
      have hlength := hexact hstart hend
      omega
    · rintro ⟨k, rfl, -, hk, -⟩
      rw [hk trivial]
      rfl
  | true =>
    cases hend : e.anyEnd with
    | false =>
      simp only [Bool.not_true, Bool.not_false, if_true, Bool.false_eq_true, if_false,
        List.mem_singleton]
      constructor
      · intro h
        refine ⟨recorded.messages.length - e.expectedMessages.length, by omega, by omega,
          nofun, fun _ => by omega⟩
      · rintro ⟨k, rfl, -, -, hk⟩
        have hlength := hk trivial
        omega
    | true =>
      simp only [Bool.not_true, Bool.false_eq_true, if_false, range, List.mem_map, List.mem_range]
      constructor
      · rintro ⟨k, hk, rfl⟩
        exact ⟨k, rfl, by omega, nofun, nofun⟩
      · rintro ⟨k, rfl, hk, -, -⟩
        exact ⟨k, by omega, rfl⟩

/-- A start where the messages may stand leaves room for them. -/
theorem lengthsFit_of_start {recorded : RecordedTranscript V} {k : ℕ}
    (hk : k + e.expectedMessages.length ≤ recorded.messages.length)
    (hstart : e.anyStart = false → k = 0)
    (hend : e.anyEnd = false → k + e.expectedMessages.length = recorded.messages.length) :
    LengthsFit e recorded := by
  refine ⟨?_, by omega⟩
  intro hnoStart hnoEnd
  have hzero := hstart hnoStart
  have hall := hend hnoEnd
  omega

/-- When the lengths fit, the search over the candidate indices decides whether the messages
can be split. -/
theorem search_indices {recorded : RecordedTranscript V} (hfit : LengthsFit e recorded) :
    ∃ result, search recorded.messages e.expectedMessages (e.indices recorded) = .ok result ∧
      (result = none ↔ ∃ k : ℕ, (k + e.expectedMessages.length ≤ recorded.messages.length ∧
        (e.anyStart = false → k = 0) ∧
        (e.anyEnd = false → k + e.expectedMessages.length = recorded.messages.length)) ∧
          MatchesAt recorded.messages e.expectedMessages k) := by
  have hmem := mem_indices_iff hfit
  have hstarts : ∀ start ∈ e.indices recorded, ∃ k : ℕ, start = k ∧
      k + e.expectedMessages.length ≤ recorded.messages.length := by
    intro start hs
    obtain ⟨k, hk, hle, -⟩ := (hmem start).mp hs
    exact ⟨k, hk, hle⟩
  obtain ⟨result, hresult, hiff⟩ := search_spec recorded.messages e.expectedMessages
    (e.indices recorded) hstarts
  refine ⟨result, hresult, ?_⟩
  rw [hiff]
  constructor
  · rintro ⟨k, hk, hat⟩
    obtain ⟨j, hkj, hj⟩ := (hmem k).mp hk
    have heq : k = j := Int.ofNat_inj.mp hkj
    subst heq
    exact ⟨k, hj, hat⟩
  · rintro ⟨k, hk, hat⟩
    exact ⟨k, (hmem k).mpr ⟨k, rfl, hk⟩, hat⟩

variable [BEq V]

theorem mismatchReasons_eq_nil_iff (e : ExpectedWSTranscript V) (recorded : RecordedTranscript V)
    (close : Sender × ℕ) : e.mismatchReasons recorded close = [] ↔
      (ScopeCriteria e.toScopeExpectation recorded.toRecordedScope ∧
        (∀ c, e.close = some c → close = c) ∧
        (∀ a, e.accepted = some a → recorded.accepted = a)) ∧ LengthsFit e recorded := by
  have hlengths : ((if !e.anyStart && !e.anyEnd &&
        recorded.messages.length != e.expectedMessages.length then
          [TranscriptReason.notExactly (V := V) e.expectedMessages.length recorded.messages.length]
        else []) = [] ∧
      (if recorded.messages.length < e.expectedMessages.length then
          [TranscriptReason.notAtLeast (V := V) e.expectedMessages.length recorded.messages.length]
        else []) = []) ↔ LengthsFit e recorded := by
    unfold LengthsFit
    cases e.anyStart <;> cases e.anyEnd <;> simp
  unfold ExpectedWSTranscript.mismatchReasons
  rw [List.append_eq_nil_iff, List.append_eq_nil_iff, and_assoc, hlengths]
  apply and_congr_left
  intro _
  rw [List.append_eq_nil_iff, List.append_eq_nil_iff, List.map_eq_nil_iff,
    scopeMismatchReasons_eq_nil_iff, and_assoc]
  apply and_congr_right
  intro _
  cases e.close <;> cases e.accepted <;> simp

/-- On a finished transcript `matches` returns, and decides the criteria and the pattern. -/
theorem matchesTranscript_spec (hinit : ExpectedWSTranscript.init lower args = .ok e)
    {recorded : RecordedTranscript V} {close : Sender × ℕ}
    (hclose : recorded.close = some close) :
    ∃ result, e.matchesTranscript recorded = .ok result ∧
      (result = none ↔ (ScopeCriteria e.toScopeExpectation recorded.toRecordedScope ∧
        (∀ c, args.close = some c → close = c) ∧
        (∀ a, args.accepted = some a → recorded.accepted = a)) ∧
        Describes args.messages recorded.messages) := by
  obtain ⟨-, -, hanyStart, hanyEnd, hmessages, haccepted, hexpectedClose⟩ := init_eq_ok_iff.mp hinit
  rw [describes_iff, ← hanyStart, ← hanyEnd, ← hmessages, ← haccepted, ← hexpectedClose,
    ← exists_start_iff]
  have hreasons := mismatchReasons_eq_nil_iff e recorded close
  rw [ExpectedWSTranscript.matchesTranscript, hclose]
  simp only
  cases hcollected : e.mismatchReasons recorded close with
  | cons reason reasons =>
    refine ⟨_, rfl, ?_⟩
    rw [hcollected] at hreasons
    constructor
    · nofun
    · rintro ⟨hcriteria, k, ⟨hk, hstart, hend⟩, -⟩
      have hfit := lengthsFit_of_start hk hstart hend
      exact absurd (hreasons.mpr ⟨hcriteria, hfit⟩) (List.cons_ne_nil _ _)
  | nil =>
    obtain ⟨hcriteria, hfit⟩ := hreasons.mp hcollected
    obtain ⟨result, hresult, hiff⟩ := search_indices hfit
    rw [hresult]
    refine ⟨_, rfl, ?_⟩
    rw [Option.map_eq_none_iff, hiff, and_iff_right hcriteria]

theorem indices_inside {recorded : RecordedTranscript V} {close : Sender × ℕ}
    (hreasons : e.mismatchReasons recorded close = []) {start : ℤ}
    (hstart : start ∈ e.indices recorded) :
    0 ≤ start ∧ start + e.expectedMessages.length ≤ recorded.messages.length := by
  have hfit := ((mismatchReasons_eq_nil_iff e recorded close).mp hreasons).2
  obtain ⟨k, rfl, hk, -⟩ := (mem_indices_iff hfit start).mp hstart
  omega

/-- The constructor accepts the lists with ellipses outside only, and on a finished
transcript `matches` is the pattern language, with all its accesses inside the list. -/
theorem expected_transcript_matches (lower : String → String) (args : TranscriptArgs V) :
    ((∃ e, ExpectedWSTranscript.init lower args = .ok e) ↔
      (∃ scope, ScopeExpectation.init lower args.toScopeArgs = .ok scope) ∧
        OuterEllipses args.messages) ∧
    ∀ e, ExpectedWSTranscript.init lower args = .ok e →
      ∀ (recorded : RecordedTranscript V) (close : Sender × ℕ), recorded.close = some close →
        (∃ result, e.matchesTranscript recorded = .ok result ∧
          (result = none ↔ (ScopeCriteria e.toScopeExpectation recorded.toRecordedScope ∧
            (∀ c, args.close = some c → close = c) ∧
            (∀ a, args.accepted = some a → recorded.accepted = a)) ∧
            Describes args.messages recorded.messages)) ∧
        (e.mismatchReasons recorded close = [] → ∀ start ∈ e.indices recorded,
          0 ≤ start ∧ start + e.expectedMessages.length ≤ recorded.messages.length) := by
  refine ⟨⟨?_, ?_⟩, ?_⟩
  · rintro ⟨e, he⟩
    obtain ⟨hscope, houter, -⟩ := init_eq_ok_iff.mp he
    exact ⟨⟨e.toScopeExpectation, hscope⟩, houter⟩
  · rintro ⟨⟨scope, hscope⟩, houter⟩
    exact ⟨⟨scope, _, _, _, _, _⟩, init_eq_ok_iff.mpr ⟨hscope, houter, rfl, rfl, rfl, rfl, rfl⟩⟩
  · intro e hinit recorded close hclose
    exact ⟨matchesTranscript_spec hinit hclose, fun hreasons _ => indices_inside hreasons⟩

/-- A greeting that is answered, with anything before it and nothing after the answer. -/
theorem expected_transcript_matches_answer :
    let args : TranscriptArgs ℕ :=
      { messages := [.ellipsis, .message ⟨.exact (.text "hello"), .client⟩,
          .message ⟨.ellipsis, .server⟩] }
    let recorded : RecordedTranscript ℕ :=
      { messages := [⟨some (.text "ready"), .server, 0⟩, ⟨some (.text "hello"), .client, 1⟩,
          ⟨some (.bytes [1]), .server, 2⟩],
        accepted := true, close := some (.client, 1000), headers := .empty, path := "/",
        pathParams := .empty, queryParams := .empty }
    ∃ e, ExpectedWSTranscript.init String.toLower args = .ok e ∧
      e.matchesTranscript recorded = .ok none := by
  intro args recorded
  have houter : OuterEllipses args.messages := by
    rw [outerEllipses_iff]
    rfl
  obtain ⟨hinit, hmatches⟩ := expected_transcript_matches String.toLower args
  obtain ⟨e, he⟩ := hinit.mpr ⟨⟨_, rfl⟩, houter⟩
  obtain ⟨⟨result, hresult, hiff⟩, -⟩ := hmatches e he recorded (.client, 1000) rfl
  have hscope : e.toScopeExpectation = ⟨none, none, none, none⟩ :=
    (Except.ok.inj (init_eq_ok_iff.mp he).1).symm
  have hnone : result = none := by
    rw [hiff, hscope]
    refine ⟨⟨⟨trivial, nofun, trivial, trivial⟩, nofun, ?_⟩, ?_⟩
    · rintro a ⟨⟩
      rfl
    · refine ⟨[⟨some (.text "ready"), .server, 0⟩], [⟨some (.text "hello"), .client, 1⟩,
        ⟨some (.bytes [1]), .server, 2⟩], [], rfl, ?_, fun _ => rfl, fun h => absurd rfl h⟩
      exact .cons ⟨rfl, rfl⟩ (.cons ⟨rfl, trivial⟩ .nil)
  exact ⟨e, he, by rw [hresult, hnone]⟩

end Yellowbox.RequestCapture
