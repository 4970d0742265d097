import Yellowbox.Base.HttpMessages
import Yellowbox.HttpService.Routing

/-!
What a client reads from an `HttpService`. A side effect is turned into a response by the
methods of `BaseHTTPRequestHandler`, which send a head line by line and a body behind it, and
the client takes the connection apart again.
-/
namespace Yellowbox.HttpService.Responses

open ActiveHandlers Dicts Effects HttpMessages PercentFormat Routing

variable {R : Type}

/-- The texts that `BaseHTTPRequestHandler` sends of its own: the short and the long phrase of
a code, what it is, the time, and the page that `error_message_format` makes of a code, a
message and an explanation. -/
structure Texts where
  responses : ℤ → Option (String × String)
  versionString : String
  dateTimeString : String
  errorPage : ℤ → String → String → Bytes

/-- What a handler has sent, and the lines that it holds back until `end_headers`. -/
structure Handler where
  wfile : Bytes
  headersBuffer : Bytes

def Handler.new : Handler := ⟨[], []⟩

inductive Raised
  | router (error : Exc)
  | unicodeEncodeError
  | typeError
  | sideEffect (error : ℕ)

/-- A `SideEffectResponse`; `handler` is the handler of the request itself, and `other` any
object of another type. -/
inductive SideEffectResponse
  | handler
  | int (code : ℤ)
  | str (text : String)
  | bytes (body : Bytes)
  | other

inductive SideEffect
  | response (response : SideEffectResponse)
  | callable (call : Act Handler Raised SideEffectResponse)

/-! ### `BaseHTTPRequestHandler` -/

/-- `"%d" % code` -/
def decimal : ℤ → List Char
  | .ofNat n => Nat.toDigits 10 n
  | .negSucc n => '-' :: Nat.toDigits 10 (n + 1)

/-- A line for the head, encoded as Latin-1. -/
def sendLine (text : List Char) : Act Handler Raised Unit := do
  Act.raiseIf (!text.all fun c => c.toNat < 256) .unicodeEncodeError
  Act.modify fun h => ⟨h.wfile, h.headersBuffer ++ encode text⟩

def sendResponseOnly (texts : Texts) (code : ℤ) (message : Option String) :
    Act Handler Raised Unit :=
  let message := message.getD (((texts.responses code).map (·.1)).getD "")
  sendLine ("HTTP/1.0 ".toList ++ (decimal code ++ ' ' :: message.toList) ++ "\r\n".toList)

def sendHeader (keyword value : String) : Act Handler Raised Unit :=
  sendLine (keyword.toList ++ ": ".toList ++ value.toList ++ "\r\n".toList)

def sendResponse (texts : Texts) (code : ℤ) (message : Option String) :
    Act Handler Raised Unit := do
  sendResponseOnly texts code message
  sendHeader "Server" texts.versionString
  sendHeader "Date" texts.dateTimeString

/-- The empty line, which is also sent where a head was sent before. -/
def endHeaders : Act Handler Raised Unit :=
  Act.modify fun h => ⟨h.wfile ++ (h.headersBuffer ++ crlf), []⟩

def write (bytes : Bytes) : Act Handler Raised Unit :=
  Act.modify fun h => ⟨h.wfile ++ bytes, h.headersBuffer⟩

def hasBody (code : ℤ) : Bool := 200 ≤ code ∧ code ≠ 204 ∧ code ≠ 205 ∧ code ≠ 304

/-- The phrases of a code that is sent as an error. -/
def phrases (texts : Texts) (code : ℤ) : String × String :=
  (texts.responses code).getD ("???", "???")

def sendError (texts : Texts) (command : String) (code : ℤ) (message : Option String) :
    Act Handler Raised Unit := do
  let message := message.getD (phrases texts code).1
  let body := texts.errorPage code message (phrases texts code).2
  sendResponse texts code (some message)
  sendHeader "Connection" "close"
  if hasBody code then
    sendHeader "Content-Type" "text/html;charset=utf-8"
    sendHeader "Content-Length" (String.ofList (Nat.toDigits 10 body.length))
    endHeaders
    if command ≠ "HEAD" then write body
  else endHeaders

/-! ### `HttpService` -/

def respond (texts : Texts) (command : String) :
    SideEffectResponse → Act Handler Raised Unit
  | .handler => pure ()
  | .int code => do
    sendError texts command code none
    endHeaders
  | .str text => do
    sendResponse texts 200 none
    endHeaders
    -- `bytes(response, "ascii")`, when the head is already sent.
    Act.raiseIf (!text.toList.all fun c => c.toNat < 128) .unicodeEncodeError
    write (encode text.toList)
  | .bytes body => do
    sendResponse texts 200 none
    endHeaders
    write body
  | .other => do
    sendResponse texts 200 none
    endHeaders
    Act.raise .typeError

def callback (texts : Texts) (command : String) : SideEffect → Act Handler Raised Unit
  | .response response => respond texts command response
  | .callable call => call >>= respond texts command

/-- `_do`, once the router has decided. -/
def perform (texts : Texts) (command : String) (sideEffects : ℕ → SideEffect) :
    Answer R → Act Handler Raised Unit
  | .error code message => do
    sendError texts command code (some message)
    endHeaders
  | .callback routed => callback texts command (sideEffects routed.callback)
  | .raised error => Act.raise (.router error)

/-- What is on the connection when it is closed, whether the handler returned or raised. -/
def wire (texts : Texts) (command : String) (sideEffects : ℕ → SideEffect) (answer : Answer R) :
    Bytes :=
  (perform texts command sideEffects answer .new).2.wfile

/-! ### What the client is to read -/

/-- A client that asked by `command` reads this response, with the reason that is left of
this text without white space around it. -/
def Reads (command : String) (wire : Bytes) (status : ℤ) (reason : String) (body : Bytes) : Prop :=
  ∃ head, readResponse command wire = some (head, body) ∧ (head.status : ℤ) = status ∧
    head.reason = strip (encode reason.toList)

/-- The body of an error. Where there is neither a page nor a rule that there be no body, the
second empty line is taken for one. -/
def errorBody (texts : Texts) (command : String) (code : ℤ) (message : String) : Bytes :=
  if command = "HEAD" ∨ code = 204 ∨ code = 304 then []
  else if hasBody code then texts.errorPage code message (phrases texts code).2
  else crlf

/-- A text is sent as it is: it can be encoded, and does not end its line. -/
def Sendable (text : String) : Prop := latin1 text = true ∧ '\n' ∉ text.toList

instance (text : String) : Decidable (Sendable text) := inferInstanceAs (Decidable (_ ∧ _))

/-- The texts can be sent in a head, and do not begin with the blank that is before them. -/
structure Texts.Fit (texts : Texts) : Prop where
  responses : ∀ code phrases, texts.responses code = some phrases → Sendable phrases.1
  versionString : Sendable texts.versionString ∧ texts.versionString.toList.head? ≠ some ' '
  dateTimeString : Sendable texts.dateTimeString ∧ texts.dateTimeString.toList.head? ≠ some ' '

def addField (head : Head) (keyword value : String) : Head :=
  { head with fields := head.fields ++ [(encode keyword.toList, encode value.toList)] }

/-- The head of every response, as far as `send_response` sends it. -/
def startHead (texts : Texts) (code : ℕ) (message : String) : Head :=
  addField (addField ⟨code, encode message.toList, []⟩ "Server" texts.versionString) "Date"
    texts.dateTimeString

def contentLength (texts : Texts) (code : ℕ) (message : String) : String :=
  String.ofList (Nat.toDigits 10 (texts.errorPage code message (phrases texts code).2).length)

def errorHead (texts : Texts) (code : ℕ) (message : String) : Head :=
  let head := addField (startHead texts code message) "Connection" "close"
  if hasBody code then
    addField (addField head "Content-Type" "text/html;charset=utf-8") "Content-Length"
      (contentLength texts code message)
  else head

def okPhrase (texts : Texts) : String := ((texts.responses 200).map (·.1)).getD ""

def okHead (texts : Texts) : Head := startHead texts 200 (okPhrase texts)

/-- No line of the head is longer than a client reads. -/
def Short (head : Head) : Prop := ∀ line ∈ head.lines, line.length + crlf.length ≤ maxLine

instance (head : Head) : Decidable (Short head) :=
  inferInstanceAs (Decidable (∀ line ∈ head.lines, line.length + crlf.length ≤ maxLine))

/-- What a client is to read if a side effect gives this and has sent nothing itself. -/
def Promised (texts : Texts) (command : String) (wire : Bytes) : SideEffectResponse → Prop
  | .handler => wire = []
  | .int code => 200 ≤ code ∧ code ≤ 999 →
    Short (errorHead texts code.toNat (phrases texts code).1) →
    Reads command wire code (phrases texts code).1
      (errorBody texts command code (phrases texts code).1)
  | .str text => Short (okHead texts) →
    Reads command wire 200 (okPhrase texts)
      (if command ≠ "HEAD" ∧ (text.toList.all fun c => c.toNat < 128) then encode text.toList
        else [])
  | .bytes body => Short (okHead texts) →
    Reads command wire 200 (okPhrase texts) (if command ≠ "HEAD" then body else [])
  | .other => Short (okHead texts) → Reads command wire 200 (okPhrase texts) []

/-- The side effect gives this response, having sent nothing itself. -/
inductive Gives : SideEffect → SideEffectResponse → Prop
  | response (response : SideEffectResponse) : Gives (.response response) response
  | callable {call : Act Handler Raised SideEffectResponse} {response : SideEffectResponse}
      (h : call .new = (.ok response, .new)) : Gives (.callable call) response

/-- The side effect is called and ends the request itself, by what it raises or by giving
the handler back. -/
inductive Ends : SideEffect → Bytes → Prop
  | gaveBack {call : Act Handler Raised SideEffectResponse} {handler : Handler}
      (h : call .new = (.ok .handler, handler)) : Ends (.callable call) handler.wfile
  | raised {call : Act Handler Raised SideEffectResponse} {error : Raised} {handler : Handler}
      (h : call .new = (.error error, handler)) : Ends (.callable call) handler.wfile

/-- What a client reads where these handlers match its request. -/
structure Received (texts : Texts) (command : String) (sideEffects : ℕ → SideEffect)
    (matched : List (RoutedHandler R)) (wire : Bytes) : Prop where
  notFound : matched = [] → Short (errorHead texts 404 "mock server matched no routes") →
    Reads command wire 404 "mock server matched no routes"
      (errorBody texts command 404 "mock server matched no routes")
  one : ∀ handler response, matched = [handler] → NamesFit matched →
    Gives (sideEffects handler.callback) response → Promised texts command wire response
  ended : ∀ handler bytes, matched = [handler] → NamesFit matched →
    Ends (sideEffects handler.callback) bytes → wire = bytes
  several : 1 < matched.length → (∀ handler ∈ matched, Sendable handler.name) →
    ∃ names, names.Perm (matched.map (·.name)) ∧
      let message := "mock server matched multiple routes: " ++ ", ".intercalate names
      Short (errorHead texts 500 message) →
      Reads command wire 500 message (errorBody texts command 500 message)
  unfit : ¬NamesFit matched → wire = []

/-! ### The head that is sent -/

section Heads

variable {texts : Texts} {code : ℕ} {message : String} {head : Head}

/-- The handler when this head is in its buffer. -/
def begun (head : Head) : Handler := ⟨[], head.lines.flatMap (· ++ crlf)⟩

theorem sendLine_ok {text : List Char} (h : (text.all fun c => c.toNat < 256) = true)
    (handler : Handler) :
    sendLine text handler =
      (.ok (), ⟨handler.wfile, handler.headersBuffer ++ encode text⟩) := by
  rw [sendLine, Act.raiseIf_bind, h]
  rfl

theorem encode_append (text text' : List Char) :
    encode (text ++ text') = encode text ++ encode text' := List.map_append

theorem latin1_digits (n : ℕ) : ((Nat.toDigits 10 n).all fun c => c.toNat < 256) = true :=
  List.all_eq_true.mpr fun _ hc => decide_eq_true (toNat_lt_of_mem hc)

theorem sendResponseOnly_begun (texts : Texts) (h : latin1 message = true) :
    sendResponseOnly texts code (some message) .new =
      (.ok (), begun ⟨code, encode message.toList, []⟩) := by
  have hversion : (("HTTP/1.0 ".toList).all fun c => c.toNat < 256) = true := by simp
  have hend : (("\r\n".toList).all fun c => c.toNat < 256) = true := by simp
  have hbegins : encode "HTTP/1.0 ".toList = encode "HTTP/1.0".toList ++ [space] := by
    simp [encode, space]
  have hends : encode "\r\n".toList = crlf := by simp [encode, crlf]
  have hblank : encode (' ' :: message.toList) = space :: encode message.toList := rfl
  have hline : encode ("HTTP/1.0 ".toList ++ (Nat.toDigits 10 code ++ ' ' :: message.toList) ++
      "\r\n".toList) = Head.statusLine ⟨code, encode message.toList, []⟩ ++ crlf := by
    rw [encode_append, encode_append, encode_append, hbegins, hends, hblank, Head.statusLine]
    simp only [List.append_assoc, List.cons_append, List.nil_append]
  refine (sendLine_ok ?_ .new).trans ?_
  · change latin1 message = true at h
    rw [latin1] at h
    simp only [Option.getD_some, List.all_append, List.all_cons, hversion, hend, h, decimal,
      latin1_digits, Bool.and_true, Bool.true_and]
    rfl
  · change (Except.ok (), Handler.mk [] ([] ++ encode _)) = _
    rw [List.nil_append]
    simp only [Option.getD_some, begun, Head.lines, List.map_nil, List.flatMap_singleton]
    exact congrArg (fun line => (Except.ok (), Handler.mk [] line)) hline

/-- A field that is fit to be added to a head. -/
structure FieldFits (keyword value : String) : Prop where
  name : Sendable keyword ∧ ':' ∉ keyword.toList
  value : Sendable value ∧ value.toList.head? ≠ some ' '

theorem fieldFits_server (htexts : texts.Fit) : FieldFits "Server" texts.versionString :=
  ⟨by simp [Sendable, latin1], htexts.versionString⟩

theorem fieldFits_date (htexts : texts.Fit) : FieldFits "Date" texts.dateTimeString :=
  ⟨by simp [Sendable, latin1], htexts.dateTimeString⟩

theorem fieldFits_connection : FieldFits "Connection" "close" :=
  ⟨by simp [Sendable, latin1], by simp [Sendable, latin1]⟩

theorem fieldFits_contentType : FieldFits "Content-Type" "text/html;charset=utf-8" :=
  ⟨by simp [Sendable, latin1], by simp [Sendable, latin1]⟩

theorem fieldFits_contentLength (texts : Texts) (code : ℕ) (message : String) :
    FieldFits "Content-Length" (contentLength texts code message) := by
  refine ⟨by simp [Sendable, latin1], ⟨?_, ?_⟩, ?_⟩
  · rw [latin1, contentLength, String.toList_ofList]
    exact latin1_digits _
  · intro hmem
    rw [contentLength, String.toList_ofList] at hmem
    exact absurd (isDigit_of_mem hmem) (by decide)
  · intro hhead
    rw [contentLength, String.toList_ofList] at hhead
    exact absurd (isDigit_of_mem (List.mem_of_head? hhead)) (by decide)

theorem sendHeader_begun {keyword value : String} (h : FieldFits keyword value) (head : Head) :
    sendHeader keyword value (begun head) = (.ok (), begun (addField head keyword value)) := by
  have hcolon : ((": ".toList).all fun c => c.toNat < 256) = true := by simp
  have hend : (("\r\n".toList).all fun c => c.toNat < 256) = true := by simp
  have hjoin : encode ": ".toList = [colon, space] := by
    simp [encode, colon, space]
  have hends : encode "\r\n".toList = crlf := by simp [encode, crlf]
  refine (sendLine_ok ?_ _).trans ?_
  · have hkeyword := h.name.1.1
    have hvalue := h.value.1.1
    rw [latin1] at hkeyword hvalue
    simp only [List.all_append, hkeyword, hvalue, hcolon, hend, Bool.and_self]
  · simp only [begun, Head.lines, addField, List.map_append, List.map_singleton,
      List.flatMap_append, List.flatMap_cons, fieldLine, encode_append, hjoin, hends,
      List.append_assoc]
    rfl

theorem endHeaders_begun (head : Head) : endHeaders (begun head) = (.ok (), ⟨head.write, []⟩) :=
  rfl

theorem sendResponse_begun (htexts : texts.Fit) (h : latin1 message = true) :
    sendResponse texts code (some message) .new =
      (.ok (), begun (startHead texts code message)) := by
  rw [sendResponse, Act.bind_ok (sendResponseOnly_begun texts h),
    Act.bind_ok (sendHeader_begun (fieldFits_server htexts) _)]
  exact sendHeader_begun (fieldFits_date htexts) _

/-- The page, unless there is to be none. -/
def page (texts : Texts) (command : String) (code : ℕ) (message : String) : Bytes :=
  if hasBody code ∧ command ≠ "HEAD" then texts.errorPage code message (phrases texts code).2
  else []

theorem sendError_sent (htexts : texts.Fit) (h : latin1 message = true) (command : String) :
    sendError texts command code (some message) .new =
      (.ok (), ⟨(errorHead texts code message).write ++ page texts command code message, []⟩) := by
  simp only [sendError, Option.getD_some]
  rw [Act.bind_ok (sendResponse_begun htexts h),
    Act.bind_ok (sendHeader_begun fieldFits_connection _)]
  cases hbody : hasBody code with
  | false =>
    simp only [errorHead, page, hbody, Bool.false_eq_true, if_false, false_and, List.append_nil]
    rfl
  | true =>
    have hlength := fieldFits_contentLength texts code message
    simp only [errorHead, page, hbody, if_true, true_and]
    rw [Act.bind_ok (sendHeader_begun fieldFits_contentType _)]
    refine (Act.bind_ok (sendHeader_begun hlength _)).trans ?_
    refine (Act.bind_ok (endHeaders_begun _)).trans ?_
    split_ifs
    · rfl
    · rw [List.append_nil]
      rfl

end Heads

/-! ### The head that is read -/

section Reading

variable {texts : Texts} {code : ℕ} {message : String} {head : Head} {keyword : String}

theorem Sendable.line {text : String} (h : Sendable text) : lf ∉ encode text.toList := by
  refine not_mem_encode (c := '\n') (fun d hd => ?_) (by decide) h.2
  have hlatin := h.1
  rw [latin1, List.all_eq_true] at hlatin
  exact of_decide_eq_true (hlatin d hd)

theorem Sendable.value {text : String} (h : Sendable text) (hblank : text.toList.head? ≠ some ' ') :
    (encode text.toList).head? ≠ some space := by
  have hlatin := h.1
  rw [latin1] at hlatin
  cases htext : text.toList with
  | nil => simp [encode]
  | cons c rest =>
    rw [htext] at hlatin hblank
    have hc : c ≠ ' ' := fun hc => hblank (hc ▸ rfl)
    rw [List.all_cons, Bool.and_eq_true] at hlatin
    have hnot : UInt8.ofNat ' '.toNat ∉ encode [c] :=
      not_mem_encode (by simpa using hlatin.1) (by decide) (by simpa using Ne.symm hc)
    intro heq
    exact hnot (List.mem_singleton.mpr (Option.some.inj heq).symm)

theorem fits_addField {value : String} (h : head.Fits) (hfield : FieldFits keyword value) :
    (addField head keyword value).Fits := by
  have hcolon : colon ∉ encode keyword.toList := by
    refine not_mem_encode (c := ':') (fun d hd => ?_) (by decide) hfield.name.2
    have hlatin := hfield.name.1.1
    rw [latin1, List.all_eq_true] at hlatin
    exact of_decide_eq_true (hlatin d hd)
  refine ⟨h.status, h.reason, fun field hmem => ?_, fun field hmem => ?_⟩
  · rcases List.mem_append.mp hmem with hold | hnew
    · exact h.names field hold
    · rw [List.mem_singleton.mp hnew]
      exact ⟨hcolon, hfield.name.1.line⟩
  · rcases List.mem_append.mp hmem with hold | hnew
    · exact h.values field hold
    · rw [List.mem_singleton.mp hnew]
      exact ⟨hfield.value.1.line, hfield.value.1.value hfield.value.2⟩

theorem field?_addField {value : String} (hfield : FieldFits keyword value) (head : Head)
    (name : String) :
    (addField head keyword value).field? name =
      (head.field? name).or
        (if keyword.toList.map Char.toLower = name.toList then some (encode value.toList)
          else none) := by
  have hkeyword := hfield.name.1.1
  rw [latin1, List.all_eq_true] at hkeyword
  rw [Head.field?, addField, List.find?_append, Option.map_or, Head.field?, List.find?_singleton,
    decode_encode fun c hc => of_decide_eq_true (hkeyword c hc)]
  congr 1
  by_cases hname : keyword.toList.map Char.toLower = name.toList <;> simp [hname]

theorem startHead_fits (htexts : texts.Fit) (hcode : 100 ≤ code ∧ code ≤ 999)
    (h : Sendable message) : (startHead texts code message).Fits := by
  have hstatus : Head.Fits ⟨code, encode message.toList, []⟩ :=
    ⟨hcode, h.line, List.forall_mem_nil _, List.forall_mem_nil _⟩
  exact fits_addField (fits_addField hstatus (fieldFits_server htexts)) (fieldFits_date htexts)

theorem errorHead_fits (htexts : texts.Fit) (hcode : 100 ≤ code ∧ code ≤ 999)
    (h : Sendable message) : (errorHead texts code message).Fits := by
  have hhead := fits_addField (startHead_fits htexts hcode h) fieldFits_connection
  rw [errorHead]
  split_ifs
  · exact fits_addField (fits_addField hhead fieldFits_contentType)
      (fieldFits_contentLength texts code message)
  · exact hhead

theorem field?_startHead (htexts : texts.Fit) (code : ℕ) (message : String) {name : String}
    (hname : name = "transfer-encoding" ∨ name = "content-length") :
    (startHead texts code message).field? name = none := by
  have hnot : "Server".toList.map Char.toLower ≠ name.toList ∧
      "Date".toList.map Char.toLower ≠ name.toList := by
    rcases hname with rfl | rfl <;> simp
  rw [startHead, field?_addField (fieldFits_date htexts), field?_addField (fieldFits_server htexts),
    if_neg hnot.1, if_neg hnot.2]
  rfl

theorem field?_errorHead (htexts : texts.Fit) (code : ℕ) (message : String) :
    (errorHead texts code message).field? "transfer-encoding" = none ∧
      (errorHead texts code message).field? "content-length" =
        if hasBody code then some (encode (contentLength texts code message).toList) else none := by
  have hlength := fieldFits_contentLength texts code message
  have hnames : "Connection".toList.map Char.toLower ≠ "transfer-encoding".toList ∧
      "Content-Type".toList.map Char.toLower ≠ "transfer-encoding".toList ∧
      "Content-Length".toList.map Char.toLower ≠ "transfer-encoding".toList := by simp
  have hnames' : "Connection".toList.map Char.toLower ≠ "content-length".toList ∧
      "Content-Type".toList.map Char.toLower ≠ "content-length".toList ∧
      "Content-Length".toList.map Char.toLower = "content-length".toList := by simp
  have hstart := field?_startHead htexts code message (.inl rfl)
  have hstart' := field?_startHead htexts code message (.inr rfl)
  rw [errorHead]
  split_ifs
  · simp only [field?_addField hlength, field?_addField fieldFits_contentType,
      field?_addField fieldFits_connection, hstart, hstart', if_neg hnames.1, if_neg hnames.2.1,
      if_neg hnames.2.2, if_neg hnames'.1, if_neg hnames'.2.1, if_pos hnames'.2.2, Option.none_or,
      and_self]
  · simp only [field?_addField fieldFits_connection, hstart, hstart', if_neg hnames.1,
      if_neg hnames'.1, Option.none_or, and_self]

theorem contentLength_startHead (htexts : texts.Fit) (code : ℕ) (message : String) :
    (startHead texts code message).contentLength = none := by
  rw [Head.contentLength, field?_startHead htexts code message (.inr rfl)]
  rfl

theorem contentLength_errorHead (htexts : texts.Fit) (code : ℕ) (message : String) :
    (errorHead texts code message).contentLength =
      if hasBody code then
        some (texts.errorPage code message (phrases texts code).2).length
      else none := by
  rw [Head.contentLength, (field?_errorHead htexts code message).2]
  split_ifs
  · rw [Option.bind_some, contentLength, String.toList_ofList, HttpMessages.int_digits]
  · rfl

theorem status_errorHead (texts : Texts) (code : ℕ) (message : String) :
    (errorHead texts code message).status = code ∧
      (errorHead texts code message).reason = encode message.toList := by
  rw [errorHead]
  split_ifs
  · exact ⟨rfl, rfl⟩
  · exact ⟨rfl, rfl⟩

/-- The body of an error is the page, where its length is announced, or what comes until the
connection is closed. -/
theorem body_errorHead (htexts : texts.Fit) (command : String) (code : ℕ) (message : String) :
    (errorHead texts code message).body command (page texts command code message ++ crlf) =
      some (errorBody texts command code message) := by
  have hstatus := (status_errorHead texts code message).1
  have hlength := contentLength_errorHead htexts code message
  rw [errorBody]
  by_cases hnone : command = "HEAD" ∨ (code : ℤ) = 204 ∨ (code : ℤ) = 304
  · have hnone' : command = "HEAD" ∨ (errorHead texts code message).status = 204 ∨
        (errorHead texts code message).status = 304 := by
      rw [hstatus]
      exact hnone.imp_right fun hor => by omega
    rw [if_pos hnone, Head.body, if_pos hnone']
  · have hmethod : command ≠ "HEAD" := fun hhead => hnone (.inl hhead)
    have hcode : code ≠ 204 ∧ code ≠ 304 := by
      constructor <;> rintro rfl <;> simp at hnone
    rw [if_neg hnone]
    cases hbody : hasBody code with
    | true =>
      rw [hbody, if_pos rfl] at hlength
      rw [page, if_pos ⟨hbody, hmethod⟩, if_pos rfl]
      exact Head.body_of_length hlength (hstatus.symm ▸ hcode) hmethod crlf
    | false =>
      have hnone' : ¬(command = "HEAD" ∨ (errorHead texts code message).status = 204 ∨
          (errorHead texts code message).status = 304) := by
        rw [hstatus]
        exact fun hor => hor.elim hmethod fun hor => hor.elim hcode.1 hcode.2
      rw [hbody] at hlength
      rw [page, hbody, Head.body, if_neg hnone', hlength]
      rfl

theorem few_errorHead (texts : Texts) (code : ℕ) (message : String) :
    (errorHead texts code message).fields.length < maxHeaders := by
  rw [errorHead]
  split_ifs
  · exact (by decide : 5 < maxHeaders)
  · exact (by decide : 3 < maxHeaders)

theorem reads_error (htexts : texts.Fit) (command : String) (hcode : 200 ≤ code ∧ code ≤ 999)
    (h : Sendable message) (hshort : Short (errorHead texts code message)) :
    Reads command
      ((errorHead texts code message).write ++ (page texts command code message ++ crlf)) code
      message (errorBody texts command code message) := by
  have hstatus := status_errorHead texts code message
  have hfits := errorHead_fits htexts ⟨by omega, hcode.2⟩ h
  refine ⟨(errorHead texts code message).received, ?_, congrArg _ hstatus.1,
    congrArg strip hstatus.2⟩
  rw [readResponse_write hfits ⟨hshort, few_errorHead texts code message⟩
    (hstatus.1.symm ▸ hcode.1) (field?_errorHead htexts code message).1, body_errorHead htexts]
  rfl

theorem sendable_okPhrase (htexts : texts.Fit) : Sendable (okPhrase texts) := by
  rw [okPhrase]
  cases hphrases : texts.responses 200 with
  | none => exact (by simp [Sendable, latin1] : Sendable "")
  | some p => exact htexts.responses 200 p hphrases

theorem sendable_phrase (htexts : texts.Fit) (code : ℤ) : Sendable (phrases texts code).1 := by
  rw [phrases]
  cases hphrases : texts.responses code with
  | none => exact (by simp [Sendable, latin1] : Sendable "???")
  | some p => exact htexts.responses code p hphrases

theorem reads_ok (htexts : texts.Fit) (command : String) (hshort : Short (okHead texts))
    (body : Bytes) :
    Reads command ((okHead texts).write ++ body) 200 (okPhrase texts)
      (if command ≠ "HEAD" then body else []) := by
  have hfits : (okHead texts).Fits := startHead_fits htexts (by omega) (sendable_okPhrase htexts)
  have hfew : (okHead texts).fields.length < maxHeaders := (by decide : 2 < maxHeaders)
  refine ⟨(okHead texts).received, ?_, rfl, rfl⟩
  rw [readResponse_write hfits ⟨hshort, hfew⟩ (Nat.le_refl 200)
    (field?_startHead htexts 200 _ (.inl rfl)), Head.body, okHead, contentLength_startHead htexts]
  have hstatus : (startHead texts 200 (okPhrase texts)).status = 200 := rfl
  rw [hstatus]
  by_cases hhead : command = "HEAD"
  · simp [hhead]
  · simp [hhead]

end Reading

/-! ### What is received -/

section Received

variable {texts : Texts} {command : String}

theorem sendError_endHeaders (command : String) {code : ℕ} {message : String}
    (htexts : texts.Fit) (h : latin1 message = true) :
    (do sendError texts command code (some message); endHeaders : Act Handler Raised Unit) .new =
      (.ok (), ⟨(errorHead texts code message).write ++
        (page texts command code message ++ crlf), []⟩) := by
  rw [Act.bind_ok (sendError_sent htexts h command), ← List.append_assoc]
  rfl

theorem sendOk_sent (htexts : texts.Fit) (rest : Act Handler Raised Unit) :
    (do sendResponse texts 200 none; endHeaders; rest : Act Handler Raised Unit) .new =
      rest ⟨(okHead texts).write, []⟩ := by
  have hresponse : sendResponse texts 200 none .new =
      (.ok (), begun (startHead texts 200 (okPhrase texts))) :=
    sendResponse_begun htexts (sendable_okPhrase htexts).1
  rw [Act.bind_ok hresponse, Act.bind_ok (endHeaders_begun _), okHead]

theorem respond_promised (htexts : texts.Fit) (command : String) (response : SideEffectResponse) :
    Promised texts command (respond texts command response .new).2.wfile response := by
  cases response with
  | handler => rfl
  | int code =>
    rintro ⟨hle, hge⟩ hshort
    obtain ⟨n, rfl⟩ := Int.eq_ofNat_of_zero_le (by omega : 0 ≤ code)
    have hphrase := sendable_phrase htexts n
    have hsent : respond texts command (.int n) .new = _ :=
      sendError_endHeaders command htexts hphrase.1
    rw [hsent]
    exact reads_error htexts command (by omega) hphrase hshort
  | str text =>
    have hsent : respond texts command (.str text) .new = _ := sendOk_sent htexts _
    rw [hsent]
    intro hshort
    cases htext : text.toList.all fun c => decide (c.toNat < 128) with
    | true =>
      rw [Act.raiseIf_bind]
      simp only [Bool.not_true, Bool.false_eq_true, if_false, and_true]
      exact reads_ok htexts command hshort (encode text.toList)
    | false =>
      have hread := reads_ok htexts command hshort []
      rw [Act.raiseIf_bind]
      simpa [htext] using hread
  | bytes body =>
    have hsent : respond texts command (.bytes body) .new = _ := sendOk_sent htexts _
    rw [hsent]
    exact fun hshort => reads_ok htexts command hshort body
  | other =>
    have hsent : respond texts command .other .new = _ := sendOk_sent htexts _
    rw [hsent]
    intro hshort
    have hread := reads_ok htexts command hshort []
    simp only [List.append_nil, ite_self] at hread
    exact hread

theorem callback_promised (htexts : texts.Fit) {sideEffect : SideEffect}
    {response : SideEffectResponse} (h : Gives sideEffect response) :
    Promised texts command (callback texts command sideEffect .new).2.wfile response := by
  cases h with
  | response => exact respond_promised htexts command response
  | callable h =>
    rw [callback, Act.bind_ok h]
    exact respond_promised htexts command response

theorem callback_ends {sideEffect : SideEffect} {bytes : Bytes} (h : Ends sideEffect bytes) :
    (callback texts command sideEffect .new).2.wfile = bytes := by
  cases h with
  | gaveBack h =>
    rw [callback, Act.bind_ok h]
    rfl
  | raised h => rw [callback, Act.bind_error h]

variable {sideEffects : ℕ → SideEffect} {matched matched' : List (RoutedHandler R)}

theorem wire_error (htexts : texts.Fit) {code : ℕ} {message : String}
    (h : latin1 message = true) :
    wire texts command sideEffects (.error code message : Answer R) =
      (errorHead texts code message).write ++ (page texts command code message ++ crlf) :=
  congrArg (fun p : Except Raised Unit × Handler => p.2.wfile)
    (sendError_endHeaders command htexts h)

theorem reads_wire (htexts : texts.Fit) {code : ℕ} {message : String}
    (hcode : 200 ≤ code ∧ code ≤ 999) (h : Sendable message)
    (hshort : Short (errorHead texts code message)) :
    Reads command (wire texts command sideEffects (.error code message : Answer R)) code message
      (errorBody texts command code message) := by
  rw [wire_error htexts h.1]
  exact reads_error htexts command hcode h hshort

theorem sendable_names {names : List String} (h : ∀ name ∈ names, Sendable name) :
    Sendable ("mock server matched multiple routes: " ++ ", ".intercalate names) := by
  have htext : Sendable "mock server matched multiple routes: " := by simp [Sendable, latin1]
  have hsep : (", ".toList.all fun c => decide (c ≠ '\n')) = true := by simp
  refine ⟨(latin1_names names).mpr fun name hname => (h name hname).1, ?_⟩
  rw [String.toList_append, List.mem_append, String.toList_intercalate]
  refine not_or.mpr ⟨htext.2, fun hmem => ?_⟩
  have hall := Cuts.all_intercalate (fun c => decide (c ≠ '\n')) hsep (names.map String.toList)
  have hnames : ((names.map String.toList).all fun piece =>
      piece.all fun c => decide (c ≠ '\n')) = true := by
    rw [List.all_map, List.all_eq_true]
    intro name hname
    refine List.all_eq_true.mpr fun c hc => decide_eq_true ?_
    rintro rfl
    exact (h name hname).2 hc
  rw [hnames, List.all_eq_true] at hall
  exact of_decide_eq_true (hall '\n' hmem) rfl

/-- What is received after the router has chosen among the handlers in this order. -/
theorem received_route (htexts : texts.Fit) (matched : List (RoutedHandler R)) :
    Received texts command sideEffects matched
      (wire texts command sideEffects (route matched)) := by
  have hunfit : ¬NamesFit matched → wire texts command sideEffects (route matched) = [] := by
    intro hnot
    obtain ⟨error, hraised⟩ := route_raised hnot
    rw [hraised]
    rfl
  match matched with
  | [] =>
    have hmessage : Sendable "mock server matched no routes" := by simp [Sendable, latin1]
    have hanswer : (route [] : Answer R) = .error 404 "mock server matched no routes" :=
      sendError_of_latin1 404 hmessage.1
    refine ⟨fun _ hshort => ?_, by simp, by simp, by simp, hunfit⟩
    rw [hanswer]
    exact reads_wire htexts (by decide) hmessage hshort
  | [handler] =>
    have hroute := route_one handler
    have hwire : NamesFit [handler] → wire texts command sideEffects (route [handler]) =
        (callback texts command (sideEffects handler.callback) .new).2.wfile := by
      intro hfit
      obtain ⟨text, hformat⟩ := Option.isSome_iff_exists.mp (hfit.formatted handler rfl)
      rw [hroute, hformat]
      rfl
    refine ⟨by simp, ?_, ?_, by simp, hunfit⟩
    · rintro handler' response heq hfit hgives
      cases heq
      rw [hwire hfit]
      exact callback_promised htexts hgives
    · rintro handler' bytes heq hfit hends
      cases heq
      rw [hwire hfit]
      exact callback_ends hends
  | handler :: next :: rest =>
    refine ⟨by simp, by simp, by simp, fun _ hsendable => ?_, hunfit⟩
    refine ⟨_, .refl _, fun hshort => ?_⟩
    have hmessage := sendable_names (List.forall_mem_map.mpr hsendable)
    rw [route_several, sendError_of_latin1 500 hmessage.1]
    exact reads_wire htexts (by decide) hmessage hshort

theorem Received.perm {bytes : Bytes} (h : Received texts command sideEffects matched bytes)
    (hperm : matched.Perm matched') : Received texts command sideEffects matched' bytes where
  notFound hnil := h.notFound (hnil ▸ hperm).eq_nil
  one handler response heq hfit :=
    h.one handler response (List.perm_singleton.mp (heq ▸ hperm)) (hfit.perm hperm.symm)
  ended handler bytes heq hfit :=
    h.ended handler bytes (List.perm_singleton.mp (heq ▸ hperm)) (hfit.perm hperm.symm)
  several hlength hnames := by
    obtain ⟨names, hnamesPerm, hreads⟩ := h.several (hperm.length_eq ▸ hlength)
      fun handler hmem => hnames handler (hperm.mem_iff.mp hmem)
    exact ⟨names, hnamesPerm.trans (hperm.map _), hreads⟩
  unfit hunfit := h.unfit fun hfit => hunfit (hfit.perm hperm)

end Received

/-- In every reachable world, whatever patches were entered and left on whatever services: a
client that sends a request reads the answer of the one active handler that matches it, as
its side effect gives it, or an error where there is none or are several. -/
theorem clients_read_answers [DecidableEq R] (texts : Texts) (htexts : texts.Fit)
    (re : Regexes R) (events : List (Event R)) (sideEffects : ℕ → SideEffect) (i : ℕ)
    (cls : RouterClass R) (hcls : (run re events).services[i]? = some cls)
    (command target : String) :
    Received texts command sideEffects
      (matching re (run re events) i command (parsedPath target))
      (wire texts command sideEffects (cls.respond re command target)) :=
  (received_route htexts _).perm
    (candidates_perm (inv_run re events) re hcls command (parsedPath target))

/-- The texts of the standard library for a request that is answered 200. -/
def Texts.health : Texts where
  responses code := if code = 200 then some ("OK", "Request fulfilled, document follows") else none
  versionString := "BaseHTTP/0.6 Python/3.11.10"
  dateTimeString := "Thu, 01 Jan 1970 00:00:00 GMT"
  errorPage code message explain := encode
    ("<!DOCTYPE HTML>\n<html lang=\"en\">\n    <head>\n        <meta charset=\"utf-8\">\n".toList ++
      "        <title>Error response</title>\n    </head>\n    <body>\n".toList ++
      "        <h1>Error response</h1>\n        <p>Error code: ".toList ++ decimal code ++
      "</p>\n        <p>Message: ".toList ++ message.toList ++
      ".</p>\n        <p>Error code explanation: ".toList ++ decimal code ++ " - ".toList ++
      explain.toList ++ ".</p>\n    </body>\n</html>\n".toList)

theorem Texts.health_fit : Texts.health.Fit where
  responses code phrases h := by
    have hok : Sendable "OK" := by simp [Sendable, latin1]
    have hphrases : health.responses code =
        if code = 200 then some ("OK", "Request fulfilled, document follows") else none := rfl
    rw [hphrases] at h
    split_ifs at h
    rwa [← Option.some.inj h]
  versionString := by decide +kernel
  dateTimeString := by decide +kernel

/-- What `start` waits for: the patched `/health` is answered 200, with the page of an error. -/
theorem clients_read_answers_health :
    Reads "GET" (wire .health "GET" (fun _ => .response (.int 200))
      (healthClass.respond noRegexes "GET" "/health")) 200 "OK"
      (Texts.health.errorPage 200 "OK" "Request fulfilled, document follows") := by
  have hmatching : matching noRegexes (run noRegexes healthRoute) 0 "GET"
      (parsedPath "/health") = [⟨"GET", "/health", .text "/health", 0⟩] := by decide +kernel
  have h := clients_read_answers .health Texts.health_fit noRegexes healthRoute
    (fun _ => .response (.int 200)) 0 healthClass rfl "GET" "/health"
  rw [hmatching] at h
  exact h.one _ (.int 200) rfl (namesFit_of_plain (by decide +kernel)) (.response _) (by decide)
    (by decide +kernel)

end Yellowbox.HttpService.Responses
