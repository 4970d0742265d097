import Yellowbox.Base.Effects
import Yellowbox.Base.Json

/-!
`_docker_build`: the log of a docker build, read message by message. Whether there is an
output is asked in the middle of telling the messages apart, so without one every
message ends in the branch for unknown messages.
-/
namespace Yellowbox.ImageBuild

open Effects Json

inductive Exc
  | dockerException
  | buildError (reason : Value)
  | dockerfileParseError (reason : Value)
  | attributeError
  | typeError
  | unicodeDecodeError
  | loadsError (name : String)
  deriving Repr

/-- `DockerException` and its subclasses. -/
def Exc.isDocker : Exc → Bool
  | dockerException | buildError _ | dockerfileParseError _ => true
  | attributeError | typeError | unicodeDecodeError | loadsError _ => false

/-- What `json.loads` raises on a `str`: that it is not JSON, or something else. -/
inductive LoadsError
  | jsonDecodeError
  | other (name : String)

abbrev Loads := String → Except LoadsError Value

/-- The local variables of `_docker_build`, with what was printed to the output and how
many messages were begun. -/
structure Build where
  id : Value
  printed : List Value
  begun : ℕ

def Build.start : Build := ⟨.null, [], 0⟩

/-- `str(msg_b, "utf-8")` -/
def decode (msg_b : List UInt8) : Except Exc String :=
  match String.fromUTF8? ⟨msg_b.toArray⟩ with
  | some text => .ok text
  | none => .error .unicodeDecodeError

/-- `print(value, end="", flush=True, file=output)` -/
def print (value : Value) : Act Build Exc Unit :=
  Act.modify fun s => { s with printed := s.printed ++ [value] }

def parse (loads : Loads) (msg : String) : Except Exc Value :=
  match loads msg with
  | .ok parse_msg => .ok parse_msg
  | .error .jsonDecodeError => .error .dockerException
  | .error (.other name) => .error (.loadsError name)

/-- `parse_msg.get(key)` -/
def getKey (parse_msg : Value) (key : String) : Act Build Exc Value :=
  Act.ofExcept ((parse_msg.get? key).elim (.error .attributeError) .ok)

/-- `if "ID" in aux: id = aux["ID"]` -/
def readId (aux : Value) : Act Build Exc Unit := do
  let found ← Act.ofExcept ((aux.contains? "ID").elim (.error .typeError) .ok)
  if found then
    let id ← Act.ofExcept ((aux.subscript? "ID").elim (.error .typeError) .ok)
    Act.modify fun s => { s with id := id }

/-- The branches for a message that is not printed as `stream`. -/
def handleOther (output : Bool) (parse_msg : Value) : Act Build Exc Unit := do
  let errorDetail ← getKey parse_msg "errorDetail"
  let errorMsg ← getKey parse_msg "message"
  let status ← getKey parse_msg "status"
  let aux ← getKey parse_msg "aux"
  if !errorDetail.isNull then
    Act.raise (.buildError errorDetail)
  else if !errorMsg.isNull then
    Act.raise (.dockerfileParseError errorMsg)
  else if !status.isNull && output then
    print status
  else if !aux.isNull && output then do
    print aux
    readId aux
  else
    Act.raise .dockerException

/-- The body of the loop over the messages of a chunk. -/
def handleMessage (loads : Loads) (output : Bool) (msg : String) : Act Build Exc Unit := do
  Act.modify fun s => { s with begun := s.begun + 1 }
  let parse_msg ← Act.ofExcept (parse loads msg)
  let stream ← getKey parse_msg "stream"
  if stream.truthy && output then
    print stream
  else
    handleOther output parse_msg

def handleChunk (loads : Loads) (output : Bool) (msg_b : List UInt8) : Act Build Exc Unit := do
  let text ← Act.ofExcept (decode msg_b)
  Act.forEach (handleMessage loads output) (splitlines text)

/-- `_docker_build(docker_client, output)` on the log that the client's `build` gives.
Docker's `BuildError` wants a reason and a log: `BuildError("No ID found in build log")`
is a `TypeError`. -/
def dockerBuild (loads : Loads) (output : Bool) (build_log : List (List UInt8)) :
    Act Build Exc Value := do
  Act.forEach (handleChunk loads output) build_log
  let id := (← Act.get).id
  if id.isNull then
    Act.raise .typeError
  return id

/-- `build_image` until its context is entered, with the image alias it yields.
`file` stands for the deprecated parameter, if it is given. -/
def buildImage (loads : Loads) (image_name : Option String) (file : Option Bool)
    (output : Bool) (build_log : List (List UInt8)) : Act Build Exc Value := do
  let output := file.getD output
  let image_tag := image_name.map fun name => if ':' ∈ name.toList then name else name ++ ":test"
  let image_id ← dockerBuild loads output build_log
  return (image_tag.map Value.str).getD image_id

end Yellowbox.ImageBuild
