import Mathlib.Data.String.Basic
import Yellowbox.Base.Effects
import Yellowbox.Base.Iteration
import Yellowbox.Base.Json
import Yellowbox.Base.SentPaths

/-!
A bucket of the emulated storage, its listing and deletion requests, and the functions
`clear_bucket` and `delete_bucket` that send them. A request names an object by its URL,
without the fragment and the query, as `requests` sends it and the server decodes it. The
URLs are written without what `local_url()` puts in front of them.
-/
namespace Yellowbox.FakeGcs.Buckets

open Cuts Effects Json PercentEncoding SentPaths UrlPaths

/-- The names of the objects, in their order. -/
@[ext]
structure Bucket where
  names : List String
  sorted : names.Pairwise (· < ·)
  named : "" ∉ names

namespace Bucket

def remove (b : Bucket) (gone : List String) : Bucket where
  names := b.names.filter (· ∉ gone)
  sorted := b.sorted.filter _
  named := fun h => b.named (List.mem_of_mem_filter h)

/-- The objects that a listing with this prefix is about. -/
def listed (b : Bucket) (pre : Option String) : List String :=
  b.names.filter fun name => (pre.getD "").toList.isPrefixOf name.toList

end Bucket

/-! ### The server -/

structure Server where
  bucket : Option Bucket
  pageSize : ℕ
  pageSize_pos : 0 < pageSize
  /-- The URLs of the requests that deleted an object or tried to. -/
  requested : List Text
  /-- The error that answers the last of these requests, if there is one, when it is for
  nothing in the bucket. -/
  elsewhere : List Text → Option ℕ

inductive Exc
  | keyError (key : String)
  | typeError
  | httpError (status : ℕ)
  deriving DecidableEq

structure Params where
  pre : Option String
  pageToken : Option String

def item (name : String) : Value := .obj [("name", .str name)]

/-- One page of the objects that remain, and where the next one begins. -/
def page (remaining : List String) (size : ℕ) : Value :=
  .obj (("items", .arr ((remaining.take size).map item)) ::
    if size < remaining.length then
      [("nextPageToken", .str ((remaining.take size).getLastD ""))]
    else [])

/-- `requests.get(url + f"/storage/v1/b/\x7bbucket_name\x7d/o", params=params)` -/
def getListing (params : Params) : Act Server Exc Value := fun s =>
  match s.bucket with
  | none => (.error (.httpError 404), s)
  | some b =>
    let remaining := (b.listed params.pre).filter fun name => params.pageToken.all (· < name)
    (.ok (page remaining s.pageSize), s)

/-- `requests.delete(bucket_url).raise_for_status()`; a bucket with objects is refused. -/
def requestBucketDeletion : Act Server Exc Unit := fun s =>
  match s.bucket with
  | none => (.error (.httpError 404), s)
  | some b =>
    if b.names = [] then (.ok (), { s with bucket := none }) else (.error (.httpError 409), s)

/-- The path of a URL, as the server reads it. -/
def pathOf (url : Text) : List UInt8 := received (beforeQuery url)

/-- A service and a bucket of it; bucket names are of letters, digits and `-_.`. -/
structure Client where
  bucketName : String
  plain : ∀ c ∈ bucketName.toList, c.isAlphanum = true ∨ c ∈ ['-', '_', '.']
  named : ¬Dots bucketName.toList

namespace Client

variable (c : Client)

def bucketPath : String := "/storage/v1/b/" ++ c.bucketName

/-- The path of the objects, and the slash behind it. -/
def objectsPath : String := c.bucketPath ++ "/o/"

def objectPath (name : String) : Text := (c.objectsPath ++ name).toList

/-- The object that a URL stands for; no name is of bytes that are not UTF-8. -/
def objectOf (url : Text) : Option String :=
  let text := decodeReplacing (pathOf url)
  if encodeUtf8 text = pathOf url then
    (c.objectsPath.toList.isPrefixOf? text).map String.ofList
  else none

/-- The object that the URL for a name stands for. -/
def reading (name : String) : Option String := c.objectOf (c.objectPath name)

/-- `requests.delete(url).raise_for_status()` for an object -/
def deleteObject (url : Text) : Act Server Exc Unit := fun s =>
  let s := { s with requested := s.requested ++ [url] }
  match c.objectOf url with
  | none => ((s.elsewhere s.requested).elim (.ok ()) fun status => .error (.httpError status), s)
  | some name =>
    match s.bucket with
    | none => (.error (.httpError 404), s)
    | some b =>
      if name ∈ b.names then (.ok (), { s with bucket := some (b.remove [name]) })
      else (.error (.httpError 404), s)

end Client

/-! ### `clear_bucket` -/

/-- `value[key]` -/
def field (key : String) : Value → Except Exc Value
  | .obj fields => (fields.lookup key).elim (.error (.keyError key)) .ok
  | _ => .error .typeError

/-- A field that the API has as a text. -/
def strField (key : String) (value : Value) : Except Exc String := do
  match ← field key value with
  | .str text => return text
  | _ => .error .typeError

/-- A field that the API has as a list. -/
def arrField (key : String) (value : Value) : Except Exc (List Value) := do
  match ← field key value with
  | .arr items => return items
  | _ => .error .typeError

/-- The variables of the loop. -/
structure Loop where
  params : Params
  pageToken : Option String
  ret : List String

/-- The variables before the loop; an empty prefix is no parameter. -/
def beforeLoop (pre : Option String) : Loop :=
  ⟨⟨pre.filter (· ≠ ""), none⟩, none, []⟩

namespace Client

variable (c : Client)

/-- `for item in data["items"]: ...` -/
def deleteItems : List Value → List String → Act Server Exc (List String)
  | [], ret => pure ret
  | item :: items, ret => do
    let name ← Act.ofExcept (strField "name" item)
    c.deleteObject (c.objectPath name)
    deleteItems items (ret ++ [name])

/-- One round of the loop: it goes on with the variables or returns the names. -/
def clearRound (l : Loop) : Act Server Exc (Loop ⊕ List String) := do
  let params :=
    match l.pageToken with
    | some token => if token ≠ "" then { l.params with pageToken := some token } else l.params
    | none => l.params
  let data ← getListing params
  let items ← Act.ofExcept (arrField "items" data)
  let ret ← c.deleteItems items l.ret
  if data.contains? "nextPageToken" = some true then
    let token ← Act.ofExcept (strField "next_page_token" data)
    return .inl ⟨params, some token, ret⟩
  else
    return .inr ret

def clearBody (state : Loop × Server) : (Loop × Server) ⊕ (Except Exc (List String) × Server) :=
  match c.clearRound state.1 state.2 with
  | (.ok (.inl l), s) => .inl (l, s)
  | (.ok (.inr ret), s) => .inr (.ok ret, s)
  | (.error e, s) => .inr (.error e, s)

/-- `clear_bucket(bucket_name, prefix)`, for as many rounds as are given. -/
def clearBucket (rounds : ℕ) (pre : Option String) (s : Server) :
    (Loop × Server) ⊕ (Except Exc (List String) × Server) :=
  Iteration.run c.clearBody rounds (beforeLoop pre, s)

/-- What is raised, with `except HTTPError as e: ...` around it. -/
def unlessMissing (missingOk : Bool) : Exc → Except Exc Unit
  | .httpError status =>
    if status ≠ 404 ∨ missingOk = false then .error (.httpError status) else .ok ()
  | e => .error e

/-- `delete_bucket(bucket_name, force, missing_ok)`; `none` while `clear_bucket` still
goes on after all its rounds. -/
def deleteBucket (rounds : ℕ) (force missingOk : Bool) (s : Server) :
    Option (Except Exc Unit × Server) :=
  let request (s : Server) : Except Exc Unit × Server :=
    match requestBucketDeletion s with
    | (.ok (), s) => (.ok (), s)
    | (.error e, s) => (unlessMissing missingOk e, s)
  if force then
    match c.clearBucket rounds none s with
    | .inl _ => none
    | .inr (.ok _, s) => some (request s)
    | .inr (.error e, s) => some (unlessMissing missingOk e, s)
  else
    some (request s)

end Client

end Yellowbox.FakeGcs.Buckets
