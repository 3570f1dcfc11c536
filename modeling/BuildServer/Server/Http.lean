import BuildServer.Json.Decode
import BuildServer.Json.Printer
import BuildServer.Json.Reader
import BuildServer.Server.MediaType
import BuildServer.Server.Target
/-!
# Requests and replies

What the server makes of HTTP: a request with its target, the media type it announces and its body,
and a reply with a status. A request that is refused before any work is done gets a status alone.

What a body has to be like, how long it may be and with which status it is refused is laid down by
`axum` (`axum::Json`, `DefaultBodyLimit`), where nothing else is set.
-/

set_option autoImplicit false

namespace BuildServer

/-- A request. -/
structure Request where
  method : String
  target : String
  contentType : Option String := none
  body : String := ""
  deriving DecidableEq, Repr, Inhabited

/-- What a reply carries. -/
inductive Payload where
  | json (value : Json)
  | text (s : String)
  /-- The request was refused. -/
  | none

/-- A reply. -/
structure Reply where
  status : Nat
  payload : Payload

namespace Reply

/-- The request was carried out. -/
def isSuccess (r : Reply) : Bool := 200 ≤ r.status && r.status < 300

/-- The text of the body. -/
def body (r : Reply) : String :=
  match r.payload with
  | .json value => value.toText
  | .text s => s
  | .none => ""

/-- The reply without its body. -/
def withoutBody (r : Reply) : Reply :=
  { r with payload := if r.isSuccess then .text "" else .none }

end Reply

/-- Why a request is refused (`PathRejection`, `JsonRejection`). -/
inductive Refusal where
  /-- Nothing is at the path. -/
  | unknownPath
  | wrongMethod
  /-- A part of the path is not of the kind that belongs there. -/
  | badPath
  /-- The body is not announced as JSON. -/
  | otherMedia
  /-- The body is longer than a request may be. -/
  | tooLarge
  | body (fault : Json.Fault)
  deriving DecidableEq, Repr

namespace Refusal

def status : Refusal → Nat
  | .unknownPath => 404
  | .wrongMethod => 405
  | .badPath => 400
  | .otherMedia => 415
  | .tooLarge => 413
  | .body .malformed => 400
  | .body .mismatch => 422

def reply (r : Refusal) : Reply := ⟨r.status, .none⟩

end Refusal

namespace Request

/-- A character that a header may hold. -/
def isHeaderChar (c : Char) : Bool := c == '\t' || (0x20 ≤ c.toNat && c.toNat != 0x7F)

/-- A request with these parts, if they have the form that a request needs. -/
def ofParts? (method target : String) (contentType : Option String) (body : String) :
    Option Request :=
  if !method.isEmpty && method.all MediaType.isNameChar && Target.isTarget target
      && contentType.all (·.all isHeaderChar) then
    some { method, target, contentType, body }
  else none

/-- The path that the request goes to. -/
def path (r : Request) : List Char := (Target.ofText r.target).path

/-- How long a body may be in UTF-8. -/
def bodyLimit : Nat := 2 * 1024 * 1024

/-- Reads the body. A fault of the value comes before something that follows the value. -/
def decode {α : Type} (r : Request) (decoder : Json.Decoder α) : Except Refusal α :=
  if !r.contentType.any MediaType.isJson then .error .otherMedia
  else if bodyLimit < r.body.utf8ByteSize then .error .tooLarge
  else
    let document := Json.read r.body
    match decoder document.value with
    | .error fault => .error (.body fault)
    | .ok a => if document.trailing then .error (.body .malformed) else .ok a

end Request

end BuildServer
