import BuildServer.Json.Reader
/-!
# Errors of the client

A request may not get through at all, the server may say no, or its answer may make no sense. What
the server says is the text under `error` in the body of the reply, or the whole body where there is
no such text.
-/

set_option autoImplicit false

namespace BuildServer

/-- Why the client has no result (`ClientError`). -/
inductive ClientError where
  | requestFailed (detail : String)
  /-- The server said no. -/
  | api (status : Nat) (message : String)
  | unreadable (detail : String)
  deriving DecidableEq, Repr

namespace ClientError

/-- The text under `error`, if the body is JSON and there is one. -/
def errorText? (body : String) : Option String :=
  match (Json.parse? body).bind (·.get? "error") with
  | some (.string message) => some message
  | _ => none

/-- The error that a reply with the status and body stands for (`ClientError::from_response`). -/
def ofReply (status : Nat) (body : String) : ClientError :=
  .api status ((errorText? body).getD body)

def message : ClientError → String
  | .requestFailed detail => "HTTP request failed: " ++ detail
  | .api status message => "API error (status " ++ toString status ++ "): " ++ message
  | .unreadable detail => "Failed to parse response: " ++ detail

def isNotFound : ClientError → Bool
  | .api status _ => status == 404
  | _ => false

def isConflict : ClientError → Bool
  | .api status _ => status == 409
  | _ => false

/-- The server finds fault with the request. -/
def isClientError : ClientError → Bool
  | .api status _ => 400 ≤ status && status < 500
  | _ => false

/-- The server finds fault with itself. -/
def isServerError : ClientError → Bool
  | .api status _ => 500 ≤ status
  | _ => false

end ClientError

end BuildServer
