import BuildServer.Client.Address
import BuildServer.Client.Error
import BuildServer.Server.Basic
/-!
# The client

The client turns a command into a request, sends it, and reads the result out of the reply. How a
request is sent is up to a transport: one hands it to a server at hand, another never gets through.
Names become part of the address as they are, so a name with a slash, a question mark or an escape
in it means something else there.
-/

set_option autoImplicit false

namespace BuildServer

/-- A way to send a request to an address; where no reply comes, what went wrong. In the client this is
what `reqwest` does. -/
abbrev Transport (m : Type → Type) := WebAddress → Request → m (Except String Reply)

namespace Transport

/-- What is said where no reply comes from an address. -/
def failure (address : WebAddress) : String :=
  "error sending request for url (" ++ address.toText ++ ")"

/-- A transport that never gets through. -/
def unreachable {m : Type → Type} [Monad m] : Transport m := fun address _ =>
  return .error (failure address)

/-- A transport that hands every request to a server at hand. -/
def direct (clock : Clock) : Transport (StateM Server) := fun _ request =>
  modifyGet fun server =>
    let (reply, server) := server.handle clock request
    (.ok reply, server)

end Transport

/-- A client of the server at a URL (`OrchestratorClient`). -/
structure Client where
  baseUrl : String
  deriving DecidableEq, Repr, Inhabited

namespace Client

/-- The client of the server at a URL (`OrchestratorClient::new`). Slashes at its end do not matter. -/
def ofUrl (url : String) : Client := ⟨Text.dropTrailing '/' url⟩

/-- Where a command goes, below the URL of the server. -/
def location : Command → String
  | .health => "/health"
  | .createPipeline _ => "/api/pipeline/create"
  | .listPipelines => "/api/pipeline/list"
  | .pipeline name => "/api/pipeline/" ++ name
  | .queue name => "/api/pipeline/" ++ name ++ "/queue"
  | .materials name => "/api/pipeline/" ++ name ++ "/materials"
  | .schedule name _ => "/api/pipeline/" ++ name ++ "/schedule"
  | .waiting => "/api/job/list/scheduled"
  | .job id => "/api/job/" ++ id.toText
  | .reschedule id => "/api/job/" ++ id.toText ++ "/reschedule"
  | .assign id _ => "/api/job/" ++ id.toText ++ "/assign"
  | .reportState id _ => "/api/job/" ++ id.toText ++ "/state"
  | .complete id _ => "/api/job/" ++ id.toText ++ "/complete"
  | .cancel id => "/api/job/" ++ id.toText ++ "/cancel"
  | .currentJob pipeline stage job =>
    "/api/job/status/" ++ "/".intercalate [pipeline, stage, job]
  | .ping _ => "/api/agent/ping"
  | .listAgents => "/api/agent/list"
  | .notifyGit _ => "/api/material/notify/git"

/-- The request for a command at a target. -/
def request (c : Command) (target : String) : Request where
  method := if c.isChange then "POST" else "GET"
  target := target
  contentType := c.body?.map fun _ => "application/json"
  body := (c.body?.map Json.toText).getD ""

/-- The result of a command in the body of a reply (`handle_response`). -/
def result (c : Command) (body : String) : Except ClientError c.Result :=
  let document := Json.read body
  match c.decode document.value with
  | .ok result =>
    if document.trailing then .error (.unreadable "trailing characters") else .ok result
  | .error _ => .error (.unreadable "unexpected value")

/-- What a reply to a command means. That the server is healthy is in the status
(`handle_empty_response`). -/
def understand (reply : Reply) (c : Command) : Except ClientError c.Result :=
  if reply.isSuccess then
    match c with
    | .health => .ok ()
    | c => result c reply.body
  else .error (.ofReply reply.status reply.body)

/-- Sends a command to the server and gives its result. A command for which there is no address, or
one that no request can be sent to, fails at once. -/
def ask {m : Type → Type} [Monad m] (client : Client) (send : Transport m) (c : Command) :
    m (Except ClientError c.Result) := do
  match WebAddress.parse? (client.baseUrl ++ location c) with
  | none => return .error (.requestFailed "builder error")
  | some address =>
    if !address.isReachable || !Target.isTarget address.toText then
      return .error (.requestFailed ("builder error for url (" ++ address.toText ++ ")"))
    else
      match ← send address (request c address.target) with
      | .ok reply => return understand reply c
      | .error detail => return .error (.requestFailed detail)

end Client

end BuildServer
