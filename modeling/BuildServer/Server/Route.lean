import BuildServer.Server.Command
import BuildServer.Server.Http
import BuildServer.Text.Percent
import BuildServer.Text.Pieces
/-!
# Routes

A request names an endpoint by its path, in which a fixed segment is preferred to a name. The method
is checked next, then the names in the path, and the body last; the first of these that is wrong
decides how the request is refused.

Paths are matched as the router of `axum` matches them, and the parts of a request are read in the order
in which its extractors stand in a handler: first `Path`, then `Json`.
-/

set_option autoImplicit false

namespace BuildServer

/-- A place that requests go to, with the segments of the path that are free. -/
inductive Endpoint where
  | health
  | createPipeline
  | listPipelines
  | pipeline (name : List Char)
  | queue (name : List Char)
  | materials (name : List Char)
  | schedule (name : List Char)
  | waiting
  | job (id : List Char)
  | reschedule (id : List Char)
  | assign (id : List Char)
  | reportState (id : List Char)
  | complete (id : List Char)
  | cancel (id : List Char)
  | currentJob (pipeline stage job : List Char)
  | ping
  | listAgents
  | notifyGit
  deriving DecidableEq, Repr

namespace Endpoint

/-- The endpoint of a pipeline at the segments behind its name. -/
def ofPipeline? (name : List Char) : List String → Option Endpoint
  | [] => some (.pipeline name)
  | ["queue"] => some (.queue name)
  | ["materials"] => some (.materials name)
  | ["schedule"] => some (.schedule name)
  | _ => none

/-- The endpoint of a job at the segments behind its identifier. -/
def ofJob? (id : List Char) : List String → Option Endpoint
  | [] => some (.job id)
  | ["reschedule"] => some (.reschedule id)
  | ["assign"] => some (.assign id)
  | ["state"] => some (.reportState id)
  | ["complete"] => some (.complete id)
  | ["cancel"] => some (.cancel id)
  | _ => none

/-- The endpoint at the segments of a path, of which the last one is not empty. -/
def ofSegments? : List String → Option Endpoint
  | ["health"] => some .health
  | ["api", "pipeline", "create"] => some .createPipeline
  | ["api", "pipeline", "list"] => some .listPipelines
  | "api" :: "pipeline" :: name :: rest => ofPipeline? name.toList rest
  | ["api", "job", "list", "scheduled"] => some .waiting
  | ["api", "job", "status", first, second, third] =>
    some (.currentJob first.toList second.toList third.toList)
  | "api" :: "job" :: id :: rest => ofJob? id.toList rest
  | ["api", "agent", "ping"] => some .ping
  | ["api", "agent", "list"] => some .listAgents
  | ["api", "material", "notify", "git"] => some .notifyGit
  | _ => none

/-- The endpoint at a path. A name inside it may be empty, but not at its end. -/
def ofPath? (path : List Char) : Option Endpoint :=
  match Text.pieces '/' path with
  | [] :: segments =>
    if segments.getLast? == some [] then none else ofSegments? (segments.map String.ofList)
  | _ => none

/-- Requests to the endpoint change something. -/
def isChange : Endpoint → Bool
  | .createPipeline | .schedule _ | .reschedule _ | .assign _ | .reportState _ | .complete _
  | .cancel _ | .ping | .notifyGit => true
  | _ => false

/-- The endpoint takes the method. -/
def accepts (endpoint : Endpoint) (method : String) : Bool :=
  if endpoint.isChange then method == "POST" else method == "GET" || method == "HEAD"

end Endpoint

namespace Command

/-- A name in a path. -/
def nameOf (segment : List Char) : Except Refusal String :=
  match Text.unescape? segment with
  | some name => .ok name
  | none => .error .badPath

/-- An identifier in a path. -/
def idOf (segment : List Char) : Except Refusal Uuid :=
  match (Text.unescape? segment).bind Uuid.parse? with
  | some id => .ok id
  | none => .error .badPath

/-- The command that a request to an endpoint gives. -/
def atEndpoint (r : Request) : Endpoint → Except Refusal Command
  | .health => return .health
  | .createPipeline => return .createPipeline (← r.decode PipelineConfig.ofJson)
  | .listPipelines => return .listPipelines
  | .pipeline name => return .pipeline (← nameOf name)
  | .queue name => return .queue (← nameOf name)
  | .materials name => return .materials (← nameOf name)
  | .schedule name => return .schedule (← nameOf name) (← r.decode RunRequest.ofJson)
  | .waiting => return .waiting
  | .job id => return .job (← idOf id)
  | .reschedule id => return .reschedule (← idOf id)
  | .assign id => return .assign (← idOf id) (← r.decode (Json.onlyField "agent_uuid" Json.text))
  | .reportState id =>
    return .reportState (← idOf id) (← r.decode (Json.onlyField "state" JobState.ofJson))
  | .complete id =>
    return .complete (← idOf id) (← r.decode (Json.onlyField "result" JobResult.ofJson))
  | .cancel id => return .cancel (← idOf id)
  | .currentJob first second third =>
    return .currentJob (← nameOf first) (← nameOf second) (← nameOf third)
  | .ping => return .ping (← r.decode AgentInfo.ofJson)
  | .listAgents => return .listAgents
  | .notifyGit => return .notifyGit (← r.decode (Json.onlyField "repository_url" Json.text))

/-- The command that a request gives. -/
def ofRequest (r : Request) : Except Refusal Command :=
  match Endpoint.ofPath? r.path with
  | none => .error .unknownPath
  | some endpoint =>
    if endpoint.accepts r.method then atEndpoint r endpoint else .error .wrongMethod

end Command

end BuildServer
