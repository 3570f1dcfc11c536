import BuildServer.Job.Plan
import BuildServer.Json.Decode
import BuildServer.Pipeline.Summary
import BuildServer.Server.Messages
/-!
# Commands

What can be asked of the server, and for every command the type of its result. Results travel as
JSON; how one is written and read depends on the command alone, so that server and client cannot
disagree about it.
-/

set_option autoImplicit false

namespace BuildServer

/-- Something asked of the server. -/
inductive Command where
  | health
  | createPipeline (config : PipelineConfig)
  | listPipelines
  | pipeline (name : String)
  | queue (name : String)
  | materials (name : String)
  | schedule (name : String) (run : RunRequest)
  | waiting
  | job (id : Uuid)
  | reschedule (id : Uuid)
  | assign (id : Uuid) (agent : String)
  | reportState (id : Uuid) (state : JobState)
  | complete (id : Uuid) (result : JobResult)
  | cancel (id : Uuid)
  | currentJob (pipeline stage job : String)
  | ping (info : AgentInfo)
  | listAgents
  | notifyGit (url : String)
  deriving DecidableEq, Repr

namespace Command

/-- The type of the result of a command. -/
abbrev Result : Command → Type
  | .health => Unit
  | .createPipeline _ => PipelineSummary
  | .listPipelines => List PipelineSummary
  | .pipeline _ => PipelineConfig
  | .queue _ => List QueueSummary
  | .materials _ => MaterialReport
  | .schedule _ _ => List JobSummary
  | .waiting => List ScheduledBuild
  | .reschedule _ => RescheduleReply
  | .job _ | .assign _ _ | .reportState _ _ | .complete _ _ | .cancel _ | .currentJob _ _ _ =>
    JobSummary
  | .ping _ => PingReply
  | .listAgents => List AgentSummary
  | .notifyGit _ => List String

/-- Writes the result of a command. That the server is healthy has no JSON. -/
def encode : (c : Command) → c.Result → Json
  | .health, _ => .null
  | .createPipeline _, summary => summary.toJson
  | .listPipelines, list => Json.ofList PipelineSummary.toJson list
  | .pipeline _, config => config.toJson
  | .queue _, entries => Json.ofList QueueSummary.toJson entries
  | .materials _, report => report.toJson
  | .schedule _ _, jobs => Json.ofList JobSummary.toJson jobs
  | .waiting, builds => Json.ofList ScheduledBuild.toJson builds
  | .reschedule _, reply => reply.toJson
  | .job _, summary | .assign _ _, summary | .reportState _ _, summary | .complete _ _, summary
  | .cancel _, summary | .currentJob _ _ _, summary => summary.toJson
  | .ping _, reply => reply.toJson
  | .listAgents, agents => Json.ofList AgentSummary.toJson agents
  | .notifyGit _, names => Json.single "pipelines" (Json.ofList .string names)

/-- Reads the result of a command. -/
def decode : (c : Command) → Json.Decoder c.Result
  | .health => fun _ => .ok ()
  | .createPipeline _ => PipelineSummary.ofJson
  | .listPipelines => Json.listOf PipelineSummary.ofJson
  | .pipeline _ => PipelineConfig.ofJson
  | .queue _ => Json.listOf QueueSummary.ofJson
  | .materials _ => MaterialReport.ofJson
  | .schedule _ _ => Json.listOf JobSummary.ofJson
  | .waiting => Json.listOf ScheduledBuild.ofJson
  | .reschedule _ => RescheduleReply.ofJson
  | .job _ | .assign _ _ | .reportState _ _ | .complete _ _ | .cancel _ | .currentJob _ _ _ =>
    JobSummary.ofJson
  | .ping _ => PingReply.ofJson
  | .listAgents => Json.listOf AgentSummary.ofJson
  | .notifyGit _ => Json.onlyField "pipelines" (Json.listOf Json.text)

/-- The command asks for a change. -/
def isChange : Command → Bool
  | .createPipeline _ | .schedule _ _ | .reschedule _ | .assign _ _ | .reportState _ _
  | .complete _ _ | .cancel _ | .ping _ | .notifyGit _ => true
  | _ => false

/-- What a command sends along. -/
def body? : Command → Option Json
  | .createPipeline config => some config.toJson
  | .schedule _ run => some run.toJson
  | .assign _ agent => some (Json.single "agent_uuid" (.string agent))
  | .reportState _ state => some (Json.single "state" state.toJson)
  | .complete _ result => some (Json.single "result" (.string result.name))
  | .ping info => some info.toJson
  | .notifyGit url => some (Json.single "repository_url" (.string url))
  | _ => none

end Command

end BuildServer
