import BuildServer.Agent.Basic
import BuildServer.Job.Instance
/-!
# Messages of the server

Bodies of requests and replies that belong to the conversation with the server and to nothing else.
-/

set_option autoImplicit false

namespace BuildServer

/-- A request to schedule a stage in a run of a pipeline (`SchedulePipeline`). -/
structure RunRequest where
  counter : Int
  label : Option String := none
  stage : Option String := none
  deriving DecidableEq, Repr, Inhabited

namespace RunRequest

def toJson (r : RunRequest) : Json :=
  .object [("counter", .integer r.counter), ("label", Json.ofOption .string r.label),
    ("stage", Json.ofOption .string r.stage)]

def ofJson : Json.Decoder RunRequest :=
  Json.record ["counter", "label", "stage"] fun parts =>
    RunRequest.mk
      <$> parts.required 0 "counter" Json.signed64
      <*> parts.defaulted 1 "label" (Json.nullable Json.text) none
      <*> parts.defaulted 2 "stage" (Json.nullable Json.text) none

end RunRequest

/-- What became of a job that was to be rescheduled (`RescheduleResponse`). -/
structure RescheduleReply where
  jobId : Uuid
  rescheduled : Bool
  newJob : Option JobSummary
  reason : Option String
  deriving DecidableEq, Repr, Inhabited

namespace RescheduleReply

def toJson (r : RescheduleReply) : Json :=
  .object [("job_id", r.jobId.toJson), ("rescheduled", .bool r.rescheduled),
    ("new_job", Json.ofOption JobSummary.toJson r.newJob),
    ("reason", Json.ofOption .string r.reason)]

def ofJson : Json.Decoder RescheduleReply :=
  Json.record ["job_id", "rescheduled", "new_job", "reason"] fun parts =>
    RescheduleReply.mk
      <$> parts.required 0 "job_id" Uuid.ofJson
      <*> parts.required 1 "rescheduled" Json.flag
      <*> parts.optional 2 "new_job" JobSummary.ofJson
      <*> parts.optional 3 "reason" Json.text

end RescheduleReply

/-- The answer to the report of an agent: the status it has now, and its jobs that were replaced
(`PingResponse`). -/
structure PingReply where
  status : AgentStatus
  rescheduledJobs : List Uuid
  deriving DecidableEq, Repr, Inhabited

namespace PingReply

def toJson (r : PingReply) : Json :=
  .object [("status", r.status.toJson),
    ("rescheduled_jobs", Json.ofList Uuid.toJson r.rescheduledJobs)]

def ofJson : Json.Decoder PingReply :=
  Json.record ["status", "rescheduled_jobs"] fun parts =>
    PingReply.mk
      <$> parts.required 0 "status" AgentStatus.ofJson
      <*> parts.required 1 "rescheduled_jobs" (Json.listOf Uuid.ofJson)

end PingReply

end BuildServer
