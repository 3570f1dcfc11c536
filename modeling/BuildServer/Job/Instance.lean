import BuildServer.Job.Identifier
import BuildServer.Job.State
import BuildServer.Material.Revision
import BuildServer.Uuid
/-!
# Job instances

An instance is one attempt at running a configured job. Its changes of state are recorded in a list
that only grows. No change is refused: agents report out of order, and the last report counts.
-/

set_option autoImplicit false

namespace BuildServer

namespace Uuid

def toJson (id : Uuid) : Json := .string id.toText

def ofJson : Json.Decoder Uuid := Json.parsed parse?

end Uuid

/-- A change of state (`JobStateTransition`). -/
structure Transition where
  state : JobState
  changedAt : Instant
  deriving DecidableEq, Repr, Inhabited

namespace Transition

def toJson (t : Transition) : Json :=
  .object [("state", t.state.toJson), ("changed_at", t.changedAt.toJson)]

def ofJson : Json.Decoder Transition :=
  Json.record ["state", "changed_at"] fun parts =>
    Transition.mk
      <$> parts.required 0 "state" JobState.ofJson
      <*> parts.required 1 "changed_at" Instant.ofJson

end Transition

/-- An attempt at running a configured job (`JobInstance`). -/
structure JobInstance where
  id : Uuid
  identifier : JobIdentifier
  state : JobState
  result : JobResult
  agent : Option String
  /-- Another instance has taken the place of this one, which has no further part in scheduling. -/
  ignored : Bool
  /-- Jobs that wait are handed out by rising order. -/
  scheduleOrder : Int
  scheduledAt : Instant
  /-- The changes of state, first one first. -/
  transitions : List Transition
  deriving DecidableEq, Repr, Inhabited

namespace JobInstance

/-- A fresh instance, scheduled at an instant (`JobInstance::scheduled`). -/
def scheduled (id : Uuid) (identifier : JobIdentifier) (order : Int) (now : Instant) :
    JobInstance where
  id := id
  identifier := identifier
  state := .scheduled
  result := .unknown
  agent := none
  ignored := false
  scheduleOrder := order
  scheduledAt := now
  transitions := [⟨.scheduled, now⟩]

/-- Enters a state (`JobInstance::change_state`). -/
def enter (state : JobState) (now : Instant) (job : JobInstance) : JobInstance :=
  { job with state := state, transitions := job.transitions ++ [⟨state, now⟩] }

def assign (agent : String) (now : Instant) (job : JobInstance) : JobInstance :=
  { job with agent := some agent }.enter .assigned now

def complete (result : JobResult) (now : Instant) (job : JobInstance) : JobInstance :=
  { job with result := result }.enter .completed now

def cancel (now : Instant) (job : JobInstance) : JobInstance :=
  job.complete .cancelled now

def ignore (job : JobInstance) : JobInstance :=
  { job with ignored := true }

/-- A fresh instance of the same configured job (`JobInstance::reschedule_copy`). Nothing but the
identifier is carried over. -/
def replacement (id : Uuid) (order : Int) (now : Instant) (job : JobInstance) : JobInstance :=
  scheduled id job.identifier order now

def isRunning (job : JobInstance) : Bool := job.state.isActive

def isCompleted (job : JobInstance) : Bool := job.state == .completed

def isRescheduled (job : JobInstance) : Bool := job.state == .rescheduled

def hasPassed (job : JobInstance) : Bool := job.isCompleted && job.result == .passed

/-- The job is completed, and failed or was cancelled (`has_unsuccessfully_completed`). -/
def hasFallenThrough (job : JobInstance) : Bool :=
  job.isCompleted && (job.result == .failed || job.result == .cancelled)

def isAssignedTo (job : JobInstance) (agent : String) : Bool := job.agent == some agent

/-- When the job last entered the state (`transition_time`). -/
def enteredAt? (job : JobInstance) (state : JobState) : Option Instant :=
  (job.transitions.reverse.find? (·.state == state)).map (·.changedAt)

def key (job : JobInstance) : JobKey := job.identifier.key

def toJson (job : JobInstance) : Json :=
  .object [("id", job.id.toJson), ("identifier", job.identifier.toJson),
    ("state", job.state.toJson), ("result", job.result.toJson),
    ("agent_uuid", Json.ofOption .string job.agent), ("ignored", .bool job.ignored),
    ("schedule_order", .integer job.scheduleOrder), ("scheduled_at", job.scheduledAt.toJson),
    ("transitions", Json.ofList Transition.toJson job.transitions)]

def ofJson : Json.Decoder JobInstance :=
  Json.record ["id", "identifier", "state", "result", "agent_uuid", "ignored", "schedule_order",
      "scheduled_at", "transitions"] fun parts =>
    JobInstance.mk
      <$> parts.required 0 "id" Uuid.ofJson
      <*> parts.required 1 "identifier" JobIdentifier.ofJson
      <*> parts.required 2 "state" JobState.ofJson
      <*> parts.required 3 "result" JobResult.ofJson
      <*> parts.optional 4 "agent_uuid" Json.text
      <*> parts.required 5 "ignored" Json.flag
      <*> parts.required 6 "schedule_order" Json.signed64
      <*> parts.required 7 "scheduled_at" Instant.ofJson
      <*> parts.required 8 "transitions" (Json.listOf Transition.ofJson)

end JobInstance

/-- What is told about an instance (`JobSummary`). -/
structure JobSummary where
  id : Uuid
  locator : String
  pipelineName : String
  stageName : String
  jobName : String
  state : JobState
  result : JobResult
  agent : Option String
  ignored : Bool
  scheduleOrder : Int
  scheduledAt : Instant
  deriving DecidableEq, Repr, Inhabited

namespace JobSummary

def ofInstance (job : JobInstance) : JobSummary where
  id := job.id
  locator := job.identifier.buildLocator
  pipelineName := job.identifier.pipelineName
  stageName := job.identifier.stageName
  jobName := job.identifier.jobName
  state := job.state
  result := job.result
  agent := job.agent
  ignored := job.ignored
  scheduleOrder := job.scheduleOrder
  scheduledAt := job.scheduledAt

def toJson (s : JobSummary) : Json :=
  .object [("id", s.id.toJson), ("locator", .string s.locator),
    ("pipeline_name", .string s.pipelineName), ("stage_name", .string s.stageName),
    ("job_name", .string s.jobName), ("state", s.state.toJson), ("result", s.result.toJson),
    ("agent_uuid", Json.ofOption .string s.agent), ("ignored", .bool s.ignored),
    ("schedule_order", .integer s.scheduleOrder), ("scheduled_at", s.scheduledAt.toJson)]

def ofJson : Json.Decoder JobSummary :=
  Json.record ["id", "locator", "pipeline_name", "stage_name", "job_name", "state", "result",
      "agent_uuid", "ignored", "schedule_order", "scheduled_at"] fun parts =>
    JobSummary.mk
      <$> parts.required 0 "id" Uuid.ofJson
      <*> parts.required 1 "locator" Json.text
      <*> parts.required 2 "pipeline_name" Json.text
      <*> parts.required 3 "stage_name" Json.text
      <*> parts.required 4 "job_name" Json.text
      <*> parts.required 5 "state" JobState.ofJson
      <*> parts.required 6 "result" JobResult.ofJson
      <*> parts.optional 7 "agent_uuid" Json.text
      <*> parts.required 8 "ignored" Json.flag
      <*> parts.required 9 "schedule_order" Json.signed64
      <*> parts.required 10 "scheduled_at" Instant.ofJson

end JobSummary

end BuildServer
