import BuildServer.Agent.Registry
import BuildServer.Schedule.Scheduler
import BuildServer.Server.Route
/-!
# The server

The server owns the catalog of pipelines, the scheduler and the registry of agents, and carries out
one command after the other. A command that fails gives a status and a message that goes into the
reply; only what the database says is kept from those who ask.
-/

set_option autoImplicit false

namespace BuildServer

/-- Why a command was not carried out (`ApiError`). -/
structure Failure where
  status : Nat
  message : String
  deriving DecidableEq, Repr, Inhabited

namespace Failure

def reply (f : Failure) : Reply := ⟨f.status, .json (Json.single "error" (.string f.message))⟩

/-- Nothing has the name or identifier that was given. -/
def notFound (message : String) : Failure := ⟨404, message⟩

/-- What was given makes no sense. -/
def badRequest (message : String) : Failure := ⟨400, message⟩

/-- What is asked for contradicts what has happened. -/
def conflict (message : String) : Failure := ⟨409, message⟩

/-- The server is at fault. -/
def internal (message : String) : Failure := ⟨500, message⟩

end Failure

namespace StoreError

def failure : StoreError → Failure
  | .database => .internal "Internal server error"
  | e => .internal e.detail

end StoreError

namespace ScheduleError

def failure (e : ScheduleError) : Failure :=
  match e with
  | .jobNotFound _ | .pipelineNotFound _ | .stageNotFound _ _ => .notFound e.message
  | .notWaiting _ _ => .conflict e.message
  | .rescheduledByReport _ => .badRequest e.message
  | .store e => e.failure

end ScheduleError

namespace GraphError

def failure (e : GraphError) : Failure :=
  match e with
  | .unknownPipeline name => (ScheduleError.pipelineNotFound name).failure
  | .cycle _ => .badRequest e.message
  | .unknownNode _ => .internal e.message

end GraphError

namespace RegistryError

def failure : RegistryError → Failure
  | .duplicateCookie uuid =>
    .conflict ("Agent " ++ uuid ++ " is already pinging from another process")
  | .agent e => .badRequest e.message

end RegistryError

/-- The state of the server (`AppState`). -/
structure Server where
  catalog : Catalog := {}
  scheduler : Scheduler
  agents : AgentRegistry := {}

namespace Server

/-- The pipeline with the name (`get_pipeline`). -/
def pipeline (s : Server) (name : String) : Except Failure PipelineConfig :=
  match s.catalog.find? name with
  | some p => .ok p
  | none => .error (ScheduleError.pipelineNotFound name).failure

/-- What the graph of the named pipeline shows of its root. -/
def atRoot {α : Type} (s : Server) (name : String) (view : DependencyGraph → GraphNode → α) :
    Except Failure α :=
  match s.catalog.dependencyGraph name with
  | .error e => .error e.failure
  | .ok g =>
    match g.root? with
    | some root => .ok (view g root)
    | none => .error (ScheduleError.pipelineNotFound name).failure

/-- Runs an operation of the scheduler, and gives what `view` shows of its result. -/
def operate {α β : Type} (s : Server) (work : Scheduling α) (view : α → β) :
    Except Failure β × Server :=
  match work s.scheduler with
  | (.ok a, scheduler) => (.ok (view a), { s with scheduler })
  | (.error e, scheduler) => (.error e.failure, { s with scheduler })

/-- Takes a pipeline into the catalog (`create_pipeline`). -/
def create (s : Server) (config : PipelineConfig) : Except Failure PipelineSummary × Server :=
  if Text.isAllBlank config.name then (.error (.badRequest "Pipeline name cannot be empty"), s)
  else
    match s.catalog.save config with
    | (.error e, catalog) => (.error (.badRequest e.message), { s with catalog })
    | (.ok (), catalog) => (.ok (.ofConfig config), { s with catalog })

/-- The reply to a request to reschedule the job with the identifier. -/
def rescheduleReply (id : Uuid) : RescheduleOutcome → RescheduleReply
  | .rescheduled new => ⟨id, true, some (.ofInstance new), none⟩
  | .kept reason => ⟨id, false, none, some reason.message⟩

/-- Takes the report of an agent (`ping`). The unfinished jobs of one that is idle are replaced. -/
def ping (s : Server) (info : AgentInfo) (clock : Clock) : Except Failure PingReply × Server :=
  match s.agents.ping info with
  | (.error e, agents) => (.error e.failure, { s with agents })
  | (.ok info, agents) =>
    let s := { s with agents }
    if info.status = .idle then
      s.operate (Scheduler.rescheduleAbandoned info.uuid clock) (PingReply.mk info.status)
    else (.ok ⟨info.status, []⟩, s)

/-- The latest instance of the named job (`current_job`). -/
def currentJob (s : Server) (pipeline stage job : String) : Except Failure JobSummary :=
  match s.scheduler.current? pipeline stage job with
  | some found => .ok (.ofInstance found)
  | none =>
    .error (.notFound ("No job " ++ "/".intercalate [pipeline, stage, job] ++ " has run"))

/-- Carries out a command. -/
def perform (s : Server) (clock : Clock) : (c : Command) → Except Failure c.Result × Server
  | .health => (.ok (), s)
  | .createPipeline config => s.create config
  | .listPipelines => (.ok (s.catalog.list.map .ofConfig), s)
  | .pipeline name => (s.pipeline name, s)
  | .queue name => (s.atRoot name fun g root => (g.buildQueue root).map .ofEntry, s)
  | .materials name => (s.atRoot name .ofNode, s)
  | .schedule name run =>
    if run.counter < 1 then (.error (.badRequest "Pipeline counter must be positive"), s)
    else
      s.operate (Scheduler.scheduleStage s.catalog name run.counter run.label run.stage (clock 0))
        (·.map .ofInstance)
  | .waiting => s.operate Scheduler.waitingPlans (·.map .ofPlan)
  | .job id => s.operate (Scheduler.find id) .ofInstance
  | .reschedule id => s.operate (Scheduler.reschedule id (clock 0)) (rescheduleReply id)
  | .assign id agent =>
    if Text.isAllBlank agent then (.error (.badRequest "Agent uuid cannot be empty"), s)
    else s.operate (Scheduler.assign id agent (clock 0)) .ofInstance
  | .reportState id state => s.operate (Scheduler.reportState id state (clock 0)) .ofInstance
  | .complete id result => s.operate (Scheduler.complete id result (clock 0)) .ofInstance
  | .cancel id => s.operate (Scheduler.cancel id (clock 0)) .ofInstance
  | .currentJob pipeline stage job => (s.currentJob pipeline stage job, s)
  | .ping info => s.ping info clock
  | .listAgents => (.ok (s.agents.list.map .ofInfo), s)
  | .notifyGit url =>
    if Text.isAllBlank url then (.error (.badRequest "Repository url cannot be empty"), s)
    else (.ok (s.catalog.onRepository url), s)

/-- The reply with the result of a command. A healthy server says so in plain text. -/
def success : (c : Command) → c.Result → Reply
  | .health, _ => ⟨200, .text "OK"⟩
  | c, result => ⟨200, .json (c.encode result)⟩

/-- Answers a request. -/
def handle (s : Server) (clock : Clock) (r : Request) : Reply × Server :=
  match Command.ofRequest r with
  | .error refusal => (refusal.reply, s)
  | .ok command =>
    let (outcome, s) := s.perform clock command
    let reply := match outcome with
      | .ok result => success command result
      | .error failure => failure.reply
    (if r.method = "HEAD" then reply.withoutBody else reply, s)

end Server

end BuildServer
