import BuildServer.Job.Plan
import BuildServer.Pipeline.Summary
import BuildServer.Server.Messages
import BuildServer.Terminal.ByteSize
import BuildServer.Terminal.Style
/-!
# Screens

What is shown on the terminal for every kind of result, as lines. Lists are blocks with an empty
line after each; what is absent or empty has no line.
-/

set_option autoImplicit false

namespace BuildServer.Terminal

/-- The line if the condition holds. -/
def lineIf (condition : Bool) (line : String) : List String := if condition then [line] else []

/-- The line for a value that may be absent. -/
def lineFor {α : Type} (value : Option α) (line : α → String) : List String :=
  value.toList.map line

namespace Screen

variable (ink : Ink)

/-- The mark in front of an item. -/
def bullet : String := "  " ++ ink .cyan "▸" ++ " "

/-- The mark in front of good news. -/
def check : String := ink .green "✓" ++ " "

/-- The mark in front of bad news. -/
def warning : String := ink .yellow "⚠" ++ " "

/-- A text filled up with spaces to a width. -/
def padded (width : Nat) (s : String) : String :=
  s ++ String.ofList (List.replicate (width - s.length) ' ')

/-! ## Jobs -/

def state (state : JobState) : String :=
  match state with
  | .scheduled => ink .yellow state.name
  | .assigned | .preparing => ink .blue state.name
  | .building | .completing => ink .cyan state.name
  | .completed => ink .green state.name
  | .rescheduled | .unknown => ink .dimmed state.name

def result (result : JobResult) : String :=
  match result with
  | .passed => ink .green result.name
  | .failed => ink .red result.name
  | .cancelled => ink .dimmed result.name
  | .unknown => result.name

def jobBlock (job : JobSummary) : List String :=
  [bullet ink ++ "Job " ++ ink .dimmed job.id.toText,
    "    Locator: " ++ ink .bold job.locator,
    "    State:   " ++ state ink job.state] ++
  lineFor job.agent (fun agent => "    Agent:   " ++ ink .dimmed agent) ++ [""]

def jobDetails (job : JobSummary) : List String :=
  [ink .bold "Job Details:",
    "  ID:        " ++ ink .cyan job.id.toText,
    "  Locator:   " ++ job.locator,
    "  Pipeline:  " ++ job.pipelineName,
    "  Stage:     " ++ job.stageName,
    "  Job:       " ++ job.jobName,
    "  State:     " ++ state ink job.state,
    "  Result:    " ++ result ink job.result,
    "  Scheduled: " ++ job.scheduledAt.toClock] ++
  lineFor job.agent ("  Agent:     " ++ ·) ++
  lineIf job.ignored ("  " ++ ink .dimmed "Replaced by a rescheduled instance")

def buildBlock (build : ScheduledBuild) : List String :=
  [bullet ink ++ ink .bold build.locator,
    "    Job:       " ++ ink .dimmed build.jobId.toText] ++
  lineIf (!build.resources.isEmpty) ("    Resources: " ++ ", ".intercalate build.resources) ++
  build.artifacts.map (fun a =>
    "    Artifact:  " ++ ink .dimmed a.kind.label ++ " " ++ a.src ++ " -> " ++ a.dest) ++ [""]

def builds (builds : List ScheduledBuild) : List String :=
  if builds.isEmpty then [ink .yellow "No scheduled jobs found."]
  else
    [ink .bold ("Found " ++ toString builds.length ++ " scheduled job(s):"), ""] ++
      builds.flatMap (buildBlock ink)

def rescheduled (reply : RescheduleReply) : List String :=
  match reply.rescheduled, reply.newJob with
  | true, some job =>
    [check ink ++ "Job " ++ ink .dimmed reply.jobId.toText ++ " rescheduled as " ++
      ink .cyan job.id.toText, ""] ++ jobBlock ink job
  | _, _ =>
    [warning ink ++ "Job " ++ reply.jobId.toText ++ " not rescheduled: " ++
      reply.reason.getD ""]

def cancelled (job : JobSummary) : List String :=
  if job.result = .cancelled then [check ink ++ "Job " ++ ink .bold job.locator ++ " cancelled"]
  else
    [warning ink ++ "Job " ++ ink .bold job.locator ++ " already finished as " ++
      result ink job.result]

/-- No instance of the named job is known. -/
def neverScheduled (pipeline stage job : String) : List String :=
  [ink .yellow ("No instance of " ++ "/".intercalate [pipeline, stage, job] ++
    " has been scheduled.")]

/-! ## Pipelines -/

def pipelineBlock (p : PipelineSummary) : List String :=
  [bullet ink ++ "Pipeline " ++ ink .bold p.name,
    "    Materials: " ++ toString p.materialCount] ++
  lineIf (!p.needed.isEmpty) ("    Upstream:  " ++ ink .dimmed (", ".intercalate p.needed)) ++
  lineIf (!p.stages.isEmpty) ("    Stages:    " ++ " -> ".intercalate p.stages) ++ [""]

def saved (p : PipelineSummary) : List String :=
  (check ink ++ "Pipeline saved") :: pipelineBlock ink p

def pipelines (ps : List PipelineSummary) : List String :=
  if ps.isEmpty then [ink .yellow "No pipelines found."]
  else
    [ink .bold ("Found " ++ toString ps.length ++ " pipeline(s):"), ""] ++
      ps.flatMap (pipelineBlock ink)

def jobLine (job : JobConfig) : String :=
  if job.resources.isEmpty then "      " ++ job.name
  else "      " ++ job.name ++ " [" ++ ink .dimmed (", ".intercalate job.resources) ++ "]"

def stageBlock (stage : StageConfig) : List String :=
  (bullet ink ++ ink .bold stage.name) :: stage.jobs.map (jobLine ink)

def pipelineDetails (p : PipelineConfig) : List String :=
  [ink .bold "Pipeline Details:", "  Name: " ++ ink .cyan p.name, "", ink .bold "Materials:"] ++
  p.materials.map (fun m =>
    bullet ink ++ m.displayName ++ " " ++
      ink .dimmed (String.ofList (m.fingerprint.toList.take 12))) ++
  if p.stages.isEmpty then []
  else ["", ink .bold "Stages:"] ++ p.stages.flatMap (stageBlock ink)

def queue (name : String) (entries : List QueueSummary) : List String :=
  if entries.isEmpty then
    [ink .yellow ("Pipeline " ++ name ++ " has no upstream pipelines.")]
  else
    ink .bold ("Build queue of " ++ name ++ ":") ::
      entries.map fun e =>
        bullet ink ++ padded 20 e.pipeline ++ " " ++ ink .dimmed (" <- ".intercalate e.path)

def materials (r : MaterialReport) : List String :=
  [ink .bold ("Unshared materials of " ++ r.pipeline ++ ":")] ++
  lineIf r.unshared.isEmpty ("  " ++ ink .dimmed "none") ++
  r.unshared.map (fun m => bullet ink ++ m.displayName ++ " (" ++ m.kind.name ++ ")") ++
  ["", ink .bold (toString r.fingerprints.length ++ " fingerprint(s) in graph:")] ++
  r.fingerprints.map fun fingerprint => "  " ++ ink .dimmed fingerprint

def scheduled (name : String) (counter : Int) (jobs : List JobSummary) : List String :=
  [check ink ++ "Scheduled " ++ toString jobs.length ++ " job(s) for " ++ ink .bold name ++
    " run " ++ toString counter, ""] ++ jobs.flatMap (jobBlock ink)

/-! ## Agents and materials -/

def agentStatus (status : AgentStatus) : String :=
  match status with
  | .idle => ink .green status.name
  | .building => ink .cyan status.name
  | .lostContact | .missing => ink .red status.name
  | .cancelled | .unknown => ink .dimmed status.name

def agentBlock (a : AgentSummary) : List String :=
  [bullet ink ++ "Agent " ++ ink .bold a.uuid,
    "    Host:     " ++ a.hostname ++ " (" ++ ink .dimmed a.ipAddress ++ ")",
    "    Status:   " ++ agentStatus ink a.status,
    "    Location: " ++ a.location] ++
  lineFor a.usableSpace (fun space => "    Free:     " ++ ByteSize.text space) ++
  lineFor a.operatingSystem (fun system => "    OS:       " ++ ink .dimmed system) ++ [""]

def agents (list : List AgentSummary) : List String :=
  if list.isEmpty then [ink .yellow "No agents have pinged yet."]
  else
    [ink .bold ("Found " ++ toString list.length ++ " agent(s):"), ""] ++
      list.flatMap (agentBlock ink)

def notified (names : List String) : List String :=
  if names.isEmpty then [ink .yellow "No pipeline builds from this repository."]
  else
    ink .bold (toString names.length ++ " pipeline(s) use this repository:") ::
      names.map (bullet ink ++ ·)

end Screen

end BuildServer.Terminal
