import BuildServer.Pipeline.Catalog
import BuildServer.Schedule.StatusCache
import BuildServer.Schedule.Store
/-!
# The scheduler

The scheduler puts the jobs of a stage into the store, hands them to agents, takes their reports,
and replaces a job by a fresh instance when its agent has lost it. Every operation is one
transaction of the store; the cache of latest instances is brought up to date once the transaction
has committed. An operation that fails leaves jobs and plans as they were.

A job is replaced at most once: the instance that was replaced is ignored from then on, and no
report of an agent changes that.
-/

set_option autoImplicit false

namespace BuildServer

/-- Why an operation of the scheduler failed (`ScheduleError`). -/
inductive ScheduleError where
  | jobNotFound (id : Uuid)
  | pipelineNotFound (name : String)
  | stageNotFound (pipeline stage : String)
  /-- The job has been handed out or is of no further use. -/
  | notWaiting (id : Uuid) (state : JobState)
  /-- An agent may not report that a job was rescheduled. -/
  | rescheduledByReport (id : Uuid)
  | store (error : StoreError)
  deriving DecidableEq, Repr

namespace ScheduleError

def message : ScheduleError → String
  | .jobNotFound id => "Job " ++ id.toText ++ " not found"
  | .pipelineNotFound name => "Pipeline " ++ name ++ " not found"
  | .stageNotFound pipeline stage => "Stage '" ++ stage ++ "' not found in pipeline " ++ pipeline
  | .notWaiting id state =>
    "Job " ++ id.toText ++ " is not waiting for an agent (current: " ++ state.name ++ ")"
  | .rescheduledByReport id =>
    "Job " ++ id.toText ++ " can only be rescheduled through a reschedule request"
  | .store e => e.message

end ScheduleError

/-- Why a job was left as it is (`NotRescheduledReason`). -/
inductive KeptReason where
  | completed
  | rescheduled
  deriving DecidableEq, Repr

namespace KeptReason

def message : KeptReason → String
  | .completed => "job has already completed"
  | .rescheduled => "job has already been rescheduled"

end KeptReason

/-- What became of a request to reschedule a job (`RescheduleOutcome`). -/
inductive RescheduleOutcome where
  | rescheduled (replacement : JobInstance)
  | kept (reason : KeptReason)
  deriving DecidableEq, Repr

/-- The store and the cache of latest instances (`ScheduleService`). -/
structure Scheduler where
  store : JobStore
  cache : StatusCache := {}

/-- An operation of the scheduler. -/
abbrev Scheduling (α : Type) := ExceptT ScheduleError (StateM Scheduler) α

instance : MonadLift (Transaction StoreError) (Transaction ScheduleError) where
  monadLift work := ExceptT.adapt .store work

namespace Scheduler

/-! ## Transactions -/

/-- The job with the identifier, which there must be. -/
def getJob (id : Uuid) : Transaction ScheduleError JobInstance := do
  match ← Transaction.read (·.findJob? id) with
  | some job => return job
  | none => throw (.jobNotFound id)

/-- Puts in a job of a stage with its plan. -/
def insertConfigured (run : PipelineRun) (stageName : String) (stageCounter : Int) (now : Instant)
    (config : JobConfig) : Transaction ScheduleError JobInstance := do
  let identifier := JobIdentifier.ofRun run stageName stageCounter config.name
  let job := JobInstance.scheduled (← Transaction.nextId) identifier (← Transaction.nextKey) now
  Transaction.insertJob job
  let plan ← Transaction.draftPlan (JobPlan.ofConfig job.id identifier config)
  Transaction.insertPlan plan
  return job

/-- Puts in jobs of a stage in order. -/
def insertEach (run : PipelineRun) (stageName : String) (stageCounter : Int) (now : Instant) :
    List JobConfig → Transaction ScheduleError (List JobInstance)
  | [] => return []
  | config :: configs => do
    let job ← insertConfigured run stageName stageCounter now config
    let jobs ← insertEach run stageName stageCounter now configs
    return job :: jobs

/-- Puts in the jobs of a stage for the next time that the stage is scheduled in the run
(`schedule_stage`). -/
def insertStage (run : PipelineRun) (stage : StageConfig) (now : Instant) :
    Transaction ScheduleError (List JobInstance) := do
  let latest ← Transaction.read (·.maxStageCounter? run.name run.counter stage.name)
  insertEach run stage.name (latest.getD 0 + 1) now stage.jobs

/-- Ignores a job and puts in a fresh instance with a copy of its plan (`reschedule_in`). A job that is
completed or that has been replaced is left as it is. -/
def replaceJob (id : Uuid) (now : Instant) : Transaction ScheduleError RescheduleOutcome := do
  let old ← getJob id
  if old.isCompleted then
    return .kept .completed
  else if old.ignored || old.isRescheduled then
    return .kept .rescheduled
  else
    let old := (old.enter .rescheduled now).ignore
    Transaction.updateJob old
    let new := old.replacement (← Transaction.nextId) (← Transaction.nextKey) now
    Transaction.insertJob new
    match ← Transaction.read (·.findPlan? id) with
    | some plan =>
      let copy ← Transaction.draftPlan (plan.copyTo new.id)
      Transaction.insertPlan copy
    | none => pure ()
    return .rescheduled new

/-- Changes a job as `change` says; no change at all is none (`mutate_job`). -/
def changeJob (id : Uuid) (change : JobInstance → Except ScheduleError (Option JobInstance)) :
    Transaction ScheduleError (JobInstance × Bool) := do
  let job ← getJob id
  match change job with
  | .error e => throw e
  | .ok none => return (job, false)
  | .ok (some changed) =>
    Transaction.updateJob changed
    return (changed, true)

/-! ## Operations -/

/-- Runs a transaction on the store (`JobStore::begin`). -/
def transact {α : Type} (work : Transaction ScheduleError α) : Scheduling α := do
  match (← get).store with
  | .unreachable => throw (.store .database)
  | .memory w =>
    let (outcome, w) := w.transact work
    modify fun s => { s with store := .memory w }
    match outcome with
    | .ok a => return a
    | .error e => throw e

/-- Shows an instance to the cache. -/
def note (job : JobInstance) : Scheduling Unit :=
  modify fun s => { s with cache := s.cache.update job }

/-- Looks something up in the store. -/
def read {α : Type} (f : JobTables → α) : Scheduling α := do
  match (← get).store.read f with
  | .ok a => return a
  | .error e => throw (.store e)

/-- The next insertion of a plan fails. -/
def armPlanFailure (s : Scheduler) : Scheduler :=
  { s with store := s.store.armPlanFailure }

/-- The stage to schedule: the named one, or the first one. -/
def chooseStage (pipeline : PipelineConfig) (stageName : Option String) :
    Except ScheduleError StageConfig :=
  let found := match stageName with
    | some name => pipeline.findStage? name
    | none => pipeline.firstStage?
  match found with
  | some stage => .ok stage
  | none => .error (.stageNotFound pipeline.name (stageName.getD ""))

/-- Schedules the jobs of a stage in a run of the named pipeline (`ScheduleService::schedule_stage`). The
label of a run is its counter if none is given. -/
def scheduleStage (catalog : Catalog) (pipelineName : String) (counter : Int)
    (label stageName : Option String) (now : Instant) : Scheduling (List JobInstance) := do
  match catalog.find? pipelineName with
  | none => throw (.pipelineNotFound pipelineName)
  | some pipeline =>
    match chooseStage pipeline stageName with
    | .error e => throw e
    | .ok stage =>
      let run : PipelineRun := ⟨pipeline.name, counter, label.getD (toString counter)⟩
      let jobs ← transact (insertStage run stage now)
      jobs.forM note
      return jobs

/-- The job with the identifier (`ScheduleService::find_job`). -/
def find (id : Uuid) : Scheduling JobInstance := do
  match ← read (·.findJob? id) with
  | some job => return job
  | none => throw (.jobNotFound id)

/-- Replaces a job by a fresh instance (`ScheduleService::reschedule_job`). The job is looked up ahead of
the transaction, to see which stage it belongs to, and once more within it. -/
def reschedule (id : Uuid) (now : Instant) : Scheduling RescheduleOutcome := do
  let _ ← find id
  let outcome ← transact (replaceJob id now)
  match outcome with
  | .rescheduled new =>
    note new
    return outcome
  | .kept _ => return outcome

/-- Replaces jobs in order, and gives the identifiers of those that were replaced. The first
failure ends it. Every replacement has an instant of its own. -/
def rescheduleEach (clock : Clock) : List JobInstance → Scheduling (List Uuid)
  | [] => return []
  | job :: jobs => do
    match ← reschedule job.id (clock 0) with
    | .rescheduled _ =>
      let ids ← rescheduleEach clock.rest jobs
      return job.id :: ids
    | .kept _ => rescheduleEach clock jobs

/-- Replaces the unfinished jobs of an agent that has nothing to do
(`ScheduleService::reschedule_abandoned_builds`). -/
def rescheduleAbandoned (agent : String) (clock : Clock) : Scheduling (List Uuid) := do
  let jobs ← transact (Transaction.read (·.activeJobsOf agent))
  rescheduleEach clock jobs

/-- Changes a job, and shows it to the cache if it was changed. -/
def change (id : Uuid) (f : JobInstance → Except ScheduleError (Option JobInstance)) :
    Scheduling JobInstance := do
  let (job, changed) ← transact (changeJob id f)
  if changed then note job
  return job

/-- Hands a job that waits to an agent (`ScheduleService::assign_job`). -/
def assign (id : Uuid) (agent : String) (now : Instant) : Scheduling JobInstance :=
  change id fun job =>
    if JobTables.isWaiting job then .ok (some (job.assign agent now))
    else .error (.notWaiting job.id job.state)

/-- Takes the report of a state (`ScheduleService::update_job_state`). Agents may report any state in any
order, but not that a job was rescheduled. -/
def reportState (id : Uuid) (state : JobState) (now : Instant) : Scheduling JobInstance :=
  if state = .rescheduled then throw (.rescheduledByReport id)
  else change id fun job => .ok (some (job.enter state now))

/-- Takes the result of a job (`ScheduleService::complete_job`). A job that is completed keeps its
result. -/
def complete (id : Uuid) (result : JobResult) (now : Instant) : Scheduling JobInstance :=
  change id fun job => .ok (if job.isCompleted then none else some (job.complete result now))

/-- Cancels a job that is neither completed nor rescheduled (`ScheduleService::cancel_job`). -/
def cancel (id : Uuid) (now : Instant) : Scheduling JobInstance :=
  change id fun job =>
    .ok (if job.isCompleted || job.isRescheduled then none else some (job.cancel now))

/-- The plans of the jobs that wait, in the order in which they are handed out
(`ScheduleService::ordered_scheduled_builds`). -/
def waitingPlans : Scheduling (List JobPlan) := read (·.waitingPlans)

/-- The latest instance of the named job (`ScheduleService::current_job`). -/
def current? (s : Scheduler) (pipeline stage job : String) : Option JobInstance :=
  s.cache.current? (.ofNames pipeline stage job)

end Scheduler

end BuildServer
