import BuildServer.Schedule.OrderKey
import BuildServer.Job.Plan
import BuildServer.Rows
/-!
# The store of jobs and plans

Jobs and plans are kept in tables with one row for each job. All changes are made in a transaction:
it works on a copy of the tables, which takes the place of the stored ones when the transaction
succeeds and is dropped when it fails. What a transaction draws, identifiers and order keys, stays
drawn, and so does the effect of a failure that was set up beforehand.

A store may also be out of reach; then every transaction fails at its beginning.
-/

set_option autoImplicit false

namespace BuildServer

/-- Why the store failed (`StoreError`). -/
inductive StoreError where
  /-- The database cannot be reached. -/
  | database
  | missingJob (id : Uuid)
  /-- The failure that was set up. -/
  | injected
  deriving DecidableEq, Repr

namespace StoreError

/-- What went wrong, where it is the store that says so. -/
def detail : StoreError → String
  | .database => ""
  | .missingJob id => "job " ++ id.toText ++ " does not exist"
  | .injected => "injected failure while inserting plan"

def message : StoreError → String
  | .database => "database error"
  | e => "store unavailable: " ++ e.detail

end StoreError

/-- The jobs and plans, each in the order in which they were put in (`MemoryState`). -/
structure JobTables where
  jobs : List JobInstance := []
  plans : List JobPlan := []
  deriving DecidableEq, Repr, Inhabited

namespace JobTables

def findJob? (t : JobTables) (id : Uuid) : Option JobInstance :=
  t.jobs.find? (·.id == id)

def findPlan? (t : JobTables) (jobId : Uuid) : Option JobPlan :=
  t.plans.find? (·.jobId == jobId)

/-- Puts a job in the place of the one with the same identifier, or at the end. -/
def insertJob (job : JobInstance) (t : JobTables) : JobTables :=
  { t with jobs := putRow (·.id) job t.jobs }

/-- Puts a plan in the place of the one of the same job, or at the end. -/
def insertPlan (plan : JobPlan) (t : JobTables) : JobTables :=
  { t with plans := putRow (·.jobId) plan t.plans }

/-- Jobs by rising order; jobs of the same order in that of the table. -/
def inOrder (jobs : List JobInstance) : List JobInstance :=
  jobs.mergeSort fun a b => decide (a.scheduleOrder ≤ b.scheduleOrder)

/-- All jobs by rising order (`all_jobs`). -/
def allJobs (t : JobTables) : List JobInstance := inOrder t.jobs

/-- The job waits for an agent. -/
def isWaiting (job : JobInstance) : Bool := job.state == .scheduled && !job.ignored

/-- The plans of the jobs that wait for an agent, by rising order (`ordered_scheduled_builds`). -/
def waitingPlans (t : JobTables) : List JobPlan :=
  (inOrder (t.jobs.filter isWaiting)).filterMap fun job => t.findPlan? job.id

/-- The unfinished jobs that are assigned to the agent, by rising order (`active_jobs_for_agent`). -/
def activeJobsOf (t : JobTables) (agent : String) : List JobInstance :=
  inOrder (t.jobs.filter fun job => job.isAssignedTo agent && job.isRunning && !job.ignored)

/-- The identifier belongs to the stage of the run, its names taken without regard to case. -/
def isOfStage (pipelineName : String) (pipelineCounter : Int) (stageName : String)
    (id : JobIdentifier) : Bool :=
  Text.sameName id.pipelineName pipelineName && id.pipelineCounter == pipelineCounter &&
    Text.sameName id.stageName stageName

/-- The greatest counter that a stage has in a run (`max_stage_counter`). -/
def maxStageCounter? (t : JobTables) (pipelineName : String) (pipelineCounter : Int)
    (stageName : String) : Option Int :=
  ((t.jobs.map (·.identifier)).filter (isOfStage pipelineName pipelineCounter stageName)).map
    (·.stageCounter) |>.max?

end JobTables

/-- What a transaction works on (`InMemoryTransaction`): its copy of the tables, and the sources that
it draws from. -/
structure Workspace where
  tables : JobTables := {}
  /-- The next insertion of a plan fails. -/
  planFailureArmed : Bool := false
  keys : OrderKeys
  ids : IdSource

/-- A part of a transaction, which may fail (`JobTransaction`). -/
abbrev Transaction (ε α : Type) := ExceptT ε (StateM Workspace) α

namespace Transaction

variable {ε : Type}

/-- Looks something up in the tables. -/
def read {α : Type} (f : JobTables → α) : Transaction ε α := do
  return f (← get).tables

/-- Changes the tables. -/
def write (f : JobTables → JobTables) : Transaction ε Unit :=
  modify fun w => { w with tables := f w.tables }

/-- Draws an order key (`TimeStampBasedCounter::next`). -/
def nextKey : Transaction ε Int :=
  modifyGet fun w => (w.keys.next.1, { w with keys := w.keys.next.2 })

/-- Draws an identifier (`Uuid::new_v4`). -/
def nextId : Transaction ε Uuid :=
  modifyGet fun w => (w.ids.next.1, { w with ids := w.ids.next.2 })

/-- Makes a plan, with identifiers drawn for its rows. -/
def draftPlan (draft : IdSource → JobPlan × IdSource) : Transaction ε JobPlan :=
  modifyGet fun w => ((draft w.ids).1, { w with ids := (draft w.ids).2 })

/-- Puts a job in (`insert_job`), in the place of one with the same identifier. -/
def insertJob (job : JobInstance) : Transaction ε Unit :=
  write (.insertJob job)

/-- Puts a job in the place of the one with the same identifier, which there must be (`update_job`). -/
def updateJob (job : JobInstance) : Transaction StoreError Unit := do
  match (← read (·.findJob? job.id)) with
  | some _ => write (.insertJob job)
  | none => throw (.missingJob job.id)

/-- Puts a plan in (`insert_plan`), in the place of one of the same job. It fails if that was set up,
and then not again. -/
def insertPlan (plan : JobPlan) : Transaction StoreError Unit := do
  if (← get).planFailureArmed then
    modify fun w => { w with planFailureArmed := false }
    throw .injected
  else
    write (.insertPlan plan)

end Transaction

namespace Workspace

/-- The workspace after a transaction. The tables are those of before unless it commits. -/
def settle (before : Workspace) (commits : Bool) (after : Workspace) : Workspace :=
  if commits then after else { after with tables := before.tables }

/-- Runs a transaction, which commits if it succeeds (`JobTransaction::commit`). -/
def transact {ε α : Type} (work : Transaction ε α) (w : Workspace) : Except ε α × Workspace :=
  match work w with
  | (.ok a, after) => (.ok a, w.settle true after)
  | (.error e, after) => (.error e, w.settle false after)

end Workspace

/-- A store of jobs and plans (`JobStore`). -/
inductive JobStore where
  | memory (workspace : Workspace)
  /-- A store that is out of reach. -/
  | unreachable

namespace JobStore

/-- The store in which the next insertion of a plan fails (`fail_next_plan_insert`). -/
def armPlanFailure : JobStore → JobStore
  | .memory w => .memory { w with planFailureArmed := true }
  | .unreachable => .unreachable

/-- What the tables say, if the store can be reached. -/
def read {α : Type} (f : JobTables → α) : JobStore → Except StoreError α
  | .memory w => .ok (f w.tables)
  | .unreachable => .error .database

end JobStore

end BuildServer
