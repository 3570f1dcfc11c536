import BuildServer.Proofs.Rows
import BuildServer.Schedule.Store
/-!
# Jobs and plans in the tables

Jobs and plans are found by the identifier of the job. As long as identifiers do not repeat, a job is
found exactly if it is in the list.
-/

set_option autoImplicit false

namespace BuildServer

/-- What a plan asks for, and for which job. -/
def JobPlan.request (plan : JobPlan) : Uuid × List String × List ArtifactConfig :=
  (plan.jobId, plan.resourceNames, plan.contents)

/-- What is asked for a job that goes back to the configuration. -/
def JobPlan.requestFrom (origin : Uuid × JobConfig) : Uuid × List String × List ArtifactConfig :=
  (origin.1, origin.2.resources, origin.2.artifacts)

/-- The job is with the agent and under way. -/
structure JobInstance.HeldBy (job : JobInstance) (agent : String) : Prop where
  live : job.ignored = false
  running : job.isRunning = true
  agent_eq : job.agent = some agent

theorem JobInstance.heldBy_iff {job : JobInstance} {agent : String} :
    job.HeldBy agent ↔ job.ignored = false ∧ job.agent = some agent ∧
      job.state ∈ [.scheduled, .assigned, .preparing, .building, .completing] := by
  have active : job.isRunning = true ↔
      job.state ∈ [.scheduled, .assigned, .preparing, .building, .completing] := by
    rw [isRunning]
    cases job.state <;> decide
  constructor
  · rintro ⟨live, running, held⟩
    exact ⟨live, held, active.mp running⟩
  · rintro ⟨live, held, state⟩
    exact ⟨live, active.mpr state, held⟩

namespace JobTables

/-- What the plans ask for, in the order of the tables. -/
def requests (t : JobTables) : List (Uuid × List String × List ArtifactConfig) :=
  t.plans.map JobPlan.request

variable {t : JobTables} {id : Uuid} {job old : JobInstance} {jobs : List JobInstance}

/-! ## Finding a job -/

theorem id_of_findJob? (h : t.findJob? id = some job) : job.id = id := by
  have found := List.find?_some h
  exact beq_iff_eq.mp found

theorem mem_of_findJob? (h : t.findJob? id = some job) : job ∈ t.jobs :=
  List.mem_of_find?_eq_some h

/-- Where identifiers do not repeat, a job of the list is the one that is found. -/
theorem findJob?_of_mem (distinct : (t.jobs.map (·.id)).Nodup) (h : job ∈ t.jobs) :
    t.findJob? job.id = some job :=
  find?_of_mem distinct h

theorem mem_activeJobsOf {agent : String} :
    job ∈ t.activeJobsOf agent ↔ job ∈ t.jobs ∧ job.HeldBy agent := by
  rw [activeJobsOf, inOrder, List.mem_mergeSort, List.mem_filter]
  simp only [Bool.and_eq_true, Bool.not_eq_true', JobInstance.isAssignedTo, beq_iff_eq]
  constructor
  · rintro ⟨stored, ⟨assigned, running⟩, live⟩
    exact ⟨stored, live, running, assigned⟩
  · rintro ⟨stored, held⟩
    exact ⟨stored, ⟨held.agent_eq, held.running⟩, held.live⟩

theorem isWaiting_iff : isWaiting job = true ↔ job.state = .scheduled ∧ job.ignored = false := by
  rw [isWaiting, Bool.and_eq_true, beq_iff_eq, Bool.not_eq_true']

theorem not_isWaiting_of_state (h : job.state ≠ .scheduled) : ¬ isWaiting job = true :=
  fun waits => h (isWaiting_iff.mp waits).1

theorem not_isWaiting_of_ignored (h : job.ignored = true) : ¬ isWaiting job = true := by
  intro waits
  rw [(isWaiting_iff.mp waits).2] at h
  cases h

/-- A job that is completed or was rescheduled does not wait. -/
theorem not_isWaiting_of_closed (closed : (job.isCompleted || job.isRescheduled) = true) :
    ¬ isWaiting job = true := by
  refine not_isWaiting_of_state ?_
  intro scheduled
  rw [JobInstance.isCompleted, JobInstance.isRescheduled, scheduled] at closed
  cases closed

/-! ## Putting a job in -/

theorem findJob?_insertJob (job : JobInstance) (t : JobTables) (id : Uuid) :
    (t.insertJob job).findJob? id = if job.id = id then some job else t.findJob? id :=
  find?_putRow JobInstance.id job t.jobs id

/-- A job is still found when others have joined the tables. -/
theorem findJob?_of_append {t' : JobTables} (joined : t'.jobs = t.jobs ++ jobs)
    (found : t.findJob? id = some job) : t'.findJob? id = some job := by
  rw [findJob?] at found
  rw [findJob?, joined, List.find?_append, found, Option.some_or]

/-! ## Plans -/

theorem jobId_of_findPlan? {plan : JobPlan} (h : t.findPlan? id = some plan) : plan.jobId = id := by
  have found := List.find?_some h
  exact beq_iff_eq.mp found

theorem mem_of_findPlan? {plan : JobPlan} (h : t.findPlan? id = some plan) : plan ∈ t.plans :=
  List.mem_of_find?_eq_some h

/-- Putting a job in does not change which plans are found. -/
@[simp] theorem findPlan?_insertJob (job : JobInstance) (t : JobTables) (jobId : Uuid) :
    (t.insertJob job).findPlan? jobId = t.findPlan? jobId := rfl

/-- Where the plans are those of the jobs, a job that is there has one. -/
theorem findPlan?_isSome (planned : t.plans.map (·.jobId) = t.jobs.map (·.id))
    (h : t.findJob? id = some job) : ∃ plan, t.findPlan? id = some plan := by
  have hid : id ∈ t.plans.map (·.jobId) := by
    rw [planned, ← id_of_findJob? h]
    exact List.mem_map_of_mem (mem_of_findJob? h)
  obtain ⟨plan, hplan, heq⟩ := List.mem_map.mp hid
  refine Option.isSome_iff_exists.mp (List.find?_isSome.mpr ⟨plan, hplan, ?_⟩)
  exact beq_iff_eq.mpr heq

end JobTables

end BuildServer
