import BuildServer.Proofs.Agent.Registry
import BuildServer.Proofs.Schedule.Abandoned
import BuildServer.Server.Basic
/-!
# Reports of idle agents

What becomes of the jobs of an agent is decided by the status it has after its report, and not by the
one it reports: an agent that is held as cancelled keeps its jobs, even if it says that it is idle. From
any other agent that reports itself idle every job is taken that it holds.
-/

set_option autoImplicit false

namespace BuildServer

open Workspace

/-- The report of an agent on a machine of the network. -/
def AgentInfo.reporting (uuid : String) (status : AgentStatus) : AgentInfo where
  identifier := ⟨"build-01", "10.0.0.5", uuid⟩
  status
  location := "/var/lib/agent"

namespace Server

variable {s s' : Server} {info : AgentInfo} {clock : Clock} {reply : PingReply} {w : Workspace}
  {cache : StatusCache}

/-- The ways in which a report of an idle agent can be answered. -/
theorem ping_idle (idle : info.status = .idle) (h : s.ping info clock = (.ok reply, s')) :
    (s.agents.isCancelled info.uuid = true ∧ reply = ⟨.cancelled, []⟩ ∧
      s'.scheduler = s.scheduler) ∨
    (s.agents.isCancelled info.uuid = false ∧ reply.status = .idle ∧
      Scheduler.rescheduleAbandoned info.uuid clock s.scheduler
        = (.ok reply.rescheduledJobs, s'.scheduler)) := by
  rw [ping] at h
  rcases taken : s.agents.ping info with ⟨e | merged, agents⟩
  · rw [taken] at h
    cases h
  obtain ⟨sameAgent, status⟩ := AgentRegistry.ping_ok taken
  rw [taken] at h
  dsimp only at h
  by_cases cancelled : s.agents.isCancelled info.uuid = true
  · rw [if_pos cancelled] at status
    rw [status, if_neg (by decide), Prod.mk.injEq, Except.ok.injEq] at h
    obtain ⟨rfl, rfl⟩ := h
    exact .inl ⟨cancelled, rfl, rfl⟩
  · rw [if_neg cancelled, idle] at status
    rw [status, if_pos rfl, sameAgent, operate] at h
    dsimp only at h
    rcases work : Scheduler.rescheduleAbandoned info.uuid clock s.scheduler with ⟨e | ids, scheduler⟩
    · rw [work] at h
      cases h
    · rw [work] at h
      simp only [Prod.mk.injEq, Except.ok.injEq] at h
      obtain ⟨rfl, rfl⟩ := h
      exact .inr ⟨eq_false_of_ne_true cancelled, rfl, rfl⟩

/-- An agent that reports itself idle and is not held as cancelled is left without a job that it holds.
One that is held as cancelled is told so, and its jobs stay as they are. Either way the answer lists
the jobs that were replaced, each once and by rising order. -/
theorem idle_report_takes_held_jobs (keys : OrderKeys) (ids : IdSource) (ops : List Operation)
    (catalog : Catalog) (agents : AgentRegistry) (idle : info.status = .idle)
    (answered : ping ⟨catalog, (Scheduler.fresh keys ids).after ops, agents⟩ info clock
      = (.ok reply, s')) :
    let before := (Scheduler.fresh keys ids).after ops
    ∃ jobs, reply.rescheduledJobs = jobs.map (·.id) ∧
      before.tables.Replacements s'.scheduler.tables jobs ∧
      (agents.isCancelled info.uuid = false → reply.status = .idle ∧
        (∀ job ∈ before.tables.jobs, job.HeldBy info.uuid → job ∈ jobs) ∧
        ∀ job ∈ s'.scheduler.tables.jobs, ¬ job.HeldBy info.uuid) ∧
      (agents.isCancelled info.uuid = true → reply.status = .cancelled ∧ jobs = [] ∧
        s'.scheduler = before) := by
  intro before
  have sound : before.Sound := Scheduler.sound_after_fresh keys ids ops
  -- A cancelled agent is only told so; its jobs are looked at on the other branch alone.
  rcases ping_idle idle answered with ⟨cancelled, rfl, same⟩ | ⟨notCancelled, status, work⟩
  · refine ⟨[], rfl, ?_, ?_, ?_⟩
    · rw [same]
      exact sound.replacements_nil
    · intro notCancelled
      rw [cancelled] at notCancelled
      cases notCancelled
    · intro _
      exact ⟨rfl, rfl, same⟩
  · obtain ⟨listed, replaced, free⟩ := Scheduler.rescheduleAbandoned_ok sound work
    refine ⟨_, listed, replaced, ?_, ?_⟩
    · intro _
      refine ⟨status, ?_, free⟩
      intro job hjob held
      exact JobTables.mem_activeJobsOf.mpr ⟨hjob, held⟩
    · intro cancelled
      rw [cancelled] at notCancelled
      cases notCancelled

/-- A job that is being built is taken from an agent that reports itself idle. -/
theorem building_job_taken_from_idle_agent :
    let ops := [Operation.schedule (.single "studios" "mingle" "unit") "studios" 1 none none ⟨0, 0⟩,
      .assign ⟨1⟩ "agent-1" ⟨1, 0⟩, .reportState ⟨1⟩ .building ⟨2, 0⟩]
    let before := (Scheduler.fresh (.startingAt 0) (.startingAt ⟨1⟩)).after ops
    let (answer, s') := ping ⟨{}, before, {}⟩ (.reporting "agent-1" .idle) (.still ⟨3, 0⟩)
    ∃ reply, answer = .ok reply ∧ reply.rescheduledJobs = [⟨1⟩] ∧
      ∀ job ∈ s'.scheduler.tables.jobs, ¬ job.HeldBy "agent-1" := by
  intro ops before
  have taken : (ping ⟨{}, before, {}⟩ (.reporting "agent-1" .idle) (.still ⟨3, 0⟩)).1.toOption
      = some ⟨.idle, [⟨1⟩]⟩ := by decide +kernel
  rcases answered : ping ⟨{}, before, {}⟩ (.reporting "agent-1" .idle) (.still ⟨3, 0⟩) with
    ⟨e | reply, s'⟩
  · rw [answered] at taken
    cases taken
  · rw [answered, Except.toOption, Option.some.injEq] at taken
    have idle : (AgentInfo.reporting "agent-1" .idle).status = .idle := rfl
    obtain ⟨_, _, _, free, _⟩ :=
      idle_report_takes_held_jobs (.startingAt 0) (.startingAt ⟨1⟩) ops {} {} idle answered
    exact ⟨reply, rfl, by rw [taken], (free rfl).2.2⟩

/-- An unfinished job stays with an agent that reports itself idle, if the agent was cancelled before,
and likewise if the job was last said to be in an unknown state. -/
theorem idle_agents_keep_unfinished_jobs :
    let assigned := [Operation.schedule (.single "studios" "mingle" "unit") "studios" 1 none none
      ⟨0, 0⟩, .assign ⟨1⟩ "agent-1" ⟨1, 0⟩]
    let start := Scheduler.fresh (.startingAt 0) (.startingAt ⟨1⟩)
    let kept (s : Server) : Bool := s.scheduler.tables.jobs.any fun job =>
      !job.ignored && !job.isCompleted && job.isAssignedTo "agent-1"
    let cancelled :=
      (ping ⟨{}, start.after assigned, {}⟩ (.reporting "agent-1" .cancelled) (.still ⟨2, 0⟩)).2
    let unknown : Server := ⟨{}, start.after (assigned ++ [.reportState ⟨1⟩ .unknown ⟨2, 0⟩]), {}⟩
    let idle := AgentInfo.reporting "agent-1" .idle
    ((cancelled.ping idle (.still ⟨3, 0⟩)).1.toOption = some ⟨.cancelled, []⟩ ∧
      kept (cancelled.ping idle (.still ⟨3, 0⟩)).2 = true) ∧
    (unknown.ping idle (.still ⟨3, 0⟩)).1.toOption = some ⟨.idle, []⟩ ∧
      kept (unknown.ping idle (.still ⟨3, 0⟩)).2 = true := by
  decide +kernel

end Server

end BuildServer
