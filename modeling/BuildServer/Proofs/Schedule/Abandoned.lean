import BuildServer.Proofs.Schedule.Renewal
import BuildServer.Proofs.Schedule.Waiting
/-!
# The jobs of an idle agent

An agent that has nothing to do has lost the jobs it was working on, and for each of them a replacement
is requested. The requests are transactions of their own, so what has to be seen is that none of them
gets in the way of another: a replacement leaves the job behind, adds a fresh instance that no agent
has, and touches no other job. Hence every job for which a replacement was requested is still there,
unchanged, when its turn comes, and unless the store fails it is replaced; and no agent holds a job
afterwards that it did not hold before.
-/

set_option autoImplicit false

namespace BuildServer

open Workspace

/-! ## Jobs that an agent holds -/

/-- A job that an agent holds is neither finished nor replaced. -/
theorem JobInstance.HeldBy.replaceable {job : JobInstance} {agent : String} (h : job.HeldBy agent) :
    job.Replaceable where
  notCompleted := by
    have running := h.running
    rw [isRunning] at running
    rw [isCompleted, beq_eq_false_iff_ne]
    intro completed
    rw [completed] at running
    cases running
  live := h.live
  notRescheduled := by
    have running := h.running
    rw [isRunning] at running
    rw [isRescheduled, beq_eq_false_iff_ne]
    intro rescheduled
    rw [rescheduled] at running
    cases running

/-- The jobs that were replaced on the way from one state of the tables to another, as the scheduler
lists them. -/
structure JobTables.Replacements (before after : JobTables) (jobs : List JobInstance) : Prop where
  /-- Each is listed once. -/
  distinct : (jobs.map (·.id)).Nodup
  ordered : jobs.Pairwise fun first next => first.scheduleOrder < next.scheduleOrder
  /-- They are the live jobs that have been left behind. -/
  mem_iff : ∀ job, job ∈ jobs ↔ job ∈ before.jobs ∧ job.ignored = false ∧
    ∃ now, after.findJob? job.id = some (job.retire now)
  /-- Each has an instance in its place that was not there before and waits. -/
  renewed : ∀ job ∈ jobs, ∃ new, before.findJob? new.id = none ∧ after.findJob? new.id = some new ∧
    new.identifier = job.identifier ∧ JobTables.isWaiting new = true

namespace Workspace

variable {w : Workspace}

/-- The jobs of an agent are a part of the tables, in the order of the tables. -/
theorem Sound.activeJobsOf_sublist (sound : w.Sound) (agent : String) :
    (w.tables.activeJobsOf agent).Sublist w.tables.jobs := by
  have ordered := sound.ordered.sublist ((List.filter_sublist (l := w.tables.jobs)
    (p := fun job => job.isAssignedTo agent && job.isRunning && !job.ignored)).map (·.scheduleOrder))
  rw [JobTables.activeJobsOf, JobTables.inOrder_eq_of_perm ordered (.refl _)]
  exact List.filter_sublist

/-- Jobs that stood in the tables by rising order are listed as they should be, once they have been
replaced. -/
theorem Sound.replacements {renewals : List Renewal} {after : JobTables}
    (sound : w.Sound) (h : w.tables.Renewed renewals after)
    (part : (renewals.map (·.old)).Sublist w.tables.jobs)
    (live : ∀ job ∈ renewals.map (·.old), job.ignored = false) :
    w.tables.Replacements after (renewals.map (·.old)) where
  distinct := sound.distinct.sublist (part.map (·.id))
  ordered := by
    have ordered := sound.ordered.sublist (part.map (·.scheduleOrder))
    rwa [List.pairwise_map] at ordered
  mem_iff job := by
    constructor
    · intro hjob
      obtain ⟨r, hr, rfl⟩ := List.mem_map.mp hjob
      exact ⟨part.subset hjob, live r.old hjob, r.time, h.findJob?_old hr⟩
    · rintro ⟨hjob, hlive, _, retired⟩
      have hfound := JobTables.findJob?_of_mem sound.distinct hjob
      by_cases listed : job.id ∈ renewals.map (·.old.id)
      · obtain ⟨r, hr, same⟩ := List.mem_map.mp listed
        have stored := h.stored r hr
        rw [same, hfound, Option.some.injEq] at stored
        exact stored ▸ List.mem_map_of_mem hr
      · -- a job that was not replaced is as it was, and it was not left behind
        rw [h.findJob?_other listed hfound, Option.some.injEq] at retired
        rw [retired] at hlive
        cases hlive
  renewed job hjob := by
    obtain ⟨r, hr, rfl⟩ := List.mem_map.mp hjob
    obtain ⟨absent, found⟩ := h.findJob?_new hr
    refine ⟨r.new, absent, found, ?_, ?_⟩
    · rw [h.scheduled r hr]
      rfl
    · rw [h.scheduled r hr]
      rfl

end Workspace

namespace Scheduler

/-- Where nothing was done, no job was replaced. -/
theorem Sound.replacements_nil {s : Scheduler} (sound : s.Sound) :
    s.tables.Replacements s.tables [] := by
  obtain ⟨w, cache, rfl, sound⟩ := sound
  refine sound.replacements (.nil w.tables) (List.nil_sublist _) ?_
  intro job hjob
  cases hjob

variable {w : Workspace} {cache : StatusCache} {s' : Scheduler} {clock : Clock} {agent : String}
  {ids : List Uuid}

/-- Requests for the jobs of an agent, if none of them fails, replace exactly the jobs that it
holds. -/
theorem rescheduleAbandoned_renewed (sound : w.Sound)
    (h : rescheduleAbandoned agent clock ⟨.memory w, cache⟩ = (.ok ids, s')) :
    ∃ renewals w', renewals.map (·.old) = w.tables.activeJobsOf agent ∧
      ids = (w.tables.activeJobsOf agent).map (·.id) ∧
      (∀ place r, renewals[place]? = some r → r.time = clock place) ∧
      w.tables.Renewed renewals w'.tables ∧
      s' = ⟨.memory w', (renewals.map (·.new)).foldl StatusCache.update cache⟩ := by
  rw [rescheduleAbandoned, run_bind, run_transact] at h
  refine rescheduleEach_renewed sound ?_ ?_ ?_ h
  · exact sound.distinct.sublist ((sound.activeJobsOf_sublist agent).map (·.id))
  · intro job hjob
    exact JobTables.findJob?_of_mem sound.distinct (JobTables.mem_activeJobsOf.mp hjob).1
  · intro job hjob
    exact (JobTables.mem_activeJobsOf.mp hjob).2.replaceable

/-- Requests for the jobs of an agent that do not fail leave it without a job that it holds. -/
theorem rescheduleAbandoned_ok {s : Scheduler} (sound : s.Sound)
    (h : rescheduleAbandoned agent clock s = (.ok ids, s')) :
    ids = (s.tables.activeJobsOf agent).map (·.id) ∧
      s.tables.Replacements s'.tables (s.tables.activeJobsOf agent) ∧
      ∀ job ∈ s'.tables.jobs, ¬ job.HeldBy agent := by
  obtain ⟨w, cache, rfl, sound⟩ := sound
  obtain ⟨renewals, w', olds, rfl, -, renewed, rfl⟩ := rescheduleAbandoned_renewed sound h
  rw [tables_memory, tables_memory]
  refine ⟨rfl, ?_, ?_⟩
  · rw [← olds]
    refine sound.replacements renewed (olds ▸ sound.activeJobsOf_sublist agent) ?_
    intro job hjob
    rw [olds] at hjob
    exact (JobTables.mem_activeJobsOf.mp hjob).2.live
  · intro job hjob held
    -- a job that the agent holds was there before, so it was replaced
    have assigned : job.agent ≠ none := by
      rw [held.agent_eq]
      exact Option.some_ne_none agent
    obtain ⟨before, other⟩ := renewed.mem_of_assigned hjob held.live assigned
    have listed : job ∈ renewals.map (·.old) := olds ▸ JobTables.mem_activeJobsOf.mpr ⟨before, held⟩
    refine other ?_
    obtain ⟨r, hr, rfl⟩ := List.mem_map.mp listed
    exact List.mem_map_of_mem hr

/-- For an agent that holds no job there is nothing to do. -/
theorem rescheduleAbandoned_nil (free : ∀ job ∈ w.tables.jobs, ¬ job.HeldBy agent) :
    rescheduleAbandoned agent clock ⟨.memory w, cache⟩ = (.ok [], ⟨.memory w, cache⟩) := by
  have none_listed : w.tables.activeJobsOf agent = [] := by
    rw [List.eq_nil_iff_forall_not_mem]
    intro job hjob
    obtain ⟨stored, held⟩ := JobTables.mem_activeJobsOf.mp hjob
    exact free job stored held
  rw [rescheduleAbandoned, run_bind, run_transact, Transaction.run_read, none_listed]
  rfl

/-- Wherever a run has come to, the requests for an agent that do not fail, and they fail only if a
failure of the store was set up, list the jobs that it holds, each once and by rising order. These are
left behind, each with a fresh instance in its place that no agent has, and there is no other change
of jobs and plans. No job is held by the agent afterwards, so that to ask again changes nothing. -/
theorem abandoned_jobs_renewed (keys : OrderKeys) (source : IdSource) (ops : List Operation)
    (agent : String) (clock : Clock) :
    let s := (fresh keys source).after ops
    (s.planFailureArmed = false → ∃ ids s', rescheduleAbandoned agent clock s = (.ok ids, s')) ∧
      ∀ ids s', rescheduleAbandoned agent clock s = (.ok ids, s') → ∃ renewals,
        ids = renewals.map (·.old.id) ∧ ids.Nodup ∧
        renewals.Pairwise (fun r next => r.old.scheduleOrder < next.old.scheduleOrder) ∧
        (∀ job, job ∈ renewals.map (·.old) ↔ job ∈ s.tables.jobs ∧ job.ignored = false ∧
          job.agent = some agent ∧
          job.state ∈ [.scheduled, .assigned, .preparing, .building, .completing]) ∧
        s.tables.Renewed renewals s'.tables ∧
        (∀ place r, renewals[place]? = some r → r.time = clock place) ∧
        (∀ r ∈ renewals,
          s'.tables.findJob? r.old.id = some { r.old with
            state := .rescheduled
            ignored := true
            transitions := r.old.transitions ++ [⟨.rescheduled, r.time⟩] } ∧
          s'.tables.findJob? r.new.id = some r.new ∧ r.new.identifier = r.old.identifier ∧
          r.new.state = .scheduled ∧ r.new.agent = none ∧ r.new.ignored = false) ∧
        (∀ job ∈ s'.tables.jobs, ¬ job.HeldBy agent) ∧
        ∀ later, rescheduleAbandoned agent later s' = (.ok [], s') := by
  intro s
  have sound : s.Sound := sound_after_fresh keys source ops
  refine ⟨rescheduleAbandoned_succeeds sound agent clock, ?_⟩
  intro ids s' h
  -- that no job is left with the agent is what makes a second request idle
  obtain ⟨-, -, free⟩ := rescheduleAbandoned_ok sound h
  clear_value s
  obtain ⟨w, cache, rfl, hw⟩ := sound
  obtain ⟨renewals, w', olds, rfl, times, renewed, rfl⟩ := rescheduleAbandoned_renewed hw h
  -- the jobs left behind stand in the tables by rising order, so they are listed that way
  have part : (renewals.map (·.old)).Sublist w.tables.jobs := olds ▸ hw.activeJobsOf_sublist agent
  have ordered := hw.ordered.sublist (part.map (·.scheduleOrder))
  rw [List.pairwise_map, List.pairwise_map] at ordered
  have listed : (w.tables.activeJobsOf agent).map (·.id) = renewals.map (·.old.id) := by
    rw [← olds, List.map_map]
    rfl
  refine ⟨renewals, listed, listed ▸ renewed.once, ordered, ?_, renewed, times, ?_, free, ?_⟩
  · intro job
    rw [olds, JobTables.mem_activeJobsOf, JobInstance.heldBy_iff]
    rfl
  · intro r hr
    refine ⟨renewed.findJob?_old hr, (renewed.findJob?_new hr).2, ?_⟩
    rw [renewed.scheduled r hr]
    exact ⟨rfl, rfl, rfl, rfl⟩
  · intro later
    exact rescheduleAbandoned_nil free

/-- An agent that has lost a job is left without one, and asking again changes nothing. -/
theorem lost_job_renewed_once :
    let s := (fresh (.startingAt 0) (.startingAt ⟨1⟩)).after
      [.schedule (.single "studios" "mingle" "unit") "studios" 1 none none ⟨0, 0⟩,
        .assign ⟨1⟩ "agent-1" ⟨1, 0⟩, .reportState ⟨1⟩ .building ⟨2, 0⟩]
    ∃ s', rescheduleAbandoned "agent-1" (.still ⟨3, 0⟩) s = (.ok [⟨1⟩], s') ∧
      ∀ later, rescheduleAbandoned "agent-1" later s' = (.ok [], s') := by
  intro s
  obtain ⟨succeeds, renewed⟩ := abandoned_jobs_renewed (.startingAt 0) (.startingAt ⟨1⟩)
    [.schedule (.single "studios" "mingle" "unit") "studios" 1 none none ⟨0, 0⟩,
      .assign ⟨1⟩ "agent-1" ⟨1, 0⟩, .reportState ⟨1⟩ .building ⟨2, 0⟩] "agent-1" (.still ⟨3, 0⟩)
  have unarmed : s.planFailureArmed = false := by decide +kernel
  have given : (rescheduleAbandoned "agent-1" (.still ⟨3, 0⟩) s).1.toOption = some [⟨1⟩] := by
    decide +kernel
  obtain ⟨ids, s', h⟩ := succeeds unarmed
  have answer : rescheduleAbandoned "agent-1" (.still ⟨3, 0⟩) s = (.ok ids, s') := h
  rw [answer, Except.toOption, Option.some.injEq] at given
  subst given
  obtain ⟨_, _, _, _, _, _, _, _, _, again⟩ := renewed _ s' h
  exact ⟨s', answer, again⟩

end Scheduler

end BuildServer
