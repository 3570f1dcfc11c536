import BuildServer.Proofs.Schedule.Run
/-!
# Operations that fail

An operation that fails leaves jobs, plans and cache as they were. Where it is one transaction this is
how transactions work: what failed is dropped, and after the commit only the cache is told, which
cannot fail.

The requests for an agent are several transactions, and a later one might fail when an earlier one has
been committed. But the requests are for jobs that are stored, and those fail only if a failure of the
store was set up; then it is the first replacement that fails.

Some operations succeed and have nothing to do, since the job is over or was replaced. These leave
everything as it was, the numbers and identifiers that are handed out included.
-/

set_option autoImplicit false

namespace BuildServer.Scheduler

open Workspace

variable {s s' s₁ : Scheduler} {now : Instant} {clock : Clock} {jobs : List JobInstance} {e : ScheduleError}

/-- Jobs, plans and cache are those of before. -/
structure Unchanged (s s' : Scheduler) : Prop where
  tables : s'.tables = s.tables
  cache : s'.cache = s.cache

theorem Unchanged.refl (s : Scheduler) : s.Unchanged s := ⟨rfl, rfl⟩

/-! ## A single transaction -/

section Transact

variable {α β : Type} {work : Transaction ScheduleError α} {next : α → Scheduling β}

/-- A transaction that fails is dropped. -/
theorem unchanged_of_transact (h : transact work s = (.error e, s')) : s.Unchanged s' := by
  rcases s with ⟨w | _, cache⟩
  · rw [run_transact] at h
    rcases hwork : work w with ⟨failure | a, after⟩
    · rw [hwork, Prod.mk.injEq] at h
      rw [← h.2]
      exact ⟨rfl, rfl⟩
    · rw [hwork] at h
      cases h
  · -- a store that is out of reach is left alone
    cases h
    exact .refl _

/-- Where nothing fails after the transaction, it is the transaction that fails. -/
theorem unchanged_of_transact_bind (succeeds : ∀ a s₁, ∃ b s', next a s₁ = (.ok b, s'))
    (h : (transact work >>= next) s = (.error e, s')) : s.Unchanged s' := by
  rw [run_bind] at h
  rcases hwork : transact work s with ⟨failure | a, s₁⟩
  · rw [hwork, Prod.mk.injEq] at h
    obtain ⟨_, rfl⟩ := h
    exact unchanged_of_transact hwork
  · obtain ⟨b, s₂, done⟩ := succeeds a s₁
    rw [hwork] at h
    dsimp only at h
    rw [done] at h
    cases h

end Transact

theorem unchanged_of_scheduleStage {catalog : Catalog} {pipelineName : String} {counter : Int}
    {label stageName : Option String}
    (h : scheduleStage catalog pipelineName counter label stageName now s = (.error e, s')) :
    s.Unchanged s' := by
  rw [scheduleStage] at h
  rcases hpipeline : catalog.find? pipelineName with _ | pipeline
  · rw [hpipeline] at h
    cases h
    exact .refl s
  rw [hpipeline] at h
  dsimp only at h
  rcases hstage : chooseStage pipeline stageName with failure | stage
  · rw [hstage] at h
    cases h
    exact .refl s
  rw [hstage] at h
  refine unchanged_of_transact_bind ?_ h
  intro jobs s₁
  refine ⟨jobs, { s₁ with cache := jobs.foldl StatusCache.update s₁.cache }, ?_⟩
  rw [run_bind, run_noteEach]
  rfl

/-- Looking a job up changes nothing, wherever the store is. -/
theorem eq_of_find {id : Uuid} {outcome : Except ScheduleError JobInstance}
    (h : find id s = (outcome, s')) : s' = s := by
  rcases s with ⟨w | _, cache⟩
  · rw [run_find] at h
    split at h <;> cases h <;> rfl
  · cases h
    rfl

theorem unchanged_of_reschedule {id : Uuid} (h : reschedule id now s = (.error e, s')) :
    s.Unchanged s' := by
  rw [reschedule, run_bind] at h
  rcases hfind : find id s with ⟨failure | job, s₁⟩
  · rw [hfind, Prod.mk.injEq] at h
    rw [← h.2, eq_of_find hfind]
    exact .refl s
  · rw [hfind, eq_of_find hfind] at h
    refine unchanged_of_transact_bind ?_ h
    rintro (new | reason) s₁
    · exact ⟨_, _, rfl⟩
    · exact ⟨_, _, rfl⟩

theorem unchanged_of_change {id : Uuid}
    {f : JobInstance → Except ScheduleError (Option JobInstance)}
    (h : change id f s = (.error e, s')) : s.Unchanged s' := by
  refine unchanged_of_transact_bind ?_ h
  rintro ⟨job, changed⟩ s₁
  cases changed with
  | true => exact ⟨job, _, rfl⟩
  | false => exact ⟨job, s₁, rfl⟩

/-! ## The requests for an agent -/

/-- The next insertion of a plan fails. -/
def planFailureArmed (s : Scheduler) : Bool :=
  match s.store with
  | .memory w => w.planFailureArmed
  | .unreachable => false

/-- The jobs are in the tables. -/
def Stores (s : Scheduler) (jobs : List JobInstance) : Prop :=
  ∀ job ∈ jobs, ∃ stored, s.tables.findJob? job.id = some stored

theorem Stores.tail {job : JobInstance} (h : s.Stores (job :: jobs)) : s.Stores jobs :=
  fun other hother => h other (List.mem_cons_of_mem _ hother)

/-- What is stored stays stored. -/
theorem Stores.step {event : Event} (h : s.Stores jobs) (step : Step event s s') :
    s'.Stores jobs := by
  intro job hjob
  obtain ⟨stored, found⟩ := h job hjob
  obtain ⟨later, hlater, _⟩ := step.fate found
  exact ⟨later, hlater⟩

/-- How a request to replace a stored job comes out. -/
theorem reschedule_stored {job : JobInstance} {outcome : Except ScheduleError RescheduleOutcome}
    (sound : s.Sound) (stores : s.Stores (job :: jobs))
    (h : reschedule job.id now s = (outcome, s₁)) :
    (∃ failure, outcome = .error failure ∧ s.planFailureArmed = true) ∨
      (∃ reason, outcome = .ok (.kept reason) ∧ s₁ = s) ∨
      ∃ new, outcome = .ok (.rescheduled new) ∧ s.planFailureArmed = false ∧
        s₁.planFailureArmed = false ∧ s₁.Sound ∧ s₁.Stores jobs := by
  obtain ⟨stored, hstored⟩ := stores job List.mem_cons_self
  have hsound := sound
  obtain ⟨w, cache, rfl, hw⟩ := sound
  cases reschedule_cases hw h with
  | missing missing =>
    rw [tables_memory, missing] at hstored
    cases hstored
  | completed => exact Or.inr (Or.inl ⟨_, rfl, rfl⟩)
  | rescheduled => exact Or.inr (Or.inl ⟨_, rfl, rfl⟩)
  | failed _ _ armed => exact Or.inl ⟨_, rfl, armed⟩
  | @replaced old new w' _ replaced before after =>
    have step : Step (.replaced old new) ⟨.memory w, cache⟩ _ := .replaced replaced
    exact Or.inr (Or.inr ⟨new, rfl, before, after, step.sound hsound, stores.tail.step step⟩)

/-- Without a failure that was set up no request for a stored job fails. -/
theorem rescheduleEach_ok (clock : Clock) (sound : s.Sound) (stores : s.Stores jobs)
    (unarmed : s.planFailureArmed = false) :
    ∃ ids s', rescheduleEach clock jobs s = (.ok ids, s') := by
  induction jobs generalizing clock s with
  | nil => exact ⟨[], s, rfl⟩
  | cons job jobs ih =>
    rw [rescheduleEach, run_bind]
    rcases hfirst : reschedule job.id (clock 0) s with ⟨outcome, s₁⟩
    rcases reschedule_stored sound stores hfirst with
      ⟨failure, rfl, armed⟩ | ⟨reason, rfl, rfl⟩ | ⟨new, rfl, _, hunarmed, hsound, hstores⟩
    · rw [unarmed] at armed
      cases armed
    · exact ih clock sound stores.tail unarmed
    · obtain ⟨ids, s₂, more⟩ := ih clock.rest hsound hstores hunarmed
      refine ⟨job.id :: ids, s₂, ?_⟩
      dsimp only
      rw [run_bind, more]
      rfl

/-- If one of the requests for stored jobs fails, none before it has ended in a replacement. -/
theorem unchanged_of_rescheduleEach (sound : s.Sound) (stores : s.Stores jobs)
    (h : rescheduleEach clock jobs s = (.error e, s')) : s.Unchanged s' := by
  induction jobs generalizing s clock with
  | nil => cases h
  | cons job jobs ih =>
    rw [rescheduleEach, run_bind] at h
    rcases hfirst : reschedule job.id (clock 0) s with ⟨outcome, s₁⟩
    rw [hfirst] at h
    rcases reschedule_stored sound stores hfirst with
      ⟨failure, rfl, _⟩ | ⟨reason, rfl, rfl⟩ | ⟨new, rfl, _, hunarmed, hsound, hstores⟩
    · rw [Prod.mk.injEq] at h
      obtain ⟨_, rfl⟩ := h
      exact unchanged_of_reschedule hfirst
    · exact ih sound stores.tail h
    · -- a replacement goes through only if no failure was set up, and then the rest succeeds
      obtain ⟨ids, s₂, more⟩ := rescheduleEach_ok clock.rest hsound hstores hunarmed
      dsimp only at h
      rw [run_bind, more] at h
      cases h

theorem stores_activeJobsOf {w : Workspace} (sound : w.Sound) (cache : StatusCache) (agent : String) :
    Stores ⟨.memory w, cache⟩ (w.tables.activeJobsOf agent) := by
  intro job hjob
  exact ⟨job, JobTables.findJob?_of_mem sound.distinct (JobTables.mem_activeJobsOf.mp hjob).1⟩

/-- Without a failure that was set up the requests for an agent succeed. -/
theorem rescheduleAbandoned_succeeds (sound : s.Sound) (agent : String) (clock : Clock)
    (unarmed : s.planFailureArmed = false) :
    ∃ ids s', rescheduleAbandoned agent clock s = (.ok ids, s') := by
  have hsound := sound
  obtain ⟨w, cache, rfl, hw⟩ := sound
  rw [rescheduleAbandoned, run_bind, run_transact]
  exact rescheduleEach_ok clock hsound (stores_activeJobsOf hw cache agent) unarmed

theorem unchanged_of_rescheduleAbandoned {agent : String} (sound : s.Sound)
    (h : rescheduleAbandoned agent clock s = (.error e, s')) : s.Unchanged s' := by
  have hsound := sound
  obtain ⟨w, cache, rfl, hw⟩ := sound
  rw [rescheduleAbandoned, run_bind, run_transact] at h
  exact unchanged_of_rescheduleEach hsound (stores_activeJobsOf hw cache agent) h

/-! ## Operations -/

/-- An operation that fails leaves jobs, plans and cache as they were. -/
theorem unchanged_of_error (sound : s.Sound) (op : Operation) (failed : (op.run s).1 = .error e) :
    s.Unchanged (op.perform s) := by
  have h : op.run s = (.error e, op.perform s) := Prod.ext failed rfl
  cases op with
  | schedule => exact unchanged_of_scheduleStage h
  | reschedule => exact unchanged_of_reschedule h
  | rescheduleAbandoned => exact unchanged_of_rescheduleAbandoned sound h
  | reportState id state now =>
    rw [Operation.run, reportState, run_ite] at h
    by_cases rescheduled : state = .rescheduled
    · rw [if_pos rescheduled, run_throw, Prod.mk.injEq] at h
      rw [← h.2]
      exact .refl s
    · rw [if_neg rescheduled] at h
      exact unchanged_of_change h
  | assign | complete | cancel => exact unchanged_of_change h
  | armPlanFailure => cases failed

/-! ## Operations that come to nothing -/

/-- A request to replace a job that leaves the job as it is leaves everything as it is. -/
theorem eq_of_kept {id : Uuid} {reason : KeptReason} (sound : s.Sound)
    (h : reschedule id now s = (.ok (.kept reason), s')) : s' = s := by
  obtain ⟨w, cache, rfl, hw⟩ := sound
  cases reschedule_cases hw h with
  | completed | rescheduled => rfl

/-- Where a change lets the stored job alone, the job is given back and nothing happens. -/
theorem change_alone {id : Uuid} {job : JobInstance}
    {f : JobInstance → Except ScheduleError (Option JobInstance)} (sound : s.Sound)
    (found : s.tables.findJob? id = some job) (alone : f job = .ok none) :
    change id f s = (.ok job, s) := by
  obtain ⟨w, cache, rfl, _⟩ := sound
  have keeps : ∀ new, f job = .ok (some new) → new.id = job.id := by
    intro new hf
    rw [alone] at hf
    cases hf
  rw [run_change found keeps, alone]

/-- Where a change is refused for the stored job, nothing happens. -/
theorem change_refused {id : Uuid} {job : JobInstance}
    {f : JobInstance → Except ScheduleError (Option JobInstance)} (sound : s.Sound)
    (found : s.tables.findJob? id = some job) (refused : f job = .error e) :
    change id f s = (.error e, s) := by
  obtain ⟨w, cache, rfl, _⟩ := sound
  have keeps : ∀ new, f job = .ok (some new) → new.id = job.id := by
    intro new hf
    rw [refused] at hf
    cases hf
  rw [run_change found keeps, refused]

theorem complete_alone {id : Uuid} {job : JobInstance} (result : JobResult) (sound : s.Sound)
    (found : s.tables.findJob? id = some job) (completed : job.isCompleted = true) :
    complete id result now s = (.ok job, s) := by
  refine change_alone sound found ?_
  rw [if_pos completed]

theorem cancel_alone {id : Uuid} {job : JobInstance} (sound : s.Sound)
    (found : s.tables.findJob? id = some job)
    (closed : (job.isCompleted || job.isRescheduled) = true) :
    cancel id now s = (.ok job, s) := by
  refine change_alone sound found ?_
  rw [if_pos closed]

/-! ## Runs -/

/-- Wherever a run has come to, an operation that fails leaves jobs, plans and cache as they were, and
so do a request to replace a job that is kept, the completion of a job that is completed, and the
cancellation of one that is completed or was rescheduled. -/
theorem failures_and_refusals_change_nothing (keys : OrderKeys) (ids : IdSource)
    (ops : List Operation) :
    let s := (fresh keys ids).after ops
    (∀ (op : Operation) (e : ScheduleError), (op.run s).1 = .error e → s.Unchanged (op.perform s)) ∧
      (∀ (id : Uuid) (now : Instant) (reason : KeptReason) (s' : Scheduler),
        reschedule id now s = (.ok (.kept reason), s') → s' = s) ∧
      (∀ (id : Uuid) (result : JobResult) (now : Instant) (job : JobInstance),
        s.tables.findJob? id = some job → job.isCompleted = true →
          complete id result now s = (.ok job, s)) ∧
      ∀ (id : Uuid) (now : Instant) (job : JobInstance),
        s.tables.findJob? id = some job → (job.isCompleted || job.isRescheduled) = true →
          cancel id now s = (.ok job, s) := by
  intro s
  have sound : s.Sound := sound_after_fresh keys ids ops
  refine ⟨?_, ?_, ?_, ?_⟩
  · intro op e failed
    exact unchanged_of_error sound op failed
  · intro id now reason s' h
    exact eq_of_kept sound h
  · intro id result now job found completed
    exact complete_alone result sound found completed
  · intro id now job found closed
    exact cancel_alone sound found closed

/-- A store that fails while the jobs of an idle agent are replaced keeps them and their plans. -/
theorem abandoned_job_kept_by_failing_store :
    let s := (fresh (.startingAt 0) (.startingAt ⟨1⟩)).after
      [.schedule (.single "studios" "mingle" "unit") "studios" 1 (some "1") none ⟨0, 0⟩,
        .assign ⟨1⟩ "agent-1" ⟨5, 0⟩, .armPlanFailure]
    let op := Operation.rescheduleAbandoned "agent-1" (.still ⟨6, 0⟩)
    (∃ e, (op.run s).1 = .error e) ∧ s.Unchanged (op.perform s) := by
  intro s op
  have noIds : (op.run s).1.toOption = none := by decide +kernel
  obtain ⟨e, failed⟩ : ∃ e, (op.run s).1 = .error e := by
    rcases outcome : (op.run s).1 with e | ids
    · exact ⟨e, rfl⟩
    · rw [outcome] at noIds
      cases noIds
  exact ⟨⟨e, failed⟩, (failures_and_refusals_change_nothing (.startingAt 0) (.startingAt ⟨1⟩)
    [.schedule (.single "studios" "mingle" "unit") "studios" 1 (some "1") none ⟨0, 0⟩,
      .assign ⟨1⟩ "agent-1" ⟨5, 0⟩, .armPlanFailure]).1 op e failed⟩

end BuildServer.Scheduler
