import BuildServer.Proofs.Schedule.Transaction
/-!
# What operations do

Every operation of the scheduler runs one transaction and shows what it committed to the cache. For
each of them it is said here once, for a sound workspace, how it can come out: which outcome goes with
which change of the tables and of the cache. Nothing that is proved of runs of operations looks at
their code again.
-/

set_option autoImplicit false

namespace BuildServer.Scheduler

open Workspace

variable {w w' : Workspace} {cache : StatusCache} {s' : Scheduler} {id : Uuid} {now : Instant}

/-! ## Scheduling a stage -/

/-- How scheduling a stage of the named pipeline comes out. -/
inductive StageResult (catalog : Catalog) (pipelineName : String) (counter : Int)
    (label stageName : Option String) (w : Workspace) (cache : StatusCache) :
    Except ScheduleError (List JobInstance) → Scheduler → Prop
  /-- The stage is not to be found, or the store fails. -/
  | failed {w' : Workspace} (e : ScheduleError) : w'.tables = w.tables → w.Later w' →
      StageResult catalog pipelineName counter label stageName w cache (.error e)
        ⟨.memory w', cache⟩
  /-- The jobs of the stage, one for each that is configured, have joined the tables with the counter
  that follows the greatest one, each with a plan for what it asks for, and each was shown to the
  cache. -/
  | staged {w' : Workspace} {jobs : List JobInstance} {pipeline : PipelineConfig}
      {stage : StageConfig} :
      catalog.find? pipelineName = some pipeline → chooseStage pipeline stageName = .ok stage →
      Staged jobs w w' →
      jobs.map (·.identifier) = stage.jobs.map (.ofRun
        ⟨pipeline.name, counter, label.getD (toString counter)⟩ stage.name
        ((w.tables.maxStageCounter? pipeline.name counter stage.name).getD 0 + 1) ·.name) →
      w'.tables.requests
        = w.tables.requests ++ ((jobs.map (·.id)).zip stage.jobs).map JobPlan.requestFrom →
      StageResult catalog pipelineName counter label stageName w cache (.ok jobs)
        ⟨.memory w', jobs.foldl StatusCache.update cache⟩

theorem scheduleStage_cases {catalog : Catalog} {pipelineName : String} {counter : Int}
    {label stageName : Option String} {outcome : Except ScheduleError (List JobInstance)}
    (sound : w.Sound)
    (h : scheduleStage catalog pipelineName counter label stageName now ⟨.memory w, cache⟩
      = (outcome, s')) :
    StageResult catalog pipelineName counter label stageName w cache outcome s' := by
  rw [scheduleStage] at h
  -- a pipeline or stage that is not there is noticed before anything is drawn
  rcases hpipeline : catalog.find? pipelineName with _ | pipeline
  · rw [hpipeline] at h
    dsimp only at h
    rw [run_throw, Prod.mk.injEq] at h
    obtain ⟨rfl, rfl⟩ := h
    exact .failed _ rfl (.refl w)
  rcases hstage : chooseStage pipeline stageName with e | stage
  · rw [hpipeline] at h
    dsimp only at h
    rw [hstage] at h
    dsimp only at h
    rw [run_throw, Prod.mk.injEq] at h
    obtain ⟨rfl, rfl⟩ := h
    exact .failed _ rfl (.refl w)
  rw [hpipeline] at h
  dsimp only at h
  rw [hstage] at h
  dsimp only at h
  rw [run_bind, run_transact, run_insertStage] at h
  rcases heach : insertEach _ stage.name _ now stage.jobs w with ⟨inserted, after⟩
  rw [heach] at h
  rcases insertEach_cases sound heach with ⟨jobs, rfl, staged, names, requests⟩ | ⟨rfl, later⟩
  · dsimp only at h
    rw [run_bind, run_noteEach] at h
    dsimp only at h
    rw [run_pure, Prod.mk.injEq] at h
    obtain ⟨rfl, rfl⟩ := h
    exact .staged hpipeline hstage staged names requests
  · dsimp only at h
    rw [Prod.mk.injEq] at h
    obtain ⟨rfl, rfl⟩ := h
    exact .failed _ rfl ⟨later.ids, later.keys, later.paced⟩

/-! ## Replacing a job -/

/-- How a request to replace a job comes out. -/
inductive RescheduleResult (id : Uuid) (w : Workspace) (cache : StatusCache) :
    Except ScheduleError RescheduleOutcome → Scheduler → Prop
  | missing : w.tables.findJob? id = none →
      RescheduleResult id w cache (.error (.jobNotFound id)) ⟨.memory w, cache⟩
  /-- A completed job is left as it is. -/
  | completed {old : JobInstance} : w.tables.findJob? id = some old → old.isCompleted = true →
      RescheduleResult id w cache (.ok (.kept .completed)) ⟨.memory w, cache⟩
  /-- A job that was replaced before is left as it is. -/
  | rescheduled {old : JobInstance} : w.tables.findJob? id = some old → old.isCompleted = false →
      (old.ignored || old.isRescheduled) = true →
      RescheduleResult id w cache (.ok (.kept .rescheduled)) ⟨.memory w, cache⟩
  /-- The copy of the plan could not be stored, and nothing was changed. -/
  | failed {old : JobInstance} {w' : Workspace} : w.tables.findJob? id = some old →
      old.Replaceable → w.planFailureArmed = true → w'.tables = w.tables → w.Later w' →
      RescheduleResult id w cache (.error (.store .injected)) ⟨.memory w', cache⟩
  /-- A fresh instance has taken the place of the job, and was shown to the cache. No failure of the
  store was set up. -/
  | replaced {old new : JobInstance} {w' : Workspace} : old.id = id → Replaced old new w w' →
      w.planFailureArmed = false → w'.planFailureArmed = false →
      RescheduleResult id w cache (.ok (.rescheduled new)) ⟨.memory w', cache.update new⟩

/-- Looking a job up changes nothing. -/
theorem run_find (id : Uuid) (w : Workspace) (cache : StatusCache) :
    find id ⟨.memory w, cache⟩ = match w.tables.findJob? id with
      | some job => (.ok job, ⟨.memory w, cache⟩)
      | none => (.error (.jobNotFound id), ⟨.memory w, cache⟩) := by
  have looked : (read (·.findJob? id) : Scheduling (Option JobInstance)) ⟨.memory w, cache⟩
      = (.ok (w.tables.findJob? id), ⟨.memory w, cache⟩) := rfl
  rw [find, run_bind, looked]
  rcases w.tables.findJob? id with _ | job <;> rfl

/-- A request to replace a job is one transaction, and the cache is shown the instance that has taken
the place of the job. -/
theorem run_reschedule (id : Uuid) (now : Instant) (w : Workspace) (cache : StatusCache) :
    reschedule id now ⟨.memory w, cache⟩ = match replaceJob id now w with
      | (.ok (.rescheduled new), after) =>
        (.ok (.rescheduled new), ⟨.memory after, cache.update new⟩)
      | (.ok (.kept reason), after) => (.ok (.kept reason), ⟨.memory after, cache⟩)
      | (.error e, after) =>
        (.error e, ⟨.memory { after with tables := w.tables }, cache⟩) := by
  rw [reschedule, run_bind, run_find]
  rcases found : w.tables.findJob? id with _ | job
  · -- the transaction would not find the job either
    rw [run_replaceJob_missing found]
  · dsimp only
    rw [run_bind, run_transact]
    rcases replaceJob id now w with ⟨e | new | reason, after⟩ <;> rfl

/-- A job that can be replaced is replaced, unless a failure of the store was set up. -/
theorem run_reschedule_replaceable {old : JobInstance} {plan : JobPlan}
    (found : w.tables.findJob? id = some old) (replaceable : old.Replaceable)
    (planned : w.tables.findPlan? id = some plan) (unarmed : w.planFailureArmed = false) :
    reschedule id now ⟨.memory w, cache⟩ =
      let new := old.replacement w.ids.next.1 w.keys.next.1 now
      (.ok (.rescheduled new), ⟨.memory (w.withReplacement old plan now), cache.update new⟩) := by
  rw [run_reschedule, run_replaceJob found replaceable planned]
  dsimp only
  rw [unarmed, if_neg Bool.false_ne_true]
  rfl

theorem reschedule_cases {outcome : Except ScheduleError RescheduleOutcome} (sound : w.Sound)
    (h : reschedule id now ⟨.memory w, cache⟩ = (outcome, s')) :
    RescheduleResult id w cache outcome s' := by
  rcases found : w.tables.findJob? id with _ | old
  · rw [run_reschedule, run_replaceJob_missing found, Prod.mk.injEq] at h
    obtain ⟨rfl, rfl⟩ := h
    exact .missing found
  by_cases completed : old.isCompleted = true
  · rw [run_reschedule, run_replaceJob_completed found completed, Prod.mk.injEq] at h
    obtain ⟨rfl, rfl⟩ := h
    exact .completed found completed
  have notCompleted : old.isCompleted = false := Bool.eq_false_iff.mpr completed
  by_cases replaced : (old.ignored || old.isRescheduled) = true
  · rw [run_reschedule, run_replaceJob_rescheduled found notCompleted replaced,
      Prod.mk.injEq] at h
    obtain ⟨rfl, rfl⟩ := h
    exact .rescheduled found notCompleted replaced
  rw [Bool.or_eq_true, not_or, Bool.not_eq_true, Bool.not_eq_true] at replaced
  have replaceable : old.Replaceable := ⟨notCompleted, replaced.1, replaced.2⟩
  -- every job has its plan, so the replacement never fails for want of one
  obtain ⟨plan, planned⟩ := JobTables.findPlan?_isSome sound.planIds found
  by_cases armed : w.planFailureArmed = true
  · rw [run_reschedule, run_replaceJob found replaceable planned] at h
    dsimp only at h
    rw [if_pos armed, Prod.mk.injEq] at h
    obtain ⟨rfl, rfl⟩ := h
    refine .failed found replaceable armed rfl (Workspace.later_of_next ?_ rfl)
    exact (JobPlan.between_make _ plan.identifier plan.resourceNames _ _).later
  · rw [Bool.not_eq_true] at armed
    rw [run_reschedule_replaceable found replaceable planned armed, Prod.mk.injEq] at h
    obtain ⟨rfl, rfl⟩ := h
    have hold : old.id = id := JobTables.id_of_findJob? found
    subst hold
    exact .replaced rfl (sound.replaced found replaceable planned now) armed armed

/-! ## Changing a job -/

/-- What a change makes of a job that must wait for it. -/
theorem eq_of_waiting {job next new : JobInstance} {e : ScheduleError}
    (h : (if JobTables.isWaiting job then .ok (some next) else .error e :
      Except ScheduleError (Option JobInstance)) = .ok (some new)) :
    JobTables.isWaiting job = true ∧ new = next := by
  by_cases waits : JobTables.isWaiting job = true
  · rw [if_pos waits, Except.ok.injEq, Option.some.injEq] at h
    exact ⟨waits, h.symm⟩
  · rw [if_neg waits] at h
    cases h

/-- What a change makes of a job that is let alone on a condition. -/
theorem eq_of_unless {alone : Bool} {job new : JobInstance}
    (h : (Except.ok (if alone then none else some job) : Except ScheduleError (Option JobInstance))
      = .ok (some new)) : alone = false ∧ new = job := by
  cases alone with
  | true => cases h
  | false =>
    rw [if_neg Bool.false_ne_true, Except.ok.injEq, Option.some.injEq] at h
    exact ⟨rfl, h.symm⟩

/-- A job is let alone only on the condition. -/
theorem alone_of_none {alone : Bool} {job : JobInstance}
    (h : (Except.ok (if alone then none else some job) : Except ScheduleError (Option JobInstance))
      = .ok none) : alone = true := by
  cases alone with
  | true => rfl
  | false => cases h

/-- A change of a stored job is one transaction, and the job is shown to the cache if it was changed. -/
theorem run_change {f : JobInstance → Except ScheduleError (Option JobInstance)} {old : JobInstance}
    (found : w.tables.findJob? id = some old)
    (keeps : ∀ new, f old = .ok (some new) → new.id = old.id) :
    change id f ⟨.memory w, cache⟩ = match f old with
      | .error e => (.error e, ⟨.memory w, cache⟩)
      | .ok none => (.ok old, ⟨.memory w, cache⟩)
      | .ok (some new) => (.ok new, ⟨.memory (w.withJob new), cache.update new⟩) := by
  rw [change, run_bind, run_transact, run_changeJob found keeps]
  rcases f old with e | _ | new <;> rfl

/-- How a change of a job comes out. -/
inductive ChangeResult (id : Uuid) (f : JobInstance → Except ScheduleError (Option JobInstance))
    (w : Workspace) (cache : StatusCache) : Except ScheduleError JobInstance → Scheduler → Prop
  | missing : w.tables.findJob? id = none →
      ChangeResult id f w cache (.error (.jobNotFound id)) ⟨.memory w, cache⟩
  | refused {old : JobInstance} {e : ScheduleError} : w.tables.findJob? id = some old →
      f old = .error e → ChangeResult id f w cache (.error e) ⟨.memory w, cache⟩
  /-- There was nothing to change. -/
  | unchanged {old : JobInstance} : w.tables.findJob? id = some old → f old = .ok none →
      ChangeResult id f w cache (.ok old) ⟨.memory w, cache⟩
  /-- The job was put in again, and shown to the cache. -/
  | changed {old new : JobInstance} : w.tables.findJob? id = some old → f old = .ok (some new) →
      ChangeResult id f w cache (.ok new) ⟨.memory (w.withJob new), cache.update new⟩

theorem change_cases {f : JobInstance → Except ScheduleError (Option JobInstance)}
    {outcome : Except ScheduleError JobInstance}
    (keeps : ∀ old new, f old = .ok (some new) → new.id = old.id)
    (h : change id f ⟨.memory w, cache⟩ = (outcome, s')) :
    ChangeResult id f w cache outcome s' := by
  rcases found : w.tables.findJob? id with _ | old
  · rw [change, run_bind, run_transact, run_changeJob_missing found, Prod.mk.injEq] at h
    obtain ⟨rfl, rfl⟩ := h
    exact .missing found
  rw [run_change found (keeps old)] at h
  rcases hf : f old with e | _ | new
  · rw [hf, Prod.mk.injEq] at h
    obtain ⟨rfl, rfl⟩ := h
    exact .refused found hf
  · rw [hf, Prod.mk.injEq] at h
    obtain ⟨rfl, rfl⟩ := h
    exact .unchanged found hf
  · rw [hf, Prod.mk.injEq] at h
    obtain ⟨rfl, rfl⟩ := h
    exact .changed found hf

end BuildServer.Scheduler
