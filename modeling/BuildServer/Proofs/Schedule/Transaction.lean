import BuildServer.Proofs.Schedule.Workspace
import BuildServer.Schedule.Scheduler
/-!
# What transactions do

The parts of a transaction are written as code that may fail over a workspace. The first section says
what one step of such code does to the state it is given; with it each part is run once, here, and
from then on only what it did is spoken of: which fresh instances it inserted, which job it replaced,
which job it put in again, or that it only drew from the sources.
-/

set_option autoImplicit false

namespace BuildServer

/-! ## Running code that may fail -/

section Running

variable {σ ε α β : Type}

theorem run_bind (x : ExceptT ε (StateM σ) α) (f : α → ExceptT ε (StateM σ) β) (s : σ) :
    (x >>= f) s = match x s with
      | (.ok a, s') => f a s'
      | (.error e, s') => (.error e, s') := by
  simp only [bind, ExceptT.bind, ExceptT.mk, StateT.bind]
  rcases x s with ⟨e | a, s'⟩ <;> rfl

theorem run_pure (a : α) (s : σ) : (pure a : ExceptT ε (StateM σ) α) s = (.ok a, s) := rfl

theorem run_throw (e : ε) (s : σ) : (throw e : ExceptT ε (StateM σ) α) s = (.error e, s) := rfl

theorem run_get (s : σ) : (get : ExceptT ε (StateM σ) σ) s = (.ok s, s) := rfl

theorem run_ite {c : Prop} [Decidable c] (x y : ExceptT ε (StateM σ) α) (s : σ) :
    (if c then x else y) s = if c then x s else y s := by
  split <;> rfl

end Running

namespace Transaction

variable {ε : Type} (w : Workspace)

theorem run_read {α : Type} (f : JobTables → α) :
    (read f : Transaction ε α) w = (.ok (f w.tables), w) := rfl

theorem run_nextKey :
    (nextKey : Transaction ε Int) w = (.ok w.keys.next.1, { w with keys := w.keys.next.2 }) := rfl

theorem run_nextId :
    (nextId : Transaction ε Uuid) w = (.ok w.ids.next.1, { w with ids := w.ids.next.2 }) := rfl

theorem run_draftPlan (draft : IdSource → JobPlan × IdSource) :
    (draftPlan draft : Transaction ε JobPlan) w
      = (.ok (draft w.ids).1, { w with ids := (draft w.ids).2 }) := rfl

theorem run_insertJob (job : JobInstance) :
    (insertJob job : Transaction ε Unit) w = (.ok (), w.withJob job) := rfl

/-- Work of the store is carried over with its failures named as the scheduler's. -/
theorem run_lift {α : Type} (work : Transaction StoreError α) :
    (liftM work : Transaction ScheduleError α) w = match work w with
      | (.ok a, w') => (.ok a, w')
      | (.error e, w') => (.error (.store e), w') := by
  have carried : (liftM work : Transaction ScheduleError α) w
      = ((work w).1.mapError .store, (work w).2) := rfl
  rw [carried]
  rcases work w with ⟨e | a, w'⟩ <;> rfl

/-- A job that is there can be put in again. -/
theorem run_updateJob {job old : JobInstance} (found : w.tables.findJob? job.id = some old) :
    (updateJob job : Transaction StoreError Unit) w = (.ok (), w.withJob job) := by
  rw [updateJob, run_bind, run_read, found]
  rfl

theorem run_insertPlan (plan : JobPlan) :
    (insertPlan plan : Transaction StoreError Unit) w
      = if w.planFailureArmed then (.error .injected, { w with planFailureArmed := false })
        else (.ok (), { w with tables := w.tables.insertPlan plan }) := by
  rw [insertPlan, run_bind, run_get]
  dsimp only
  rw [run_ite]
  rfl

end Transaction

namespace Scheduler

open Transaction

variable {w w' : Workspace} {id : Uuid} {old : JobInstance}

/-! ## Looking up -/

theorem run_getJob (id : Uuid) (w : Workspace) :
    getJob id w = match w.tables.findJob? id with
      | some job => (.ok job, w)
      | none => (.error (.jobNotFound id), w) := by
  simp only [getJob, run_bind, run_read]
  cases w.tables.findJob? id <;> rfl

/-! ## The jobs of a stage -/

theorem run_insertConfigured (run : PipelineRun) (stageName : String) (counter : Int)
    (now : Instant) (config : JobConfig) (w : Workspace) :
    insertConfigured run stageName counter now config w =
      let job := JobInstance.scheduled w.ids.next.1 (.ofRun run stageName counter config.name)
        w.keys.next.1 now
      let made := JobPlan.ofConfig job.id job.identifier config w.ids.next.2
      if w.planFailureArmed then
        (.error (.store .injected),
          { w.withJob job with planFailureArmed := false, keys := w.keys.next.2, ids := made.2 })
      else (.ok job, w.withInstance job made) := by
  simp only [insertConfigured, run_bind, run_nextId, run_nextKey, run_insertJob, run_draftPlan,
    run_lift, run_insertPlan]
  -- putting a job in leaves a failure of the store that was set up
  cases armed : w.planFailureArmed with
  | true =>
    simp only [Workspace.withJob, armed, if_true]
    rfl
  | false =>
    simp only [Workspace.withJob, Workspace.withInstance, armed, Bool.false_eq_true, if_false]
    rfl

variable {run : PipelineRun} {stageName : String} {counter : Int} {now : Instant}

/-- A configured job goes in as a fresh instance with a plan for what it asks for, or a failure of
the store was set up. -/
theorem insertConfigured_cases {config : JobConfig} {outcome : Except ScheduleError JobInstance}
    (sound : w.Sound) (h : insertConfigured run stageName counter now config w = (outcome, w')) :
    (∃ job plan, outcome = .ok job ∧ Workspace.Inserted job plan w w' ∧
        job.identifier = .ofRun run stageName counter config.name ∧
        plan.request = JobPlan.requestFrom (job.id, config)) ∨
      (outcome = .error (.store .injected) ∧ w.Later w') := by
  rw [run_insertConfigured] at h
  dsimp only at h
  by_cases armed : w.planFailureArmed = true
  · rw [if_pos armed, Prod.mk.injEq] at h
    obtain ⟨rfl, rfl⟩ := h
    refine Or.inr ⟨rfl, Workspace.later_of_next ?_ rfl⟩
    exact (JobPlan.between_make _ (.ofRun run stageName counter config.name)
      config.resources _ _).later
  · rw [if_neg armed, Prod.mk.injEq] at h
    obtain ⟨rfl, rfl⟩ := h
    refine Or.inl ⟨_, _, rfl, sound.inserted _ now config.resources config.artifacts, rfl, ?_⟩
    rw [JobPlan.request, JobPlan.resourceNames_make, JobPlan.contents_make]
    rfl

/-- The jobs of a stage go in one after the other, each as a fresh instance, until one fails. -/
theorem insertEach_cases {configs : List JobConfig}
    {outcome : Except ScheduleError (List JobInstance)} (sound : w.Sound)
    (h : insertEach run stageName counter now configs w = (outcome, w')) :
    (∃ jobs, outcome = .ok jobs ∧ Workspace.Staged jobs w w' ∧
        jobs.map (·.identifier) = configs.map (.ofRun run stageName counter ·.name) ∧
        w'.tables.requests
          = w.tables.requests ++ ((jobs.map (·.id)).zip configs).map JobPlan.requestFrom) ∨
      (outcome = .error (.store .injected) ∧ w.Later w') := by
  -- of the jobs that went in before a failure only their draws are left
  induction configs generalizing w w' outcome with
  | nil =>
    rw [insertEach, run_pure, Prod.mk.injEq] at h
    obtain ⟨rfl, rfl⟩ := h
    exact Or.inl ⟨[], rfl, .nil w, rfl, (List.append_nil _).symm⟩
  | cons config configs ih =>
    rw [insertEach, run_bind] at h
    rcases hfirst : insertConfigured run stageName counter now config w with ⟨first, w₁⟩
    rw [hfirst] at h
    rcases insertConfigured_cases sound hfirst with
      ⟨job, plan, rfl, inserted, named, asked⟩ | ⟨rfl, later⟩
    · dsimp only at h
      rw [run_bind] at h
      rcases hrest : insertEach run stageName counter now configs w₁ with ⟨rest, w₂⟩
      rw [hrest] at h
      rcases ih (inserted.sound sound) hrest with ⟨jobs, rfl, staged, names, requests⟩ | ⟨rfl, later⟩
      · dsimp only at h
        rw [run_pure, Prod.mk.injEq] at h
        obtain ⟨rfl, rfl⟩ := h
        refine Or.inl ⟨job :: jobs, rfl, .cons inserted staged, ?_, ?_⟩
        · rw [List.map_cons, List.map_cons, named, names]
        · rw [requests, inserted.requests_eq, asked, List.append_assoc, List.singleton_append,
            List.map_cons, List.zip_cons_cons, List.map_cons]
      · rw [Prod.mk.injEq] at h
        obtain ⟨rfl, rfl⟩ := h
        exact Or.inr ⟨rfl, inserted.later.trans later⟩
    · rw [Prod.mk.injEq] at h
      obtain ⟨rfl, rfl⟩ := h
      exact Or.inr ⟨rfl, later⟩

/-! ## A replacement -/

/-- A job that is not there, is completed, or was replaced before, is left as it is. -/
theorem run_replaceJob_missing (missing : w.tables.findJob? id = none) :
    replaceJob id now w = (.error (.jobNotFound id), w) := by
  rw [replaceJob, run_bind, run_getJob, missing]

theorem run_replaceJob_completed (found : w.tables.findJob? id = some old)
    (completed : old.isCompleted = true) :
    replaceJob id now w = (.ok (.kept .completed), w) := by
  simp only [replaceJob, run_bind, run_getJob, found, completed, if_true, run_pure]

theorem run_replaceJob_rescheduled (found : w.tables.findJob? id = some old)
    (notCompleted : old.isCompleted = false)
    (replaced : (old.ignored || old.isRescheduled) = true) :
    replaceJob id now w = (.ok (.kept .rescheduled), w) := by
  simp only [replaceJob, run_bind, run_getJob, found, notCompleted, replaced, if_true, if_false,
    Bool.false_eq_true, run_pure]

/-- Any other job is left behind, and a fresh instance with a copy of its plan takes its place. -/
theorem run_replaceJob {plan : JobPlan} (found : w.tables.findJob? id = some old)
    (replaceable : old.Replaceable) (planned : w.tables.findPlan? id = some plan) :
    replaceJob id now w =
      let retired := w.withJob (old.retire now)
      let new := old.replacement w.ids.next.1 w.keys.next.1 now
      let made := plan.copyTo new.id w.ids.next.2
      if w.planFailureArmed then
        (.error (.store .injected),
          { retired.withJob new with
            planFailureArmed := false, keys := w.keys.next.2, ids := made.2 })
      else (.ok (.rescheduled new), retired.withInstance new made) := by
  have hold : w.tables.findJob? ((old.enter .rescheduled now).ignore).id = some old := by
    rwa [← JobTables.id_of_findJob? found] at found
  simp only [replaceJob, run_bind, run_getJob, found, replaceable.notCompleted, replaceable.live,
    replaceable.notRescheduled, Bool.or_false, Bool.false_eq_true, if_false, run_lift,
    run_updateJob w hold, run_nextId, run_nextKey, run_insertJob, run_read, run_draftPlan,
    run_insertPlan, Workspace.withJob_tables, JobTables.findPlan?_insertJob, planned]
  cases armed : w.planFailureArmed with
  | true =>
    simp only [Workspace.withJob, armed, if_true]
    rfl
  | false =>
    simp only [Workspace.withJob, Workspace.withInstance, armed, Bool.false_eq_true, if_false]
    rfl

/-! ## A job in another state -/

theorem run_changeJob_missing {f : JobInstance → Except ScheduleError (Option JobInstance)}
    (missing : w.tables.findJob? id = none) :
    changeJob id f w = (.error (.jobNotFound id), w) := by
  rw [changeJob, run_bind, run_getJob, missing]

/-- The change may be refused or come to nothing, and a change that keeps the identifier of the job
is stored. -/
theorem run_changeJob {f : JobInstance → Except ScheduleError (Option JobInstance)}
    (found : w.tables.findJob? id = some old)
    (keeps : ∀ new, f old = .ok (some new) → new.id = old.id) :
    changeJob id f w = match f old with
      | .error e => (.error e, w)
      | .ok none => (.ok (old, false), w)
      | .ok (some new) => (.ok (new, true), w.withJob new) := by
  simp only [changeJob, run_bind, run_getJob, found]
  rcases hf : f old with e | _ | new
  · rfl
  · rfl
  · have hnew : w.tables.findJob? new.id = some old := by
      rw [keeps new hf, JobTables.id_of_findJob? found]
      exact found
    simp only [run_bind, run_lift, run_updateJob w hnew, run_pure]

/-! ## Committing -/

/-- The jobs of a stage are counted on from the greatest counter that the stage has in the run. -/
theorem run_insertStage (run : PipelineRun) (stage : StageConfig) (now : Instant) (w : Workspace) :
    insertStage run stage now w
      = insertEach run stage.name
          ((w.tables.maxStageCounter? run.name run.counter stage.name).getD 0 + 1) now
          stage.jobs w := rfl

/-- A transaction on the store in memory is one on its workspace, and the cache stays as it is. -/
theorem run_transact {α : Type} (work : Transaction ScheduleError α) (w : Workspace)
    (cache : StatusCache) :
    transact work ⟨.memory w, cache⟩
      = match work w with
        | (.ok a, after) => (.ok a, ⟨.memory after, cache⟩)
        | (.error e, after) => (.error e, ⟨.memory { after with tables := w.tables }, cache⟩) := by
  simp only [transact, run_bind, run_get, Workspace.transact]
  rcases work w with ⟨e | a, after⟩ <;> rfl

theorem run_note (job : JobInstance) (s : Scheduler) :
    note job s = (.ok (), { s with cache := s.cache.update job }) := rfl

theorem run_noteEach (jobs : List JobInstance) (s : Scheduler) :
    (jobs.forM note : Scheduling Unit) s
      = (.ok (), { s with cache := jobs.foldl StatusCache.update s.cache }) := by
  induction jobs generalizing s with
  | nil => rfl
  | cons job jobs ih =>
    rw [List.forM, run_bind, run_note]
    exact ih _

end Scheduler

end BuildServer
