import BuildServer.Proofs.Schedule.Waiting
/-!
# Plans

Every stored job has its plan, made out for it, with rows of its own, and the plan asks for what the
configuration said from which the job was scheduled. A job that takes the place of another one is not
scheduled from a configuration; it goes back to the one that the other job goes back to, by way of
copies of copies of the plan, whatever the catalog has become in the meantime.

Jobs and rows draw from one source. Whatever joins the tables brings identifiers that were drawn after
all those that are there, so none is there twice.
-/

set_option autoImplicit false

namespace BuildServer

open Workspace

/-! ## Rows -/

namespace JobPlan

theorem jobId_of_mem_resourceRows {jobId : Uuid} {names : List String} {ids : IdSource}
    {row : ResourceRow} (h : row ∈ (resourceRows jobId names ids).1) : row.jobId = jobId := by
  induction names generalizing ids with
  | nil => cases h
  | cons name names ih =>
    rcases List.mem_cons.mp h with rfl | hrest
    · rfl
    · exact ih hrest

theorem jobId_of_mem_artifactRows {jobId : Uuid} {artifacts : List ArtifactConfig} {ids : IdSource}
    {row : ArtifactRow} (h : row ∈ (artifactRows jobId artifacts ids).1) : row.jobId = jobId := by
  induction artifacts generalizing ids with
  | nil => cases h
  | cons artifact artifacts ih =>
    rcases List.mem_cons.mp h with rfl | hrest
    · rfl
    · exact ih hrest

/-- The rows of a plan are made for its job. -/
theorem ownsRows_make (jobId : Uuid) (identifier : JobIdentifier) (resources : List String)
    (artifacts : List ArtifactConfig) (ids : IdSource) :
    (make jobId identifier resources artifacts ids).1.ownsRows = true := by
  rw [ownsRows, Bool.and_eq_true, List.all_eq_true, List.all_eq_true]
  constructor
  · intro row hrow
    exact beq_iff_eq.mpr (jobId_of_mem_resourceRows hrow)
  · intro row hrow
    exact beq_iff_eq.mpr (jobId_of_mem_artifactRows hrow)

end JobPlan

/-- The identifiers in the tables: those of the jobs, and those of the rows of all plans. -/
def JobTables.identifiers (t : JobTables) : List Uuid :=
  t.jobs.map (·.id) ++ t.plans.flatMap JobPlan.rowIds

namespace Workspace

variable {w w' : Workspace} {job old new : JobInstance} {plan : JobPlan} {jobs : List JobInstance}

/-- Every row belongs to the job of its plan, and no identifier is in the tables twice. -/
structure Tidy (w : Workspace) : Prop where
  owned : ∀ plan ∈ w.tables.plans, plan.ownsRows = true
  distinct : w.tables.identifiers.Nodup
  drawn : ∀ id ∈ w.tables.identifiers, w.ids.HasDrawn id

theorem tidy_empty (keys : OrderKeys) (ids : IdSource) : Tidy { keys, ids } where
  owned _ h := by cases h
  distinct := List.nodup_nil
  drawn _ h := by cases h

theorem Tidy.idle (tidy : w.Tidy) (same : w'.tables = w.tables) (later : w.Later w') : w'.Tidy where
  owned := by rw [same]; exact tidy.owned
  distinct := by rw [same]; exact tidy.distinct
  drawn id h := by
    rw [same] at h
    exact (tidy.drawn id h).mono later.ids

/-- A job that is put in again brings no identifier. -/
theorem identifiers_withJob (found : w.tables.findJob? new.id = some old) :
    (w.withJob new).tables.identifiers = w.tables.identifiers := by
  have ids : (w.withJob new).tables.jobs.map (·.id) = w.tables.jobs.map (·.id) :=
    map_putRow (·.id) found (JobTables.id_of_findJob? found).symm
  rw [JobTables.identifiers, ids]
  rfl

theorem Tidy.withJob (tidy : w.Tidy) (found : w.tables.findJob? new.id = some old) :
    (w.withJob new).Tidy where
  owned := tidy.owned
  distinct := by rw [identifiers_withJob found]; exact tidy.distinct
  drawn := by rw [identifiers_withJob found]; exact tidy.drawn

/-- A fresh instance brings its own identifier and those of the rows of its plan. -/
theorem Inserted.identifiers_perm (h : Inserted job plan w w') :
    w'.tables.identifiers.Perm (w.tables.identifiers ++ job.id :: plan.rowIds) := by
  rw [JobTables.identifiers, JobTables.identifiers, h.jobs, h.plans, List.map_append,
    List.flatMap_append, List.map_singleton, List.flatMap_singleton, List.append_assoc,
    List.append_assoc, List.singleton_append]
  exact List.Perm.append_left _ List.perm_middle.symm

theorem Inserted.tidy (h : Inserted job plan w w') (tidy : w.Tidy) : w'.Tidy where
  owned other hother := by
    rw [h.plans, List.mem_append, List.mem_singleton] at hother
    rcases hother with hold | rfl
    · exact tidy.owned other hold
    · obtain ⟨resources, artifacts, made⟩ := h.made
      have owns := JobPlan.ownsRows_make job.id job.identifier resources artifacts w.ids.next.2
      rwa [made] at owns
  distinct := by
    rw [h.identifiers_perm.nodup_iff, List.nodup_append]
    refine ⟨tidy.distinct, h.between.distinct, ?_⟩
    -- what was there had been drawn, and what joins had not
    rintro id hold other hnew rfl
    exact h.between.notDrawn id hnew (tidy.drawn id hold)
  drawn id hid := by
    rw [h.identifiers_perm.mem_iff, List.mem_append] at hid
    rcases hid with hold | hnew
    · exact (tidy.drawn id hold).mono h.later.ids
    · exact h.between.drawn id hnew

theorem Staged.tidy (h : Staged jobs w w') (tidy : w.Tidy) : w'.Tidy := by
  induction h with
  | nil w => exact tidy
  | cons inserted _ ih => exact ih (inserted.tidy tidy)

theorem Replaced.tidy (h : Replaced old new w w') (tidy : w.Tidy) : w'.Tidy := by
  obtain ⟨now, plan, inserted⟩ := h.inserted
  have found : w.tables.findJob? (old.retire now).id = some old := h.found
  exact inserted.tidy (tidy.withJob found)

end Workspace

/-! ## Origins -/

/-- The jobs that the stage to schedule is configured with, as the catalog has it. -/
def Catalog.jobsOf (catalog : Catalog) (pipelineName : String) (stageName : Option String) :
    List JobConfig :=
  match catalog.find? pipelineName with
  | none => []
  | some pipeline =>
    match Scheduler.chooseStage pipeline stageName with
    | .error _ => []
    | .ok stage => stage.jobs

/-- An instance that takes the place of a job goes back to the same configuration. -/
def inherit (origins : List (Uuid × JobConfig)) (replacement : Uuid × Uuid) :
    List (Uuid × JobConfig) :=
  match origins.lookup replacement.1 with
  | some config => origins ++ [(replacement.2, config)]
  | none => origins

/-- The instances that an operation has scheduled, with the configurations they were scheduled from. -/
def Operation.configured (op : Operation) (s : Scheduler) : List (Uuid × JobConfig) :=
  match op with
  | .schedule catalog pipelineName _ _ stageName _ =>
    ((op.scheduled s).map (·.id)).zip (catalog.jobsOf pipelineName stageName)
  | _ => []

/-- The configurations that jobs go back to, after an operation. -/
def Operation.origins (op : Operation) (s : Scheduler) (origins : List (Uuid × JobConfig)) :
    List (Uuid × JobConfig) :=
  (op.replacements s).foldl inherit (origins ++ op.configured s)

/-- The configurations that jobs go back to, after a run. -/
def Scheduler.originsAfter (s : Scheduler) (origins : List (Uuid × JobConfig)) :
    List Operation → List (Uuid × JobConfig)
  | [] => origins
  | op :: ops => (op.perform s).originsAfter (op.origins s origins) ops

/-- The plans ask, in order, for what the configurations say. -/
def JobTables.PlannedFrom (t : JobTables) (origins : List (Uuid × JobConfig)) : Prop :=
  t.requests = origins.map JobPlan.requestFrom

theorem JobTables.plannedFrom_empty : JobTables.PlannedFrom {} [] := by
  rw [PlannedFrom]
  rfl

namespace JobTables.PlannedFrom

variable {t : JobTables} {origins : List (Uuid × JobConfig)} {id : Uuid} {plan : JobPlan}

theorem map_fst (h : t.PlannedFrom origins) : origins.map (·.1) = t.plans.map (·.jobId) := by
  have firsts := congrArg (List.map (·.1)) h
  rw [requests, List.map_map, List.map_map] at firsts
  exact firsts.symm

/-- The plan that is found asks for what the configuration says that the job goes back to. -/
theorem lookup_eq (h : t.PlannedFrom origins) (distinct : (t.plans.map (·.jobId)).Nodup)
    (found : t.findPlan? id = some plan) :
    ∃ config, origins.lookup id = some config ∧ plan.request = JobPlan.requestFrom (id, config) := by
  have hmem : plan.request ∈ origins.map JobPlan.requestFrom := by
    rw [← h]
    exact List.mem_map_of_mem (mem_of_findPlan? found)
  obtain ⟨⟨origin, config⟩, horigin, same⟩ := List.mem_map.mp hmem
  have hid : origin = id := (congrArg (·.1) same).trans (jobId_of_findPlan? found)
  subst hid
  refine ⟨config, lookup_of_mem ?_ horigin, same.symm⟩
  rw [h.map_fst]
  exact distinct

theorem content_eq {config : JobConfig} (h : t.PlannedFrom origins)
    (distinct : (t.plans.map (·.jobId)).Nodup) (found : t.findPlan? id = some plan)
    (origin : (id, config) ∈ origins) :
    plan.resourceNames = config.resources ∧ plan.contents = config.artifacts := by
  obtain ⟨other, hother, asked⟩ := h.lookup_eq distinct found
  rw [lookup_of_mem (h.map_fst ▸ distinct) origin, Option.some.injEq] at hother
  rw [← hother, JobPlan.request, JobPlan.requestFrom, Prod.mk.injEq, Prod.mk.injEq] at asked
  exact asked.2

end JobTables.PlannedFrom

namespace Workspace.Replaced

variable {w w' : Workspace} {old new : JobInstance} {origins : List (Uuid × JobConfig)}
  (h : Replaced old new w w') (sound : w.Sound)

include h sound

/-- The copy of a plan asks for the same, for another job. -/
theorem requests_eq : ∃ plan, w.tables.findPlan? old.id = some plan ∧
    w'.tables.requests = w.tables.requests ++ [(new.id, plan.resourceNames, plan.contents)] := by
  obtain ⟨now, made, inserted⟩ := h.inserted
  obtain ⟨plan, copy, hplan, hcopy, same⟩ := h.copied
  -- the plan that joined the tables is the copy that is found there
  rw [inserted.findPlan?_self (sound.retire h.found now), Option.some.injEq] at hcopy
  subst hcopy
  rw [JobPlan.sameContent, Bool.and_eq_true, beq_iff_eq, beq_iff_eq] at same
  refine ⟨plan, hplan, ?_⟩
  rw [inserted.requests_eq, JobPlan.request, inserted.plan_jobId, same.1, same.2]
  rfl

theorem plannedFrom (planned : w.tables.PlannedFrom origins) :
    w'.tables.PlannedFrom (inherit origins (old.id, new.id)) := by
  obtain ⟨plan, hplan, requests⟩ := h.requests_eq sound
  obtain ⟨config, hconfig, asked⟩ := planned.lookup_eq sound.plans_distinct hplan
  rw [JobPlan.request, JobPlan.requestFrom, Prod.mk.injEq, Prod.mk.injEq] at asked
  rw [JobTables.PlannedFrom, requests, planned, asked.2.1, asked.2.2, inherit, hconfig,
    List.map_append]
  rfl

end Workspace.Replaced

namespace Scheduler

variable {s s' : Scheduler} {e : Event} {events : List Event} {origins : List (Uuid × JobConfig)}

/-! ## Steps -/

/-- The rows in the store are tidy. -/
def Tidy (s : Scheduler) : Prop := ∀ w cache, s = ⟨.memory w, cache⟩ → w.Tidy

theorem Step.tidy (step : Step e s s') (tidy : s.Tidy) : s'.Tidy := by
  rintro w' cache' rfl
  cases step with
  | idle same later => exact (tidy _ _ rfl).idle same later
  | staged staged => exact staged.tidy (tidy _ _ rfl)
  | replaced replaced => exact replaced.tidy (tidy _ _ rfl)
  | advanced found advance => exact (tidy _ _ rfl).withJob (advance.id_eq ▸ found)

/-- Where no stage is scheduled, the origins change with the replacements. -/
theorem Journal.plannedFrom (journal : Journal events s s') (sound : s.Sound)
    (others : ∀ e ∈ events, ∀ jobs, e ≠ .staged jobs) (planned : s.tables.PlannedFrom origins) :
    s'.tables.PlannedFrom ((events.flatMap Event.replacements).foldl inherit origins) := by
  induction journal generalizing origins with
  | nil => exact planned
  | cons step _ ih =>
    rw [List.flatMap_cons, List.foldl_append]
    refine ih (step.sound sound) (fun e he => others e (List.mem_cons_of_mem _ he)) ?_
    obtain ⟨w, cache, rfl, hw⟩ := sound
    cases step with
    | idle same later => rw [tables_memory, same]; exact planned
    | staged => exact absurd rfl (others _ List.mem_cons_self _)
    | replaced replaced => exact replaced.plannedFrom hw planned
    | advanced => exact planned

/-! ## Operations and runs -/

/-- The jobs of a stage have plans for what they are configured with. -/
theorem plannedFrom_scheduleStage {w : Workspace} {cache : StatusCache} {catalog : Catalog}
    {pipelineName : String} {counter : Int} {label stageName : Option String} {now : Instant}
    {outcome : Except ScheduleError (List JobInstance)} (sound : w.Sound)
    (planned : w.tables.PlannedFrom origins)
    (h : scheduleStage catalog pipelineName counter label stageName now ⟨.memory w, cache⟩
      = (outcome, s')) :
    s'.tables.PlannedFrom (origins ++
      ((outcome.toOption.getD []).map (·.id)).zip (catalog.jobsOf pipelineName stageName)) := by
  cases scheduleStage_cases sound h with
  | failed e same later =>
    rw [tables_memory, same]
    exact (List.append_nil origins).symm ▸ planned
  | @staged w' jobs pipeline stage hpipeline hstage staged names requests =>
    have configured : catalog.jobsOf pipelineName stageName = stage.jobs := by
      rw [Catalog.jobsOf, hpipeline]
      dsimp only
      rw [hstage]
    rw [configured, JobTables.PlannedFrom, tables_memory, requests, planned, List.map_append]
    rfl

theorem plannedFrom_perform (sound : s.Sound) (planned : s.tables.PlannedFrom origins)
    (op : Operation) : (op.perform s).tables.PlannedFrom (op.origins s origins) := by
  obtain ⟨events, recorded⟩ := exists_recorded sound op
  cases op with
  | schedule =>
    obtain ⟨w, cache, rfl, hw⟩ := sound
    exact plannedFrom_scheduleStage hw planned rfl
  | _ =>
    -- no other operation schedules a stage
    have others : ∀ e ∈ events, ∀ jobs, e ≠ .staged jobs := by
      rintro e he jobs rfl
      cases recorded.caused _ he
    have kept := recorded.journal.plannedFrom sound others planned
    rw [recorded.replacements] at kept
    change JobTables.PlannedFrom _ (List.foldl inherit (origins ++ []) _)
    rwa [List.append_nil]

theorem plannedFrom_after (sound : s.Sound) (planned : s.tables.PlannedFrom origins)
    (ops : List Operation) : (s.after ops).tables.PlannedFrom (s.originsAfter origins ops) := by
  induction ops generalizing s origins with
  | nil => exact planned
  | cons op ops ih => exact ih (sound.perform op) (plannedFrom_perform sound planned op)

theorem tidy_after_fresh (keys : OrderKeys) (ids : IdSource) (ops : List Operation) :
    ((fresh keys ids).after ops).Tidy := by
  refine (sound_fresh keys ids).keeps_after (P := Tidy) ops ?_ ?_
  · intro _ _ e s s' _ _ step
    exact step.tidy
  · rintro w cache ⟨⟩
    exact tidy_empty keys ids

/-- Wherever a run has come to, the plans are those of the stored jobs. The plan of a job names it by
its identifier and owns all of its rows, and no identifier of a job or a row is in the store twice.
The plan asks, in order, for what the configuration says that the job goes back to. So a job is never
replaced without a copy of its plan, and no job that waits is left out of the list. -/
theorem plans_follow_origins (keys : OrderKeys) (ids : IdSource) (ops : List Operation) :
    let s := (fresh keys ids).after ops
    let origins := (fresh keys ids).originsAfter [] ops
    s.tables.plans.map (·.jobId) = s.tables.jobs.map (·.id) ∧
      (∀ job ∈ s.tables.jobs, ∃ plan, s.tables.findPlan? job.id = some plan ∧
        plan.jobId = job.id ∧ plan.identifier = job.identifier ∧ plan.ownsRows = true) ∧
      (s.tables.jobs.map (·.id) ++ s.tables.plans.flatMap JobPlan.rowIds).Nodup ∧
      origins.map (·.1) = s.tables.jobs.map (·.id) ∧
      (∀ id config plan, (id, config) ∈ origins → s.tables.findPlan? id = some plan →
        plan.resourceNames = config.resources ∧ plan.contents = config.artifacts) ∧
      (∀ id now new s', reschedule id now s = (.ok (.rescheduled new), s') →
        ∃ plan copy, s.tables.findPlan? id = some plan ∧
          s'.tables.findPlan? new.id = some copy ∧ copy.sameContent plan = true) ∧
      s.tables.waitingPlans.map (·.jobId)
        = (JobTables.inOrder (s.tables.jobs.filter JobTables.isWaiting)).map (·.id) := by
  intro s origins
  have planned : s.tables.PlannedFrom origins :=
    plannedFrom_after (sound_fresh keys ids) JobTables.plannedFrom_empty ops
  have hsound : s.Sound := sound_after_fresh keys ids ops
  obtain ⟨w, cache, hs, sound⟩ := hsound
  have tidy : w.Tidy := tidy_after_fresh keys ids ops w cache hs
  -- that plans stand in the order of their jobs carries the first and the last part
  have horigins := planned.map_fst
  rw [hs] at planned horigins ⊢
  refine ⟨sound.planIds, ?_, tidy.distinct, horigins.trans sound.planIds, ?_, ?_,
    sound.map_jobId_waitingPlans⟩
  · intro job hjob
    obtain ⟨plan, hplan⟩ := sound.exists_plan hjob
    exact ⟨plan, hplan, JobTables.jobId_of_findPlan? hplan,
      sound.identifier_eq (JobTables.findJob?_of_mem sound.distinct hjob) hplan,
      tidy.owned plan (JobTables.mem_of_findPlan? hplan)⟩
  · exact fun id config plan origin found => planned.content_eq sound.plans_distinct found origin
  · intro id now new s' h
    cases reschedule_cases sound h with
    | replaced hid replaced _ _ => exact hid ▸ replaced.copied

/-- A job that was replaced twice still asks for what it was scheduled with, although the stage has been
configured otherwise by then. -/
example :
    let catalog (resource : String) : Catalog :=
      let stage : StageConfig := ⟨"mingle", [{ name := "unit", resources := [resource] }]⟩
      { entries := [("studios", { name := "studios", materials := [], stages := [stage] })] }
    let schedule (resource : String) (counter : Int) : Operation :=
      .schedule (catalog resource) "studios" counter none none ⟨0, 0⟩
    let origins := (fresh (.startingAt 0) (.startingAt ⟨1⟩)).originsAfter []
      [schedule "linux" 1, .reschedule ⟨1⟩ ⟨1, 0⟩, schedule "darwin" 2, .reschedule ⟨3⟩ ⟨2, 0⟩]
    origins.map (fun (id, config) => (id.number, config.resources))
      = [(1, ["linux"]), (3, ["linux"]), (5, ["darwin"]), (7, ["linux"])] := by
  decide +kernel

end Scheduler

end BuildServer
