import BuildServer.Proofs.Schedule.Run
import BuildServer.Proofs.Text.Names
/-!
# Counters of a stage

The store does not keep how often a stage was scheduled in a run. Each time the counter is read off
the jobs: it follows the greatest one that any job of the stage has, whether that job is ignored or
not, and in whatever letter case the stage was configured when it was put in.

That this counts one, two, three is owed to what happens in between. The counters of the stored jobs
are at all times the numbers up to the number of times that the stage was scheduled: jobs stay stored
under their identifiers, an instance that takes the place of another has the same counter, and of a
stage that fails nothing is stored.
-/

set_option autoImplicit false

namespace BuildServer

/-! ## Counters in the tables -/

namespace JobTables

variable {t : JobTables} {pipelineName stageName : String} {counter : Int} {n : Nat}

/-- The counters that the jobs of a stage have in a run. -/
def stageCounters (t : JobTables) (pipelineName : String) (counter : Int) (stageName : String) :
    List Int :=
  ((t.jobs.map (·.identifier)).filter (isOfStage pipelineName counter stageName)).map
    (·.stageCounter)

theorem maxStageCounter?_eq (t : JobTables) (pipelineName : String) (counter : Int)
    (stageName : String) :
    t.maxStageCounter? pipelineName counter stageName
      = (t.stageCounters pipelineName counter stageName).max? := rfl

theorem mem_stageCounters {c : Int} :
    c ∈ t.stageCounters pipelineName counter stageName ↔ ∃ id ∈ t.jobs.map (·.identifier),
      isOfStage pipelineName counter stageName id = true ∧ id.stageCounter = c := by
  simp only [stageCounters, List.mem_map, List.mem_filter, and_assoc]

/-- The counters of the stage are the numbers from one to the given one. -/
def CountedTo (t : JobTables) (pipelineName : String) (counter : Int) (stageName : String)
    (n : Nat) : Prop :=
  ∀ c : Int, c ∈ t.stageCounters pipelineName counter stageName ↔ 1 ≤ c ∧ c ≤ n

theorem countedTo_empty (pipelineName : String) (counter : Int) (stageName : String) :
    CountedTo {} pipelineName counter stageName 0 := by
  intro c
  have none_stored : c ∉ stageCounters {} pipelineName counter stageName := List.not_mem_nil
  have none_counted : ¬ (1 ≤ c ∧ c ≤ (0 : Nat)) := by omega
  exact iff_of_false none_stored none_counted

/-- The number up to which a stage is counted is its greatest counter, and it is zero if there is
none. -/
theorem CountedTo.maxStageCounter?_eq (h : t.CountedTo pipelineName counter stageName n) :
    (t.maxStageCounter? pipelineName counter stageName).getD 0 = n := by
  rw [JobTables.maxStageCounter?_eq]
  rcases greatest : (t.stageCounters pipelineName counter stageName).max? with _ | c
  · rw [List.max?_eq_none_iff] at greatest
    have uncounted : ¬ (1 ≤ (n : Int) ∧ (n : Int) ≤ n) := by
      rw [← h n, greatest]
      exact List.not_mem_nil
    rw [Option.getD_none]
    omega
  · obtain ⟨stored, above⟩ := List.max?_eq_some_iff.mp greatest
    obtain ⟨positive, bounded⟩ := (h c).mp stored
    have last : (n : Int) ≤ c := above n ((h n).mpr ⟨by omega, Int.le_refl _⟩)
    rw [Option.getD_some]
    omega

end JobTables

/-! ## Stages that were scheduled -/

/-- A stage that was scheduled in a run, by the names that it is configured with, and its jobs. -/
structure ScheduledStage where
  pipelineName : String
  counter : Int
  stageName : String
  jobs : List JobInstance

namespace ScheduledStage

/-- The stage is the one of the run, its names taken without regard to case. -/
def isOf (pipelineName : String) (counter : Int) (stageName : String) (run : ScheduledStage) :
    Bool :=
  Text.sameName run.pipelineName pipelineName && run.counter == counter &&
    Text.sameName run.stageName stageName

/-- The jobs of the stage have its names, and the counter that follows the greatest one in the
tables. -/
structure CountsOn (run : ScheduledStage) (t : JobTables) : Prop where
  nonempty : run.jobs ≠ []
  named : ∀ job ∈ run.jobs, job.identifier.pipelineName = run.pipelineName ∧
    job.identifier.pipelineCounter = run.counter ∧ job.identifier.stageName = run.stageName
  counted : ∀ job ∈ run.jobs, job.identifier.stageCounter
    = (t.maxStageCounter? run.pipelineName run.counter run.stageName).getD 0 + 1

/-- The jobs of the first stage have the counter given, those of the next one the counter that follows
it, and so on. -/
def Numbered (first : Nat) (runs : List ScheduledStage) : Prop :=
  ∀ run k, (run, k) ∈ runs.zipIdx first →
    run.jobs ≠ [] ∧ ∀ job ∈ run.jobs, job.identifier.stageCounter = k

theorem Numbered.nil (first : Nat) : Numbered first [] :=
  fun _ _ hrun => absurd hrun List.not_mem_nil

variable {run : ScheduledStage} {runs more : List ScheduledStage} {t : JobTables}
  {pipelineName stageName : String} {counter : Int} {job : JobInstance} {first n : Nat}

theorem Numbered.singleton (nonempty : run.jobs ≠ [])
    (counted : ∀ job ∈ run.jobs, job.identifier.stageCounter = (n : Int) + 1) :
    Numbered (n + 1) [run] := by
  intro other k hother
  rw [List.zipIdx_singleton, List.mem_singleton, Prod.mk.injEq] at hother
  obtain ⟨rfl, rfl⟩ := hother
  exact ⟨nonempty, counted⟩

theorem Numbered.append (h₁ : Numbered first runs) (h₂ : Numbered (first + runs.length) more) :
    Numbered first (runs ++ more) := by
  intro run k hrun
  rw [List.zipIdx_append, List.mem_append] at hrun
  rcases hrun with hfirst | hmore
  · exact h₁ run k hfirst
  · exact h₂ run k hmore

theorem CountsOn.isOfStage_eq (h : run.CountsOn t) (hjob : job ∈ run.jobs) :
    JobTables.isOfStage pipelineName counter stageName job.identifier
      = run.isOf pipelineName counter stageName := by
  obtain ⟨pipeline, run, stage⟩ := h.named job hjob
  rw [JobTables.isOfStage, isOf, pipeline, run, stage]

/-- A stage is counted the same under any spelling of its names. -/
theorem maxStageCounter?_eq (h : run.isOf pipelineName counter stageName = true) (t : JobTables) :
    t.maxStageCounter? run.pipelineName run.counter run.stageName
      = t.maxStageCounter? pipelineName counter stageName := by
  rw [isOf, Bool.and_eq_true, Bool.and_eq_true, beq_iff_eq] at h
  obtain ⟨⟨pipeline, rfl⟩, stage⟩ := h
  have same : JobTables.isOfStage run.pipelineName run.counter run.stageName
      = JobTables.isOfStage pipelineName run.counter stageName := by
    funext id
    rw [JobTables.isOfStage, JobTables.isOfStage, Text.sameName_congr pipeline,
      Text.sameName_congr stage]
  rw [JobTables.maxStageCounter?, JobTables.maxStageCounter?, same]

/-- The jobs of a stage that is counted up to a number get the number that follows. -/
theorem CountsOn.stageCounter_eq (counts : run.CountsOn t)
    (counted : t.CountedTo pipelineName counter stageName n)
    (same : run.isOf pipelineName counter stageName = true) :
    ∀ job ∈ run.jobs, job.identifier.stageCounter = (n : Int) + 1 := by
  intro job hjob
  rw [counts.counted job hjob, maxStageCounter?_eq same, counted.maxStageCounter?_eq]

end ScheduledStage

/-- The stage to schedule and its pipeline, as the catalog has them. -/
def Catalog.stage? (catalog : Catalog) (pipelineName : String) (stageName : Option String) :
    Option (PipelineConfig × StageConfig) :=
  match catalog.find? pipelineName with
  | none => none
  | some pipeline =>
    match Scheduler.chooseStage pipeline stageName with
    | .error _ => none
    | .ok stage => some (pipeline, stage)

/-- The stage that an operation has scheduled, if any job was given back. -/
def Operation.stagesScheduled (op : Operation) (s : Scheduler) : List ScheduledStage :=
  match op with
  | .schedule catalog pipelineName counter _ stageName _ =>
    match catalog.stage? pipelineName stageName, op.scheduled s with
    | some (pipeline, stage), job :: jobs => [⟨pipeline.name, counter, stage.name, job :: jobs⟩]
    | _, _ => []
  | _ => []

namespace Scheduler

open Workspace

variable {s s' : Scheduler} {e : Event} {events : List Event} {op : Operation}
  {pipelineName stageName : String} {counter : Int} {n : Nat} {id : JobIdentifier}

/-- The stages that were scheduled in a run of the scheduler, in that order. -/
def stagesScheduledIn (s : Scheduler) : List Operation → List ScheduledStage
  | [] => []
  | op :: ops => op.stagesScheduled s ++ (op.perform s).stagesScheduledIn ops

/-! ## What an operation adds -/

/-- The identifiers of the stored jobs. -/
def jobIdentifiers (s : Scheduler) : List JobIdentifier := s.tables.jobs.map (·.identifier)

/-- Only jobs that are scheduled bring identifiers that were not there. -/
theorem Step.mem_jobIdentifiers (step : Step e s s') :
    id ∈ s'.jobIdentifiers ↔ id ∈ s.jobIdentifiers ∨ id ∈ e.scheduled.map (·.identifier) := by
  rw [jobIdentifiers, jobIdentifiers]
  cases step with
  | idle same later =>
    rw [tables_memory, tables_memory, same]
    simp [Event.scheduled]
  | staged staged =>
    rw [tables_memory, tables_memory, staged.jobs_eq, List.map_append, List.mem_append]
    rfl
  | @replaced w w' cache old new replaced =>
    obtain ⟨now, plan, inserted⟩ := replaced.inserted
    have hfound : w.tables.findJob? (old.retire now).id = some old := replaced.found
    have kept : (w.withJob (old.retire now)).tables.jobs.map (·.identifier)
        = w.tables.jobs.map (·.identifier) := map_putRow (·.identifier) hfound rfl
    -- the fresh instance has the identifier of the job that it replaces
    have stored : new.identifier ∈ w.tables.jobs.map (·.identifier) := by
      rw [replaced.identifier]
      exact List.mem_map_of_mem (JobTables.mem_of_findJob? replaced.found)
    rw [tables_memory, tables_memory, inserted.jobs, List.map_append, kept, List.mem_append,
      List.map_singleton, List.mem_singleton]
    constructor
    · rintro (hold | rfl)
      · exact Or.inl hold
      · exact Or.inl stored
    · rintro (hold | hnone)
      · exact Or.inl hold
      · cases hnone
  | @advanced w cache old new found advance =>
    have hfound : w.tables.findJob? new.id = some old := by rw [advance.id_eq]; exact found
    have kept : (w.withJob new).tables.jobs.map (·.identifier)
        = w.tables.jobs.map (·.identifier) :=
      map_putRow (·.identifier) hfound advance.identifier_eq
    rw [tables_memory, tables_memory, kept]
    simp [Event.scheduled]

theorem Journal.mem_jobIdentifiers (journal : Journal events s s') :
    id ∈ s'.jobIdentifiers ↔
      id ∈ s.jobIdentifiers ∨ id ∈ (events.flatMap Event.scheduled).map (·.identifier) := by
  induction journal with
  | nil => simp
  | cons step _ ih =>
    rw [ih, step.mem_jobIdentifiers, List.flatMap_cons, List.map_append, List.mem_append, or_assoc]

theorem mem_jobIdentifiers_perform (sound : s.Sound) (op : Operation) :
    id ∈ (op.perform s).jobIdentifiers ↔
      id ∈ s.jobIdentifiers ∨ id ∈ (op.scheduled s).map (·.identifier) := by
  obtain ⟨events, recorded⟩ := exists_recorded sound op
  rw [recorded.journal.mem_jobIdentifiers, recorded.scheduled]

theorem mem_stageCounters_perform (sound : s.Sound) (op : Operation) (c : Int) :
    c ∈ (op.perform s).tables.stageCounters pipelineName counter stageName ↔
      c ∈ s.tables.stageCounters pipelineName counter stageName ∨
        ∃ job ∈ op.scheduled s,
          JobTables.isOfStage pipelineName counter stageName job.identifier = true ∧
            job.identifier.stageCounter = c := by
  rw [JobTables.mem_stageCounters, JobTables.mem_stageCounters]
  constructor
  · rintro ⟨id, stored, hid⟩
    rcases (mem_jobIdentifiers_perform sound op).mp stored with before | scheduled
    · exact Or.inl ⟨id, before, hid⟩
    · obtain ⟨job, hjob, rfl⟩ := List.mem_map.mp scheduled
      exact Or.inr ⟨job, hjob, hid⟩
  · rintro (⟨id, before, hid⟩ | ⟨job, hjob, hid⟩)
    · exact ⟨id, (mem_jobIdentifiers_perform sound op).mpr (Or.inl before), hid⟩
    · exact ⟨job.identifier,
        (mem_jobIdentifiers_perform sound op).mpr (Or.inr (List.mem_map_of_mem hjob)), hid⟩

/-- An operation gives back no job that it has scheduled, or it has scheduled one stage, whose jobs
these are. -/
theorem stagesScheduled_cases (sound : s.Sound) (op : Operation) :
    (op.stagesScheduled s = [] ∧ op.scheduled s = []) ∨
      ∃ run, op.stagesScheduled s = [run] ∧ run.jobs = op.scheduled s ∧ run.CountsOn s.tables := by
  obtain ⟨w, cache, rfl, hw⟩ := sound
  cases op with
  | schedule catalog pipelineName counter label stageName now =>
    rcases h : scheduleStage catalog pipelineName counter label stageName now ⟨.memory w, cache⟩
      with ⟨outcome, s'⟩
    have given : (Operation.schedule catalog pipelineName counter label stageName now).scheduled
        ⟨.memory w, cache⟩ = outcome.toOption.getD [] := by
      rw [Operation.scheduled, h]
    rw [Operation.stagesScheduled, given]
    cases scheduleStage_cases hw h with
    | failed e same later =>
      refine Or.inl ⟨?_, rfl⟩
      rcases catalog.stage? pipelineName stageName with _ | ⟨pipeline, stage⟩ <;> rfl
    | @staged w' jobs pipeline stage hpipeline hstage staged names requests =>
      have configured : catalog.stage? pipelineName stageName = some (pipeline, stage) := by
        rw [Catalog.stage?, hpipeline]
        dsimp only
        rw [hstage]
      rw [configured]
      -- the jobs of the stage differ in nothing but their names
      have alike : ∀ job ∈ jobs, ∃ name, job.identifier = .ofRun
          ⟨pipeline.name, counter, label.getD (toString counter)⟩ stage.name
          ((w.tables.maxStageCounter? pipeline.name counter stage.name).getD 0 + 1) name := by
        intro job hjob
        have listed := List.mem_map_of_mem (f := (·.identifier)) hjob
        rw [names] at listed
        obtain ⟨config, _, same⟩ := List.mem_map.mp listed
        exact ⟨config.name, same.symm⟩
      rcases jobs with _ | ⟨job, jobs⟩
      · exact Or.inl ⟨rfl, rfl⟩
      · refine Or.inr ⟨_, rfl, rfl, List.cons_ne_nil _ _, ?_, ?_⟩
        · intro other hother
          obtain ⟨name, same⟩ := alike other hother
          rw [same]
          exact ⟨rfl, rfl, rfl⟩
        · intro other hother
          obtain ⟨name, same⟩ := alike other hother
          rw [same]
          rfl
  | _ => exact Or.inl ⟨rfl, rfl⟩

/-! ## Counting -/

variable {run : ScheduledStage}

/-- Jobs of other stages do not count. -/
theorem countedTo_of_others (sound : s.Sound)
    (counted : s.tables.CountedTo pipelineName counter stageName n)
    (others : ∀ job ∈ op.scheduled s,
      ¬ JobTables.isOfStage pipelineName counter stageName job.identifier = true) :
    (op.perform s).tables.CountedTo pipelineName counter stageName n := by
  intro c
  rw [mem_stageCounters_perform sound, counted c]
  constructor
  · rintro (before | ⟨job, hjob, ofStage, -⟩)
    · exact before
    · exact absurd ofStage (others job hjob)
  · exact Or.inl

/-- With the jobs of the stage it is counted up to the number that they got. -/
theorem countedTo_of_same (sound : s.Sound)
    (counted : s.tables.CountedTo pipelineName counter stageName n)
    (jobs : run.jobs = op.scheduled s) (counts : run.CountsOn s.tables)
    (same : run.isOf pipelineName counter stageName = true) :
    (op.perform s).tables.CountedTo pipelineName counter stageName (n + 1) := by
  have given := counts.stageCounter_eq counted same
  intro c
  rw [mem_stageCounters_perform sound, ← jobs, counted c]
  constructor
  · rintro (before | ⟨job, hjob, -, rfl⟩)
    · omega
    · rw [given job hjob]
      omega
  · intro bounds
    by_cases last : c = n + 1
    · obtain ⟨job, hjob⟩ := List.exists_mem_of_ne_nil _ counts.nonempty
      refine Or.inr ⟨job, hjob, ?_, ?_⟩
      · rw [counts.isOfStage_eq hjob, same]
      · rw [given job hjob, last]
    · exact Or.inl (by omega)

/-- What an operation schedules of a stage that is counted up to a number gets the numbers that follow,
and the stage is counted up to the last of them. -/
theorem numbered_perform (sound : s.Sound)
    (counted : s.tables.CountedTo pipelineName counter stageName n) (op : Operation) :
    let runs := (op.stagesScheduled s).filter (·.isOf pipelineName counter stageName)
    ScheduledStage.Numbered (n + 1) runs ∧
      (op.perform s).tables.CountedTo pipelineName counter stageName (n + runs.length) := by
  rcases stagesScheduled_cases sound op with ⟨idle, nothing⟩ | ⟨run, one, jobs, counts⟩
  · rw [idle, List.filter_nil]
    refine ⟨.nil _, countedTo_of_others sound counted fun job hjob => ?_⟩
    rw [nothing] at hjob
    cases hjob
  · rw [one, List.filter_cons, List.filter_nil]
    by_cases same : run.isOf pipelineName counter stageName = true
    · rw [if_pos same]
      exact ⟨.singleton counts.nonempty (counts.stageCounter_eq counted same),
        countedTo_of_same sound counted jobs counts same⟩
    · rw [if_neg same]
      refine ⟨.nil _, countedTo_of_others sound counted fun job hjob => ?_⟩
      rwa [counts.isOfStage_eq (jobs ▸ hjob)]

/-- The same of a run, by induction on what is asked: the next operation goes on from the number that the
one before has come to. -/
theorem numbered_after (sound : s.Sound)
    (counted : s.tables.CountedTo pipelineName counter stageName n) (ops : List Operation) :
    let runs := (s.stagesScheduledIn ops).filter (·.isOf pipelineName counter stageName)
    ScheduledStage.Numbered (n + 1) runs ∧
      (s.after ops).tables.CountedTo pipelineName counter stageName (n + runs.length) := by
  induction ops generalizing s n with
  | nil => exact ⟨.nil _, counted⟩
  | cons op ops ih =>
    obtain ⟨first, now⟩ := numbered_perform sound counted op
    obtain ⟨rest, later⟩ := ih (sound.perform op) now
    rw [Nat.add_right_comm] at rest
    dsimp only
    rw [stagesScheduledIn, List.filter_append, List.length_append, ← Nat.add_assoc]
    exact ⟨first.append rest, later⟩

/-- Whatever was asked of the scheduler, take the times that a stage was scheduled under one counter of
its pipeline and gave back a job, each from the catalog as it was then, with names taken without regard
to case. The jobs of the first time have the stage counter one, those of the second time two, and so on.
The stage counters of the stored jobs, ignored ones included, are the numbers from one to the number of
those times. -/
theorem stage_counters_consecutive (keys : OrderKeys) (ids : IdSource) (ops : List Operation)
    (pipelineName : String) (counter : Int) (stageName : String) :
    let runs := ((fresh keys ids).stagesScheduledIn ops).filter
      (·.isOf pipelineName counter stageName)
    (∀ run k, (run, k) ∈ runs.zipIdx 1 →
        run.jobs ≠ [] ∧ ∀ job ∈ run.jobs, job.identifier.stageCounter = k) ∧
      ∀ c : Int, c ∈ ((fresh keys ids).after ops).tables.stageCounters pipelineName counter stageName ↔
        1 ≤ c ∧ c ≤ runs.length := by
  have counted := numbered_after (sound_fresh keys ids)
    (JobTables.countedTo_empty pipelineName counter stageName) ops
  dsimp only at counted
  rw [Nat.zero_add, Nat.zero_add] at counted
  exact counted

/-- A stage is counted on when its job was replaced and its pipeline has another spelling. -/
theorem respelt_stage_counted_on :
    let ops := [Operation.schedule (.single "Studios" "mingle" "unit") "studios" 1 none none ⟨0, 0⟩,
      .reschedule ⟨1⟩ ⟨1, 0⟩,
      .schedule (.single "STUDIOS" "Mingle" "unit") "studios" 1 none none ⟨2, 0⟩]
    ∃ first second, ((fresh (.startingAt 0) (.startingAt ⟨1⟩)).stagesScheduledIn ops).filter
        (·.isOf "studios" 1 "mingle") = [first, second] ∧
      (first.pipelineName, second.pipelineName) = ("Studios", "STUDIOS") ∧
      second.jobs ≠ [] ∧ ∀ job ∈ second.jobs, job.identifier.stageCounter = 2 := by
  intro ops
  obtain ⟨counted, _⟩ := stage_counters_consecutive (.startingAt 0) (.startingAt ⟨1⟩) ops
    "studios" 1 "mingle"
  have names : (((fresh (.startingAt 0) (.startingAt ⟨1⟩)).stagesScheduledIn ops).filter
      (·.isOf "studios" 1 "mingle")).map (·.pipelineName) = ["Studios", "STUDIOS"] := by
    decide +kernel
  obtain ⟨first, rest, found, hfirst, hrest⟩ := List.map_eq_cons_iff.mp names
  obtain ⟨second, rest, rfl, hsecond, hnone⟩ := List.map_eq_cons_iff.mp hrest
  rw [List.map_eq_nil_iff.mp hnone] at found
  rw [found] at counted
  refine ⟨first, second, found, Prod.ext hfirst hsecond, counted second 2 ?_⟩
  exact List.mem_cons_of_mem _ List.mem_cons_self

end Scheduler

end BuildServer
