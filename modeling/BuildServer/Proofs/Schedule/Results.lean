import BuildServer.Proofs.Schedule.Run
/-!
# Recorded results

A job gets its result when it is completed or cancelled, and a completed job keeps it: it is neither
completed again nor replaced. Yet agents may report any state in any order, so a late report may take
a job out of its completion. Such a report leaves the result alone, but the next completion replaces
it, and the job may be replaced as well.
-/

set_option autoImplicit false

namespace BuildServer

namespace Operation

variable (id : Uuid)

/-- The operation asks for the job to be completed or cancelled. -/
def Completes : Operation → Prop
  | .complete other _ _ => other = id
  | .cancel other _ => other = id
  | _ => False

/-- The operation reports that the job is in a state other than completed. That it was rescheduled
cannot be reported. -/
def Reopens : Operation → Prop
  | .reportState other state _ => other = id ∧ state ≠ .completed ∧ state ≠ .rescheduled
  | _ => False

end Operation

namespace Scheduler

variable {s s' : Scheduler} {e : Event} {events : List Event} {op : Operation} {id : Uuid}
  {result : JobResult} {job : JobInstance}

/-- The job is stored with the result. -/
def HasResult (s : Scheduler) (id : Uuid) (result : JobResult) : Prop :=
  ∃ job, s.tables.findJob? id = some job ∧ job.result = result

/-- The job is stored as completed, with the result. -/
def HasCompleted (s : Scheduler) (id : Uuid) (result : JobResult) : Prop :=
  ∃ job, s.tables.findJob? id = some job ∧ job.isCompleted = true ∧ job.result = result

theorem HasCompleted.hasResult (h : s.HasCompleted id result) : s.HasResult id result := by
  obtain ⟨job, found, _, hresult⟩ := h
  exact ⟨job, found, hresult⟩

/-! ## One step -/

/-- Only a completion or a cancellation changes the result of a job. -/
theorem Step.hasResult (step : Step e s s') (cause : Causes op e) (other : ¬ op.Completes id)
    (h : s.HasResult id result) : s'.HasResult id result := by
  obtain ⟨job, found, hresult⟩ := h
  obtain ⟨later, hlater, fate⟩ := step.fate found
  refine ⟨later, hlater, ?_⟩
  have hid : job.id = id := JobTables.id_of_findJob? found
  cases fate with
  | same | retired => exact hresult
  | advanced =>
    cases cause with
    | assigned | reported => exact hresult
    | completed | cancelled => exact absurd hid other

/-- Only the report of another state takes a job out of its completion. -/
theorem Step.hasCompleted (step : Step e s s') (cause : Causes op e) (closed : ¬ op.Reopens id)
    (h : s.HasCompleted id result) : s'.HasCompleted id result := by
  obtain ⟨job, found, completed, hresult⟩ := h
  obtain ⟨later, hlater, fate⟩ := step.fate found
  have hid : job.id = id := JobTables.id_of_findJob? found
  cases fate with
  | same => exact ⟨_, hlater, completed, hresult⟩
  | retired new now replaceable =>
    -- only a job that is not completed is left behind
    rw [replaceable.notCompleted] at completed
    cases completed
  | advanced =>
    cases cause with
    | assigned agent now waiting => 
      exact absurd waiting (JobTables.not_isWaiting_of_closed (Bool.or_eq_true_iff.mpr (Or.inl completed)))
    | reported state now notRescheduled =>
      by_cases hstate : state = .completed
      · exact ⟨_, hlater, by rw [hstate]; rfl, hresult⟩
      · exact absurd ⟨hid, hstate, notRescheduled⟩ closed
    | completed _ now notCompleted | cancelled now notCompleted =>
      rw [notCompleted] at completed
      cases completed

/-- A completed job is not replaced. -/
theorem Step.not_replaced (step : Step e s s') (h : s.HasCompleted id result) :
    id ∉ e.replacedIds := by
  intro replaced
  obtain ⟨job, found, completed, _⟩ := h
  cases step with
  | idle | staged | advanced => cases replaced
  | replaced hreplaced =>
    rw [List.mem_singleton.mp replaced, tables_memory, hreplaced.found, Option.some.injEq] at found
    rw [← found, hreplaced.replaceable.notCompleted] at completed
    cases completed

/-! ## Many steps -/

namespace Journal

theorem hasCompleted (h : Journal events s s')
    (causes : ∀ e ∈ events, ∃ op : Operation, ¬ op.Reopens id ∧ Causes op e)
    (held : s.HasCompleted id result) :
    s'.HasCompleted id result ∧ id ∉ events.flatMap Event.replacedIds := by
  induction h with
  | nil => exact ⟨held, List.not_mem_nil⟩
  | cons step _ ih =>
    obtain ⟨op, closed, cause⟩ := causes _ List.mem_cons_self
    obtain ⟨completed, kept⟩ := ih (fun e he => causes e (List.mem_cons_of_mem _ he))
      (step.hasCompleted cause closed held)
    refine ⟨completed, ?_⟩
    rw [List.flatMap_cons, List.mem_append, not_or]
    exact ⟨step.not_replaced held, kept⟩

end Journal

/-! ## Runs -/

/-- A run without a completion or a cancellation of the job leaves its result alone. -/
theorem Sound.hasResult_after (sound : s.Sound) (ops : List Operation)
    (others : ∀ op ∈ ops, ¬ op.Completes id) (h : s.HasResult id result) :
    (s.after ops).HasResult id result := by
  refine sound.keeps_after (P := fun s => s.HasResult id result) ops ?_ h
  intro op hop e s s' cause _ step
  exact step.hasResult cause (others op hop)

/-- A run without a report that reopens the job leaves it completed with its result, and does not
replace it. -/
theorem Sound.hasCompleted_after (sound : s.Sound) (ops : List Operation)
    (closed : ∀ op ∈ ops, ¬ op.Reopens id) (h : s.HasCompleted id result) :
    (s.after ops).HasCompleted id result ∧ id ∉ s.replacedIn ops := by
  obtain ⟨events, journal, causes, replaced⟩ := exists_journal sound ops
  rw [← replaced]
  refine journal.hasCompleted ?_ h
  intro e he
  obtain ⟨op, hop, cause⟩ := causes e he
  exact ⟨op, closed op hop, cause⟩

/-- The job that a change gives back is the one that is stored. -/
theorem findJob?_of_change {w : Workspace} {cache : StatusCache}
    {f : JobInstance → Except ScheduleError (Option JobInstance)}
    (keeps : ∀ old new, f old = .ok (some new) → new.id = old.id)
    (h : change id f ⟨.memory w, cache⟩ = (.ok job, s')) : s'.tables.findJob? id = some job := by
  cases change_cases keeps h with
  | unchanged found => exact found
  | @changed old _ found hf =>
    have hid : job.id = id := (keeps old job hf).trans (JobTables.id_of_findJob? found)
    rw [tables_memory, Workspace.withJob_tables, JobTables.findJob?_insertJob, if_pos hid]

/-- A stored job is stored in the state that was reported. -/
theorem findJob?_of_report {state : JobState} {now : Instant} (sound : s.Sound)
    (found : s.tables.findJob? id = some job) (notRescheduled : state ≠ .rescheduled) :
    ((Operation.reportState id state now).perform s).tables.findJob? id
      = some (job.enter state now) := by
  obtain ⟨w, cache, rfl, _⟩ := sound
  have hid : job.id = id := JobTables.id_of_findJob? found
  rw [Operation.perform, Operation.run, reportState, run_ite, if_neg notRescheduled,
    run_change found ?_]
  · rw [tables_memory, Workspace.withJob_tables, JobTables.findJob?_insertJob,
      if_pos (by exact hid)]
  · intro new hf
    rw [Except.ok.injEq, Option.some.injEq] at hf
    rw [← hf]
    rfl

theorem findJob?_of_complete {now : Instant} (sound : s.Sound)
    (h : complete id result now s = (.ok job, s')) : s'.tables.findJob? id = some job := by
  obtain ⟨w, cache, rfl, _⟩ := sound
  refine findJob?_of_change ?_ h
  intro old new hf
  obtain ⟨_, rfl⟩ := eq_of_unless hf
  rfl

theorem findJob?_of_cancel {now : Instant} (sound : s.Sound)
    (h : cancel id now s = (.ok job, s')) : s'.tables.findJob? id = some job := by
  obtain ⟨w, cache, rfl, _⟩ := sound
  refine findJob?_of_change ?_ h
  intro old new hf
  obtain ⟨_, rfl⟩ := eq_of_unless hf
  rfl

/-- Once a job has come out of a completion or a cancellation as completed, it stays completed with
its result, and is not replaced, until a report reopens it. From then on it still keeps the result
until it is completed or cancelled again. -/
theorem recorded_result_kept_until_reopened (keys : OrderKeys) (ids : IdSource)
    (before : List Operation) (id : Uuid) (result : JobResult) (now : Instant) (job : JobInstance)
    (s : Scheduler)
    (recorded : complete id result now ((fresh keys ids).after before) = (.ok job, s) ∨
      cancel id now ((fresh keys ids).after before) = (.ok job, s))
    (completed : job.isCompleted = true) (ops : List Operation)
    (closed : ∀ op ∈ ops, ¬ op.Reopens id) :
    (s.after ops).HasCompleted id job.result ∧ id ∉ s.replacedIn ops ∧
      ∀ more : List Operation, (∀ op ∈ more, ¬ op.Completes id) →
        (s.after (ops ++ more)).HasResult id job.result := by
  have hbefore : ((fresh keys ids).after before).Sound := sound_after_fresh keys ids before
  have stored : s.Sound ∧ s.tables.findJob? id = some job := by
    rcases recorded with hcomplete | hcancel
    · refine ⟨?_, findJob?_of_complete hbefore hcomplete⟩
      have := hbefore.perform (.complete id result now)
      rwa [Operation.perform, Operation.run, hcomplete] at this
    · refine ⟨?_, findJob?_of_cancel hbefore hcancel⟩
      have := hbefore.perform (.cancel id now)
      rwa [Operation.perform, Operation.run, hcancel] at this
  obtain ⟨sound, found⟩ := stored
  obtain ⟨held, kept⟩ := sound.hasCompleted_after ops closed ⟨job, found, completed, rfl⟩
  refine ⟨held, kept, ?_⟩
  intro more others
  rw [after_append]
  exact (sound.after ops).hasResult_after more others held.hasResult

/-- A job that has passed stays so when it is cancelled and its completion is reported again. -/
theorem passed_kept_through_cancellation :
    let start := fresh (.startingAt 0) (.startingAt ⟨1⟩)
    let schedule : Operation :=
      .schedule (.single "studios" "mingle" "unit") "studios" 1 (some "1") none ⟨0, 0⟩
    let s := start.after [schedule, .complete ⟨1⟩ .passed ⟨5, 0⟩]
    (s.after [.cancel ⟨1⟩ ⟨6, 0⟩, .reportState ⟨1⟩ .completed ⟨7, 0⟩]).HasCompleted ⟨1⟩ .passed ∧
      ⟨1⟩ ∉ s.replacedIn [.cancel ⟨1⟩ ⟨6, 0⟩, .reportState ⟨1⟩ .completed ⟨7, 0⟩] := by
  intro start schedule s
  let job : JobInstance :=
    { id := ⟨1⟩, identifier := ⟨"studios", 1, "1", "mingle", 1, "unit"⟩, state := .completed,
      result := .passed, agent := none, ignored := false, scheduleOrder := 1,
      scheduledAt := ⟨0, 0⟩, transitions := [⟨.scheduled, ⟨0, 0⟩⟩, ⟨.completed, ⟨5, 0⟩⟩] }
  have recorded : complete ⟨1⟩ .passed ⟨5, 0⟩ (start.after [schedule]) = (.ok job, s) := by rfl
  have closed : ∀ op ∈ [Operation.cancel ⟨1⟩ ⟨6, 0⟩, .reportState ⟨1⟩ .completed ⟨7, 0⟩],
      ¬ op.Reopens ⟨1⟩ := by
    simp [Operation.Reopens]
  obtain ⟨held, kept, _⟩ := recorded_result_kept_until_reopened (.startingAt 0) (.startingAt ⟨1⟩)
    [schedule] ⟨1⟩ .passed ⟨5, 0⟩ job s (Or.inl recorded) rfl _ closed
  exact ⟨held, kept⟩

/-- A job that has passed and is then reported as building may be completed as failed, or be
replaced. -/
theorem reopened_job_gets_another_result :
    let s := (fresh (.startingAt 0) (.startingAt ⟨1⟩)).after
      [.schedule (.single "studios" "mingle" "unit") "studios" 1 (some "1") none ⟨0, 0⟩,
        .complete ⟨1⟩ .passed ⟨5, 0⟩]
    let reopened := s.after [.reportState ⟨1⟩ .building ⟨6, 0⟩]
    (s.tables.findJob? ⟨1⟩).map (·.result) = some .passed ∧
      ((reopened.after [.complete ⟨1⟩ .failed ⟨7, 0⟩]).tables.findJob? ⟨1⟩).map (·.result)
        = some .failed ∧
      reopened.replacedIn [.reschedule ⟨1⟩ ⟨7, 0⟩] = [⟨1⟩] := by
  refine ⟨?_, ?_, ?_⟩ <;> decide +kernel

end Scheduler

end BuildServer
