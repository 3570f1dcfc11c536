import BuildServer.Proofs.Schedule.Cache
import BuildServer.Proofs.Schedule.Conservation
import BuildServer.Proofs.Schedule.Failures
import BuildServer.Proofs.Schedule.Results
/-!
# Cancelling a job that was replaced

That a job was replaced shows in two places: in its state, which the next report overwrites, and in
the mark that it is ignored, which stays. A request to replace a job looks at both, a request to cancel
it at the state alone. So a job that was replaced is let alone by cancellations exactly until a report
gives it another state than completed; after that a cancellation is recorded on it as on any other job.

All that such a cancellation does is within the job: the mark keeps it from the cache, and no other
job and no plan is touched.
-/

set_option autoImplicit false

namespace BuildServer.Scheduler

variable {s s' : Scheduler} {e : Event} {events : List Event} {op : Operation} {id : Uuid}
  {job : JobInstance} {now : Instant}

/-- The job is stored, and is completed or was rescheduled as far as its state says. -/
def IsClosed (s : Scheduler) (id : Uuid) : Prop :=
  ∃ job, s.tables.findJob? id = some job ∧ (job.isCompleted || job.isRescheduled) = true

/-- A request to cancel the job, whenever it is made, gives the stored job back and does nothing. -/
def CancelsInVain (s : Scheduler) (id : Uuid) : Prop :=
  ∃ job, s.tables.findJob? id = some job ∧ ∀ now, cancel id now s = (.ok job, s)

/-- Nothing but the stored state of the job, which is ignored, has changed. -/
structure Within (id : Uuid) (s s' : Scheduler) : Prop where
  cache : s'.cache = s.cache
  plans : s'.tables.plans = s.tables.plans
  others : ∀ other, other ≠ id → s'.tables.findJob? other = s.tables.findJob? other
  ignored : s'.tables.IsIgnored id

/-! ## One cancellation -/

/-- A job that is open is cancelled. -/
theorem run_cancel {w : Workspace} {cache : StatusCache} (found : w.tables.findJob? id = some job)
    (isOpen : (job.isCompleted || job.isRescheduled) = false) :
    cancel id now ⟨.memory w, cache⟩
      = (.ok (job.cancel now), ⟨.memory (w.withJob (job.cancel now)), cache.update (job.cancel now)⟩) := by
  rw [cancel, run_change found ?_]
  · rw [isOpen, if_neg Bool.false_ne_true]
  · intro new hf
    obtain ⟨_, rfl⟩ := eq_of_unless hf
    rfl

/-- It is closed jobs that a cancellation lets alone: an open one gets another entry in its history. -/
theorem cancelsInVain_iff (sound : s.Sound) : s.CancelsInVain id ↔ s.IsClosed id := by
  constructor
  · rintro ⟨job, found, vain⟩
    refine ⟨job, found, ?_⟩
    by_contra isOpen
    rw [Bool.not_eq_true] at isOpen
    obtain ⟨w, cache, rfl, _⟩ := sound
    -- any instant will do
    have cancelled := vain job.scheduledAt
    rw [run_cancel found isOpen, Prod.mk.injEq, Except.ok.injEq] at cancelled
    have advance : job.Advance (job.cancel job.scheduledAt) :=
      .completed .cancelled _ (Bool.or_eq_false_iff.mp isOpen).1
    exact advance.ne cancelled.1
  · rintro ⟨job, found, closed⟩
    exact ⟨job, found, fun now => cancel_alone sound found closed⟩

/-- A cancellation of an ignored job succeeds and stays within the job. -/
theorem cancel_ignored (sound : s.Sound) (ignored : s.tables.IsIgnored id) (now : Instant) :
    ∃ job s', cancel id now s = (.ok job, s') ∧ Within id s s' := by
  obtain ⟨job, found, mark⟩ := ignored
  rcases closed : job.isCompleted || job.isRescheduled with _ | _
  · obtain ⟨w, cache, rfl, _⟩ := sound
    have hid : job.id = id := JobTables.id_of_findJob? found
    have put := JobTables.findJob?_insertJob (job.cancel now) w.tables
    refine ⟨_, _, run_cancel found closed, ?_, rfl, ?_, _, (put id).trans (if_pos hid), mark⟩
    · exact StatusCache.update_ignored mark
    · intro other hother
      refine (put other).trans (if_neg ?_)
      exact fun same => hother (same.symm.trans hid)
  · exact ⟨job, s, cancel_alone sound found closed, rfl, rfl, fun _ _ => rfl, job, found, mark⟩

/-! ## One step -/

/-- A closed job is opened by a report alone. -/
theorem Step.isClosed (step : Step e s s') (cause : Causes op e) (closes : ¬ op.Reopens id)
    (h : s.IsClosed id) : s'.IsClosed id := by
  obtain ⟨job, found, closed⟩ := h
  obtain ⟨later, hlater, fate⟩ := step.fate found
  have hid : job.id = id := JobTables.id_of_findJob? found
  refine ⟨later, hlater, ?_⟩
  cases fate with
  | same => exact closed
  | retired => rfl
  | advanced =>
    cases cause with
    | assigned _ _ waits => exact absurd waits (JobTables.not_isWaiting_of_closed closed)
    | reported state now notRescheduled =>
      by_cases completed : state = .completed
      · subst completed
        rfl
      · exact absurd ⟨hid, completed, notRescheduled⟩ closes
    | completed | cancelled => rfl

/-- A replacement closes the job. -/
theorem Step.isClosed_of_replaced (step : Step e s s') (replaced : id ∈ e.replacedIds) :
    s'.IsClosed id := by
  cases step with
  | idle | staged | advanced => cases replaced
  | replaced hreplaced =>
    rw [List.mem_singleton.mp replaced]
    obtain ⟨now, retired⟩ := hreplaced.findJob?_old
    exact ⟨_, retired, rfl⟩

/-- A report of another state opens the job. -/
theorem not_isClosed_of_reopens (sound : s.Sound) (found : s.tables.findJob? id = some job)
    (reopens : op.Reopens id) : ¬ (op.perform s).IsClosed id := by
  cases op with
  | reportState other state now =>
    obtain ⟨rfl, notCompleted, notRescheduled⟩ := reopens
    rintro ⟨later, hlater, closed⟩
    rw [findJob?_of_report sound found notRescheduled, Option.some.injEq] at hlater
    subst hlater
    cases state <;> contradiction
  | _ => cases reopens

/-! ## Runs -/

theorem Sound.isClosed_after (sound : s.Sound) (ops : List Operation)
    (closes : ∀ op ∈ ops, ¬ op.Reopens id) (closed : s.IsClosed id) : (s.after ops).IsClosed id := by
  refine sound.keeps_after (P := fun s => s.IsClosed id) ops ?_ closed
  intro op hop e s s' cause _ step
  exact step.isClosed cause (closes op hop)

/-- What a replacement brings about and no step undoes holds at the end. -/
theorem Journal.holds_of_replaced {P : Scheduler → Prop} (h : Journal events s s')
    (sound : s.Sound) (replaced : id ∈ events.flatMap Event.replacedIds)
    (brings : ∀ (e : Event) (s s' : Scheduler), Step e s s' → id ∈ e.replacedIds → P s')
    (keep : ∀ e ∈ events, ∀ s s' : Scheduler, s.Sound → Step e s s' → P s → P s') : P s' := by
  induction h with
  | nil => cases replaced
  | cons step journal ih =>
    have later := fun e he => keep e (List.mem_cons_of_mem _ he)
    rw [List.flatMap_cons, List.mem_append] at replaced
    rcases replaced with now | afterwards
    · exact journal.keeps later (step.sound sound) (brings _ _ _ step now)
    · exact ih (step.sound sound) afterwards later

/-- No report replaces a job. -/
theorem not_reopens_of_replaced (replaced : id ∈ op.replaced s) : ¬ op.Reopens id := by
  cases op with
  | reportState => cases replaced
  | _ => exact not_false

/-- An operation that replaces a job leaves it closed and ignored. -/
theorem closed_and_ignored_of_replaced (sound : s.Sound) (replaced : id ∈ op.replaced s) :
    (op.perform s).IsClosed id ∧ (op.perform s).tables.IsIgnored id := by
  obtain ⟨events, recorded⟩ := exists_recorded sound op
  -- the requests for an agent go on after the replacement
  refine recorded.journal.holds_of_replaced
    (P := fun s => s.IsClosed id ∧ s.tables.IsIgnored id) sound (recorded.replaced ▸ replaced) ?_ ?_
  · intro e s s' step now
    exact ⟨step.isClosed_of_replaced now, (step.replaced_isIgnored now).2⟩
  · rintro e he s s' _ step ⟨closed, ignored⟩
    have closes := not_reopens_of_replaced replaced
    exact ⟨step.isClosed (recorded.caused e he) closes closed, step.isIgnored ignored⟩

/-- Once a job has been replaced, requests to cancel it give back the stored job and do nothing in the
course of a run exactly if no other state than completed is reported for it. Whatever is reported, they
succeed, and neither the cache nor another job nor a plan is touched. -/
theorem replaced_job_cancels_in_vain_iff (keys : OrderKeys) (ids : IdSource)
    (before : List Operation) (op : Operation) (id : Uuid)
    (replaced : id ∈ op.replaced ((fresh keys ids).after before)) (ops : List Operation) :
    let s := op.perform ((fresh keys ids).after before)
    ((∀ earlier, earlier <+: ops → (s.after earlier).CancelsInVain id) ↔
      ∀ report ∈ ops, ¬ report.Reopens id) ∧
    ∀ now, ∃ job s', cancel id now (s.after ops) = (.ok job, s') ∧ Within id (s.after ops) s' := by
  intro s
  have hbefore : ((fresh keys ids).after before).Sound := sound_after_fresh keys ids before
  have sound : s.Sound := hbefore.perform op
  obtain ⟨closed, ignored⟩ := closed_and_ignored_of_replaced hbefore replaced
  refine ⟨⟨?_, ?_⟩, ?_⟩
  · -- the requests before the report being in vain, the job is there when the report comes in
    intro vain report hreport reopens
    obtain ⟨earlier, rest, rfl⟩ := List.append_of_mem hreport
    obtain ⟨job, found, _⟩ := vain earlier (List.prefix_append _ _)
    have still : (s.after (earlier ++ [report])).CancelsInVain id := by
      refine vain _ ⟨rest, ?_⟩
      rw [List.append_assoc, List.singleton_append]
    rw [cancelsInVain_iff (sound.after _), after_append] at still
    exact not_isClosed_of_reopens (sound.after earlier) found reopens still
  · intro closes earlier within
    refine (cancelsInVain_iff (sound.after earlier)).mpr (sound.isClosed_after earlier ?_ closed)
    exact fun report hreport => closes report (within.subset hreport)
  · intro now
    exact cancel_ignored (sound.after ops) (sound.isIgnored_after ops ignored) now

/-- A replaced job that is reported as completed is let alone when it is cancelled. -/
theorem replaced_job_completed_and_cancelled :
    let start := fresh (.startingAt 0) (.startingAt ⟨1⟩)
    let schedule : Operation :=
      .schedule (.single "studios" "mingle" "unit") "studios" 1 (some "1") none ⟨0, 0⟩
    let s := (Operation.reschedule ⟨1⟩ ⟨5, 0⟩).perform (start.after [schedule])
    let ops : List Operation := [.reportState ⟨1⟩ .completed ⟨6, 0⟩, .cancel ⟨1⟩ ⟨7, 0⟩]
    ∀ earlier, earlier <+: ops → (s.after earlier).CancelsInVain ⟨1⟩ := by
  intro start schedule s ops
  have replaced : ⟨1⟩ ∈ (Operation.reschedule ⟨1⟩ ⟨5, 0⟩).replaced (start.after [schedule]) := by
    decide +kernel
  have closes : ∀ report ∈ ops, ¬ report.Reopens ⟨1⟩ := by
    simp [ops, Operation.Reopens]
  exact (replaced_job_cancels_in_vain_iff (.startingAt 0) (.startingAt ⟨1⟩) [schedule]
    (.reschedule ⟨1⟩ ⟨5, 0⟩) ⟨1⟩ replaced ops).1.mpr closes

/-- A replaced job that is reported as building is cancelled, though it was closed when it was
replaced. -/
theorem replaced_job_cancelled_after_late_report :
    let start := fresh (.startingAt 0) (.startingAt ⟨1⟩)
    let schedule : Operation :=
      .schedule (.single "studios" "mingle" "unit") "studios" 1 (some "1") none ⟨0, 0⟩
    let late := start.after
      [schedule, .reschedule ⟨1⟩ ⟨5, 0⟩, .reportState ⟨1⟩ .building ⟨6, 0⟩]
    let cancelled := late.after [.cancel ⟨1⟩ ⟨7, 0⟩]
    start.replacedIn [schedule, .reschedule ⟨1⟩ ⟨5, 0⟩] = [⟨1⟩] ∧
      (late.tables.findJob? ⟨1⟩).map (fun job => (job.state, job.result))
        = some (.building, .unknown) ∧
      (cancelled.tables.findJob? ⟨1⟩).map (fun job => (job.state, job.result))
        = some (.completed, .cancelled) := by
  refine ⟨?_, ?_, ?_⟩ <;> decide +kernel

end BuildServer.Scheduler
