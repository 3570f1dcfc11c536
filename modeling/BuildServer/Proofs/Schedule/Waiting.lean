import BuildServer.Proofs.Schedule.Failures
/-!
# The queue of waiting jobs

The list of the jobs that wait is made anew whenever it is asked for: the jobs that wait are sorted by
their orders, and those without a plan are left out. Yet it moves like a queue, to whose end jobs are
put when they are scheduled and from which they are taken when they cease to wait.

The tables stand by rising order, because every key is greater than all that were given before it and
a job that changes keeps its place. So there is nothing to sort, nothing is left out since every job
has its plan, and the queue is the part of the tables that waits.
-/

set_option autoImplicit false

namespace BuildServer

open Workspace

namespace JobTables

variable {t t' : JobTables} {job old new : JobInstance} {jobs : List JobInstance} {id : Uuid}

/-- The jobs that wait for an agent, in the order of the tables. -/
def waiting (t : JobTables) : List JobInstance := t.jobs.filter isWaiting

/-- The jobs whose plans are listed, in the order of the list. -/
def waitingIds (t : JobTables) : List Uuid := t.waitingPlans.map (·.jobId)

/-! ## The list -/

/-- Jobs that stand by rising order stay as they are, and no other order of them is one. -/
theorem inOrder_eq_of_perm (ordered : (jobs.map (·.scheduleOrder)).Pairwise (· < ·))
    {shuffled : List JobInstance} (same : shuffled.Perm jobs) : inOrder shuffled = jobs := by
  have rising : jobs.Pairwise fun a b => a.scheduleOrder < b.scheduleOrder :=
    List.pairwise_map.mp ordered
  have sorted : (inOrder shuffled).Pairwise fun a b => a.scheduleOrder ≤ b.scheduleOrder := by
    refine (List.pairwise_mergeSort ?_ ?_ shuffled).imp of_decide_eq_true
    · intro a b c hab hbc
      exact decide_eq_true (Int.le_trans (of_decide_eq_true hab) (of_decide_eq_true hbc))
    · intro a b
      rw [Bool.or_eq_true, decide_eq_true_iff, decide_eq_true_iff]
      exact Int.le_total _ _
  have perm : (inOrder shuffled).Perm jobs := (List.mergeSort_perm ..).trans same
  refine perm.eq_of_pairwise ?_ sorted (rising.imp Int.le_of_lt)
  -- two jobs that do not come before each other have one order, and so are one
  intro a b ha hb hab hba
  have hmem : a ∈ jobs := perm.mem_iff.mp ha
  have distinct : (jobs.map (·.scheduleOrder)).Nodup := ordered.imp Int.ne_of_lt
  have horder : a.scheduleOrder = b.scheduleOrder := Int.le_antisymm hab hba
  have found := find?_of_mem distinct hmem
  rw [horder, find?_of_mem distinct hb, Option.some.injEq] at found
  exact found.symm

/-- Jobs that have plans are listed one for one. -/
theorem map_jobId_filterMap (planned : ∀ job ∈ jobs, ∃ plan, t.findPlan? job.id = some plan) :
    (jobs.filterMap fun job => t.findPlan? job.id).map (·.jobId) = jobs.map (·.id) := by
  induction jobs with
  | nil => rfl
  | cons job jobs ih =>
    obtain ⟨plan, found⟩ := planned job List.mem_cons_self
    rw [List.filterMap_cons, found, List.map_cons, List.map_cons, jobId_of_findPlan? found,
      ih fun other hother => planned other (List.mem_cons_of_mem _ hother)]

/-! ## The part of the tables that waits -/

theorem mem_waiting : job ∈ t.waiting ↔ job ∈ t.jobs ∧ isWaiting job = true := List.mem_filter

theorem waiting_append (joined : t'.jobs = t.jobs ++ jobs)
    (fresh : ∀ job ∈ jobs, isWaiting job = true) : t'.waiting = t.waiting ++ jobs := by
  rw [waiting, waiting, joined, List.filter_append, List.filter_eq_self.mpr fresh]

/-- A job of the list waits. -/
theorem mem_map_waiting (distinct : (t.jobs.map (·.id)).Nodup) (found : t.findJob? id = some job) :
    id ∈ t.waiting.map (·.id) ↔ isWaiting job = true := by
  constructor
  · intro h
    obtain ⟨other, hother, rfl⟩ := List.mem_map.mp h
    rw [mem_waiting] at hother
    rw [findJob?_of_mem distinct hother.1, Option.some.injEq] at found
    rw [← found]
    exact hother.2
  · intro h
    rw [← id_of_findJob? found]
    exact List.mem_map_of_mem (mem_waiting.mpr ⟨mem_of_findJob? found, h⟩)

/-- Around a job that is put in again, the jobs of smaller order wait before it and those of greater
order behind it, as they did. -/
theorem waiting_insertJob (distinct : (t.jobs.map (·.id)).Nodup)
    (ordered : (t.jobs.map (·.scheduleOrder)).Pairwise (· < ·))
    (found : t.findJob? new.id = some old) (order : new.scheduleOrder = old.scheduleOrder) :
    ∃ ahead behind : List JobInstance,
      (t.insertJob new).waiting
        = ahead ++ (if isWaiting new = true then [new] else []) ++ behind ∧
      (t.waiting.map (·.id)).erase new.id = (ahead ++ behind).map (·.id) ∧
      (∀ other ∈ ahead, other ∈ t.jobs ∧ other.scheduleOrder < new.scheduleOrder) ∧
      ∀ other ∈ behind, other ∈ t.jobs ∧ new.scheduleOrder < other.scheduleOrder := by
  obtain ⟨before, after, split, put⟩ := putRow_split found
  have hid : old.id = new.id := id_of_findJob? found
  rw [split] at distinct ordered
  rw [List.map_append, List.map_cons, List.pairwise_append, List.pairwise_cons] at ordered
  -- The row is replaced in place, so what waits before and behind it is untouched.
  refine ⟨before.filter isWaiting, after.filter isWaiting, ?_, ?_, ?_, ?_⟩
  · rw [waiting, insertJob, put new rfl, List.filter_append, List.filter_cons, List.append_assoc]
    by_cases h : isWaiting new = true
    · rw [if_pos h, if_pos h, List.singleton_append]
    · rw [if_neg h, if_neg h, List.nil_append]
  · rw [waiting, split, ← hid]
    exact erase_map_filter_split distinct isWaiting
  · intro other hother
    have hmem := (List.mem_filter.mp hother).1
    rw [split, order]
    exact ⟨List.mem_append_left _ hmem,
      ordered.2.2 _ (List.mem_map_of_mem hmem) _ List.mem_cons_self⟩
  · intro other hother
    have hmem := (List.mem_filter.mp hother).1
    rw [split, order]
    exact ⟨List.mem_append_right _ (List.mem_cons_of_mem _ hmem),
      ordered.2.1.1 _ (List.mem_map_of_mem hmem)⟩

end JobTables

/-- The queue when a job has been replaced: the job is out, and the instance in its place waits at the
end. -/
def requeue (queue : List Uuid) (replacement : Uuid × Uuid) : List Uuid :=
  queue.erase replacement.1 ++ [replacement.2]

namespace Workspace

variable {w w' : Workspace} {job old new : JobInstance} {plan : JobPlan} {jobs : List JobInstance}
  {id : Uuid}

namespace Sound

variable (sound : w.Sound)

include sound

theorem exists_plan (h : job ∈ w.tables.jobs) : ∃ plan, w.tables.findPlan? job.id = some plan :=
  JobTables.findPlan?_isSome sound.planIds (JobTables.findJob?_of_mem sound.distinct h)

/-- No job that waits is left out. -/
theorem map_jobId_waitingPlans :
    w.tables.waitingPlans.map (·.jobId) = (JobTables.inOrder w.tables.waiting).map (·.id) := by
  refine JobTables.map_jobId_filterMap ?_
  intro job hjob
  rw [JobTables.inOrder, List.mem_mergeSort] at hjob
  exact sound.exists_plan (JobTables.mem_waiting.mp hjob).1

theorem inOrder_waiting {shuffled : List JobInstance} (same : shuffled.Perm w.tables.waiting) :
    JobTables.inOrder shuffled = w.tables.waiting :=
  JobTables.inOrder_eq_of_perm (sound.ordered.sublist (List.filter_sublist.map _)) same

/-- The list is the part of the tables that waits. -/
theorem waitingIds_eq : w.tables.waitingIds = w.tables.waiting.map (·.id) := by
  rw [JobTables.waitingIds, sound.map_jobId_waitingPlans, sound.inOrder_waiting (.refl _)]

/-- The list does not depend on how the jobs and plans stand in the tables. -/
theorem waitingPlans_eq_of_perm {t : JobTables} (jobs : t.jobs.Perm w.tables.jobs)
    (plans : t.plans.Perm w.tables.plans) : t.waitingPlans = w.tables.waitingPlans := by
  have hplans : ∀ id, t.findPlan? id = w.tables.findPlan? id :=
    find?_eq_of_perm sound.plans_distinct plans
  rw [JobTables.waitingPlans, JobTables.waitingPlans,
    sound.inOrder_waiting (jobs.filter JobTables.isWaiting)]
  have sorted : JobTables.inOrder (w.tables.jobs.filter JobTables.isWaiting) = w.tables.waiting :=
    sound.inOrder_waiting (.refl _)
  simp only [hplans, sorted]

theorem mem_waitingIds (found : w.tables.findJob? id = some job) :
    id ∈ w.tables.waitingIds ↔ JobTables.isWaiting job = true := by
  rw [sound.waitingIds_eq]
  exact JobTables.mem_map_waiting sound.distinct found

/-- A job that does not wait is not in the queue, and so need not be taken out. -/
theorem erase_waitingIds (found : w.tables.findJob? id = some job)
    (idle : ¬ JobTables.isWaiting job = true) :
    w.tables.waitingIds.erase id = w.tables.waitingIds :=
  List.erase_of_not_mem (mt (sound.mem_waitingIds found).mp idle)

end Sound

/-! ## What steps do to the queue -/

/-- The jobs of a stage go to the end of the queue. -/
theorem Staged.waitingIds_eq (h : Staged jobs w w') (sound : w.Sound) :
    w'.tables.waitingIds = w.tables.waitingIds ++ jobs.map (·.id) := by
  rw [(h.sound sound).waitingIds_eq, sound.waitingIds_eq,
    JobTables.waiting_append h.jobs_eq h.waiting, List.map_append]

/-- A job that no longer waits is taken out. -/
theorem Sound.waitingIds_withJob (sound : w.Sound) (found : w.tables.findJob? new.id = some old)
    (order : new.scheduleOrder = old.scheduleOrder) (identifier : new.identifier = old.identifier)
    (idle : ¬ JobTables.isWaiting new = true) :
    (w.withJob new).tables.waitingIds = w.tables.waitingIds.erase new.id := by
  obtain ⟨ahead, behind, after, before, _⟩ :=
    JobTables.waiting_insertJob sound.distinct sound.ordered found order
  rw [if_neg idle, List.append_nil] at after
  rw [(sound.withJob found order identifier).waitingIds_eq, sound.waitingIds_eq, withJob_tables,
    after, before]

/-- A replacement takes the job out and puts the fresh instance to the end. -/
theorem Replaced.waitingIds_eq (h : Replaced old new w w') (sound : w.Sound) :
    w'.tables.waitingIds = requeue w.tables.waitingIds (old.id, new.id) := by
  obtain ⟨now, plan, inserted⟩ := h.inserted
  have found : w.tables.findJob? (old.retire now).id = some old := h.found
  have retired := sound.waitingIds_withJob found rfl rfl (JobTables.not_isWaiting_of_ignored rfl)
  have hsound := sound.retire h.found now
  have fresh : ∀ job ∈ [new], JobTables.isWaiting job = true := by
    intro job hjob
    rw [List.mem_singleton.mp hjob]
    exact inserted.waiting
  rw [(inserted.sound hsound).waitingIds_eq, JobTables.waiting_append inserted.jobs fresh,
    List.map_append, ← hsound.waitingIds_eq, retired]
  rfl

end Workspace

namespace Scheduler

variable {s s' : Scheduler} {e : Event} {events : List Event} {op : Operation} {id : Uuid}
  {w : Workspace} {cache : StatusCache} {job : JobInstance} {now : Instant}

/-- Requests to replace jobs move the queue once for each job that is replaced. -/
theorem Journal.waitingIds_eq (journal : Journal events s s') (sound : s.Sound)
    (replacing : ∀ e ∈ events, e = .idle ∨ ∃ old new, e = .replaced old new) :
    s'.tables.waitingIds
      = (events.flatMap Event.replacements).foldl requeue s.tables.waitingIds := by
  induction journal with
  | nil => rfl
  | cons step _ ih =>
    rw [ih (step.sound sound) fun e he => replacing e (List.mem_cons_of_mem _ he),
      List.flatMap_cons, List.foldl_append]
    congr 1
    obtain ⟨w, cache, rfl, hw⟩ := sound
    cases step with
    | idle same later => rw [tables_memory, same]; rfl
    | replaced replaced => exact replaced.waitingIds_eq hw
    | staged | advanced => simpa using replacing _ List.mem_cons_self

/-! ## What operations do to the queue -/

/-- How the queue moves when an operation comes out as it does. -/
def QueueStep (s : Scheduler) (queue queue' : List Uuid) :
    (op : Operation) → Except ScheduleError op.Result → Prop
  -- what fails leaves the queue as it is
  | _, .error _ => queue' = queue
  -- the jobs of the stage, in the order in which they are configured, go to the end
  | .schedule catalog pipelineName _ _ stageName _, .ok jobs =>
    queue' = queue ++ jobs.map (·.id) ∧
      ∃ pipeline stage, catalog.find? pipelineName = some pipeline ∧
        chooseStage pipeline stageName = .ok stage ∧
        jobs.map (·.identifier.jobName) = stage.jobs.map (·.name)
  | .reschedule id _, .ok (.rescheduled new) => queue' = requeue queue (id, new.id)
  | .reschedule _ _, .ok (.kept _) => queue' = queue
  -- the requests that end in a replacement move the queue one after the other
  | .rescheduleAbandoned agent clock, .ok ids =>
    let replacements := (Operation.rescheduleAbandoned agent clock).replacements s
    ids = replacements.map (·.1) ∧ queue' = replacements.foldl requeue queue
  | .assign id _ _, .ok _ => id ∈ queue ∧ queue' = queue.erase id
  -- a live job that is reported to be scheduled is put back between those of smaller and greater order
  | .reportState id state _, .ok job =>
    if state ≠ .scheduled then queue' = queue.erase id
    else if job.ignored = true then queue' = queue
    else ∃ (old : JobInstance) (ahead behind : List JobInstance),
      s.tables.findJob? id = some old ∧
        queue.erase id = (ahead ++ behind).map (·.id) ∧
        queue' = ahead.map (·.id) ++ id :: behind.map (·.id) ∧
        (∀ other ∈ ahead, s.tables.findJob? other.id = some other ∧
          other.scheduleOrder < old.scheduleOrder) ∧
        ∀ other ∈ behind, s.tables.findJob? other.id = some other ∧
          old.scheduleOrder < other.scheduleOrder
  -- a job that was closed before did not wait, and the request comes to nothing
  | .complete id _ _, .ok _ => queue' = queue.erase id ∧
      ∀ old, s.tables.findJob? id = some old → old.isCompleted = true → queue' = queue
  | .cancel id _, .ok _ => queue' = queue.erase id ∧
      ∀ old, s.tables.findJob? id = some old →
        (old.isCompleted || old.isRescheduled) = true → queue' = queue
  | .armPlanFailure, .ok _ => queue' = queue

theorem QueueStep.failed {queue queue' : List Uuid} {failure : ScheduleError}
    (same : queue' = queue) : QueueStep s queue queue' op (.error failure) := by
  cases op <;> exact same

/-- A change that succeeds finds the job, and lets it alone or reports on it. -/
theorem change_ok {f : JobInstance → Except ScheduleError (Option JobInstance)}
    (advances : ∀ old new, f old = .ok (some new) → old.Advance new)
    (h : change id f ⟨.memory w, cache⟩ = (.ok job, s')) :
    ∃ old, w.tables.findJob? id = some old ∧
      ((f old = .ok none ∧ s'.tables = w.tables) ∨
        (f old = .ok (some job) ∧ old.Advance job ∧ job.id = id ∧
          s'.tables = (w.withJob job).tables)) := by
  cases change_cases (fun old new hf => (advances old new hf).id_eq) h with
  | unchanged found hf => exact ⟨job, found, Or.inl ⟨hf, rfl⟩⟩
  | @changed old _ found hf =>
    have advance := advances old job hf
    have hid : job.id = id := advance.id_eq.trans (JobTables.id_of_findJob? found)
    exact ⟨old, found, Or.inr ⟨hf, advance, hid, rfl⟩⟩

/-- A job that is handed out waited before. -/
theorem assign_ok {agent : String} (h : assign id agent now ⟨.memory w, cache⟩ = (.ok job, s')) :
    ∃ old, w.tables.findJob? id = some old ∧ JobTables.isWaiting old = true ∧
      job = old.assign agent now ∧ s'.tables = (w.withJob job).tables := by
  obtain ⟨old, found, ⟨hf, _⟩ | ⟨hf, _, _, htables⟩⟩ := change_ok (by
    intro old new hf
    obtain ⟨waits, rfl⟩ := eq_of_waiting hf
    exact .assigned agent now waits) h
  · -- a job is handed out or the request fails, and never nothing
    split at hf <;> cases hf
  · obtain ⟨waits, assigned⟩ := eq_of_waiting hf
    exact ⟨old, found, waits, assigned, htables⟩

/-- A job that a report takes out of waiting is taken out of the queue. -/
theorem waitingIds_advanced {old new : JobInstance} (sound : w.Sound)
    (found : w.tables.findJob? id = some old) (advance : old.Advance new)
    (idle : ¬ JobTables.isWaiting new = true) :
    (w.withJob new).tables.waitingIds = w.tables.waitingIds.erase id := by
  have hid : new.id = id := advance.id_eq.trans (JobTables.id_of_findJob? found)
  subst hid
  exact sound.waitingIds_withJob found advance.order_eq advance.identifier_eq idle

/-- A job that a report makes wait is put between the jobs of smaller and those of greater order. -/
theorem waitingIds_put_back {old new : JobInstance} (sound : w.Sound)
    (found : w.tables.findJob? id = some old) (advance : old.Advance new)
    (waits : JobTables.isWaiting new = true) :
    ∃ ahead behind : List JobInstance,
      w.tables.findJob? id = some old ∧
        w.tables.waitingIds.erase id = (ahead ++ behind).map (·.id) ∧
        (w.withJob new).tables.waitingIds = ahead.map (·.id) ++ id :: behind.map (·.id) ∧
        (∀ other ∈ ahead, w.tables.findJob? other.id = some other ∧
          other.scheduleOrder < old.scheduleOrder) ∧
        ∀ other ∈ behind, w.tables.findJob? other.id = some other ∧
          old.scheduleOrder < other.scheduleOrder := by
  have hid : new.id = id := advance.id_eq.trans (JobTables.id_of_findJob? found)
  subst hid
  obtain ⟨ahead, behind, after, before, smaller, greater⟩ :=
    JobTables.waiting_insertJob sound.distinct sound.ordered found advance.order_eq
  have hsound := sound.withJob found advance.order_eq advance.identifier_eq
  rw [advance.order_eq] at smaller greater
  refine ⟨ahead, behind, found, ?_, ?_, ?_, ?_⟩
  · rw [sound.waitingIds_eq, before]
  · rw [hsound.waitingIds_eq, withJob_tables, after, if_pos waits, List.append_assoc,
      List.map_append, List.singleton_append, List.map_cons]
  · intro other hother
    obtain ⟨hmem, hlt⟩ := smaller other hother
    exact ⟨JobTables.findJob?_of_mem sound.distinct hmem, hlt⟩
  · intro other hother
    obtain ⟨hmem, hlt⟩ := greater other hother
    exact ⟨JobTables.findJob?_of_mem sound.distinct hmem, hlt⟩

section Steps

variable (sound : w.Sound)

include sound

theorem queueStep_schedule {catalog : Catalog} {pipelineName : String} {counter : Int}
    {label stageName : Option String} {jobs : List JobInstance}
    (h : scheduleStage catalog pipelineName counter label stageName now ⟨.memory w, cache⟩
      = (.ok jobs, s')) :
    QueueStep ⟨.memory w, cache⟩ w.tables.waitingIds s'.tables.waitingIds
      (.schedule catalog pipelineName counter label stageName now) (.ok jobs) := by
  cases scheduleStage_cases sound h with
  | @staged w' _ pipeline stage hpipeline hstage staged names _ =>
    refine ⟨staged.waitingIds_eq sound, pipeline, stage, hpipeline, hstage, ?_⟩
    have jobNames := congrArg (List.map (·.jobName)) names
    rwa [List.map_map, List.map_map] at jobNames

theorem queueStep_reschedule {outcome : RescheduleOutcome}
    (h : reschedule id now ⟨.memory w, cache⟩ = (.ok outcome, s')) :
    QueueStep ⟨.memory w, cache⟩ w.tables.waitingIds s'.tables.waitingIds
      (.reschedule id now) (.ok outcome) := by
  cases reschedule_cases sound h with
  | completed | rescheduled => exact rfl
  | replaced hid replaced _ _ => exact hid ▸ replaced.waitingIds_eq sound

theorem queueStep_assign {agent : String}
    (h : assign id agent now ⟨.memory w, cache⟩ = (.ok job, s')) :
    QueueStep ⟨.memory w, cache⟩ w.tables.waitingIds s'.tables.waitingIds
      (.assign id agent now) (.ok job) := by
  obtain ⟨old, found, waits, rfl, htables⟩ := assign_ok h
  refine ⟨(sound.mem_waitingIds found).mpr waits, ?_⟩
  rw [htables]
  exact waitingIds_advanced sound found (.assigned agent now waits)
    (JobTables.not_isWaiting_of_state nofun)

theorem queueStep_reportState {state : JobState}
    (h : reportState id state now ⟨.memory w, cache⟩ = (.ok job, s')) :
    QueueStep ⟨.memory w, cache⟩ w.tables.waitingIds s'.tables.waitingIds
      (.reportState id state now) (.ok job) := by
  rw [reportState, run_ite] at h
  by_cases rescheduled : state = .rescheduled
  · rw [if_pos rescheduled] at h
    cases h
  rw [if_neg rescheduled] at h
  obtain ⟨old, found, ⟨hf, _⟩ | ⟨hf, advance, hid, htables⟩⟩ := change_ok (by
    intro old new hf
    rw [Except.ok.injEq, Option.some.injEq] at hf
    exact hf ▸ .reported state now rescheduled) h
  · cases hf
  rw [Except.ok.injEq, Option.some.injEq] at hf
  have hstate : job.state = state := by rw [← hf]; rfl
  simp only [QueueStep]
  rw [htables]
  by_cases scheduled : state = .scheduled
  · rw [if_neg (not_not_intro scheduled)]
    by_cases ignored : job.ignored = true
    · -- an ignored job does not wait, before or after
      have hold : old.ignored = true := by rw [← advance.ignored_eq, ignored]
      rw [if_pos ignored, waitingIds_advanced sound found advance
        (JobTables.not_isWaiting_of_ignored ignored)]
      exact sound.erase_waitingIds found (JobTables.not_isWaiting_of_ignored hold)
    · have waits : JobTables.isWaiting job = true :=
        JobTables.isWaiting_iff.mpr ⟨hstate.trans scheduled, Bool.eq_false_iff.mpr ignored⟩
      rw [if_neg ignored]
      exact ⟨old, waitingIds_put_back sound found advance waits⟩
  · rw [if_pos scheduled]
    refine waitingIds_advanced sound found advance (JobTables.not_isWaiting_of_state ?_)
    rwa [hstate]

/-- A job that is let alone if it is closed, and completed otherwise, does not wait afterwards. -/
theorem waitingIds_completed {closed : JobInstance → Bool} {result : JobResult}
    (closes : ∀ old, closed old = true → (old.isCompleted || old.isRescheduled) = true)
    (completes : ∀ old, closed old = false → old.isCompleted = false)
    (h : change id (fun old => .ok (if closed old then none else some (old.complete result now)))
      ⟨.memory w, cache⟩ = (.ok job, s')) :
    s'.tables.waitingIds = w.tables.waitingIds.erase id ∧
      ∀ old, w.tables.findJob? id = some old → closed old = true →
        s'.tables.waitingIds = w.tables.waitingIds := by
  obtain ⟨old, found, ⟨hf, htables⟩ | ⟨hf, advance, _, htables⟩⟩ := change_ok (by
    intro old new hf
    obtain ⟨isOpen, rfl⟩ := eq_of_unless hf
    exact .completed result now (completes old isOpen)) h
  · have idle := JobTables.not_isWaiting_of_closed (closes old (alone_of_none hf))
    rw [htables, sound.erase_waitingIds found idle]
    exact ⟨rfl, fun _ _ _ => rfl⟩
  · obtain ⟨isOpen, rfl⟩ := eq_of_unless hf
    constructor
    · rw [htables]
      exact waitingIds_advanced sound found advance (JobTables.not_isWaiting_of_state nofun)
    · intro other hother closed
      rw [found, Option.some.injEq] at hother
      rw [← hother, isOpen] at closed
      cases closed

end Steps

theorem queueStep_rescheduleAbandoned (sound : s.Sound) {agent : String} {clock : Clock}
    {ids : List Uuid} (h : rescheduleAbandoned agent clock s = (.ok ids, s')) :
    QueueStep s s.tables.waitingIds s'.tables.waitingIds
      (.rescheduleAbandoned agent clock) (.ok ids) := by
  obtain ⟨events, recorded⟩ := exists_recorded sound (.rescheduleAbandoned agent clock)
  have hperform : (Operation.rescheduleAbandoned agent clock).perform s = s' := congrArg Prod.snd h
  constructor
  · rw [Operation.map_fst_replacements]
    obtain ⟨w, cache, rfl, _⟩ := sound
    rw [rescheduleAbandoned, run_bind, run_transact] at h
    exact rescheduleEach_eq_replacedAmong h
  · rw [← recorded.replacements, ← hperform]
    refine recorded.journal.waitingIds_eq sound ?_
    intro e he
    cases recorded.caused e he with
    | idle => exact Or.inl rfl
    | abandoned _ old new => exact Or.inr ⟨old, new, rfl⟩

/-- Whatever is asked for, the queue moves as it should. -/
theorem queueStep (sound : s.Sound) (op : Operation) :
    QueueStep s s.tables.waitingIds (op.perform s).tables.waitingIds op (op.run s).1 := by
  rcases houtcome : (op.run s).1 with failure | result
  · refine .failed ?_
    rw [(unchanged_of_error sound op houtcome).tables]
  have h : op.run s = (.ok result, op.perform s) := Prod.ext houtcome rfl
  have hsound := sound
  obtain ⟨w, cache, rfl, hw⟩ := sound
  cases op with
  | schedule => exact queueStep_schedule hw h
  | reschedule => exact queueStep_reschedule hw h
  | rescheduleAbandoned => exact queueStep_rescheduleAbandoned hsound h
  | assign => exact queueStep_assign hw h
  | reportState => exact queueStep_reportState hw h
  | complete =>
    refine waitingIds_completed hw ?_ (fun old isOpen => isOpen) h
    exact fun old completed => Bool.or_eq_true_iff.mpr (Or.inl completed)
  | cancel =>
    refine waitingIds_completed hw (fun old closed => closed) ?_ h
    exact fun old isOpen => (Bool.or_eq_false_iff.mp isOpen).1
  | armPlanFailure => rfl

/-! ## Runs -/

/-- Wherever a run has come to, the list of the jobs that wait is a queue, empty at the outset, which
every operation moves as it should. No two jobs have one order, and the list does not depend on how
jobs and plans stand in the tables. -/
theorem waiting_jobs_form_queue (keys : OrderKeys) (ids : IdSource) (ops : List Operation) :
    let s := (fresh keys ids).after ops
    (fresh keys ids).tables.waitingIds = [] ∧
      waitingPlans s = (.ok s.tables.waitingPlans, s) ∧
      (∀ op : Operation,
        QueueStep s s.tables.waitingIds (op.perform s).tables.waitingIds op (op.run s).1) ∧
      s.tables.waitingIds.Nodup ∧
      (s.tables.jobs.map (·.scheduleOrder)).Nodup ∧
      ∀ t : JobTables, t.jobs.Perm s.tables.jobs → t.plans.Perm s.tables.plans →
        t.waitingPlans = s.tables.waitingPlans := by
  intro s
  have sound : s.Sound := sound_after_fresh keys ids ops
  have steps := queueStep sound
  obtain ⟨w, cache, hs, hw⟩ := sound
  refine ⟨(Workspace.sound_empty keys ids).waitingIds_eq, ?_, steps, ?_⟩
  · rw [hs]
    rfl
  rw [hs]
  refine ⟨?_, hw.ordered.imp Int.ne_of_lt, fun t jobs plans => hw.waitingPlans_eq_of_perm jobs plans⟩
  rw [tables_memory, hw.waitingIds_eq]
  exact hw.distinct.sublist (List.filter_sublist.map _)

end Scheduler

end BuildServer
