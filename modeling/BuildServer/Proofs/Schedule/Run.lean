import BuildServer.Proofs.Schedule.Operations
/-!
# Runs of the scheduler

A run is a list of operations, each with its arguments, carried out one after the other from a
scheduler whose store and cache are empty. Operations may fail, and a failure of the store may be set
up between any two of them.

What a run did is kept as a journal: one event for every transaction, with the jobs that joined the
tables, the job that was replaced, or the job that was changed. A property of all runs is proved of
one step and follows for the journal by induction, so no proof has to go through the operations again.
-/

set_option autoImplicit false

namespace BuildServer

open Workspace

/-- The catalog of one pipeline with one stage and one job. -/
def Catalog.single (pipelineName stageName jobName : String) : Catalog where
  entries := [(Text.lowercase pipelineName,
    { name := pipelineName, materials := [], stages := [⟨stageName, [{ name := jobName }]⟩] })]

/-! ## Operations and runs -/

/-- Something that is asked of the scheduler. A stage is scheduled from the catalog as it is then. -/
inductive Operation where
  | schedule (catalog : Catalog) (pipelineName : String) (counter : Int)
      (label stageName : Option String) (now : Instant)
  | reschedule (id : Uuid) (now : Instant)
  | rescheduleAbandoned (agent : String) (clock : Clock)
  | assign (id : Uuid) (agent : String) (now : Instant)
  | reportState (id : Uuid) (state : JobState) (now : Instant)
  | complete (id : Uuid) (result : JobResult) (now : Instant)
  | cancel (id : Uuid) (now : Instant)
  | armPlanFailure

namespace Operation

/-- The type of the result of an operation. -/
abbrev Result : Operation → Type
  | .schedule .. => List JobInstance
  | .reschedule .. => RescheduleOutcome
  | .rescheduleAbandoned .. => List Uuid
  | .assign .. | .reportState .. | .complete .. | .cancel .. => JobInstance
  | .armPlanFailure => Unit

/-- Carries out an operation. -/
def run : (op : Operation) → Scheduling op.Result
  | .schedule catalog pipelineName counter label stageName now =>
    Scheduler.scheduleStage catalog pipelineName counter label stageName now
  | .reschedule id now => Scheduler.reschedule id now
  | .rescheduleAbandoned agent clock => Scheduler.rescheduleAbandoned agent clock
  | .assign id agent now => Scheduler.assign id agent now
  | .reportState id state now => Scheduler.reportState id state now
  | .complete id result now => Scheduler.complete id result now
  | .cancel id now => Scheduler.cancel id now
  | .armPlanFailure => modify Scheduler.armPlanFailure

/-- The scheduler after an operation, whether it failed or not. -/
def perform (op : Operation) (s : Scheduler) : Scheduler := (op.run s).2

end Operation

namespace Scheduler

/-- A scheduler with an empty store in memory and an empty cache. -/
def fresh (keys : OrderKeys) (ids : IdSource) : Scheduler := ⟨.memory { keys, ids }, {}⟩

/-- The tables of the store. -/
def tables (s : Scheduler) : JobTables :=
  match s.store with
  | .memory w => w.tables
  | .unreachable => {}

@[simp] theorem tables_memory (w : Workspace) (cache : StatusCache) :
    tables ⟨.memory w, cache⟩ = w.tables := rfl

/-- The scheduler after a run. -/
def after (s : Scheduler) (ops : List Operation) : Scheduler :=
  ops.foldl (fun s op => op.perform s) s

@[simp] theorem after_nil (s : Scheduler) : s.after [] = s := rfl

@[simp] theorem after_cons (s : Scheduler) (op : Operation) (ops : List Operation) :
    s.after (op :: ops) = (op.perform s).after ops := rfl

theorem after_append (s : Scheduler) (ops more : List Operation) :
    s.after (ops ++ more) = (s.after ops).after more :=
  List.foldl_append

/-- The identifiers, among those given, whose request to be replaced ends in a replacement. The
requests are made one after the other, and the first failure ends them. -/
def replacedAmong (clock : Clock) : List Uuid → Scheduler → List Uuid
  | [], _ => []
  | id :: ids, s =>
    match reschedule id (clock 0) s with
    | (.ok (.rescheduled _), s') => id :: replacedAmong clock.rest ids s'
    | (.ok (.kept _), s') => replacedAmong clock ids s'
    | (.error _, _) => []

/-- The same jobs, each with the instance that took its place. -/
def replacementsAmong (clock : Clock) : List Uuid → Scheduler → List (Uuid × Uuid)
  | [], _ => []
  | id :: ids, s =>
    match reschedule id (clock 0) s with
    | (.ok (.rescheduled new), s') => (id, new.id) :: replacementsAmong clock.rest ids s'
    | (.ok (.kept _), s') => replacementsAmong clock ids s'
    | (.error _, _) => []

theorem map_fst_replacementsAmong (clock : Clock) (ids : List Uuid) (s : Scheduler) :
    (s.replacementsAmong clock ids).map (·.1) = s.replacedAmong clock ids := by
  induction ids generalizing clock s with
  | nil => rfl
  | cons id ids ih =>
    rw [replacementsAmong, replacedAmong]
    rcases reschedule id (clock 0) s with ⟨error | new | reason, s'⟩
    · rfl
    · exact congrArg (id :: ·) (ih clock.rest s')
    · exact ih clock s'

end Scheduler

namespace Operation

/-- The instances that an operation has scheduled. -/
def scheduled (op : Operation) (s : Scheduler) : List JobInstance :=
  match op with
  | .schedule catalog pipelineName counter label stageName now =>
    (Scheduler.scheduleStage catalog pipelineName counter label stageName now s).1.toOption.getD []
  | _ => []

/-- The jobs for which a request within the operation has ended in a replacement. -/
def replaced (op : Operation) (s : Scheduler) : List Uuid :=
  match op with
  | .reschedule id now => s.replacedAmong (.still now) [id]
  | .rescheduleAbandoned agent clock =>
    s.replacedAmong clock ((s.tables.activeJobsOf agent).map (·.id))
  | _ => []

/-- The same jobs, each with the instance that took its place. -/
def replacements (op : Operation) (s : Scheduler) : List (Uuid × Uuid) :=
  match op with
  | .reschedule id now => s.replacementsAmong (.still now) [id]
  | .rescheduleAbandoned agent clock =>
    s.replacementsAmong clock ((s.tables.activeJobsOf agent).map (·.id))
  | _ => []

theorem map_fst_replacements (op : Operation) (s : Scheduler) :
    (op.replacements s).map (·.1) = op.replaced s := by
  cases op with
  | reschedule id now => exact Scheduler.map_fst_replacementsAmong ..
  | rescheduleAbandoned agent clock => exact Scheduler.map_fst_replacementsAmong ..
  | _ => rfl

end Operation

namespace Scheduler

/-- The jobs for which a request within the run has ended in a replacement, in the order of the
requests. -/
def replacedIn (s : Scheduler) : List Operation → List Uuid
  | [] => []
  | op :: ops => op.replaced s ++ (op.perform s).replacedIn ops

/-! ## Steps -/

/-- What one transaction has done. -/
inductive Event where
  /-- Nothing was committed. -/
  | idle
  | staged (jobs : List JobInstance)
  | replaced (old new : JobInstance)
  | advanced (old new : JobInstance)

namespace Event

/-- The instances that were scheduled. -/
def scheduled : Event → List JobInstance
  | .staged jobs => jobs
  | _ => []

/-- The jobs that were replaced. -/
def replacedIds : Event → List Uuid
  | .replaced old _ => [old.id]
  | _ => []

/-- The same jobs, each with the instance that took its place. -/
def replacements : Event → List (Uuid × Uuid)
  | .replaced old new => [(old.id, new.id)]
  | _ => []

theorem map_fst_replacements (e : Event) : e.replacements.map (·.1) = e.replacedIds := by
  cases e <;> rfl

end Event

/-- The steps that an operation may consist of. -/
inductive Causes : Operation → Event → Prop
  | idle (op : Operation) : Causes op .idle
  | staged (catalog : Catalog) (pipelineName : String) (counter : Int)
      (label stageName : Option String) (now : Instant) (jobs : List JobInstance) :
      Causes (.schedule catalog pipelineName counter label stageName now) (.staged jobs)
  | replaced (old new : JobInstance) (now : Instant) :
      Causes (.reschedule old.id now) (.replaced old new)
  | abandoned (agent : String) (old new : JobInstance) (clock : Clock) :
      Causes (.rescheduleAbandoned agent clock) (.replaced old new)
  | assigned {old : JobInstance} (agent : String) (now : Instant) :
      JobTables.isWaiting old = true →
      Causes (.assign old.id agent now) (.advanced old (old.assign agent now))
  | reported {old : JobInstance} (state : JobState) (now : Instant) : state ≠ .rescheduled →
      Causes (.reportState old.id state now) (.advanced old (old.enter state now))
  | completed {old : JobInstance} (result : JobResult) (now : Instant) : old.isCompleted = false →
      Causes (.complete old.id result now) (.advanced old (old.complete result now))
  | cancelled {old : JobInstance} (now : Instant) : old.isCompleted = false →
      old.isRescheduled = false →
      Causes (.cancel old.id now) (.advanced old (old.cancel now))

/-- What an operation makes of a job is a report about it. -/
theorem Causes.advance {op : Operation} {old new : JobInstance} (h : Causes op (.advanced old new)) :
    old.Advance new := by
  cases h with
  | assigned agent now waiting => exact .assigned agent now waiting
  | reported state now notRescheduled => exact .reported state now notRescheduled
  | completed result now notCompleted => exact .completed result now notCompleted
  | cancelled now notCompleted _ => exact .completed .cancelled now notCompleted

/-- One transaction, with what it committed shown to the cache. -/
inductive Step : Event → Scheduler → Scheduler → Prop
  | idle {w w' : Workspace} {cache : StatusCache} : w'.tables = w.tables → w.Later w' →
      Step .idle ⟨.memory w, cache⟩ ⟨.memory w', cache⟩
  | staged {w w' : Workspace} {cache : StatusCache} {jobs : List JobInstance} : Staged jobs w w' →
      Step (.staged jobs) ⟨.memory w, cache⟩ ⟨.memory w', jobs.foldl StatusCache.update cache⟩
  | replaced {w w' : Workspace} {cache : StatusCache} {old new : JobInstance} :
      Replaced old new w w' →
      Step (.replaced old new) ⟨.memory w, cache⟩ ⟨.memory w', cache.update new⟩
  | advanced {w : Workspace} {cache : StatusCache} {old new : JobInstance} :
      w.tables.findJob? old.id = some old → old.Advance new →
      Step (.advanced old new) ⟨.memory w, cache⟩ ⟨.memory (w.withJob new), cache.update new⟩

/-- The store is in memory and its workspace is sound. -/
def Sound (s : Scheduler) : Prop := ∃ w cache, s = ⟨.memory w, cache⟩ ∧ w.Sound

theorem sound_fresh (keys : OrderKeys) (ids : IdSource) : (fresh keys ids).Sound :=
  ⟨_, _, rfl, Workspace.sound_empty keys ids⟩

variable {s s₁ s' : Scheduler} {e : Event} {events more : List Event}

theorem Step.sound (step : Step e s s') (sound : s.Sound) : s'.Sound := by
  obtain ⟨w, cache, rfl, hw⟩ := sound
  cases step with
  | idle same later => exact ⟨_, _, rfl, hw.idle same later⟩
  | staged staged => exact ⟨_, _, rfl, staged.sound hw⟩
  | replaced replaced => exact ⟨_, _, rfl, replaced.sound hw⟩
  | advanced found advance =>
    have hfound := advance.id_eq ▸ found
    exact ⟨_, _, rfl, hw.withJob hfound advance.order_eq advance.identifier_eq⟩

/-- What a step makes of a job that is stored. -/
inductive Fate : Event → JobInstance → JobInstance → Prop
  | same (e : Event) (job : JobInstance) : Fate e job job
  | retired {job : JobInstance} (new : JobInstance) (now : Instant) : job.Replaceable →
      Fate (.replaced job new) job (job.retire now)
  | advanced {job new : JobInstance} : job.Advance new → Fate (.advanced job new) job new

/-- A stored job stays stored, and a step that is not about it leaves it as it is. -/
theorem Step.fate {id : Uuid} {job : JobInstance} (step : Step e s s')
    (found : s.tables.findJob? id = some job) :
    ∃ later, s'.tables.findJob? id = some later ∧ Fate e job later := by
  cases step with
  | idle same later => exact ⟨job, by rw [tables_memory, same]; exact found, .same ..⟩
  | staged staged => exact ⟨job, JobTables.findJob?_of_append staged.jobs_eq found, .same ..⟩
  | @replaced w w' cache old new replaced =>
    -- of those that were stored only the one that is replaced changes
    by_cases hid : old.id = id
    · have hold : some old = some job := by rw [← replaced.found, hid]; exact found
      rw [Option.some.injEq] at hold
      subst hold
      subst hid
      obtain ⟨now, retired⟩ := replaced.findJob?_old
      exact ⟨_, retired, .retired new now replaced.replaceable⟩
    · exact ⟨job, replaced.findJob?_other hid found, .same ..⟩
  | @advanced w cache old new hfound advance =>
    have hnew := JobTables.findJob?_insertJob new w.tables id
    rw [advance.id_eq] at hnew
    by_cases hid : old.id = id
    · have hold : some old = some job := by rw [← hfound, hid]; exact found
      rw [Option.some.injEq] at hold
      subst hold
      rw [if_pos hid] at hnew
      exact ⟨new, hnew, .advanced advance⟩
    · rw [if_neg hid] at hnew
      exact ⟨job, hnew.trans found, .same ..⟩

/-- Transactions one after the other. -/
inductive Journal : List Event → Scheduler → Scheduler → Prop
  | nil (s : Scheduler) : Journal [] s s
  | cons {e : Event} {events : List Event} {s s₁ s' : Scheduler} :
      Step e s s₁ → Journal events s₁ s' → Journal (e :: events) s s'

namespace Journal

theorem single (step : Step e s s') : Journal [e] s s' := .cons step (.nil s')

theorem append (h₁ : Journal events s s₁) (h₂ : Journal more s₁ s') :
    Journal (events ++ more) s s' := by
  induction h₁ with
  | nil => exact h₂
  | cons step _ ih => exact .cons step (ih h₂)

theorem sound (h : Journal events s s') (sound : s.Sound) : s'.Sound := by
  induction h with
  | nil => exact sound
  | cons step _ ih => exact ih (step.sound sound)

/-- What every step keeps in a sound scheduler is kept. -/
theorem keeps {P : Scheduler → Prop} (h : Journal events s s')
    (keep : ∀ e ∈ events, ∀ s s' : Scheduler, s.Sound → Step e s s' → P s → P s')
    (sound : s.Sound) (holds : P s) : P s' := by
  induction h with
  | nil => exact holds
  | cons step _ ih =>
    have hfirst := keep _ List.mem_cons_self _ _ sound step holds
    exact ih (fun e he => keep e (List.mem_cons_of_mem _ he)) (step.sound sound) hfirst

end Journal

/-! ## Every operation is a row of steps -/

/-- The steps that an operation consists of. -/
structure Recorded (op : Operation) (s : Scheduler) (events : List Event) : Prop where
  journal : Journal events s (op.perform s)
  caused : ∀ e ∈ events, Causes op e
  /-- Only the requests for an agent are more than one step. -/
  alone : (∃ e, events = [e]) ∨ ∃ agent clock, op = .rescheduleAbandoned agent clock
  scheduled : events.flatMap Event.scheduled = op.scheduled s
  replacements : events.flatMap Event.replacements = op.replacements s

theorem Recorded.replaced {op : Operation} (h : Recorded op s events) :
    events.flatMap Event.replacedIds = op.replaced s := by
  rw [← op.map_fst_replacements, ← h.replacements]
  simp only [List.map_flatMap, Event.map_fst_replacements]

/-- The job and the instance that took its place, if that is how the request came out. -/
def replacementBy (id : Uuid) : Except ScheduleError RescheduleOutcome → List (Uuid × Uuid)
  | .ok (.rescheduled new) => [(id, new.id)]
  | _ => []

/-- A single request to replace a job is a single step. -/
theorem reschedule_step {w : Workspace} {cache : StatusCache} {id : Uuid} {now : Instant}
    {outcome : Except ScheduleError RescheduleOutcome} (sound : w.Sound)
    (h : reschedule id now ⟨.memory w, cache⟩ = (outcome, s')) :
    ∃ e, Step e ⟨.memory w, cache⟩ s' ∧ Causes (.reschedule id now) e ∧
      e.replacements = replacementBy id outcome := by
  cases reschedule_cases sound h with
  | missing | completed | rescheduled => exact ⟨.idle, .idle rfl (.refl w), .idle _, rfl⟩
  | failed _ _ _ same later => exact ⟨.idle, .idle same later, .idle _, rfl⟩
  | @replaced old new w' hid replaced _ _ =>
    subst hid
    exact ⟨.replaced old new, .replaced replaced, .replaced old new now, rfl⟩

/-- A step of a request to replace a job may be a step of the requests for an agent. -/
theorem Causes.of_reschedule {id : Uuid} {now : Instant} (agent : String) (clock : Clock)
    (h : Causes (.reschedule id now) e) : Causes (.rescheduleAbandoned agent clock) e := by
  cases h with
  | idle => exact .idle _
  | replaced old new => exact .abandoned agent old new clock

/-- Requests to replace jobs one after the other are steps one after the other. -/
theorem rescheduleEach_journal (agent : String) (whole clock : Clock) (jobs : List JobInstance)
    (sound : s.Sound) :
    ∃ events, Journal events s (rescheduleEach clock jobs s).2 ∧
      (∀ e ∈ events, Causes (.rescheduleAbandoned agent whole) e) ∧
      events.flatMap Event.replacements = s.replacementsAmong clock (jobs.map (·.id)) := by
  induction jobs generalizing s clock with
  | nil => exact ⟨[], .nil s, by simp, rfl⟩
  | cons job jobs ih =>
    rcases hfirst : reschedule job.id (clock 0) s with ⟨outcome, s₁⟩
    obtain ⟨w, cache, rfl, hw⟩ := sound
    obtain ⟨e, step, cause, hreplaced⟩ := reschedule_step hw hfirst
    have hs₁ : s₁.Sound := step.sound ⟨w, cache, rfl, hw⟩
    have first : Causes (.rescheduleAbandoned agent whole) e := cause.of_reschedule agent whole
    rw [rescheduleEach, run_bind, hfirst, List.map_cons, replacementsAmong, hfirst]
    rcases outcome with error | new | reason
    · -- the failure ends the requests, and the journal with it
      refine ⟨[e], .single step, List.forall_mem_singleton.mpr first, ?_⟩
      rw [List.flatMap_singleton, hreplaced]
      rfl
    · obtain ⟨events, journal, causes, hrest⟩ := ih clock.rest hs₁
      refine ⟨e :: events, .cons step ?_, List.forall_mem_cons.mpr ⟨first, causes⟩, ?_⟩
      · dsimp only
        rw [run_bind]
        rcases hmore : rescheduleEach clock.rest jobs s₁ with ⟨error | ids, s₂⟩ <;>
          rw [hmore] at journal <;> exact journal
      · rw [List.flatMap_cons, hreplaced, hrest]
        rfl
    · obtain ⟨events, journal, causes, hrest⟩ := ih clock hs₁
      refine ⟨e :: events, .cons step journal, List.forall_mem_cons.mpr ⟨first, causes⟩, ?_⟩
      rw [List.flatMap_cons, hreplaced, hrest]
      rfl

/-- What is given back about the jobs of an agent are those whose request ended in a replacement. -/
theorem rescheduleEach_eq_replacedAmong {clock : Clock} {jobs : List JobInstance} {ids : List Uuid}
    (h : rescheduleEach clock jobs s = (.ok ids, s')) :
    ids = s.replacedAmong clock (jobs.map (·.id)) := by
  induction jobs generalizing s clock ids with
  | nil =>
    rw [rescheduleEach, run_pure, Prod.mk.injEq, Except.ok.injEq] at h
    exact h.1.symm
  | cons job jobs ih =>
    rw [rescheduleEach, run_bind] at h
    rw [List.map_cons, replacedAmong]
    rcases hfirst : reschedule job.id (clock 0) s with ⟨error | new | reason, s₁⟩
    · rw [hfirst] at h
      cases h
    · rw [hfirst] at h
      dsimp only at h
      rw [run_bind] at h
      rcases hmore : rescheduleEach clock.rest jobs s₁ with ⟨error | more, s₂⟩
      · rw [hmore] at h
        cases h
      · rw [hmore] at h
        dsimp only at h
        rw [run_pure, Prod.mk.injEq, Except.ok.injEq] at h
        obtain ⟨rfl, rfl⟩ := h
        dsimp only
        rw [ih hmore]
    · rw [hfirst] at h
      exact ih h

/-- A change of a job is a single step, if it is a report that the operation makes about it. -/
theorem change_step {w : Workspace} {cache : StatusCache} {id : Uuid} (op : Uuid → Operation)
    {f : JobInstance → Except ScheduleError (Option JobInstance)}
    (causes : ∀ old new, f old = .ok (some new) → Causes (op old.id) (.advanced old new)) :
    ∃ e, Step e ⟨.memory w, cache⟩ (change id f ⟨.memory w, cache⟩).2 ∧ Causes (op id) e ∧
      e.scheduled = [] ∧ e.replacements = [] := by
  rcases h : change id f ⟨.memory w, cache⟩ with ⟨outcome, s'⟩
  cases change_cases (fun old new hf => (causes old new hf).advance.id_eq) h with
  | missing | refused | unchanged => exact ⟨.idle, .idle rfl (.refl w), .idle _, rfl, rfl⟩
  | @changed old new found hf =>
    have hold : old.id = id := JobTables.id_of_findJob? found
    subst hold
    have cause : Causes (op old.id) (.advanced old new) := causes old new hf
    exact ⟨.advanced old new, .advanced found cause.advance, cause, rfl, rfl⟩

/-- A single step that schedules and replaces nothing records an operation that does neither. -/
theorem Recorded.of_step {op : Operation} (scheduled : op.scheduled s = [])
    (replacements : op.replacements s = [])
    (h : ∃ e, Step e s (op.perform s) ∧ Causes op e ∧ e.scheduled = [] ∧ e.replacements = []) :
    ∃ events, Recorded op s events := by
  obtain ⟨e, step, cause, hscheduled, hreplacements⟩ := h
  refine ⟨[e], .single step, ?_, Or.inl ⟨e, rfl⟩, ?_, ?_⟩
  · intro e' he'
    rw [List.mem_singleton.mp he']
    exact cause
  · rw [List.flatMap_singleton, hscheduled, scheduled]
  · rw [List.flatMap_singleton, hreplacements, replacements]

/-- Every operation consists of steps. -/
theorem exists_recorded (sound : s.Sound) (op : Operation) : ∃ events, Recorded op s events := by
  have hsound := sound
  obtain ⟨w, cache, rfl, hw⟩ := sound
  cases op with
  | schedule catalog pipelineName counter label stageName now =>
    rcases h : scheduleStage catalog pipelineName counter label stageName now ⟨.memory w, cache⟩
      with ⟨outcome, s'⟩
    have hperform : (Operation.schedule catalog pipelineName counter label stageName now).perform
        ⟨.memory w, cache⟩ = s' := congrArg Prod.snd h
    have hscheduled : (Operation.schedule catalog pipelineName counter label stageName now).scheduled
        ⟨.memory w, cache⟩ = outcome.toOption.getD [] := by
      rw [Operation.scheduled, h]
    cases scheduleStage_cases hw h with
    | failed e same later =>
      refine Recorded.of_step hscheduled rfl ⟨.idle, ?_, .idle _, rfl, rfl⟩
      rw [hperform]
      exact .idle same later
    | @staged w' jobs _ _ _ _ staged _ _ =>
      refine ⟨[.staged jobs], ?_, ?_, Or.inl ⟨_, rfl⟩, ?_, rfl⟩
      · rw [hperform]
        exact .single (.staged staged)
      · intro e he
        rw [List.mem_singleton.mp he]
        exact .staged ..
      · rw [hscheduled, List.flatMap_singleton]
        rfl
  | reschedule id now =>
    rcases h : reschedule id now ⟨.memory w, cache⟩ with ⟨outcome, s'⟩
    obtain ⟨e, step, cause, hreplaced⟩ := reschedule_step hw h
    refine ⟨[e], ?_, ?_, Or.inl ⟨e, rfl⟩, ?_, ?_⟩
    · rw [Operation.perform, Operation.run, h]
      exact .single step
    · intro e' he'
      rw [List.mem_singleton.mp he']
      exact cause
    · rw [List.flatMap_singleton]
      cases cause <;> rfl
    · rw [List.flatMap_singleton, hreplaced, Operation.replacements, replacementsAmong, Clock.still, h]
      rcases outcome with error | new | reason <;> rfl
  | rescheduleAbandoned agent clock =>
    obtain ⟨events, journal, causes, hreplaced⟩ :=
      rescheduleEach_journal agent clock clock (w.tables.activeJobsOf agent) hsound
    refine ⟨events, ?_, causes, Or.inr ⟨agent, clock, rfl⟩, ?_, hreplaced⟩
    · rw [Operation.perform, Operation.run, rescheduleAbandoned, run_bind, run_transact]
      exact journal
    · refine List.flatMap_eq_nil_iff.mpr ?_
      intro e he
      cases causes e he <;> rfl
  -- what is left changes one job, so it remains to say what each of them makes of it
  | assign id agent now =>
    refine Recorded.of_step rfl rfl (change_step (.assign · agent now) ?_)
    intro old new hf
    obtain ⟨waiting, rfl⟩ := eq_of_waiting hf
    exact .assigned agent now waiting
  | reportState id state now =>
    refine Recorded.of_step rfl rfl ?_
    rw [Operation.perform, Operation.run, reportState, run_ite]
    by_cases rescheduled : state = .rescheduled
    · rw [if_pos rescheduled]
      exact ⟨.idle, .idle rfl (.refl w), .idle _, rfl, rfl⟩
    · rw [if_neg rescheduled]
      refine change_step (.reportState · state now) ?_
      intro old new hf
      rw [Except.ok.injEq, Option.some.injEq] at hf
      exact hf ▸ .reported state now rescheduled
  | complete id result now =>
    refine Recorded.of_step rfl rfl (change_step (.complete · result now) ?_)
    intro old new hf
    obtain ⟨notCompleted, rfl⟩ := eq_of_unless hf
    exact .completed result now notCompleted
  | cancel id now =>
    refine Recorded.of_step rfl rfl (change_step (.cancel · now) ?_)
    intro old new hf
    obtain ⟨notClosed, rfl⟩ := eq_of_unless hf
    rw [Bool.or_eq_false_iff] at notClosed
    exact .cancelled now notClosed.1 notClosed.2
  | armPlanFailure =>
    exact Recorded.of_step rfl rfl ⟨.idle, .idle rfl (later_of_same rfl rfl), .idle _, rfl, rfl⟩

/-- A sound scheduler stays sound. -/
theorem Sound.perform (sound : s.Sound) (op : Operation) : (op.perform s).Sound := by
  obtain ⟨events, recorded⟩ := exists_recorded sound op
  exact recorded.journal.sound sound

theorem Sound.after (sound : s.Sound) (ops : List Operation) : (s.after ops).Sound := by
  induction ops generalizing s with
  | nil => exact sound
  | cons op ops ih => exact ih (sound.perform op)

/-- A run is sound wherever it has come to. -/
theorem sound_after_fresh (keys : OrderKeys) (ids : IdSource) (ops : List Operation) :
    ((fresh keys ids).after ops).Sound :=
  (sound_fresh keys ids).after ops

/-- A whole run is recorded as well: every step of it belongs to an operation of the run, and the
jobs that are replaced in it are those of its steps. -/
theorem exists_journal (sound : s.Sound) (ops : List Operation) :
    ∃ events, Journal events s (s.after ops) ∧ (∀ e ∈ events, ∃ op ∈ ops, Causes op e) ∧
      events.flatMap Event.replacedIds = s.replacedIn ops := by
  induction ops generalizing s with
  | nil => exact ⟨[], .nil s, by simp, rfl⟩
  | cons op ops ih =>
    obtain ⟨events, recorded⟩ := exists_recorded sound op
    obtain ⟨more, journal, causes, hreplaced⟩ := ih (sound.perform op)
    refine ⟨events ++ more, recorded.journal.append journal, ?_, ?_⟩
    · intro e he
      rcases List.mem_append.mp he with now | later
      · exact ⟨op, List.mem_cons_self, recorded.caused e now⟩
      · obtain ⟨other, hother, cause⟩ := causes e later
        exact ⟨other, List.mem_cons_of_mem _ hother, cause⟩
    · rw [List.flatMap_append, recorded.replaced, hreplaced, replacedIn]

/-- What every step that belongs to an operation of the run keeps is kept by the run. -/
theorem Sound.keeps_after {P : Scheduler → Prop} (sound : s.Sound) (ops : List Operation)
    (keep : ∀ op ∈ ops, ∀ (e : Event) (s s' : Scheduler), Causes op e → s.Sound → Step e s s' →
      P s → P s') (holds : P s) : P (s.after ops) := by
  obtain ⟨events, journal, causes, _⟩ := exists_journal sound ops
  refine journal.keeps ?_ sound holds
  intro e he s s' hsound step
  obtain ⟨op, hop, cause⟩ := causes e he
  exact keep op hop e s s' cause hsound step

end Scheduler

end BuildServer
