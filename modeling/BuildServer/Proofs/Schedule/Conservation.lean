import BuildServer.Proofs.Schedule.Run
import Mathlib.Data.Multiset.AddSub
/-!
# Jobs are neither lost nor doubled

A job that is replaced is ignored from then on, and a live instance with the same identifier stands
for it. So the identifiers of the live jobs, counted as often as they occur, change only when a stage
is scheduled.

It is the mark and not the state that keeps a job from being replaced twice: a late report takes a
replaced job out of its state, and nothing takes the mark away.
-/

set_option autoImplicit false

namespace BuildServer

open Workspace

namespace JobTables

variable {t t' : JobTables} {id : Uuid} {job old : JobInstance} {jobs : List JobInstance}

/-- The identifiers of the jobs that are not ignored, as often as they occur. -/
def liveIdentifiers (t : JobTables) : Multiset JobIdentifier :=
  ((t.jobs.filter (!·.ignored)).map (·.identifier) : List JobIdentifier)

/-- The job with the identifier is there and is ignored. -/
def IsIgnored (t : JobTables) (id : Uuid) : Prop := ∃ job, t.findJob? id = some job ∧ job.ignored = true

/-- Live jobs that join the tables count. -/
theorem liveIdentifiers_append (joined : t'.jobs = t.jobs ++ jobs)
    (live : ∀ job ∈ jobs, job.ignored = false) :
    t'.liveIdentifiers = t.liveIdentifiers + (jobs.map (·.identifier) : List JobIdentifier) := by
  have all : jobs.filter (!·.ignored) = jobs := by
    rw [List.filter_eq_self]
    intro job hjob
    rw [live job hjob, Bool.not_false]
  rw [liveIdentifiers, liveIdentifiers, joined, List.filter_append, all, List.map_append,
    Multiset.coe_add]

/-- A job that stays as live as it was counts as it did. -/
theorem liveIdentifiers_insertJob (found : t.findJob? job.id = some old)
    (identifier : job.identifier = old.identifier) (ignored : job.ignored = old.ignored) :
    (t.insertJob job).liveIdentifiers = t.liveIdentifiers := by
  obtain ⟨before, after, split, put⟩ := putRow_split found
  rw [liveIdentifiers, liveIdentifiers, insertJob, put job rfl, split]
  simp only [List.filter_append, List.filter_cons, ignored, List.map_append]
  by_cases hidden : old.ignored = true
  · simp [hidden]
  · simp [hidden, identifier]

/-- A live job that is ignored from now on no longer counts. -/
theorem liveIdentifiers_ignored (found : t.findJob? job.id = some old) (live : old.ignored = false)
    (ignored : job.ignored = true) :
    t.liveIdentifiers = (t.insertJob job).liveIdentifiers + {old.identifier} := by
  obtain ⟨before, after, split, put⟩ := putRow_split found
  rw [liveIdentifiers, liveIdentifiers, insertJob, put job rfl, split, List.filter_append,
    List.filter_append, List.filter_cons_of_pos (by rw [live]; rfl),
    List.filter_cons_of_neg (by rw [ignored]; decide), List.map_append, List.map_append,
    List.map_cons, ← Multiset.coe_singleton, Multiset.coe_add, Multiset.coe_eq_coe]
  exact List.perm_middle.trans (List.perm_append_singleton _ _).symm

theorem not_isIgnored (found : t.findJob? id = some job) (live : job.ignored = false) :
    ¬ t.IsIgnored id := by
  rintro ⟨other, hother, ignored⟩
  rw [found, Option.some.injEq] at hother
  rw [← hother, live] at ignored
  cases ignored

end JobTables

namespace Scheduler

variable {s s' : Scheduler} {e : Event} {events : List Event} {id : Uuid}

/-! ## One step -/

/-- A step adds the identifiers of the jobs it has scheduled, and no others. -/
theorem Step.liveIdentifiers (step : Step e s s') :
    s'.tables.liveIdentifiers = s.tables.liveIdentifiers
      + (e.scheduled.map (·.identifier) : List JobIdentifier) := by
  cases step with
  | idle same later => rw [tables_memory, same]; exact (Multiset.add_zero _).symm
  | staged staged => exact JobTables.liveIdentifiers_append staged.jobs_eq staged.live
  | @replaced w w' cache old new replaced =>
    obtain ⟨now, plan, inserted⟩ := replaced.inserted
    have hfound : w.tables.findJob? (old.retire now).id = some old := replaced.found
    have retired := JobTables.liveIdentifiers_ignored hfound replaced.replaceable.live rfl
    have joined := JobTables.liveIdentifiers_append inserted.jobs (by simpa using inserted.live)
    -- the fresh instance stands in for the one that was left behind
    rw [tables_memory, tables_memory, joined, retired, List.map_singleton, replaced.identifier]
    exact (Multiset.add_zero _).symm
  | @advanced w cache old new found advance =>
    have hfound : w.tables.findJob? new.id = some old := by rw [advance.id_eq]; exact found
    have same := JobTables.liveIdentifiers_insertJob hfound advance.identifier_eq advance.ignored_eq
    rw [tables_memory, tables_memory, withJob_tables, same]
    exact (Multiset.add_zero _).symm

/-- No step takes the mark of an ignored job away. -/
theorem Step.isIgnored (step : Step e s s') (h : s.tables.IsIgnored id) : s'.tables.IsIgnored id := by
  obtain ⟨job, found, ignored⟩ := h
  obtain ⟨later, hlater, fate⟩ := step.fate found
  refine ⟨later, hlater, ?_⟩
  cases fate with
  | same => exact ignored
  | retired => rfl
  | advanced advance => rw [advance.ignored_eq, ignored]

/-- A job that is replaced was live before, and is ignored afterwards. -/
theorem Step.replaced_isIgnored (step : Step e s s') (h : id ∈ e.replacedIds) :
    ¬ s.tables.IsIgnored id ∧ s'.tables.IsIgnored id := by
  cases step with
  | idle | staged | advanced => cases h
  | @replaced w w' cache old new replaced =>
    rw [List.mem_singleton.mp h]
    obtain ⟨now, retired⟩ := replaced.findJob?_old
    exact ⟨JobTables.not_isIgnored replaced.found replaced.replaceable.live,
      old.retire now, retired, rfl⟩

/-- A stored job is ignored after a step if it was before, or if it is replaced in it. -/
theorem Step.isIgnored_iff {job : JobInstance} (step : Step e s s')
    (found : s.tables.findJob? id = some job) :
    s'.tables.IsIgnored id ↔ s.tables.IsIgnored id ∨ id ∈ e.replacedIds := by
  constructor
  · rintro ⟨later, hlater, ignored⟩
    obtain ⟨next, hnext, fate⟩ := step.fate found
    rw [hlater, Option.some.injEq] at hnext
    subst hnext
    cases fate with
    | same => exact .inl ⟨_, found, ignored⟩
    | retired =>
      right
      rw [← JobTables.id_of_findJob? found]
      exact List.mem_singleton_self _
    | advanced advance => exact .inl ⟨job, found, by rw [← advance.ignored_eq, ignored]⟩
  · rintro (ignored | replaced)
    · exact step.isIgnored ignored
    · exact (step.replaced_isIgnored replaced).2

theorem Event.nodup_replacedIds (e : Event) : e.replacedIds.Nodup := by
  cases e with
  | idle | staged | advanced => exact List.nodup_nil
  | replaced old new => exact List.nodup_singleton old.id

/-! ## Many steps -/

namespace Journal

theorem liveIdentifiers (h : Journal events s s') :
    s'.tables.liveIdentifiers = s.tables.liveIdentifiers
      + ((events.flatMap Event.scheduled).map (·.identifier) : List JobIdentifier) := by
  induction h with
  | nil => exact (Multiset.add_zero _).symm
  | cons step _ ih =>
    rw [ih, step.liveIdentifiers, List.flatMap_cons, List.map_append, ← Multiset.coe_add, Multiset.add_assoc]

theorem isIgnored_iff {job : JobInstance} (h : Journal events s s')
    (found : s.tables.findJob? id = some job) :
    s'.tables.IsIgnored id ↔ s.tables.IsIgnored id ∨ id ∈ events.flatMap Event.replacedIds := by
  induction h generalizing job with
  | nil => simp
  | cons step _ ih =>
    obtain ⟨later, hlater, _⟩ := step.fate found
    rw [ih hlater, step.isIgnored_iff found, List.flatMap_cons, List.mem_append, or_assoc]

/-- Whatever is replaced on the way is live at the outset. -/
theorem not_isIgnored_of_replaced (h : Journal events s s')
    (replaced : id ∈ events.flatMap Event.replacedIds) : ¬ s.tables.IsIgnored id := by
  induction h with
  | nil => cases replaced
  | cons step _ ih =>
    rw [List.flatMap_cons, List.mem_append] at replaced
    rcases replaced with now | later
    · exact (step.replaced_isIgnored now).1
    · exact fun ignored => ih later (step.isIgnored ignored)

/-- No job is replaced twice. -/
theorem nodup_replaced (h : Journal events s s') : (events.flatMap Event.replacedIds).Nodup := by
  induction h with
  | nil => exact List.nodup_nil
  | @cons e events s s₁ s' step journal ih =>
    rw [List.flatMap_cons, List.nodup_append]
    refine ⟨e.nodup_replacedIds, ih, ?_⟩
    intro id now other later same
    subst same
    -- it is ignored from the first replacement on, and only a live job is replaced
    exact journal.not_isIgnored_of_replaced later (step.replaced_isIgnored now).2

end Journal

/-! ## Runs -/

theorem Sound.isIgnored_after (sound : s.Sound) (ops : List Operation) (h : s.tables.IsIgnored id) :
    (s.after ops).tables.IsIgnored id := by
  refine sound.keeps_after (P := fun s => s.tables.IsIgnored id) ops ?_ h
  intro _ _ e s s' _ _ step
  exact step.isIgnored

/-- What makes a stored job ignored in a run is that it is replaced. -/
theorem Sound.isIgnored_after_iff {job : JobInstance} (sound : s.Sound) (ops : List Operation)
    (found : s.tables.findJob? id = some job) :
    (s.after ops).tables.IsIgnored id ↔ s.tables.IsIgnored id ∨ id ∈ s.replacedIn ops := by
  obtain ⟨events, journal, _, replaced⟩ := exists_journal sound ops
  rw [journal.isIgnored_iff found, replaced]

/-- Wherever a run has come to, the live identifiers are changed by the next operation only if it
schedules a stage, which adds those of the jobs it gives back. A job that is ignored stays so for the
rest of the run, and no job is replaced twice in the whole of it. -/
theorem live_identifiers_conserved (keys : OrderKeys) (ids : IdSource) (ops : List Operation) :
    let s := (fresh keys ids).after ops
    (∀ op : Operation, (op.perform s).tables.liveIdentifiers = s.tables.liveIdentifiers
        + ((op.scheduled s).map (·.identifier) : List JobIdentifier)) ∧
      (∀ (more : List Operation) (id : Uuid),
        s.tables.IsIgnored id → (s.after more).tables.IsIgnored id) ∧
      ((fresh keys ids).replacedIn ops).Nodup := by
  intro s
  have sound : s.Sound := sound_after_fresh keys ids ops
  refine ⟨?_, ?_, ?_⟩
  · intro op
    obtain ⟨events, recorded⟩ := exists_recorded sound op
    rw [recorded.journal.liveIdentifiers, recorded.scheduled]
  · intro more id ignored
    exact sound.isIgnored_after more ignored
  · obtain ⟨events, journal, _, replaced⟩ := exists_journal (sound_fresh keys ids) ops
    rw [← replaced]
    exact journal.nodup_replaced

end Scheduler

end BuildServer
