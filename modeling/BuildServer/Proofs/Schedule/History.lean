import BuildServer.Proofs.Schedule.Run
/-!
# The history of a job

A job is written back as a whole whenever it changes, so nothing in the store keeps its history: that
it only grows is owed to every operation separately. Two lemmas say what this comes to. A change puts
one entry behind the history and keeps to what the history says (`JobInstance.Faithful.extend`), and
a transaction changes a job at most once.

The one operation of several transactions is the request for the jobs of an agent. It extends no
history twice, because all it does to a job is to leave it behind, and what has been left behind is
ignored and is not replaced again.
-/

set_option autoImplicit false

namespace BuildServer

open Workspace

/-! ## What a history says -/

namespace JobInstance

variable {job next later : JobInstance} {now : Instant}

/-- The states that the job has been in, first one first. -/
def states (job : JobInstance) : List JobState := job.transitions.map (·.state)

/-- The history tells how the job has come to what it is. -/
structure Faithful (job : JobInstance) : Prop where
  starts : job.transitions.head? = some ⟨.scheduled, job.scheduledAt⟩
  ends : job.states.getLast? = some job.state
  ignored_iff : job.ignored = true ↔ JobState.rescheduled ∈ job.states
  /-- A job is left behind at most once. -/
  once : job.states.count .rescheduled ≤ 1
  assigned : job.agent ≠ none → JobState.assigned ∈ job.states
  completed : job.result ≠ .unknown → JobState.completed ∈ job.states

/-- What was settled about the job when it was scheduled is as it was. -/
structure SameOrigin (job later : JobInstance) : Prop where
  id : later.id = job.id
  identifier : later.identifier = job.identifier
  order : later.scheduleOrder = job.scheduleOrder
  scheduledAt : later.scheduledAt = job.scheduledAt

theorem SameOrigin.refl (job : JobInstance) : job.SameOrigin job := ⟨rfl, rfl, rfl, rfl⟩

theorem SameOrigin.trans (h₁ : job.SameOrigin next) (h₂ : next.SameOrigin later) :
    job.SameOrigin later where
  id := h₂.id.trans h₁.id
  identifier := h₂.identifier.trans h₁.identifier
  order := h₂.order.trans h₁.order
  scheduledAt := h₂.scheduledAt.trans h₁.scheduledAt

/-- The job with the history as it was, or with one more entry at its end. -/
structure Follows (later job : JobInstance) : Prop where
  origin : job.SameOrigin later
  history : later.transitions = job.transitions ∨
    ∃ entry, later.transitions = job.transitions ++ [entry]

theorem Follows.refl (job : JobInstance) : job.Follows job := ⟨.refl job, Or.inl rfl⟩

theorem Follows.prefix_transitions (h : later.Follows job) :
    job.transitions <+: later.transitions := by
  rcases h.history with same | ⟨entry, grown⟩
  · exact same ▸ List.prefix_rfl
  · rw [grown]
    exact List.prefix_append _ _

/-- A fresh instance has a faithful history. -/
theorem faithful_scheduled (id : Uuid) (identifier : JobIdentifier) (order : Int) (now : Instant) :
    (scheduled id identifier order now).Faithful where
  starts := rfl
  ends := rfl
  ignored_iff := by simp [scheduled, states]
  once := List.count_le_length
  assigned h := absurd rfl h
  completed h := absurd rfl h

/-- A job that gets one entry for the state it enters keeps a faithful history, if the entry accounts
for whatever else has changed. -/
theorem Faithful.extend (h : job.Faithful) (origin : next.scheduledAt = job.scheduledAt)
    (grown : next.transitions = job.transitions ++ [⟨next.state, now⟩])
    (ignored : next.ignored = true ↔ job.ignored = true ∨ next.state = .rescheduled)
    (live : next.state = .rescheduled → job.ignored = false)
    (agent : next.agent = job.agent ∨ next.state = .assigned)
    (result : next.result = job.result ∨ next.state = .completed) : next.Faithful := by
  -- the list of states grows at its end only
  have states_eq : next.states = job.states ++ [next.state] := by
    rw [states, grown, List.map_append, List.map_singleton, states]
  refine ⟨?_, ?_, ?_, ?_, ?_, ?_⟩
  · rw [grown, List.head?_append, h.starts, origin]
    rfl
  · rw [states_eq, List.getLast?_concat]
  · rw [states_eq, List.mem_append, List.mem_singleton, ignored, h.ignored_iff]
    exact or_congr_right eq_comm
  · rw [states_eq, List.count_append]
    by_cases rescheduled : next.state = .rescheduled
    · -- the job was live, so its history had no such entry
      have absent : JobState.rescheduled ∉ job.states := by
        rw [← h.ignored_iff, live rescheduled]
        exact Bool.false_ne_true
      rw [List.count_eq_zero_of_not_mem absent, rescheduled]
      decide
    · have absent : JobState.rescheduled ∉ [next.state] := by
        rw [List.mem_singleton]
        exact fun same => rescheduled same.symm
      rw [List.count_eq_zero_of_not_mem absent]
      exact h.once
  · intro present
    rw [states_eq, List.mem_append, List.mem_singleton]
    rcases agent with same | entered
    · rw [same] at present
      exact Or.inl (h.assigned present)
    · exact Or.inr entered.symm
  · intro known
    rw [states_eq, List.mem_append, List.mem_singleton]
    rcases result with same | entered
    · rw [same] at known
      exact Or.inl (h.completed known)
    · exact Or.inr entered.symm

/-! ## What changes a job -/

theorem Advance.follows (h : job.Advance next) : next.Follows job := by
  cases h with
  | assigned | reported | completed => exact ⟨⟨rfl, rfl, rfl, rfl⟩, Or.inr ⟨_, rfl⟩⟩

theorem Advance.faithful (h : job.Advance next) (faithful : job.Faithful) : next.Faithful := by
  cases h with
  | assigned agent now waiting =>
    refine faithful.extend rfl rfl ?_ nofun (Or.inr rfl) (Or.inl rfl)
    exact ⟨Or.inl, fun h => h.resolve_right nofun⟩
  | reported state now notRescheduled =>
    refine faithful.extend rfl rfl ?_ ?_ (Or.inl rfl) (Or.inl rfl)
    · exact ⟨Or.inl, fun h => h.resolve_right notRescheduled⟩
    · exact fun rescheduled => absurd rescheduled notRescheduled
  | completed result now notCompleted =>
    refine faithful.extend rfl rfl ?_ nofun (Or.inl rfl) (Or.inr rfl)
    exact ⟨Or.inl, fun h => h.resolve_right nofun⟩

theorem follows_retire (job : JobInstance) (now : Instant) : (job.retire now).Follows job :=
  ⟨⟨rfl, rfl, rfl, rfl⟩, Or.inr ⟨_, rfl⟩⟩

theorem Faithful.retire (h : job.Faithful) (live : job.ignored = false) (now : Instant) :
    (job.retire now).Faithful :=
  h.extend rfl rfl ⟨fun _ => Or.inr rfl, fun _ => rfl⟩ (fun _ => live) (Or.inl rfl)
    (Or.inl rfl)

end JobInstance

namespace Workspace

variable {w w' : Workspace} {job : JobInstance} {plan : JobPlan} {jobs : List JobInstance}

theorem Inserted.faithful (h : Inserted job plan w w') : job.Faithful := by
  obtain ⟨now, scheduled⟩ := h.scheduled
  rw [scheduled]
  exact JobInstance.faithful_scheduled ..

theorem Staged.faithful (h : Staged jobs w w') : ∀ job ∈ jobs, job.Faithful := by
  induction h with
  | nil => exact fun _ hjob => absurd hjob List.not_mem_nil
  | cons inserted _ ih =>
    intro other hother
    rcases List.mem_cons.mp hother with rfl | hrest
    · exact inserted.faithful
    · exact ih other hrest

end Workspace

namespace JobTables

variable {t : JobTables} {job : JobInstance}

/-- Every job of the tables has a faithful history. -/
def Faithful (t : JobTables) : Prop := ∀ job ∈ t.jobs, job.Faithful

theorem Faithful.insertJob (h : t.Faithful) (faithful : job.Faithful) :
    (t.insertJob job).Faithful := by
  intro other hother
  rcases mem_putRow hother with rfl | hold
  · exact faithful
  · exact h other hold

theorem Faithful.append {t' : JobTables} {jobs : List JobInstance} (h : t.Faithful)
    (joined : t'.jobs = t.jobs ++ jobs) (faithful : ∀ job ∈ jobs, job.Faithful) : t'.Faithful := by
  intro job hjob
  rw [joined, List.mem_append] at hjob
  exact hjob.elim (h job) (faithful job)

end JobTables

namespace Scheduler

variable {s s' : Scheduler} {e : Event} {events : List Event} {job later : JobInstance} {id : Uuid}

/-! ## Steps -/

/-- A step keeps all histories faithful. -/
theorem Step.faithful (step : Step e s s') (h : s.tables.Faithful) : s'.tables.Faithful := by
  cases step with
  | idle same later =>
    rw [tables_memory, same]
    exact h
  | staged staged => exact h.append staged.jobs_eq staged.faithful
  | @replaced w w' cache old new replaced =>
    obtain ⟨now, plan, inserted⟩ := replaced.inserted
    have hold : old.Faithful := h old (JobTables.mem_of_findJob? replaced.found)
    have retired := h.insertJob (hold.retire replaced.replaceable.live now)
    refine retired.append inserted.jobs ?_
    intro job hjob
    rw [List.mem_singleton.mp hjob]
    exact inserted.faithful
  | @advanced w cache old new found advance =>
    have hold : old.Faithful := h old (JobTables.mem_of_findJob? found)
    exact h.insertJob (advance.faithful hold)

theorem Fate.follows (fate : Fate e job later) : later.Follows job := by
  cases fate with
  | same => exact .refl job
  | retired new now _ => exact job.follows_retire now
  | advanced advance => exact advance.follows

/-- Requests to replace jobs do not touch a job that is ignored. -/
theorem Journal.findJob?_ignored (journal : Journal events s s')
    (replacing : ∀ e ∈ events, e = .idle ∨ ∃ old new, e = .replaced old new)
    (found : s.tables.findJob? id = some job) (ignored : job.ignored = true) :
    s'.tables.findJob? id = some job := by
  induction journal with
  | nil => exact found
  | cons step _ ih =>
    obtain ⟨later, hlater, fate⟩ := step.fate found
    refine ih (fun e he => replacing e (List.mem_cons_of_mem _ he)) ?_
    cases fate with
    | same => exact hlater
    | retired new now replaceable =>
      rw [replaceable.live] at ignored
      cases ignored
    | advanced advance => simpa using replacing _ List.mem_cons_self

/-- Requests to replace jobs put at most one entry behind the history of a job. -/
theorem Journal.follows_of_replacing (journal : Journal events s s')
    (replacing : ∀ e ∈ events, e = .idle ∨ ∃ old new, e = .replaced old new)
    (found : s.tables.findJob? id = some job) :
    ∃ later, s'.tables.findJob? id = some later ∧ later.Follows job := by
  induction journal with
  | nil => exact ⟨job, found, .refl job⟩
  | cons step rest ih =>
    obtain ⟨later, hlater, fate⟩ := step.fate found
    have hrest := fun e he => replacing e (List.mem_cons_of_mem _ he)
    cases fate with
    | same => exact ih hrest hlater
    | retired new now _ =>
      -- what is left behind is ignored, so the other requests pass it by
      exact ⟨_, rest.findJob?_ignored hrest hlater rfl, job.follows_retire now⟩
    | advanced advance => simpa using replacing _ List.mem_cons_self

/-! ## Operations and runs -/

/-- An operation keeps a stored job and puts at most one entry behind its history. -/
theorem Sound.follows_perform (sound : s.Sound) (op : Operation)
    (found : s.tables.findJob? id = some job) :
    ∃ later, (op.perform s).tables.findJob? id = some later ∧ later.Follows job := by
  obtain ⟨events, recorded⟩ := exists_recorded sound op
  have journal := recorded.journal
  rcases recorded.alone with ⟨e, rfl⟩ | ⟨agent, now, rfl⟩
  · obtain _ | ⟨step, last⟩ := journal
    obtain ⟨later, hlater, fate⟩ := step.fate found
    cases last
    exact ⟨later, hlater, fate.follows⟩
  · refine journal.follows_of_replacing ?_ found
    intro e he
    cases recorded.caused e he with
    | idle => exact Or.inl rfl
    | abandoned _ old new => exact Or.inr ⟨old, new, rfl⟩

/-- A run keeps a stored job, and what its history said before stands at the beginning of it. -/
theorem Sound.prefix_after (sound : s.Sound) (ops : List Operation)
    (found : s.tables.findJob? id = some job) :
    ∃ later, (s.after ops).tables.findJob? id = some later ∧ job.SameOrigin later ∧
      job.transitions <+: later.transitions := by
  induction ops generalizing s job with
  | nil => exact ⟨job, found, .refl job, List.prefix_refl _⟩
  | cons op ops ih =>
    obtain ⟨next, hnext, follows⟩ := sound.follows_perform op found
    obtain ⟨later, hlater, origin, grown⟩ := ih (sound.perform op) hnext
    exact ⟨later, hlater, follows.origin.trans origin, follows.prefix_transitions.trans grown⟩

theorem Sound.faithful_after (sound : s.Sound) (ops : List Operation) (h : s.tables.Faithful) :
    (s.after ops).tables.Faithful := by
  refine sound.keeps_after (P := fun s => s.tables.Faithful) ops ?_ h
  intro _ _ e s s' _ _ step
  exact step.faithful

/-- Wherever a run has come to, every stored job has a faithful history. Any operation leaves the job
under its identifier, with the history it had or with one more entry at the end, and however the run
goes on, the history so far stays the beginning of it. -/
theorem histories_faithful_and_append_only (keys : OrderKeys) (ids : IdSource)
    (ops : List Operation) :
    let s := (fresh keys ids).after ops
    ∀ job ∈ s.tables.jobs, job.Faithful ∧ s.tables.findJob? job.id = some job ∧
      (∀ op : Operation, ∃ later, (op.perform s).tables.findJob? job.id = some later ∧
        job.SameOrigin later ∧ (later.transitions = job.transitions ∨
          ∃ entry, later.transitions = job.transitions ++ [entry])) ∧
      ∀ more : List Operation, ∃ later, (s.after more).tables.findJob? job.id = some later ∧
        job.SameOrigin later ∧ job.transitions <+: later.transitions := by
  intro s job hjob
  have sound : s.Sound := sound_after_fresh keys ids ops
  have faithful : s.tables.Faithful :=
    (sound_fresh keys ids).faithful_after ops fun _ hnone => absurd hnone List.not_mem_nil
  have found : s.tables.findJob? job.id = some job := by
    obtain ⟨w, cache, hs, hw⟩ := sound
    rw [hs] at hjob ⊢
    exact JobTables.findJob?_of_mem hw.distinct hjob
  refine ⟨faithful job hjob, found, ?_, fun more => sound.prefix_after more found⟩
  intro op
  obtain ⟨later, hlater, follows⟩ := sound.follows_perform op found
  exact ⟨later, hlater, follows.origin, follows.history⟩

end Scheduler

end BuildServer
