import BuildServer.Proofs.Schedule.Tables
/-!
# Sound workspaces

A transaction changes its workspace in two ways: a job that is there is put in again in another
state, or a fresh instance joins the tables together with its plan. Everything the scheduler commits
is made of these two, and everything it drops leaves only the sources further on.

A workspace is sound when its identifiers do not repeat and were all drawn from its source, its order
keys rise along the list and were all given out, and its plans are those of its jobs. The two ways of
changing it keep it sound, because what a source gives next was never given before.
-/

set_option autoImplicit false

namespace BuildServer

/-! ## Sources -/

namespace IdSource

variable {source middle later : IdSource} {id : Uuid}

/-- A later state of a source: it draws the same identifiers and has drawn no fewer of them. -/
structure Later (source later : IdSource) : Prop where
  draw : later.draw = source.draw
  drawn : source.drawn ≤ later.drawn

theorem Later.refl (source : IdSource) : source.Later source := ⟨rfl, Nat.le_refl _⟩

theorem Later.trans (h₁ : source.Later middle) (h₂ : middle.Later later) : source.Later later :=
  ⟨h₂.draw.trans h₁.draw, Nat.le_trans h₁.drawn h₂.drawn⟩

theorem later_next (source : IdSource) : source.Later source.next.2 := ⟨rfl, Nat.le_succ _⟩

/-- The identifier is one of those drawn so far. -/
def HasDrawn (source : IdSource) (id : Uuid) : Prop := ∃ n < source.drawn, source.draw n = id

theorem HasDrawn.mono (h : source.HasDrawn id) (l : source.Later later) : later.HasDrawn id := by
  obtain ⟨n, hn, rfl⟩ := h
  exact ⟨n, Nat.lt_of_lt_of_le hn l.drawn, by rw [l.draw]⟩

theorem hasDrawn_next (source : IdSource) : source.next.2.HasDrawn source.next.1 :=
  ⟨source.drawn, Nat.lt_succ_self _, rfl⟩

/-- The next identifier was not drawn before, since no two draws agree. -/
theorem next_fresh (source : IdSource) : ¬ source.HasDrawn source.next.1 := by
  rintro ⟨n, hn, heq⟩
  have : n = source.drawn := source.draw_injective heq
  omega

/-- The identifiers were drawn between two states of a source, each of them once. -/
structure Between (source target : IdSource) (fresh : List Uuid) : Prop where
  later : source.Later target
  distinct : fresh.Nodup
  drawn : ∀ id ∈ fresh, target.HasDrawn id
  notDrawn : ∀ id ∈ fresh, ¬ source.HasDrawn id

theorem Between.nil (source : IdSource) : source.Between source [] where
  later := .refl source
  distinct := List.nodup_nil
  drawn _ h := by simp at h
  notDrawn _ h := by simp at h

theorem between_next (source : IdSource) : source.Between source.next.2 [source.next.1] where
  later := later_next source
  distinct := List.pairwise_singleton _ _
  drawn id h := by
    rw [List.mem_singleton.mp h]
    exact hasDrawn_next source
  notDrawn id h := by
    rw [List.mem_singleton.mp h]
    exact next_fresh source

/-- What is drawn later was not drawn before. -/
theorem Between.append {first second : List Uuid} (h₁ : source.Between middle first)
    (h₂ : middle.Between later second) : source.Between later (first ++ second) where
  later := h₁.later.trans h₂.later
  distinct := by
    rw [List.nodup_append]
    refine ⟨h₁.distinct, h₂.distinct, ?_⟩
    rintro id hfirst other hsecond rfl
    exact h₂.notDrawn id hsecond (h₁.drawn id hfirst)
  drawn id h := by
    rcases List.mem_append.mp h with hfirst | hsecond
    · exact (h₁.drawn id hfirst).mono h₂.later
    · exact h₂.drawn id hsecond
  notDrawn id h := by
    rcases List.mem_append.mp h with hfirst | hsecond
    · exact h₁.notDrawn id hfirst
    · exact fun drawn => h₂.notDrawn id hsecond (drawn.mono h₁.later)

end IdSource

namespace JobPlan

theorem between_resourceRows (jobId : Uuid) (names : List String) (ids : IdSource) :
    ids.Between (resourceRows jobId names ids).2 ((resourceRows jobId names ids).1.map (·.id)) := by
  induction names generalizing ids with
  | nil => exact .nil ids
  | cons name names ih => exact (IdSource.between_next ids).append (ih ids.next.2)

theorem between_artifactRows (jobId : Uuid) (artifacts : List ArtifactConfig) (ids : IdSource) :
    ids.Between (artifactRows jobId artifacts ids).2
      ((artifactRows jobId artifacts ids).1.map (·.id)) := by
  induction artifacts generalizing ids with
  | nil => exact .nil ids
  | cons artifact artifacts ih => exact (IdSource.between_next ids).append (ih ids.next.2)

/-- The rows of a plan have identifiers that were drawn for them. -/
theorem between_make (jobId : Uuid) (identifier : JobIdentifier) (resources : List String)
    (artifacts : List ArtifactConfig) (ids : IdSource) :
    ids.Between (make jobId identifier resources artifacts ids).2
      (make jobId identifier resources artifacts ids).1.rowIds :=
  (between_resourceRows jobId resources ids).append (between_artifactRows jobId artifacts _)

theorem map_name_resourceRows (jobId : Uuid) (names : List String) (ids : IdSource) :
    (resourceRows jobId names ids).1.map (·.name) = names := by
  induction names generalizing ids with
  | nil => rfl
  | cons name names ih => exact congrArg (name :: ·) (ih ids.next.2)

theorem map_content_artifactRows (jobId : Uuid) (artifacts : List ArtifactConfig) (ids : IdSource) :
    (artifactRows jobId artifacts ids).1.map (·.content) = artifacts := by
  induction artifacts generalizing ids with
  | nil => rfl
  | cons artifact artifacts ih => exact congrArg (artifact :: ·) (ih ids.next.2)

/-- A plan lists what it was made for, in order. -/
theorem resourceNames_make (jobId : Uuid) (identifier : JobIdentifier) (resources : List String)
    (artifacts : List ArtifactConfig) (ids : IdSource) :
    (make jobId identifier resources artifacts ids).1.resourceNames = resources :=
  map_name_resourceRows jobId resources ids

theorem contents_make (jobId : Uuid) (identifier : JobIdentifier) (resources : List String)
    (artifacts : List ArtifactConfig) (ids : IdSource) :
    (make jobId identifier resources artifacts ids).1.contents = artifacts :=
  map_content_artifactRows jobId artifacts _

/-- A copy asks for the same. -/
theorem sameContent_copyTo (plan : JobPlan) (jobId : Uuid) (ids : IdSource) :
    (plan.copyTo jobId ids).1.sameContent plan = true := by
  rw [copyTo, sameContent, resourceNames_make, contents_make, beq_self_eq_true, beq_self_eq_true,
    Bool.and_self]

end JobPlan

namespace JobInstance

variable {job next : JobInstance}

/-- The instance as it is left behind when another one takes its place. -/
def retire (now : Instant) (job : JobInstance) : JobInstance := (job.enter .rescheduled now).ignore

/-- The instance is neither finished nor has another one taken its place. -/
structure Replaceable (job : JobInstance) : Prop where
  notCompleted : job.isCompleted = false
  live : job.ignored = false
  notRescheduled : job.isRescheduled = false

theorem replaceable_iff :
    job.Replaceable ↔ job.state ≠ .completed ∧ job.ignored = false ∧ job.state ≠ .rescheduled := by
  constructor
  · rintro ⟨notCompleted, live, notRescheduled⟩
    exact ⟨beq_eq_false_iff_ne.mp notCompleted, live, beq_eq_false_iff_ne.mp notRescheduled⟩
  · rintro ⟨notCompleted, live, notRescheduled⟩
    exact ⟨beq_eq_false_iff_ne.mpr notCompleted, live, beq_eq_false_iff_ne.mpr notRescheduled⟩

/-- What a report about an instance makes of it: it is handed to an agent, enters a state, or gets
its result. -/
inductive Advance : JobInstance → JobInstance → Prop
  | assigned {job : JobInstance} (agent : String) (now : Instant) :
      JobTables.isWaiting job = true → Advance job (job.assign agent now)
  | reported {job : JobInstance} (state : JobState) (now : Instant) :
      state ≠ .rescheduled → Advance job (job.enter state now)
  | completed {job : JobInstance} (result : JobResult) (now : Instant) :
      job.isCompleted = false → Advance job (job.complete result now)

/-! A report touches state, result, agent and history, and nothing that says which job it is. -/

theorem Advance.id_eq (h : job.Advance next) : next.id = job.id := by cases h <;> rfl

theorem Advance.identifier_eq (h : job.Advance next) : next.identifier = job.identifier := by
  cases h <;> rfl

theorem Advance.ignored_eq (h : job.Advance next) : next.ignored = job.ignored := by cases h <;> rfl

theorem Advance.order_eq (h : job.Advance next) : next.scheduleOrder = job.scheduleOrder := by
  cases h <;> rfl

theorem Advance.key_eq (h : job.Advance next) : next.key = job.key :=
  congrArg JobIdentifier.key h.identifier_eq

/-- Every report is recorded, so it leaves a different instance behind. -/
theorem Advance.ne (h : job.Advance next) : next ≠ job := by
  intro same
  have hlength : next.transitions.length = job.transitions.length + 1 := by
    cases h <;> simp [assign, complete, enter]
  rw [same] at hlength
  omega

end JobInstance

namespace Workspace

variable {w w₁ w' : Workspace} {job old new : JobInstance} {plan : JobPlan} {jobs : List JobInstance}

/-- The sources of the workspace have moved on. -/
structure Later (w w' : Workspace) : Prop where
  ids : w.ids.Later w'.ids
  keys : w.keys.last ≤ w'.keys.last
  /-- No more keys were drawn than identifiers. -/
  paced : w'.keys.last - w.keys.last ≤ (w'.ids.drawn : Int) - w.ids.drawn

/-- Nothing was drawn. -/
theorem later_of_same (ids : w'.ids = w.ids) (keys : w'.keys = w.keys) : w.Later w' where
  ids := by
    rw [ids]
    exact .refl _
  keys := Int.le_of_eq (by rw [keys])
  paced := Int.le_of_eq (by rw [ids, keys, Int.sub_self, Int.sub_self])

theorem Later.refl (w : Workspace) : w.Later w := later_of_same rfl rfl

theorem Later.trans (h₁ : w.Later w₁) (h₂ : w₁.Later w') : w.Later w' where
  ids := h₁.ids.trans h₂.ids
  keys := Int.le_trans h₁.keys h₂.keys
  paced := by
    have first := h₁.paced
    have second := h₂.paced
    omega

/-- An identifier and a key were drawn, and then perhaps more identifiers. -/
theorem later_of_next (ids : w.ids.next.2.Later w'.ids) (keys : w'.keys = w.keys.next.2) :
    w.Later w' where
  ids := (IdSource.later_next w.ids).trans ids
  keys := by
    rw [keys]
    exact Int.le_of_lt (Int.lt_succ _)
  paced := by
    have drawn : w.ids.drawn + 1 ≤ w'.ids.drawn := ids.drawn
    have last : w'.keys.last = w.keys.last + 1 := by rw [keys, OrderKeys.next]
    omega

/-! ## What is kept -/

/-- What holds of the workspace after every transaction. -/
structure Sound (w : Workspace) : Prop where
  /-- No two jobs have the same identifier. -/
  distinct : (w.tables.jobs.map (·.id)).Nodup
  drawn : ∀ id ∈ w.tables.jobs.map (·.id), w.ids.HasDrawn id
  /-- The jobs stand by rising order. -/
  ordered : (w.tables.jobs.map (·.scheduleOrder)).Pairwise (· < ·)
  keyed : ∀ key ∈ w.tables.jobs.map (·.scheduleOrder), key ≤ w.keys.last
  /-- Every job has its plan, which names it by the same identifier. -/
  planned : w.tables.plans.map (fun plan => (plan.jobId, plan.identifier))
    = w.tables.jobs.map fun job => (job.id, job.identifier)

theorem Sound.planIds (sound : w.Sound) :
    w.tables.plans.map (·.jobId) = w.tables.jobs.map (·.id) := by
  have firsts := congrArg (List.map (·.1)) sound.planned
  rwa [List.map_map, List.map_map] at firsts

/-- No two plans are for the same job. -/
theorem Sound.plans_distinct (sound : w.Sound) : (w.tables.plans.map (·.jobId)).Nodup := by
  rw [sound.planIds]
  exact sound.distinct

/-- The plan that is found for a job is made out for it. -/
theorem Sound.identifier_eq (sound : w.Sound) {id : Uuid} (found : w.tables.findJob? id = some job)
    (planned : w.tables.findPlan? id = some plan) : plan.identifier = job.identifier := by
  have hmem : (plan.jobId, plan.identifier)
      ∈ w.tables.jobs.map fun job => (job.id, job.identifier) := by
    rw [← sound.planned]
    exact List.mem_map_of_mem (JobTables.mem_of_findPlan? planned)
  obtain ⟨stored, hstored, same⟩ := List.mem_map.mp hmem
  rw [Prod.mk.injEq, JobTables.jobId_of_findPlan? planned] at same
  -- no other job has the identifier, so the plan is made out for this one
  have hfound := JobTables.findJob?_of_mem sound.distinct hstored
  rw [same.1, found, Option.some.injEq] at hfound
  rw [hfound, same.2]

/-- A workspace without jobs and plans is sound. -/
theorem sound_empty (keys : OrderKeys) (ids : IdSource) : Sound { keys, ids } where
  distinct := List.nodup_nil
  drawn _ h := by simp at h
  ordered := List.Pairwise.nil
  keyed _ h := by simp at h
  planned := rfl

/-- A transaction that is dropped leaves the tables, while its draws stay drawn. -/
theorem Sound.idle (sound : w.Sound) (same : w'.tables = w.tables) (later : w.Later w') :
    w'.Sound where
  distinct := by rw [same]; exact sound.distinct
  drawn id h := by
    rw [same] at h
    exact (sound.drawn id h).mono later.ids
  ordered := by rw [same]; exact sound.ordered
  keyed key h := by
    rw [same] at h
    exact Int.le_trans (sound.keyed key h) later.keys
  planned := by rw [same]; exact sound.planned

/-! ## A job in another state -/

/-- The workspace with a job put in. -/
def withJob (w : Workspace) (job : JobInstance) : Workspace :=
  { w with tables := w.tables.insertJob job }

@[simp] theorem withJob_tables (w : Workspace) (job : JobInstance) :
    (w.withJob job).tables = w.tables.insertJob job := rfl

/-- A job that keeps what it is known by and its order may change in every other way. -/
theorem Sound.withJob (sound : w.Sound) (found : w.tables.findJob? new.id = some old)
    (order : new.scheduleOrder = old.scheduleOrder) (identifier : new.identifier = old.identifier) :
    (w.withJob new).Sound := by
  have hids : (w.withJob new).tables.jobs.map (·.id) = w.tables.jobs.map (·.id) :=
    map_putRow (·.id) found (JobTables.id_of_findJob? found).symm
  have horders : (w.withJob new).tables.jobs.map (·.scheduleOrder)
      = w.tables.jobs.map (·.scheduleOrder) :=
    map_putRow (·.scheduleOrder) found order
  have hnames : (w.withJob new).tables.jobs.map (fun job => (job.id, job.identifier))
      = w.tables.jobs.map fun job => (job.id, job.identifier) :=
    map_putRow _ found (Prod.ext (JobTables.id_of_findJob? found).symm identifier)
  constructor
  · rw [hids]; exact sound.distinct
  · rw [hids]; exact sound.drawn
  · rw [horders]; exact sound.ordered
  · rw [horders]; exact sound.keyed
  · rw [hnames]; exact sound.planned

/-! ## A fresh instance -/

/-- The workspace with a fresh instance and its plan put in, and the identifiers of the plan's rows
drawn. -/
def withInstance (w : Workspace) (job : JobInstance) (made : JobPlan × IdSource) : Workspace :=
  { w with
    tables := (w.tables.insertJob job).insertPlan made.1
    keys := w.keys.next.2
    ids := made.2 }

/-- A fresh instance has joined the tables, and its plan with it. -/
structure Inserted (job : JobInstance) (plan : JobPlan) (w w' : Workspace) : Prop where
  jobs : w'.tables.jobs = w.tables.jobs ++ [job]
  plans : w'.tables.plans = w.tables.plans ++ [plan]
  id : job.id = w.ids.next.1
  order : job.scheduleOrder = w.keys.next.1
  /-- It is as scheduling makes it. -/
  scheduled : ∃ now, job = .scheduled job.id job.identifier job.scheduleOrder now
  /-- The rows of the plan are drawn behind the identifier of the job. -/
  made : ∃ resources artifacts,
    JobPlan.make job.id job.identifier resources artifacts w.ids.next.2 = (plan, w'.ids)
  keys : w'.keys = w.keys.next.2

/-- No job of the tables has the identifier that is drawn next. -/
theorem Sound.next_absent (sound : w.Sound) : ∀ other ∈ w.tables.jobs, other.id ≠ w.ids.next.1 := by
  intro other hother same
  have hdrawn := sound.drawn other.id (List.mem_map_of_mem hother)
  rw [same] at hdrawn
  exact w.ids.next_fresh hdrawn

/-- No plan of the tables is for a job with that identifier. -/
theorem Sound.next_planless (sound : w.Sound) :
    ∀ other ∈ w.tables.plans, other.jobId ≠ w.ids.next.1 := by
  intro other hother same
  have hdrawn := sound.drawn other.jobId (by
    rw [← sound.planIds]
    exact List.mem_map_of_mem hother)
  rw [same] at hdrawn
  exact w.ids.next_fresh hdrawn

/-- An instance that is put in with identifier and key drawn for it joins the end of the tables, and
so does its plan. -/
theorem Sound.inserted (sound : w.Sound) (identifier : JobIdentifier) (now : Instant)
    (resources : List String) (artifacts : List ArtifactConfig) :
    let job := JobInstance.scheduled w.ids.next.1 identifier w.keys.next.1 now
    let made := JobPlan.make job.id identifier resources artifacts w.ids.next.2
    Inserted job made.1 w (w.withInstance job made) := by
  intro job made
  exact {
    jobs := putRow_fresh sound.next_absent
    plans := putRow_fresh sound.next_planless
    id := rfl
    order := rfl
    scheduled := ⟨now, rfl⟩
    made := ⟨resources, artifacts, rfl⟩
    keys := rfl }

namespace Inserted

variable (h : Inserted job plan w w')

include h

theorem waiting : JobTables.isWaiting job = true := by
  obtain ⟨now, scheduled⟩ := h.scheduled
  rw [scheduled]
  rfl

theorem live : job.ignored = false := (JobTables.isWaiting_iff.mp h.waiting).2

/-- The job and the rows of its plan have identifiers that were drawn for them. -/
theorem between : w.ids.Between w'.ids (job.id :: plan.rowIds) := by
  obtain ⟨resources, artifacts, made⟩ := h.made
  have rows := JobPlan.between_make job.id job.identifier resources artifacts w.ids.next.2
  rw [made] at rows
  rw [h.id]
  exact (IdSource.between_next w.ids).append rows

theorem later : w.Later w' := by
  obtain ⟨resources, artifacts, made⟩ := h.made
  have rows := JobPlan.between_make job.id job.identifier resources artifacts w.ids.next.2
  rw [made] at rows
  exact later_of_next rows.later h.keys

theorem plan_jobId : plan.jobId = job.id := by
  obtain ⟨resources, artifacts, made⟩ := h.made
  exact (congrArg (·.1.jobId) made).symm

theorem plan_identifier : plan.identifier = job.identifier := by
  obtain ⟨resources, artifacts, made⟩ := h.made
  exact (congrArg (·.1.identifier) made).symm

theorem requests_eq : w'.tables.requests = w.tables.requests ++ [plan.request] := by
  rw [JobTables.requests, h.plans, List.map_append, List.map_singleton, JobTables.requests]

/-- No job of the tables has the identifier of the fresh one. -/
theorem absent (sound : w.Sound) : ∀ other ∈ w.tables.jobs, other.id ≠ job.id := by
  rw [h.id]
  exact sound.next_absent

/-- Every job of the tables comes before the fresh one. -/
theorem above (sound : w.Sound) : ∀ other ∈ w.tables.jobs, other.scheduleOrder < job.scheduleOrder := by
  intro other hother
  have hkey := sound.keyed other.scheduleOrder (List.mem_map_of_mem hother)
  rw [h.order]
  exact Int.lt_add_one_of_le hkey

theorem sound (sound : w.Sound) : w'.Sound where
  distinct := by
    rw [h.jobs, List.map_append, List.nodup_append]
    refine ⟨sound.distinct, List.pairwise_singleton _ _, ?_⟩
    intro id hid other hother
    obtain ⟨stored, hstored, rfl⟩ := List.mem_map.mp hid
    rw [List.mem_singleton.mp hother]
    exact h.absent sound stored hstored
  drawn id hid := by
    rw [h.jobs, List.map_append, List.map_singleton, List.mem_append, List.mem_singleton] at hid
    rcases hid with hold | hnew
    · exact (sound.drawn id hold).mono h.later.ids
    · rw [hnew]
      exact h.between.drawn job.id List.mem_cons_self
  ordered := by
    rw [h.jobs, List.map_append, List.pairwise_append]
    refine ⟨sound.ordered, List.pairwise_singleton _ _, ?_⟩
    intro key hkey other hother
    obtain ⟨stored, hstored, rfl⟩ := List.mem_map.mp hkey
    rw [List.mem_singleton.mp hother]
    exact h.above sound stored hstored
  keyed key hkey := by
    rw [h.jobs, List.map_append, List.map_singleton, List.mem_append, List.mem_singleton] at hkey
    rcases hkey with hold | hnew
    · exact Int.le_trans (sound.keyed key hold) h.later.keys
    · rw [hnew, h.order, h.keys]
      exact Int.le_refl _
  planned := by
    rw [h.jobs, h.plans, List.map_append, List.map_append, sound.planned, List.map_singleton,
      List.map_singleton, h.plan_jobId, h.plan_identifier]

theorem findJob?_eq (sound : w.Sound) (id : Uuid) :
    w'.tables.findJob? id = if job.id = id then some job else w.tables.findJob? id := by
  rw [← JobTables.findJob?_insertJob, JobTables.findJob?, JobTables.findJob?, h.jobs,
    JobTables.insertJob, putRow_fresh (h.absent sound)]

/-- No plan of the tables is for the fresh job. -/
theorem planless (sound : w.Sound) : ∀ other ∈ w.tables.plans, other.jobId ≠ plan.jobId := by
  rw [h.plan_jobId, h.id]
  exact sound.next_planless

theorem findPlan?_eq (sound : w.Sound) (id : Uuid) :
    w'.tables.findPlan? id = if job.id = id then some plan else w.tables.findPlan? id := by
  have put := find?_putRow JobPlan.jobId plan w.tables.plans id
  rw [putRow_fresh (h.planless sound), h.plan_jobId] at put
  rw [JobTables.findPlan?, h.plans]
  exact put

/-- The plan of the fresh job is the one that joined with it. -/
theorem findPlan?_self (sound : w.Sound) : w'.tables.findPlan? job.id = some plan := by
  rw [h.findPlan?_eq sound, if_pos rfl]

end Inserted

/-- The fresh instances of a stage have joined the tables one after the other. -/
inductive Staged : List JobInstance → Workspace → Workspace → Prop
  | nil (w : Workspace) : Staged [] w w
  | cons {job : JobInstance} {plan : JobPlan} {jobs : List JobInstance} {w w₁ w' : Workspace} :
      Inserted job plan w w₁ → Staged jobs w₁ w' → Staged (job :: jobs) w w'

theorem Staged.jobs_eq (h : Staged jobs w w') : w'.tables.jobs = w.tables.jobs ++ jobs := by
  induction h with
  | nil w => exact (List.append_nil _).symm
  | cons inserted _ ih => rw [ih, inserted.jobs, List.append_assoc, List.singleton_append]

theorem Staged.sound (h : Staged jobs w w') (sound : w.Sound) : w'.Sound := by
  induction h with
  | nil w => exact sound
  | cons inserted _ ih => exact ih (inserted.sound sound)

theorem Staged.later (h : Staged jobs w w') : w.Later w' := by
  induction h with
  | nil w => exact .refl w
  | cons inserted _ ih => exact inserted.later.trans ih

theorem Staged.waiting (h : Staged jobs w w') : ∀ job ∈ jobs, JobTables.isWaiting job = true := by
  induction h with
  | nil w => simp
  | cons inserted _ ih =>
    intro other hother
    rcases List.mem_cons.mp hother with rfl | hrest
    · exact inserted.waiting
    · exact ih other hrest

theorem Staged.live (h : Staged jobs w w') : ∀ job ∈ jobs, job.ignored = false :=
  fun job hjob => (JobTables.isWaiting_iff.mp (h.waiting job hjob)).2

/-! ## A replacement -/

/-- An unfinished job has been left behind, and a fresh instance of the same configured job has taken
its place. -/
structure Replaced (old new : JobInstance) (w w' : Workspace) : Prop where
  found : w.tables.findJob? old.id = some old
  replaceable : old.Replaceable
  identifier : new.identifier = old.identifier
  inserted : ∃ now plan, Inserted new plan (w.withJob (old.retire now)) w'
  /-- The plan was copied. -/
  copied : ∃ plan copy, w.tables.findPlan? old.id = some plan ∧
    w'.tables.findPlan? new.id = some copy ∧ copy.sameContent plan = true

/-- A job that has been left behind keeps its place in the tables. -/
theorem Sound.retire (sound : w.Sound) (found : w.tables.findJob? old.id = some old)
    (now : Instant) : (w.withJob (old.retire now)).Sound := by
  have hfound : w.tables.findJob? (old.retire now).id = some old := found
  exact sound.withJob hfound rfl rfl

/-- The workspace with a job left behind and a fresh instance put in its place, with a copy of the
plan. -/
def withReplacement (w : Workspace) (old : JobInstance) (plan : JobPlan) (now : Instant) :
    Workspace :=
  let new := old.replacement w.ids.next.1 w.keys.next.1 now
  (w.withJob (old.retire now)).withInstance new (plan.copyTo new.id w.ids.next.2)

/-- The fresh instance joins the tables with the copy of the plan. -/
theorem Sound.inserted_replacement (sound : w.Sound)
    (found : w.tables.findJob? old.id = some old)
    (planned : w.tables.findPlan? old.id = some plan) (now : Instant) :
    Inserted (old.replacement w.ids.next.1 w.keys.next.1 now)
      (plan.copyTo w.ids.next.1 w.ids.next.2).1 (w.withJob (old.retire now))
      (w.withReplacement old plan now) := by
  have inserted := (sound.retire found now).inserted old.identifier now plan.resourceNames
    plan.contents
  simp only [withReplacement, JobPlan.copyTo, sound.identifier_eq found planned]
  exact inserted

theorem Sound.replaced (sound : w.Sound) (found : w.tables.findJob? old.id = some old)
    (replaceable : old.Replaceable) (planned : w.tables.findPlan? old.id = some plan)
    (now : Instant) :
    Replaced old (old.replacement w.ids.next.1 w.keys.next.1 now) w
      (w.withReplacement old plan now) where
  found := found
  replaceable := replaceable
  identifier := rfl
  inserted := ⟨now, _, sound.inserted_replacement found planned now⟩
  copied := by
    refine ⟨plan, _, planned,
      (sound.inserted_replacement found planned now).findPlan?_self (sound.retire found now), ?_⟩
    exact JobPlan.sameContent_copyTo plan _ _

namespace Replaced

variable (h : Replaced old new w w')

include h

theorem new_live : new.ignored = false := by
  obtain ⟨now, plan, inserted⟩ := h.inserted
  exact inserted.live

theorem key_eq : new.key = old.key := congrArg JobIdentifier.key h.identifier

theorem later : w.Later w' := by
  obtain ⟨now, plan, inserted⟩ := h.inserted
  exact ⟨inserted.later.ids, inserted.later.keys, inserted.later.paced⟩

theorem sound (sound : w.Sound) : w'.Sound := by
  obtain ⟨now, plan, inserted⟩ := h.inserted
  exact inserted.sound (sound.retire h.found now)

/-- The job is left behind under its identifier. -/
theorem findJob?_old : ∃ now, w'.tables.findJob? old.id = some (old.retire now) := by
  obtain ⟨now, plan, inserted⟩ := h.inserted
  have retired := JobTables.findJob?_insertJob (old.retire now) w.tables old.id
  rw [if_pos (by rfl)] at retired
  exact ⟨now, JobTables.findJob?_of_append inserted.jobs retired⟩

/-- Any other job is as it was. -/
theorem findJob?_other {id : Uuid} (other : old.id ≠ id) (found : w.tables.findJob? id = some job) :
    w'.tables.findJob? id = some job := by
  obtain ⟨now, plan, inserted⟩ := h.inserted
  have kept := JobTables.findJob?_insertJob (old.retire now) w.tables id
  rw [if_neg (by exact other), found] at kept
  exact JobTables.findJob?_of_append inserted.jobs kept

end Replaced

end Workspace

end BuildServer
