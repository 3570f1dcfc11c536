import BuildServer.Proofs.Schedule.Cache
import BuildServer.Proofs.Schedule.Failures
/-!
# What a replacement changes

A request to replace a job looks at the job, leaves it behind, puts in a fresh instance, copies the
plan, and shows the fresh instance to the cache. What the tables are afterwards is said here as a
whole: the list of the jobs and the list of the plans, row by row, so that nothing is left that could
have changed besides.

Requests are made one after the other. Since each of them is described by whole lists, the description
of a row of requests is put together from those of its members, as long as no job is requested twice
and all of them were stored at the outset.
-/

set_option autoImplicit false

namespace BuildServer

open Workspace

/-- A job that was replaced and the instance that took its place, with their plans. -/
structure Renewal where
  old : JobInstance
  new : JobInstance
  plan : JobPlan
  copy : JobPlan
  /-- When the job was replaced. -/
  time : Instant

namespace JobTables

variable {before middle after : JobTables} {id : Uuid} {jobs : List JobInstance} {old job : JobInstance}
  {r : Renewal} {renewals : List Renewal}

/-! ## Jobs that are left behind -/

/-- What becomes of a job: it is left behind if it is one of those that are replaced. -/
def leaveBehind (renewals : List Renewal) (job : JobInstance) : JobInstance :=
  match renewals.find? (·.old.id == job.id) with
  | some r => job.retire r.time
  | none => job

/-- Jobs with other identifiers stay as they are. -/
theorem leaveBehind_of_notMem (other : job.id ∉ renewals.map (·.old.id)) :
    leaveBehind renewals job = job := by
  have missing : renewals.find? (·.old.id == job.id) = none := by
    rw [List.find?_eq_none]
    intro r hr same
    exact other (beq_iff_eq.mp same ▸ List.mem_map_of_mem hr)
  rw [leaveBehind, missing]

/-- Where no job is replaced twice, each is left behind when it was replaced. -/
theorem leaveBehind_of_mem (once : (renewals.map (·.old.id)).Nodup) (hr : r ∈ renewals)
    (same : job.id = r.old.id) : leaveBehind renewals job = job.retire r.time := by
  have found : renewals.find? (·.old.id == r.old.id) = some r := find?_of_mem once hr
  rw [leaveBehind, same, found]

theorem leaveBehind_self (same : job.id = r.old.id) : leaveBehind [r] job = job.retire r.time := by
  have once : ([r].map (·.old.id)).Nodup := List.pairwise_singleton _ _
  exact leaveBehind_of_mem once (List.mem_singleton_self r) same

/-- Whatever a job keeps when it is left behind it keeps. -/
theorem apply_leaveBehind {β : Type} {f : JobInstance → β} (keeps : ∀ job now, f (job.retire now) = f job)
    (renewals : List Renewal) (job : JobInstance) : f (leaveBehind renewals job) = f job := by
  rw [leaveBehind]
  split
  · exact keeps job _
  · rfl

/-- Leaving one job behind and then others is leaving all of them behind. -/
theorem leaveBehind_leaveBehind (once : r.old.id ∉ renewals.map (·.old.id)) (job : JobInstance) :
    leaveBehind renewals (leaveBehind [r] job) = leaveBehind (r :: renewals) job := by
  rw [leaveBehind.eq_def (r :: renewals), List.find?_cons]
  rcases first : r.old.id == job.id with _ | _
  · have other : job.id ∉ [r].map (·.old.id) := by
      rw [List.map_singleton, List.mem_singleton]
      exact fun same => (beq_eq_false_iff_ne.mp first) same.symm
    rw [leaveBehind_of_notMem other]
    rfl
  · have same : job.id = r.old.id := (beq_iff_eq.mp first).symm
    rw [leaveBehind_self same, leaveBehind_of_notMem]
    exact same ▸ once

theorem find?_leaveBehind (renewals : List Renewal) (jobs : List JobInstance) (id : Uuid) :
    (jobs.map (leaveBehind renewals)).find? (·.id == id)
      = (jobs.find? (·.id == id)).map (leaveBehind renewals) := by
  have kept : (fun job => job.id == id) ∘ leaveBehind renewals = fun job => job.id == id :=
    funext (apply_leaveBehind (f := fun job => job.id == id) (fun _ _ => rfl) renewals)
  rw [List.find?_map, kept]

/-- Where identifiers do not repeat, putting a job in again as it is left behind is leaving it
behind. -/
theorem jobs_insertJob_retire (distinct : (before.jobs.map (·.id)).Nodup)
    (found : before.findJob? r.old.id = some r.old) :
    (before.insertJob (r.old.retire r.time)).jobs = before.jobs.map (leaveBehind [r]) := by
  have retired : before.jobs.find? (·.id == (r.old.retire r.time).id) = some r.old := found
  rw [insertJob, putRow_eq_map distinct retired]
  refine List.map_congr_left fun job hjob => ?_
  by_cases same : job.id = r.old.id
  · -- the job with the identifier is the one that was found
    have hfound := findJob?_of_mem distinct hjob
    rw [same, found, Option.some.injEq] at hfound
    rw [if_pos (by exact same), leaveBehind_self same, hfound]
  · rw [if_neg (by exact same), leaveBehind_of_notMem]
    rwa [List.map_singleton, List.mem_singleton]

/-! ## Renewed tables -/

/-- What the tables are after jobs were replaced, in terms of what they were before. -/
structure Renewed (renewals : List Renewal) (before after : JobTables) : Prop where
  /-- The jobs that were replaced are left behind where they stood, and the instances that took their
  place stand behind all others. -/
  jobs : after.jobs = before.jobs.map (leaveBehind renewals) ++ renewals.map (·.new)
  plans : after.plans = before.plans ++ renewals.map (·.copy)
  stored : ∀ r ∈ renewals, before.findJob? r.old.id = some r.old
  planned : ∀ r ∈ renewals, before.findPlan? r.old.id = some r.plan
  /-- No job is replaced twice. -/
  once : (renewals.map (·.old.id)).Nodup
  /-- The instances that joined have identifiers of their own. -/
  distinct : (renewals.map (·.new.id)).Nodup
  fresh : ∀ r ∈ renewals, r.new.id ∉ before.jobs.map (·.id)
  above : ∀ r ∈ renewals, ∀ job ∈ before.jobs, job.scheduleOrder < r.new.scheduleOrder
  /-- They are as scheduling makes them, and are known by the identifier of the job. -/
  scheduled : ∀ r ∈ renewals,
    r.new = .scheduled r.new.id r.old.identifier r.new.scheduleOrder r.time
  copied : ∀ r ∈ renewals, r.copy.jobId = r.new.id ∧ r.copy.identifier = r.new.identifier ∧
    r.copy.sameContent r.plan = true

namespace Renewed

theorem nil (t : JobTables) : t.Renewed [] t where
  jobs := by
    have same : leaveBehind [] = id := rfl
    rw [same, List.map_id, List.map_nil, List.append_nil]
  plans := (List.append_nil _).symm
  stored _ h := by cases h
  planned _ h := by cases h
  once := List.nodup_nil
  distinct := List.nodup_nil
  fresh _ h := by cases h
  above _ h := by cases h
  scheduled _ h := by cases h
  copied _ h := by cases h

/-- No job leaves the tables. -/
theorem map_jobs {β : Type} (h : before.Renewed renewals after) (f : JobInstance → β)
    (keeps : ∀ job now, f (job.retire now) = f job) :
    after.jobs.map f = before.jobs.map f ++ renewals.map (f ·.new) := by
  have kept : f ∘ leaveBehind renewals = f := funext (apply_leaveBehind keeps renewals)
  rw [h.jobs, List.map_append, List.map_map, kept, List.map_map]
  rfl

/-- A job is found as it was or as it is left behind. -/
theorem findJob?_eq (h : before.Renewed renewals after) (found : before.findJob? id = some job) :
    after.findJob? id = some (leaveBehind renewals job) := by
  rw [findJob?] at found
  rw [findJob?, h.jobs, List.find?_append, find?_leaveBehind, found, Option.map_some,
    Option.some_or]

theorem findJob?_old (h : before.Renewed renewals after) (hr : r ∈ renewals) :
    after.findJob? r.old.id = some (r.old.retire r.time) := by
  rw [h.findJob?_eq (h.stored r hr), leaveBehind_of_mem h.once hr rfl]

theorem findJob?_other (h : before.Renewed renewals after) (other : id ∉ renewals.map (·.old.id))
    (found : before.findJob? id = some job) : after.findJob? id = some job := by
  rw [h.findJob?_eq found, leaveBehind_of_notMem]
  rwa [id_of_findJob? found]

/-- Jobs of which none was replaced are stored as they were. -/
theorem keeps_stored (h : before.Renewed [r] after) (others : r.old.id ∉ jobs.map (·.id))
    (stored : ∀ job ∈ jobs, before.findJob? job.id = some job) :
    ∀ job ∈ jobs, after.findJob? job.id = some job := by
  intro job hjob
  refine h.findJob?_other ?_ (stored job hjob)
  rw [List.map_singleton, List.mem_singleton]
  intro same
  exact others (same ▸ List.mem_map_of_mem hjob)

theorem findJob?_new (h : before.Renewed renewals after) (hr : r ∈ renewals) :
    before.findJob? r.new.id = none ∧ after.findJob? r.new.id = some r.new := by
  have absent : before.findJob? r.new.id = none := by
    rcases found : before.findJob? r.new.id with _ | job
    · rfl
    · refine absurd ?_ (h.fresh r hr)
      rw [← id_of_findJob? found]
      exact List.mem_map_of_mem (mem_of_findJob? found)
  refine ⟨absent, ?_⟩
  have distinct : ((renewals.map (·.new)).map (·.id)).Nodup := by
    rw [List.map_map]
    exact h.distinct
  rw [findJob?] at absent
  rw [findJob?, h.jobs, List.find?_append, find?_leaveBehind, absent, Option.map_none,
    Option.none_or, find?_of_mem distinct (List.mem_map_of_mem hr)]

/-- A live job that an agent has was there before and was not replaced. -/
theorem mem_of_assigned (h : before.Renewed renewals after) (hjob : job ∈ after.jobs)
    (live : job.ignored = false) (assigned : job.agent ≠ none) :
    job ∈ before.jobs ∧ job.id ∉ renewals.map (·.old.id) := by
  rw [h.jobs, List.mem_append] at hjob
  rcases hjob with hold | hnew
  · obtain ⟨stored, hstored, same⟩ := List.mem_map.mp hold
    by_cases left : stored.id ∈ renewals.map (·.old.id)
    · obtain ⟨r, hr, hid⟩ := List.mem_map.mp left
      rw [← same, leaveBehind_of_mem h.once hr hid.symm] at live
      cases live
    · rw [leaveBehind_of_notMem left] at same
      exact ⟨same ▸ hstored, same ▸ left⟩
  · -- a fresh instance is as scheduling makes it, so no agent has it
    obtain ⟨r, hr, rfl⟩ := List.mem_map.mp hnew
    rw [h.scheduled r hr] at assigned
    exact absurd rfl assigned

/-- A plan of the tables is still found. -/
theorem findPlan?_eq {plan : JobPlan} (h : before.Renewed renewals after)
    (planned : before.findPlan? id = some plan) : after.findPlan? id = some plan := by
  rw [findPlan?] at planned
  rw [findPlan?, h.plans, List.find?_append, planned, Option.some_or]

/-- A plan that is found for a job that is not a fresh one was there before. -/
theorem findPlan?_before {plan : JobPlan} (h : before.Renewed renewals after)
    (other : ∀ r ∈ renewals, id ≠ r.new.id) (planned : after.findPlan? id = some plan) :
    before.findPlan? id = some plan := by
  rcases old : before.findPlan? id with _ | stored
  · -- the plan would be one of the copies, which are for the fresh instances
    rw [findPlan?] at old planned
    rw [h.plans, List.find?_append, old, Option.none_or] at planned
    obtain ⟨r, hr, rfl⟩ := List.mem_map.mp (List.mem_of_find?_eq_some planned)
    have hjob := List.find?_some planned
    rw [beq_iff_eq, (h.copied r hr).1] at hjob
    exact absurd hjob.symm (other r hr)
  · rw [← planned, h.findPlan?_eq old]

/-- A replacement and then others, of jobs that were stored at the outset, are replacements of them
all. -/
theorem cons (first : before.Renewed [r] middle) (rest : middle.Renewed renewals after)
    (once : r.old.id ∉ renewals.map (·.old.id))
    (stored : ∀ next ∈ renewals, before.findJob? next.old.id = some next.old) :
    before.Renewed (r :: renewals) after := by
  have self : r ∈ [r] := List.mem_singleton_self r
  have hids : middle.jobs.map (·.id) = before.jobs.map (·.id) ++ [r.new.id] :=
    first.map_jobs (·.id) fun _ _ => rfl
  have horders : middle.jobs.map (·.scheduleOrder)
      = before.jobs.map (·.scheduleOrder) ++ [r.new.scheduleOrder] :=
    first.map_jobs (·.scheduleOrder) fun _ _ => rfl
  -- the fresh instance is none of the jobs that are replaced later, since those were there before
  have others : ∀ next ∈ renewals, next.old.id ≠ r.new.id := by
    intro next hnext same
    refine first.fresh r self ?_
    rw [← same]
    exact List.mem_map_of_mem (mem_of_findJob? (stored next hnext))
  have staysFresh : leaveBehind renewals r.new = r.new := by
    refine leaveBehind_of_notMem fun later => ?_
    obtain ⟨next, hnext, same⟩ := List.mem_map.mp later
    exact others next hnext same
  have together : leaveBehind renewals ∘ leaveBehind [r] = leaveBehind (r :: renewals) :=
    funext (leaveBehind_leaveBehind once)
  have notBefore : ∀ next ∈ renewals, next.new.id ∉ before.jobs.map (·.id) ++ [r.new.id] := by
    intro next hnext
    rw [← hids]
    exact rest.fresh next hnext
  exact {
    jobs := by
      rw [rest.jobs, first.jobs, List.map_append, List.map_map, together, List.map_singleton,
        List.map_singleton, staysFresh, List.append_assoc, List.map_cons, List.singleton_append]
    plans := by
      rw [rest.plans, first.plans, List.map_singleton, List.append_assoc, List.map_cons,
        List.singleton_append]
    stored := List.forall_mem_cons.mpr ⟨first.stored r self, stored⟩
    planned := by
      refine List.forall_mem_cons.mpr ⟨first.planned r self, fun next hnext => ?_⟩
      refine first.findPlan?_before ?_ (rest.planned next hnext)
      exact List.forall_mem_singleton.mpr (others next hnext)
    once := List.nodup_cons.mpr ⟨once, rest.once⟩
    distinct := by
      refine List.nodup_cons.mpr ⟨fun again => ?_, rest.distinct⟩
      obtain ⟨next, hnext, same⟩ := List.mem_map.mp again
      refine notBefore next hnext (List.mem_append_right _ ?_)
      exact List.mem_singleton.mpr same
    fresh := by
      refine List.forall_mem_cons.mpr ⟨first.fresh r self, fun next hnext stored => ?_⟩
      exact notBefore next hnext (List.mem_append_left _ stored)
    above := by
      refine List.forall_mem_cons.mpr ⟨first.above r self, fun next hnext job hjob => ?_⟩
      -- the order of a job is still that of one in the tables when the later one is replaced
      have hmem : job.scheduleOrder ∈ middle.jobs.map (·.scheduleOrder) := by
        rw [horders]
        exact List.mem_append_left _ (List.mem_map_of_mem hjob)
      obtain ⟨later, hlater, same⟩ := List.mem_map.mp hmem
      rw [← same]
      exact rest.above next hnext later hlater
    scheduled := List.forall_mem_cons.mpr ⟨first.scheduled r self, rest.scheduled⟩
    copied := List.forall_mem_cons.mpr ⟨first.copied r self, rest.copied⟩ }

end Renewed

end JobTables

/-- A job that is left behind, with a fresh instance and a copy of the plan, is a renewal. -/
theorem Workspace.Sound.renewed {w : Workspace} {old : JobInstance} {plan : JobPlan}
    (sound : w.Sound) (found : w.tables.findJob? old.id = some old)
    (planned : w.tables.findPlan? old.id = some plan) (now : Instant) :
    let new := old.replacement w.ids.next.1 w.keys.next.1 now
    w.tables.Renewed [⟨old, new, plan, (plan.copyTo new.id w.ids.next.2).1, now⟩]
      (w.withReplacement old plan now).tables := by
  intro new
  -- the fresh instance comes in as any other does, from what is drawn next
  have inserted := sound.inserted_replacement found planned now
  exact {
    jobs := by
      rw [inserted.jobs, withJob_tables]
      exact congrArg (· ++ [new]) (JobTables.jobs_insertJob_retire (r := ⟨old, new, plan, _, now⟩)
        sound.distinct found)
    plans := inserted.plans
    stored := List.forall_mem_singleton.mpr found
    planned := List.forall_mem_singleton.mpr planned
    once := List.pairwise_singleton _ _
    distinct := List.pairwise_singleton _ _
    fresh := by
      refine List.forall_mem_singleton.mpr fun hid => ?_
      obtain ⟨job, hjob, same⟩ := List.mem_map.mp hid
      exact sound.next_absent job hjob same
    above := by
      refine List.forall_mem_singleton.mpr fun job hjob => ?_
      exact Int.lt_add_one_of_le (sound.keyed _ (List.mem_map_of_mem hjob))
    scheduled := List.forall_mem_singleton.mpr rfl
    copied := by
      refine List.forall_mem_singleton.mpr ⟨inserted.plan_jobId, inserted.plan_identifier, ?_⟩
      exact JobPlan.sameContent_copyTo plan _ _ }

namespace Scheduler

variable {w : Workspace} {cache : StatusCache} {s s' : Scheduler} {id : Uuid} {now : Instant}
  {clock : Clock} {old new : JobInstance} {jobs : List JobInstance} {ids : List Uuid}

/-! ## One request -/

/-- A request that ends in a replacement renews the job, and shows the fresh instance to the cache. -/
theorem reschedule_renewed (sound : w.Sound)
    (h : reschedule id now ⟨.memory w, cache⟩ = (.ok (.rescheduled new), s')) :
    ∃ old plan copy w', old.id = id ∧ Replaced old new w w' ∧
      w.tables.Renewed [⟨old, new, plan, copy, now⟩] w'.tables ∧
      s' = ⟨.memory w', cache.update new⟩ := by
  cases reschedule_cases sound h with
  | @replaced old new w' hid replaced unarmed _ =>
    subst hid
    obtain ⟨plan, planned⟩ := JobTables.findPlan?_isSome sound.planIds replaced.found
    -- the outcome says nothing of the plan that was copied, so the request is looked at once more
    rw [run_reschedule_replaceable replaced.found replaced.replaceable planned unarmed] at h
    dsimp only at h
    rw [Prod.mk.injEq, Except.ok.injEq, RescheduleOutcome.rescheduled.injEq, Scheduler.mk.injEq,
      JobStore.memory.injEq] at h
    obtain ⟨rfl, rfl, -⟩ := h
    exact ⟨old, plan, _, _, rfl, replaced, sound.renewed replaced.found planned now, rfl⟩

/-- A job that can be replaced is not kept. -/
theorem not_kept_of_replaceable (sound : w.Sound) (found : w.tables.findJob? id = some old)
    (replaceable : old.Replaceable) (reason : KeptReason) (s' : Scheduler) :
    reschedule id now ⟨.memory w, cache⟩ ≠ (.ok (.kept reason), s') := by
  intro h
  cases reschedule_cases sound h with
  | completed stored completed =>
    rw [found, Option.some.injEq] at stored
    rw [← stored, replaceable.notCompleted] at completed
    cases completed
  | rescheduled stored _ replaced =>
    rw [found, Option.some.injEq] at stored
    rw [← stored, replaceable.live, replaceable.notRescheduled] at replaced
    cases replaced

/-- How a request to replace a job comes out, by what is stored. No two of these can be, and one of
them is. -/
structure DecidedBy (s : Scheduler) (id : Uuid) (outcome : Except ScheduleError RescheduleOutcome) :
    Prop where
  missing : outcome = .error (.jobNotFound id) ↔ s.tables.findJob? id = none
  completed : outcome = .ok (.kept .completed) ↔
    ∃ old, s.tables.findJob? id = some old ∧ old.state = .completed
  /-- A job that was replaced is ignored, in whatever state it was reported to be since. -/
  rescheduled : outcome = .ok (.kept .rescheduled) ↔
    ∃ old, s.tables.findJob? id = some old ∧ old.state ≠ .completed ∧
      (old.ignored = true ∨ old.state = .rescheduled)
  failed : outcome = .error (.store .injected) ↔
    s.planFailureArmed = true ∧ ∃ old, s.tables.findJob? id = some old ∧
      old.state ≠ .completed ∧ old.ignored = false ∧ old.state ≠ .rescheduled
  replaced : (∃ new, outcome = .ok (.rescheduled new)) ↔
    s.planFailureArmed = false ∧ ∃ old, s.tables.findJob? id = some old ∧
      old.state ≠ .completed ∧ old.ignored = false ∧ old.state ≠ .rescheduled

theorem reschedule_decidedBy (sound : s.Sound) (id : Uuid) (now : Instant) :
    s.DecidedBy id (reschedule id now s).1 := by
  obtain ⟨w, cache, rfl, hw⟩ := sound
  rcases h : reschedule id now ⟨.memory w, cache⟩ with ⟨outcome, s'⟩
  -- in each of the five ways the job that was found settles all five equivalences
  cases reschedule_cases hw h with
  | missing found => constructor <;> simp [found]
  | completed found completed =>
    rw [JobInstance.isCompleted, beq_iff_eq] at completed
    constructor <;> simp [found, completed]
  | rescheduled found notCompleted replaced =>
    rw [JobInstance.isCompleted, beq_eq_false_iff_ne] at notCompleted
    rw [JobInstance.isRescheduled, Bool.or_eq_true, beq_iff_eq] at replaced
    rcases replaced with ignored | replaced
    · constructor <;> simp [found, notCompleted, ignored]
    · constructor <;> simp [found, replaced]
  | failed found replaceable armed =>
    obtain ⟨notCompleted, live, notRescheduled⟩ := JobInstance.replaceable_iff.mp replaceable
    constructor <;>
      simp [found, notCompleted, live, notRescheduled, armed, planFailureArmed]
  | @replaced old new w' hid replaced unarmed =>
    subst hid
    obtain ⟨notCompleted, live, notRescheduled⟩ :=
      JobInstance.replaceable_iff.mp replaced.replaceable
    constructor <;>
      simp [replaced.found, notCompleted, live, notRescheduled, unarmed, planFailureArmed]

/-- Everything else leaves jobs, plans and cache as they are. -/
theorem unchanged_of_not_replaced (sound : s.Sound)
    (kept : ∀ new, (reschedule id now s).1 ≠ .ok (.rescheduled new)) :
    s.Unchanged (reschedule id now s).2 := by
  rcases h : reschedule id now s with ⟨e | new | reason, s'⟩
  · exact unchanged_of_reschedule h
  · exact absurd (congrArg (·.1) h) (kept new)
  · rw [eq_of_kept sound h]
    exact .refl s

/-- Wherever a run has come to, a request to replace a job finds no job, or one that is completed, or
one that was replaced before, or else it replaces the job, unless a failure of the store was set up.
When the job is not replaced, jobs, plans and cache stay as they are. When it is, it is left behind with
one more entry in its history and keeps its plan; the tables get one job and one plan, which are a fresh
instance of the same configured job and a copy of the plan; the cache has the fresh instance under the
key of the job; and there is no other change. -/
theorem reschedule_outcomes (keys : OrderKeys) (ids : IdSource) (ops : List Operation) (id : Uuid)
    (now : Instant) :
    let s := (fresh keys ids).after ops
    let outcome := (reschedule id now s).1
    let s' := (reschedule id now s).2
    s.DecidedBy id outcome ∧
      ((∀ new, outcome ≠ .ok (.rescheduled new)) → s.Unchanged s') ∧
      ∀ new, outcome = .ok (.rescheduled new) → ∃ old plan copy,
        old.id = id ∧ s.tables.Renewed [⟨old, new, plan, copy, now⟩] s'.tables ∧
          (new.identifier = old.identifier ∧ new.state = .scheduled ∧ new.result = .unknown ∧
            new.agent = none ∧ new.ignored = false) ∧
          s'.tables.findJob? id = some { old with
            state := .rescheduled
            ignored := true
            transitions := old.transitions ++ [⟨.rescheduled, now⟩] } ∧
          s'.tables.findPlan? id = some plan ∧
          ∀ key, s'.cache.current? key = if old.key = key then some new else s.cache.current? key := by
  intro s outcome s'
  have sound : s.Sound := sound_after_fresh keys ids ops
  refine ⟨reschedule_decidedBy sound id now, unchanged_of_not_replaced sound, ?_⟩
  intro new h
  have hrun : reschedule id now s = (.ok (.rescheduled new), s') := Prod.ext h rfl
  clear_value s
  obtain ⟨w, cache, rfl, hw⟩ := sound
  -- a replacement is a list of one renewal, of which all of this is known
  obtain ⟨old, plan, copy, w', rfl, hreplaced, renewed, hs'⟩ := reschedule_renewed hw hrun
  rw [hs']
  have self : (⟨old, new, plan, copy, now⟩ : Renewal) ∈ [⟨old, new, plan, copy, now⟩] :=
    List.mem_singleton_self _
  refine ⟨old, plan, copy, rfl, renewed, ?_, renewed.findJob?_old self,
    renewed.findPlan?_eq (renewed.planned _ self), ?_⟩
  · have scheduled : new = .scheduled new.id old.identifier new.scheduleOrder now :=
      renewed.scheduled _ self
    rw [scheduled]
    exact ⟨rfl, rfl, rfl, rfl, rfl⟩
  · intro key
    rw [StatusCache.current?_update hreplaced.new_live, hreplaced.key_eq]

/-- A job that is with an agent is replaced. -/
theorem assigned_job_renewed :
    let s := (fresh (.startingAt 0) (.startingAt ⟨1⟩)).after
      [.schedule (.single "studios" "mingle" "unit") "studios" 1 (some "1") none ⟨0, 0⟩,
        .assign ⟨1⟩ "agent-1" ⟨5, 0⟩]
    ∃ old new plan copy, (reschedule ⟨1⟩ ⟨6, 0⟩ s).1 = .ok (.rescheduled new) ∧ old.id = ⟨1⟩ ∧
      s.tables.Renewed [⟨old, new, plan, copy, ⟨6, 0⟩⟩] (reschedule ⟨1⟩ ⟨6, 0⟩ s).2.tables := by
  intro s
  obtain ⟨decided, _, renewed⟩ := reschedule_outcomes (.startingAt 0) (.startingAt ⟨1⟩)
    [.schedule (.single "studios" "mingle" "unit") "studios" 1 (some "1") none ⟨0, 0⟩,
      .assign ⟨1⟩ "agent-1" ⟨5, 0⟩] ⟨1⟩ ⟨6, 0⟩
  have unarmed : s.planFailureArmed = false := by decide +kernel
  have stored : ∃ old, s.tables.findJob? ⟨1⟩ = some old ∧
      old.state ≠ .completed ∧ old.ignored = false ∧ old.state ≠ .rescheduled := by
    have state : (s.tables.findJob? ⟨1⟩).map (fun job => (job.state, job.ignored))
        = some (.assigned, false) := by decide +kernel
    obtain ⟨old, found, same⟩ := Option.map_eq_some_iff.mp state
    rw [Prod.mk.injEq] at same
    exact ⟨old, found, by rw [same.1]; decide, same.2, by rw [same.1]; decide⟩
  obtain ⟨new, outcome⟩ := decided.replaced.mpr ⟨unarmed, stored⟩
  obtain ⟨old, plan, copy, hid, tables, _⟩ := renewed new outcome
  exact ⟨old, new, plan, copy, outcome, hid, tables⟩

/-! ## Requests one after the other -/

/-- Requests to replace jobs that are stored and can be replaced, if none of them fails, replace every
one of the jobs. -/
theorem rescheduleEach_renewed (sound : w.Sound) (once : (jobs.map (·.id)).Nodup)
    (stored : ∀ job ∈ jobs, w.tables.findJob? job.id = some job)
    (replaceable : ∀ job ∈ jobs, job.Replaceable)
    (h : rescheduleEach clock jobs ⟨.memory w, cache⟩ = (.ok ids, s')) :
    ∃ renewals w', renewals.map (·.old) = jobs ∧ ids = jobs.map (·.id) ∧
      (∀ place r, renewals[place]? = some r → r.time = clock place) ∧
      w.tables.Renewed renewals w'.tables ∧
      s' = ⟨.memory w', (renewals.map (·.new)).foldl StatusCache.update cache⟩ := by
  induction jobs generalizing w cache clock ids with
  | nil =>
    rw [rescheduleEach, run_pure, Prod.mk.injEq, Except.ok.injEq] at h
    obtain ⟨rfl, rfl⟩ := h
    refine ⟨[], w, rfl, rfl, ?_, .nil w.tables, rfl⟩
    simp
  | cons job jobs ih =>
    rw [rescheduleEach, run_bind] at h
    obtain ⟨hstored, hothers⟩ := List.forall_mem_cons.mp stored
    obtain ⟨hreplaceable, hrest⟩ := List.forall_mem_cons.mp replaceable
    rw [List.map_cons, List.nodup_cons] at once
    rcases hfirst : reschedule job.id (clock 0) ⟨.memory w, cache⟩ with ⟨e | new | reason, s₁⟩
    · rw [hfirst] at h
      cases h
    · obtain ⟨old, plan, copy, w₁, hid, replaced, renewed, rfl⟩ := reschedule_renewed sound hfirst
      have hold : old = job := by
        have found := replaced.found
        rw [hid, hstored, Option.some.injEq] at found
        exact found.symm
      subst hold
      -- the other jobs are as they were when the requests for them are made
      have hkept : ∀ other ∈ jobs, w₁.tables.findJob? other.id = some other :=
        renewed.keeps_stored once.1 hothers
      rw [hfirst] at h
      dsimp only at h
      rw [run_bind] at h
      rcases hmore : rescheduleEach clock.rest jobs ⟨.memory w₁, cache.update new⟩ with ⟨e | more, s₂⟩
      · rw [hmore] at h
        cases h
      · rw [hmore] at h
        dsimp only at h
        rw [run_pure, Prod.mk.injEq, Except.ok.injEq] at h
        obtain ⟨rfl, rfl⟩ := h
        obtain ⟨renewals, w', rfl, rfl, times, rest, rfl⟩ :=
          ih (replaced.sound sound) once.2 hkept hrest hmore
        refine ⟨⟨old, new, plan, copy, clock 0⟩ :: renewals, w', rfl, rfl, ?_,
          renewed.cons rest ?_ ?_, rfl⟩
        · rintro (_ | place) r found
          · cases found
            rfl
          · exact times place r found
        · rw [List.map_map] at once
          exact once.1
        · intro r hr
          exact hothers r.old (List.mem_map_of_mem hr)
    · exact absurd hfirst (not_kept_of_replaceable sound hstored hreplaceable reason _)

end Scheduler

end BuildServer
