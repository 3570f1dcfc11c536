import BuildServer.Proofs.Schedule.Run
/-!
# The cache and the tables

Every instance in the cache is one that the tables hold, as they hold it, and a configured job that
has an instance in the tables has one in the cache. An instance that was replaced is not shown to the
cache again, but the one that takes its place is, under the same key.
-/

set_option autoImplicit false

namespace BuildServer

namespace StatusCache

variable {cache : StatusCache} {job : JobInstance} {key : JobKey}

/-- A live instance is found under its key. -/
theorem current?_update (live : job.ignored = false) (key : JobKey) :
    (cache.update job).current? key = if job.key = key then some job else cache.current? key := by
  rw [update, if_neg (by rw [live]; exact Bool.false_ne_true)]
  exact lookup_putRow job.key key job cache.entries

/-- An ignored instance is not noted. -/
theorem update_ignored (ignored : job.ignored = true) : cache.update job = cache := by
  rw [update, if_pos ignored]

/-- A key that has an instance keeps having one. -/
theorem current?_update_isSome (job : JobInstance) {current : JobInstance}
    (h : cache.current? key = some current) : ∃ later, (cache.update job).current? key = some later := by
  by_cases ignored : job.ignored = true
  · exact ⟨current, by rw [update_ignored ignored, h]⟩
  · rw [current?_update (Bool.eq_false_iff.mpr ignored)]
    by_cases hkey : job.key = key
    · exact ⟨job, if_pos hkey⟩
    · exact ⟨current, by rw [if_neg hkey, h]⟩

/-- Every key has one instance at most. -/
def Distinct (cache : StatusCache) : Prop := (cache.entries.map (·.1)).Nodup

theorem Distinct.update (h : cache.Distinct) (job : JobInstance) : (cache.update job).Distinct := by
  by_cases ignored : job.ignored = true
  · rw [update_ignored ignored]
    exact h
  · rw [StatusCache.update, if_neg ignored]
    exact nodup_putRow h _

theorem Distinct.foldl_update (h : cache.Distinct) (jobs : List JobInstance) :
    (jobs.foldl StatusCache.update cache).Distinct := by
  induction jobs generalizing cache with
  | nil => exact h
  | cons job jobs ih => exact ih (h.update job)

/-- What is in the cache is what is found there. -/
theorem Distinct.mem_entries (h : cache.Distinct) :
    (key, job) ∈ cache.entries ↔ cache.current? key = some job :=
  ⟨lookup_of_mem h, mem_of_lookup_eq_some⟩

end StatusCache

open Workspace

/-- The cache agrees with the tables. -/
structure Coherent (t : JobTables) (cache : StatusCache) : Prop where
  stored : ∀ (key : JobKey) (job : JobInstance), cache.current? key = some job →
    t.findJob? job.id = some job ∧ job.ignored = false ∧ job.key = key
  cached : ∀ job ∈ t.jobs, ∃ current, cache.current? job.key = some current

namespace Coherent

variable {w w' : Workspace} {cache : StatusCache} {old new job : JobInstance} {plan : JobPlan}
  {jobs : List JobInstance}

theorem empty : Coherent {} {} where
  stored _ _ h := by cases h
  cached _ h := by cases h

/-- A job in the tables that has the identifier of a cached one is the cached one. -/
theorem eq_of_id {t : JobTables} (h : Coherent t cache) {key : JobKey}
    (current : cache.current? key = some job) (found : t.findJob? old.id = some old)
    (same : job.id = old.id) : job = old := by
  have hjob := (h.stored key job current).1
  rw [same, found, Option.some.injEq] at hjob
  exact hjob.symm

theorem inserted (h : Coherent w.tables cache) (sound : w.Sound) (inserted : Inserted job plan w w') :
    Coherent w'.tables (cache.update job) where
  stored key current hcurrent := by
    rw [StatusCache.current?_update inserted.live] at hcurrent
    rw [inserted.findJob?_eq sound]
    by_cases hkey : job.key = key
    · rw [if_pos hkey, Option.some.injEq] at hcurrent
      subst hcurrent
      exact ⟨if_pos rfl, inserted.live, hkey⟩
    · rw [if_neg hkey] at hcurrent
      obtain ⟨found, live, hcurrentKey⟩ := h.stored key current hcurrent
      have hne := inserted.absent sound current (JobTables.mem_of_findJob? found)
      rw [if_neg (Ne.symm hne)]
      exact ⟨found, live, hcurrentKey⟩
  cached other hother := by
    rw [inserted.jobs, List.mem_append, List.mem_singleton] at hother
    rcases hother with hold | rfl
    · obtain ⟨current, hcurrent⟩ := h.cached other hold
      exact StatusCache.current?_update_isSome job hcurrent
    · exact ⟨other, by rw [StatusCache.current?_update inserted.live, if_pos rfl]⟩

theorem staged (h : Coherent w.tables cache) (sound : w.Sound) (staged : Staged jobs w w') :
    Coherent w'.tables (jobs.foldl StatusCache.update cache) := by
  induction staged generalizing cache with
  | nil => exact h
  | cons inserted _ ih => exact ih (h.inserted sound inserted) (inserted.sound sound)

/-- An instance that the cache did not have before, or had in the state it was in, is put in and shown
to the cache. -/
theorem advanced (h : Coherent w.tables cache) (found : w.tables.findJob? old.id = some old)
    (advance : old.Advance new) : Coherent (w.withJob new).tables (cache.update new) where
  stored key current hcurrent := by
    rw [withJob_tables, JobTables.findJob?_insertJob, advance.id_eq]
    by_cases ignored : new.ignored = true
    · -- what is cached is live, so the ignored instance is not among it
      rw [StatusCache.update_ignored ignored] at hcurrent
      obtain ⟨hfound, live, hkey⟩ := h.stored key current hcurrent
      have hne : old.id ≠ current.id := by
        intro same
        have := h.eq_of_id hcurrent found same.symm
        rw [this, ← advance.ignored_eq, ignored] at live
        cases live
      rw [if_neg hne]
      exact ⟨hfound, live, hkey⟩
    · rw [StatusCache.current?_update (Bool.eq_false_iff.mpr ignored)] at hcurrent
      by_cases hnew : new.key = key
      · rw [if_pos hnew, Option.some.injEq] at hcurrent
        subst hcurrent
        exact ⟨if_pos advance.id_eq.symm, Bool.eq_false_iff.mpr ignored, hnew⟩
      · -- under another key the cache has another instance, since a report keeps the key
        rw [if_neg hnew] at hcurrent
        obtain ⟨hfound, live, hkey⟩ := h.stored key current hcurrent
        have hne : old.id ≠ current.id := by
          intro same
          have := h.eq_of_id hcurrent found same.symm
          rw [advance.key_eq, ← this] at hnew
          exact hnew hkey
        rw [if_neg hne]
        exact ⟨hfound, live, hkey⟩
  cached other hother := by
    rcases mem_putRow hother with rfl | hold
    · obtain ⟨current, hcurrent⟩ := h.cached old (JobTables.mem_of_findJob? found)
      rw [advance.key_eq]
      exact StatusCache.current?_update_isSome _ hcurrent
    · obtain ⟨current, hcurrent⟩ := h.cached other hold
      exact StatusCache.current?_update_isSome new hcurrent

/-- What the cache had of a replaced job is overwritten, since the fresh instance has its key. -/
theorem replaced (h : Coherent w.tables cache) (sound : w.Sound) (replaced : Replaced old new w w') :
    Coherent w'.tables (cache.update new) := by
  obtain ⟨now, plan, inserted⟩ := replaced.inserted
  have retired : (w.withJob (old.retire now)).Sound := sound.retire replaced.found now
  constructor
  · intro key current hcurrent
    rw [StatusCache.current?_update replaced.new_live] at hcurrent
    rw [inserted.findJob?_eq retired]
    by_cases hkey : new.key = key
    · rw [if_pos hkey, Option.some.injEq] at hcurrent
      subst hcurrent
      exact ⟨if_pos rfl, replaced.new_live, hkey⟩
    · -- the replaced instance was cached under the key of the fresh one or not at all
      rw [if_neg hkey] at hcurrent
      obtain ⟨found, live, hcurrentKey⟩ := h.stored key current hcurrent
      have hother : (old.retire now).id ≠ current.id := by
        intro same
        have := h.eq_of_id hcurrent replaced.found same.symm
        rw [replaced.key_eq, ← this] at hkey
        exact hkey hcurrentKey
      have hfound : (w.withJob (old.retire now)).tables.findJob? current.id = some current := by
        rw [withJob_tables, JobTables.findJob?_insertJob, if_neg hother, found]
      have hne := inserted.absent retired current (JobTables.mem_of_findJob? hfound)
      rw [if_neg (Ne.symm hne)]
      exact ⟨hfound, live, hcurrentKey⟩
  · intro other hother
    rw [inserted.jobs, List.mem_append, List.mem_singleton] at hother
    rcases hother with hold | rfl
    · have hcached : ∃ current, cache.current? other.key = some current := by
        rcases mem_putRow hold with rfl | hmem
        · exact h.cached old (JobTables.mem_of_findJob? replaced.found)
        · exact h.cached other hmem
      obtain ⟨current, hcurrent⟩ := hcached
      exact StatusCache.current?_update_isSome new hcurrent
    · exact ⟨other, by rw [StatusCache.current?_update replaced.new_live, if_pos rfl]⟩

end Coherent

namespace Scheduler

variable {s s' : Scheduler} {e : Event}

/-- The cache of the scheduler agrees with its tables. -/
theorem Step.coherent (step : Step e s s') (sound : s.Sound) (h : Coherent s.tables s.cache) :
    Coherent s'.tables s'.cache := by
  obtain ⟨w, cache, rfl, hw⟩ := sound
  cases step with
  | idle same later => rw [tables_memory, same]; exact h
  | staged staged => exact h.staged hw staged
  | replaced replaced => exact h.replaced hw replaced
  | advanced found advance => exact h.advanced found advance

theorem coherent_after (sound : s.Sound) (h : Coherent s.tables s.cache) (ops : List Operation) :
    Coherent (s.after ops).tables (s.after ops).cache := by
  refine sound.keeps_after (P := fun s => Coherent s.tables s.cache) ops ?_ h
  intro _ _ e s s' _ hsound step
  exact step.coherent hsound

theorem Step.distinct (step : Step e s s') (h : s.cache.Distinct) : s'.cache.Distinct := by
  cases step with
  | idle => exact h
  | staged => exact h.foldl_update _
  | replaced => exact h.update _
  | advanced => exact h.update _

theorem distinct_after (sound : s.Sound) (h : s.cache.Distinct) (ops : List Operation) :
    (s.after ops).cache.Distinct := by
  refine sound.keeps_after (P := fun s => s.cache.Distinct) ops ?_ h
  intro _ _ e s s' _ _ step
  exact step.distinct

/-- Wherever a run has come to, every instance in the cache is live, stands under the three names of
its own identifier in small letters, and is in every field the instance that the tables hold under its
identifier. A configured job is in the cache, and there once, exactly if the tables hold an instance of
it. -/
theorem cache_mirrors_tables (keys : OrderKeys) (ids : IdSource) (ops : List Operation) :
    let s := (fresh keys ids).after ops
    (∀ key job, (key, job) ∈ s.cache.entries →
      job.ignored = false ∧
        key = ⟨Text.lowercase job.identifier.pipelineName, Text.lowercase job.identifier.stageName,
          Text.lowercase job.identifier.jobName⟩ ∧
        s.tables.findJob? job.id = some job) ∧
      (s.cache.entries.map (·.1)).Nodup ∧
      ∀ key, key ∈ s.cache.entries.map (·.1) ↔ ∃ job ∈ s.tables.jobs, job.key = key := by
  intro s
  have coherent : Coherent s.tables s.cache := coherent_after (sound_fresh keys ids) .empty ops
  have distinct : s.cache.Distinct := distinct_after (sound_fresh keys ids) List.nodup_nil ops
  refine ⟨?_, distinct, ?_⟩
  · intro key job hmem
    obtain ⟨found, live, hkey⟩ := coherent.stored key job (distinct.mem_entries.mp hmem)
    exact ⟨live, hkey.symm, found⟩
  · intro key
    constructor
    · intro hkey
      obtain ⟨⟨_, job⟩, hmem, rfl⟩ := List.mem_map.mp hkey
      -- the instance in the cache is itself one of the tables
      obtain ⟨found, _, hjob⟩ := coherent.stored _ job (distinct.mem_entries.mp hmem)
      exact ⟨job, JobTables.mem_of_findJob? found, hjob⟩
    · rintro ⟨job, hjob, rfl⟩
      obtain ⟨current, hcurrent⟩ := coherent.cached job hjob
      exact List.mem_map_of_mem (distinct.mem_entries.mpr hcurrent)

end Scheduler

end BuildServer
