import BuildServer.Proofs.Schedule.Cache
/-!
# The latest instance

The cache answers with the instance that was recorded last, and the latest instance of a configured
job is the live one with the greatest order. The two agree as long as only the latest instance is
reported on. A report about an earlier run of the job brings that run back into the cache, where it
stays until the next one is recorded.
-/

set_option autoImplicit false

namespace BuildServer

open Workspace

namespace JobTables

variable {t t' : JobTables} {key : JobKey} {job : JobInstance}

/-- The instance has the key and is not ignored. -/
def isLiveUnder (key : JobKey) (job : JobInstance) : Bool := !job.ignored && job.key == key

/-- The instances with the key that are not ignored, in the order of the tables. -/
def liveUnder (t : JobTables) (key : JobKey) : List JobInstance := t.jobs.filter (isLiveUnder key)

/-- The instance with the greatest order among those with the key that are not ignored. -/
def latestLive? (t : JobTables) (key : JobKey) : Option JobInstance :=
  (t.liveUnder key).find? fun job =>
    (t.liveUnder key).all fun other => decide (other.scheduleOrder ≤ job.scheduleOrder)

/-- The instances with the key that are not ignored and were put in or changed since the tables were
others. -/
def recordedSince (before t : JobTables) (key : JobKey) : List JobInstance :=
  (t.liveUnder key).filter fun job => decide (job ∉ before.jobs)

theorem isLiveUnder_iff : isLiveUnder key job = true ↔ job.ignored = false ∧ job.key = key := by
  rw [isLiveUnder, Bool.and_eq_true, Bool.not_eq_true', beq_iff_eq]

theorem mem_liveUnder : job ∈ t.liveUnder key ↔ job ∈ t.jobs ∧ job.ignored = false ∧ job.key = key := by
  rw [liveUnder, List.mem_filter, isLiveUnder_iff]

theorem mem_of_latestLive? (h : t.latestLive? key = some job) : job ∈ t.liveUnder key :=
  List.mem_of_find?_eq_some h

/-- Where the jobs stand by rising order, there is a latest instance as soon as there is one. -/
theorem latestLive?_eq_none (ordered : (t.jobs.map (·.scheduleOrder)).Pairwise (· < ·)) :
    t.latestLive? key = none ↔ t.liveUnder key = [] := by
  constructor
  · intro none
    rcases List.eq_nil_or_concat (t.liveUnder key) with empty | ⟨earlier, last, split⟩
    · exact empty
    rw [List.concat_eq_append] at split
    rw [latestLive?, List.find?_eq_none] at none
    have rising : ((t.liveUnder key).map (·.scheduleOrder)).Pairwise (· < ·) :=
      ordered.sublist (List.filter_sublist.map _)
    rw [split, List.map_append, List.pairwise_append] at rising
    -- the last instance is the one with the greatest order
    refine absurd ?_ (none last (by rw [split]; simp))
    rw [List.all_eq_true]
    intro other hother
    rw [split, List.mem_append, List.mem_singleton] at hother
    rcases hother with hearlier | rfl
    · have hlt := rising.2.2 other.scheduleOrder (List.mem_map_of_mem hearlier) last.scheduleOrder
        List.mem_cons_self
      exact decide_eq_true (Int.le_of_lt hlt)
    · exact decide_eq_true (Int.le_refl _)
  · intro empty
    rw [latestLive?, empty]
    rfl

/-- What was put in or changed is what stands between jobs that were there. -/
theorem recordedSince_eq (before added after : List JobInstance)
    (split : t'.jobs = before ++ added ++ after) (hbefore : ∀ job ∈ before, job ∈ t.jobs)
    (hafter : ∀ job ∈ after, job ∈ t.jobs) (hadded : ∀ job ∈ added, job ∉ t.jobs) :
    recordedSince t t' key = added.filter (isLiveUnder key) := by
  have old : ∀ jobs : List JobInstance, (∀ job ∈ jobs, job ∈ t.jobs) →
      (jobs.filter (isLiveUnder key)).filter (fun job => decide (job ∉ t.jobs)) = [] := by
    intro jobs hjobs
    rw [List.filter_eq_nil_iff]
    intro job hjob
    have := hjobs job (List.mem_filter.mp hjob).1
    simpa using this
  have new : (added.filter (isLiveUnder key)).filter (fun job => decide (job ∉ t.jobs))
      = added.filter (isLiveUnder key) := by
    rw [List.filter_eq_self]
    intro job hjob
    exact decide_eq_true (hadded job (List.mem_filter.mp hjob).1)
  rw [recordedSince, liveUnder, split, List.filter_append, List.filter_append, List.filter_append,
    List.filter_append, old before hbefore, old after hafter, new, List.nil_append, List.append_nil]

theorem recordedSince_self : recordedSince t t key = [] := by
  rw [recordedSince_eq t.jobs [] []]
  · rfl
  · rw [List.append_nil, List.append_nil]
  · exact fun job hjob => hjob
  · exact fun job hjob => absurd hjob List.not_mem_nil
  · exact fun job hjob => absurd hjob List.not_mem_nil

end JobTables

/-- A cache that was shown instances has the last of them under a key, or what it had. -/
theorem StatusCache.current?_foldl_update (jobs : List JobInstance) (cache : StatusCache)
    (key : JobKey) :
    (jobs.foldl update cache).current? key
      = (jobs.filter (JobTables.isLiveUnder key)).getLast?.or (cache.current? key) := by
  induction jobs generalizing cache with
  | nil => rfl
  | cons job jobs ih =>
    rw [List.foldl_cons, ih]
    by_cases live : JobTables.isLiveUnder key job = true
    · obtain ⟨hlive, hkey⟩ := JobTables.isLiveUnder_iff.mp live
      rw [List.filter_cons_of_pos live, current?_update hlive, if_pos hkey, List.getLast?_cons]
      cases (jobs.filter (JobTables.isLiveUnder key)).getLast? <;> rfl
    · rw [List.filter_cons_of_neg live]
      rw [JobTables.isLiveUnder_iff, not_and] at live
      by_cases ignored : job.ignored = true
      · rw [update_ignored ignored]
      · have hlive := Bool.eq_false_iff.mpr ignored
        rw [current?_update hlive, if_neg (live hlive)]

namespace Scheduler

variable {s s' : Scheduler} {e : Event} {key : JobKey}

/-! ## One step -/

/-- A replacement records the fresh instance after everything that was recorded since the tables were
some others, and the instance that it replaces is no longer among that. -/
theorem recordedSince_replaced {t : JobTables} {w w' : Workspace} {old new : JobInstance}
    (sound : w.Sound) (replaced : Replaced old new w w')
    (earlier : ∀ job ∈ t.jobs, job.id ∈ w.tables.jobs.map (·.id)) :
    (JobTables.recordedSince t w'.tables key).getLast?
      = if new.key = key then some new else (JobTables.recordedSince t w.tables key).getLast? := by
  obtain ⟨now, plan, inserted⟩ := replaced.inserted
  obtain ⟨before, after, split, put⟩ := putRow_split replaced.found
  have joined : w'.tables.jobs = before ++ old.retire now :: after ++ [new] := by
    rw [inserted.jobs, withJob_tables, JobTables.insertJob, put (old.retire now) rfl]
  -- the replaced instance is ignored from now on and drops out, whatever its key
  have retired : ¬ JobTables.isLiveUnder key (old.retire now) = true := by
    rw [JobTables.isLiveUnder_iff]
    rintro ⟨live, _⟩
    cases live
  have absent : new ∉ t.jobs := by
    intro hnew
    obtain ⟨stored, hstored, same⟩ := List.mem_map.mp (earlier new hnew)
    have hfresh : new.id = w.ids.next.1 := inserted.id
    rw [hfresh] at same
    exact sound.next_absent stored hstored same
  by_cases hkey : new.key = key
  · have live : JobTables.isLiveUnder key new = true :=
      JobTables.isLiveUnder_iff.mpr ⟨replaced.new_live, hkey⟩
    have hnew : [new].filter (fun job => decide (job ∉ t.jobs)) = [new] := by
      simpa using absent
    rw [if_pos hkey, JobTables.recordedSince, JobTables.liveUnder, joined, List.filter_append,
      List.filter_append, List.filter_cons_of_pos live, List.filter_nil, hnew, List.getLast?_concat]
  · have other : ¬ JobTables.isLiveUnder key new = true := fun live =>
      hkey (JobTables.isLiveUnder_iff.mp live).2
    have old_other : ¬ JobTables.isLiveUnder key old = true := fun live =>
      hkey (replaced.key_eq.trans (JobTables.isLiveUnder_iff.mp live).2)
    have same : w'.tables.liveUnder key = w.tables.liveUnder key := by
      rw [JobTables.liveUnder, JobTables.liveUnder, joined, split, List.filter_append,
        List.filter_append, List.filter_append, List.filter_cons_of_neg retired,
        List.filter_cons_of_neg old_other, List.filter_cons_of_neg other, List.filter_nil,
        List.append_nil]
    rw [if_neg hkey, JobTables.recordedSince, JobTables.recordedSince, same]

/-- After a step a key has the instance that the step recorded last, or what it had. -/
theorem Step.current?_eq (step : Step e s s') (sound : s.Sound) (key : JobKey) :
    s'.cache.current? key
      = (JobTables.recordedSince s.tables s'.tables key).getLast?.or (s.cache.current? key) := by
  obtain ⟨w, cache, rfl, hw⟩ := sound
  cases step with
  | @idle w w' cache same later =>
    have none : JobTables.recordedSince w.tables w'.tables key = [] := by
      rw [same]
      exact JobTables.recordedSince_self
    rw [tables_memory, tables_memory, none]
    rfl
  | @staged w w' cache jobs staged =>
    -- an instance that was there has another identifier than the fresh ones
    have hdistinct := (staged.sound hw).distinct
    rw [staged.jobs_eq, List.map_append, List.nodup_append] at hdistinct
    have hnew : ∀ job ∈ jobs, job ∉ w.tables.jobs := by
      intro job hjob hold
      exact hdistinct.2.2 job.id (List.mem_map_of_mem hold) job.id (List.mem_map_of_mem hjob) rfl
    have joined : w'.tables.jobs = w.tables.jobs ++ jobs ++ [] := by
      rw [staged.jobs_eq, List.append_nil]
    rw [tables_memory, tables_memory, StatusCache.current?_foldl_update,
      JobTables.recordedSince_eq _ _ _ joined (fun job hjob => hjob)
        (fun job hjob => absurd hjob List.not_mem_nil) hnew]
  | @replaced w w' cache old new replaced =>
    rw [tables_memory, tables_memory,
      recordedSince_replaced hw replaced (fun job hjob => List.mem_map_of_mem hjob),
      JobTables.recordedSince_self, StatusCache.current?_update replaced.new_live]
    by_cases hkey : new.key = key
    · rw [if_pos hkey, if_pos hkey]
      rfl
    · rw [if_neg hkey, if_neg hkey]
      rfl
  | @advanced w cache old new found advance =>
    -- the changed instance keeps its place, and is unlike the one that was there
    obtain ⟨before, after, split, put⟩ := putRow_split found
    have hnew : new ∉ w.tables.jobs := by
      intro hmem
      have hstored := JobTables.findJob?_of_mem hw.distinct hmem
      rw [advance.id_eq, found, Option.some.injEq] at hstored
      exact advance.ne hstored.symm
    have joined : (w.withJob new).tables.jobs = before ++ [new] ++ after := by
      rw [withJob_tables, JobTables.insertJob, put new advance.id_eq, List.append_assoc,
        List.singleton_append]
    have hold : ∀ job ∈ before ++ after, job ∈ w.tables.jobs := by
      intro job hjob
      rw [split]
      rcases List.mem_append.mp hjob with hbefore | hafter
      · exact List.mem_append_left _ hbefore
      · exact List.mem_append_right _ (List.mem_cons_of_mem _ hafter)
    rw [tables_memory, tables_memory, JobTables.recordedSince_eq _ _ _ joined
      (fun job hjob => hold job (List.mem_append_left _ hjob))
      (fun job hjob => hold job (List.mem_append_right _ hjob))
      (fun job hjob => List.mem_singleton.mp hjob ▸ hnew)]
    exact StatusCache.current?_foldl_update [new] cache key

/-! ## Operations and runs -/

/-- After an operation a key has the instance that the operation recorded last, or what it had. -/
theorem current?_perform (sound : s.Sound) (op : Operation) (key : JobKey) :
    (op.perform s).cache.current? key
      = (JobTables.recordedSince s.tables (op.perform s).tables key).getLast?.or
          (s.cache.current? key) := by
  obtain ⟨events, recorded⟩ := exists_recorded sound op
  have journal := recorded.journal
  rcases recorded.alone with ⟨e, rfl⟩ | ⟨agent, now, rfl⟩
  · cases journal with
    | cons step rest =>
      cases rest
      exact step.current?_eq sound key
  · -- the jobs of the agent are replaced one after the other, and what was there at the outset stays
    have kept := journal.keeps (P := fun s' =>
      (∀ job ∈ s.tables.jobs, job.id ∈ s'.tables.jobs.map (·.id)) ∧
        s'.cache.current? key = (JobTables.recordedSince s.tables s'.tables key).getLast?.or
          (s.cache.current? key)) ?_ sound ?_
    · exact kept.2
    · rintro e he before after hbefore step ⟨earlier, hcurrent⟩
      obtain ⟨w, cache, rfl, hw⟩ := hbefore
      have cause := recorded.caused e he
      cases step with
      | idle same later =>
        rw [tables_memory] at earlier hcurrent
        rw [tables_memory, same]
        exact ⟨earlier, hcurrent⟩
      | staged | advanced => cases cause
      | @replaced w w' cache old new replaced =>
        obtain ⟨now, plan, inserted⟩ := replaced.inserted
        constructor
        · intro job hjob
          have hids : (w.withJob (old.retire now)).tables.jobs.map (·.id) = w.tables.jobs.map (·.id) :=
            map_putRow _ replaced.found rfl
          rw [tables_memory, inserted.jobs, List.map_append, hids]
          exact List.mem_append_left _ (earlier job hjob)
        · rw [tables_memory, recordedSince_replaced hw replaced earlier,
            StatusCache.current?_update replaced.new_live]
          by_cases hkey : new.key = key
          · rw [if_pos hkey, if_pos hkey]
            rfl
          · rw [if_neg hkey, if_neg hkey]
            exact hcurrent
    · refine ⟨fun job hjob => List.mem_map_of_mem hjob, ?_⟩
      rw [JobTables.recordedSince_self]
      rfl

/-- The identifier of the instance that a run has recorded last under the key. -/
def lastRecorded? (key : JobKey) : Scheduler → List Operation → Option Uuid
  | _, [] => none
  | s, op :: ops =>
    (lastRecorded? key (op.perform s) ops).or
      ((JobTables.recordedSince s.tables (op.perform s).tables key).getLast?.map (·.id))

/-- The cache answers with the instance that was recorded last. -/
theorem id_current?_after (sound : s.Sound) (ops : List Operation) (key : JobKey) :
    ((s.after ops).cache.current? key).map (·.id)
      = (lastRecorded? key s ops).or ((s.cache.current? key).map (·.id)) := by
  induction ops generalizing s with
  | nil => rfl
  | cons op ops ih =>
    rw [after_cons, ih (sound.perform op), current?_perform sound op key, lastRecorded?,
      Option.or_assoc, Option.map_or]

/-- There is an answer exactly when the configured job has a live instance, and the answer is one of
them as the tables hold it. It is the latest one exactly when the instance that was recorded last
is. -/
theorem current_is_latest_iff_recorded_last (keys : OrderKeys) (ids : IdSource)
    (ops : List Operation) (pipeline stage job : String) :
    let s := (fresh keys ids).after ops
    let key := JobKey.ofNames pipeline stage job
    (s.current? pipeline stage job = none ↔ s.tables.latestLive? key = none) ∧
      (∀ current, s.current? pipeline stage job = some current → current ∈ s.tables.liveUnder key) ∧
      (s.current? pipeline stage job = s.tables.latestLive? key ↔
        lastRecorded? key (fresh keys ids) ops = (s.tables.latestLive? key).map (·.id)) := by
  intro s key
  have sound : s.Sound := sound_after_fresh keys ids ops
  have coherent : Coherent s.tables s.cache := coherent_after (sound_fresh keys ids) .empty ops
  -- what the cache holds is what the run recorded last, as far as identifiers go
  have last : (s.cache.current? key).map (·.id) = lastRecorded? key (fresh keys ids) ops := by
    rw [id_current?_after (sound_fresh keys ids) ops key]
    exact Option.or_none
  -- and it holds it as the tables do
  have answer : ∀ current, s.cache.current? key = some current → current ∈ s.tables.liveUnder key := by
    intro current hcurrent
    obtain ⟨found, live, hkey⟩ := coherent.stored key current hcurrent
    exact JobTables.mem_liveUnder.mpr ⟨JobTables.mem_of_findJob? found, live, hkey⟩
  refine ⟨?_, answer, ?_⟩
  · have ordered : (s.tables.jobs.map (·.scheduleOrder)).Pairwise (· < ·) := by
      obtain ⟨w, cache, hs, hw⟩ := sound
      rw [hs]
      exact hw.ordered
    rw [JobTables.latestLive?_eq_none ordered, List.eq_nil_iff_forall_not_mem]
    constructor
    · intro none job hjob
      obtain ⟨hmem, _, hkey⟩ := JobTables.mem_liveUnder.mp hjob
      obtain ⟨current, hcurrent⟩ := coherent.cached job hmem
      rw [hkey] at hcurrent
      have hnone : s.cache.current? key = Option.none := none
      rw [hnone] at hcurrent
      cases hcurrent
    · intro empty
      refine Option.eq_none_iff_forall_ne_some.mpr ?_
      intro current hcurrent
      exact empty current (answer current hcurrent)
  · rw [← last]
    constructor
    · exact fun same => congrArg (Option.map (·.id)) same
    · intro same
      rcases hlatest : s.tables.latestLive? key with _ | latest
      · rw [hlatest, Option.map_none, Option.map_eq_none_iff] at same
        exact same
      · -- the tables hold one instance with that identifier, and it is the cached one
        rw [hlatest, Option.map_some, Option.map_eq_some_iff] at same
        obtain ⟨current, hcurrent, hid⟩ := same
        have hmem := (JobTables.mem_liveUnder.mp (JobTables.mem_of_latestLive? hlatest)).1
        obtain ⟨w, cache, hs, hw⟩ := sound
        rw [hs] at hmem coherent hcurrent
        have found := JobTables.findJob?_of_mem hw.distinct hmem
        have hsame : current = latest := coherent.eq_of_id hcurrent found hid
        rw [← hsame, hs]
        exact hcurrent

/-- A report about the first of two runs of a job brings it back, although the second run is live and
comes after it. -/
theorem earlier_run_shadows_latest :
    let studios (counter : Int) (label : String) : Operation :=
      .schedule (.single "Studios" "mingle" "unit") "studios" counter (some label) none ⟨0, 0⟩
    let s := (fresh (.startingAt 0) (.startingAt ⟨1⟩)).after
      [studios 1 "1", studios 2 "2", .reportState ⟨1⟩ .building ⟨5, 0⟩]
    (s.current? "studios" "mingle" "unit").map (·.id) = some ⟨1⟩ ∧
      (s.tables.latestLive? (.ofNames "studios" "mingle" "unit")).map (·.id) = some ⟨2⟩ := by
  refine ⟨?_, ?_⟩ <;> decide +kernel

end Scheduler

end BuildServer
