import BuildServer.Proofs.Schedule.Run
import Mathlib.Algebra.Order.BigOperators.Group.List
import Mathlib.Algebra.Order.Group.Nat
/-!
# What a run draws

Identifiers and order keys are drawn from sources without an end, while those of the program have one.
A run does not come to see the difference. It draws finitely many identifiers, and any that do not
repeat may be the first draws of a source. Its keys count up from the time at which the counter started,
and for every key an identifier is drawn, so a counter of 64 bits does not overflow before about as many
identifiers were drawn.
-/

set_option autoImplicit false

namespace BuildServer

namespace IdSource

variable {ids : List Uuid}

/-- The source that draws the given identifiers first, and counts upward from beyond them all after
that. -/
def beginningWith (ids : List Uuid) (distinct : ids.Nodup) (bound : Nat)
    (below : ∀ id ∈ ids, id.number < bound) : IdSource where
  draw n := if h : n < ids.length then ids[n] else ⟨bound + n⟩
  draw_injective := by
    have beyond : ∀ {m n : Nat} (h : m < ids.length), ids[m] ≠ ⟨bound + n⟩ := by
      intro m n h same
      have bounded := below ids[m] (List.getElem_mem h)
      rw [same] at bounded
      exact Nat.not_lt.mpr (Nat.le_add_right bound n) bounded
    intro m n same
    by_cases hm : m < ids.length <;> by_cases hn : n < ids.length
    · rw [dif_pos hm, dif_pos hn] at same
      exact (List.getElem_inj distinct).mp same
    · rw [dif_pos hm, dif_neg hn] at same
      exact absurd same (beyond hm)
    · rw [dif_neg hm, dif_pos hn] at same
      exact absurd same.symm (beyond hn)
    · rw [dif_neg hm, dif_neg hn, Uuid.mk.injEq] at same
      exact Nat.add_left_cancel same

/-- Identifiers that do not repeat are the first draws of some source. -/
theorem exists_of_nodup (distinct : ids.Nodup) :
    ∃ source : IdSource, source.drawn = 0 ∧ (List.range ids.length).map source.draw = ids := by
  have below : ∀ id ∈ ids, id.number < (ids.map (·.number)).sum + 1 := by
    intro id member
    exact Nat.lt_succ_of_le (List.le_sum_of_mem (List.mem_map_of_mem member))
  refine ⟨beginningWith ids distinct _ below, rfl, ?_⟩
  refine List.ext_getElem (by rw [List.length_map, List.length_range]) ?_
  intro n _ h
  rw [List.getElem_map, List.getElem_range]
  exact dif_pos h

end IdSource

namespace Workspace

/-- The sources of the workspace were once the given ones, and its jobs got their keys after that. -/
structure StartedFrom (keys : OrderKeys) (ids : IdSource) (w : Workspace) : Prop where
  later : Later { keys, ids } w
  behind : ∀ key ∈ w.tables.jobs.map (·.scheduleOrder), keys.last < key

namespace StartedFrom

variable {keys : OrderKeys} {ids : IdSource} {w w' : Workspace} {job old new : JobInstance}
  {jobs : List JobInstance} {plan : JobPlan} (h : StartedFrom keys ids w)

include h

theorem idle (same : w'.tables = w.tables) (later : w.Later w') : StartedFrom keys ids w' where
  later := h.later.trans later
  behind := by
    rw [same]
    exact h.behind

theorem withJob (found : w.tables.findJob? new.id = some old)
    (order : new.scheduleOrder = old.scheduleOrder) : StartedFrom keys ids (w.withJob new) where
  later := h.later.trans (later_of_same rfl rfl)
  behind := by
    rw [withJob_tables, JobTables.insertJob, map_putRow (·.scheduleOrder) found order]
    exact h.behind

theorem inserted (inserted : Inserted job plan w w') : StartedFrom keys ids w' where
  later := h.later.trans inserted.later
  behind key hkey := by
    rw [inserted.jobs, List.map_append, List.map_singleton, List.mem_append,
      List.mem_singleton] at hkey
    rcases hkey with old | rfl
    · exact h.behind key old
    · rw [inserted.order]
      exact Int.lt_add_one_of_le h.later.keys

theorem staged (staged : Staged jobs w w') : StartedFrom keys ids w' := by
  induction staged with
  | nil w => exact h
  | cons inserted _ ih => exact ih (h.inserted inserted)

theorem replaced (replaced : Replaced old new w w') : StartedFrom keys ids w' := by
  obtain ⟨now, plan, inserted⟩ := replaced.inserted
  have retired : w.tables.findJob? (old.retire now).id = some old := replaced.found
  exact (h.withJob retired rfl).inserted inserted

/-- What is known of an order once the workspace is sound. -/
theorem order_within (sound : w.Sound) (hjob : job ∈ w.tables.jobs) :
    keys.last < job.scheduleOrder ∧
      job.scheduleOrder ≤ keys.last + ((w.ids.drawn : Int) - ids.drawn) := by
  have hkey := List.mem_map_of_mem (f := (·.scheduleOrder)) hjob
  have keyed : job.scheduleOrder ≤ w.keys.last := sound.keyed _ hkey
  have paced : w.keys.last - keys.last ≤ (w.ids.drawn : Int) - ids.drawn := h.later.paced
  exact ⟨h.behind _ hkey, by omega⟩

end StartedFrom

end Workspace

namespace Scheduler

variable {s s' : Scheduler} {e : Event}

/-- The store is in memory, and its sources were once the given ones. -/
def StartedFrom (keys : OrderKeys) (ids : IdSource) (s : Scheduler) : Prop :=
  ∃ w cache, s = ⟨.memory w, cache⟩ ∧ w.StartedFrom keys ids

theorem Step.startedFrom {keys : OrderKeys} {ids : IdSource} (step : Step e s s')
    (started : s.StartedFrom keys ids) : s'.StartedFrom keys ids := by
  obtain ⟨w, cache, rfl, started⟩ := started
  cases step with
  | idle same later => exact ⟨_, _, rfl, started.idle same later⟩
  | staged staged => exact ⟨_, _, rfl, started.staged staged⟩
  | replaced replaced => exact ⟨_, _, rfl, started.replaced replaced⟩
  | advanced found advance =>
    have hfound := advance.id_eq ▸ found
    exact ⟨_, _, rfl, started.withJob hfound advance.order_eq⟩

/-- Wherever a run has come to, the order of a job lies behind the time at which the counter started,
no further than identifiers were drawn. -/
theorem order_within_draws (keys : OrderKeys) (ids : IdSource) (ops : List Operation) :
    ∃ w cache, (fresh keys ids).after ops = ⟨.memory w, cache⟩ ∧ ∀ job ∈ w.tables.jobs,
      keys.last < job.scheduleOrder ∧
        job.scheduleOrder ≤ keys.last + ((w.ids.drawn : Int) - ids.drawn) := by
  have start : (fresh keys ids).StartedFrom keys ids := ⟨_, _, rfl, .refl _, by simp⟩
  obtain ⟨w, cache, reached, started⟩ := (sound_fresh keys ids).keeps_after ops
    (fun _ _ _ _ _ _ _ step holds => step.startedFrom holds) start
  have sound := sound_after_fresh keys ids ops
  rw [reached] at sound
  obtain ⟨_, _, same, hw⟩ := sound
  cases same
  exact ⟨w, cache, reached, fun job hjob => started.order_within hw hjob⟩

end Scheduler

end BuildServer
