import BuildServer.Proofs.Schedule.Conservation
import BuildServer.Proofs.Schedule.Results
import BuildServer.Proofs.Schedule.Waiting
import Mathlib.Data.List.Induction
/-!
# A job is handed out once

A job is offered to agents as long as it waits, and handing it to one of them ends that. The agent that
has it loses it to another one only if it waits again, and of all that can be asked for one thing alone
makes it wait again: the report that it is scheduled, which is taken like that of any other state. So a
job that was handed out stays where it is exactly as long as no such report comes in.

The exception has an end. Once the job has been replaced it is ignored, no report takes the mark away,
and an ignored job does not wait whatever its state is. From then on nobody gets the job, whether or
not it was put back before.
-/

set_option autoImplicit false

namespace BuildServer

/-- The operation reports that the job is scheduled, as if it were with nobody. -/
def Operation.PutsBack (id : Uuid) : Operation → Prop
  | .reportState other state _ => other = id ∧ state = .scheduled
  | _ => False

namespace Scheduler

variable {s s' : Scheduler} {e : Event} {op : Operation} {id : Uuid} {agent : String}
  {job : JobInstance} {now : Instant}

/-- The job is with the agent, and does not wait for another one. -/
def HandedOut (s : Scheduler) (id : Uuid) (agent : String) : Prop :=
  ∃ job, s.tables.findJob? id = some job ∧ job.agent = some agent ∧ ¬ JobTables.isWaiting job = true

/-- An agent has the job, or had it when the job was put back. -/
def HasAgent (s : Scheduler) (id : Uuid) : Prop :=
  ∃ job agent, s.tables.findJob? id = some job ∧ job.agent = some agent

/-- Nobody else gets the job: it is not offered, and a request to hand it to any agent is refused and
leaves it with the one that has it. -/
structure Withheld (s : Scheduler) (id : Uuid) (agent : String) : Prop where
  unlisted : ∃ plans, waitingPlans s = (.ok plans, s) ∧ ∀ plan ∈ plans, plan.jobId ≠ id
  refused : ∃ job, s.tables.findJob? id = some job ∧ job.agent = some agent ∧
    ∀ (other : String) (now : Instant),
      assign id other now s = (.error (.notWaiting id job.state), s)

/-- It is by not waiting that a job is withheld. -/
theorem withheld_iff (sound : s.Sound) : s.Withheld id agent ↔ s.HandedOut id agent := by
  have hsound := sound
  obtain ⟨w, cache, rfl, hw⟩ := sound
  have listed : waitingPlans ⟨.memory w, cache⟩ = (.ok w.tables.waitingPlans, ⟨.memory w, cache⟩) := rfl
  constructor
  · rintro ⟨⟨plans, hplans, unlisted⟩, job, found, held, _⟩
    rw [listed, Prod.mk.injEq, Except.ok.injEq] at hplans
    obtain ⟨rfl, _⟩ := hplans
    refine ⟨job, found, held, ?_⟩
    intro waits
    -- every job has its plan, so one that waits is listed
    obtain ⟨plan, hplan, rfl⟩ := List.mem_map.mp ((hw.mem_waitingIds found).mpr waits)
    exact unlisted plan hplan rfl
  · rintro ⟨job, found, held, idle⟩
    refine ⟨⟨_, listed, ?_⟩, job, found, held, ?_⟩
    · rintro plan hplan rfl
      exact idle ((hw.mem_waitingIds found).mp (List.mem_map_of_mem hplan))
    · intro other now
      refine change_refused hsound found ?_
      rw [if_neg idle, JobTables.id_of_findJob? found]

/-! ## One step -/

/-- Only the report that a live job is scheduled makes it wait again. -/
theorem Step.handedOut (step : Step e s s') (cause : Causes op e)
    (ignored : op.PutsBack id → s.tables.IsIgnored id) (h : s.HandedOut id agent) :
    s'.HandedOut id agent := by
  obtain ⟨job, found, held, idle⟩ := h
  obtain ⟨later, hlater, fate⟩ := step.fate found
  have hid : job.id = id := JobTables.id_of_findJob? found
  cases fate with
  | same => exact ⟨_, hlater, held, idle⟩
  | retired => exact ⟨_, hlater, held, JobTables.not_isWaiting_of_ignored rfl⟩
  | advanced =>
    cases cause with
    | assigned _ _ waits => exact absurd waits idle
    | reported state now _ =>
      refine ⟨_, hlater, held, ?_⟩
      by_cases scheduled : state = .scheduled
      · -- the state says that the job waits, and the mark that it does not
        obtain ⟨marked, hmarked, mark⟩ := ignored ⟨hid, scheduled⟩
        rw [found, Option.some.injEq] at hmarked
        subst hmarked
        exact JobTables.not_isWaiting_of_ignored mark
      · exact JobTables.not_isWaiting_of_state scheduled
    | completed | cancelled => exact ⟨_, hlater, held, JobTables.not_isWaiting_of_state nofun⟩

/-- A job that an agent has goes to another agent, if at all, and never to nobody. -/
theorem Step.hasAgent (step : Step e s s') (cause : Causes op e) (h : s.HasAgent id) :
    s'.HasAgent id := by
  obtain ⟨job, agent, found, held⟩ := h
  obtain ⟨later, hlater, fate⟩ := step.fate found
  cases fate with
  | same | retired => exact ⟨_, agent, hlater, held⟩
  | advanced =>
    cases cause with
    | assigned other => exact ⟨_, other, hlater, rfl⟩
    | reported | completed | cancelled => exact ⟨_, agent, hlater, held⟩

/-! ## One operation -/

theorem HandedOut.perform (sound : s.Sound) (h : s.HandedOut id agent)
    (ignored : op.PutsBack id → s.tables.IsIgnored id) : (op.perform s).HandedOut id agent := by
  obtain ⟨events, recorded⟩ := exists_recorded sound op
  -- the mark has to be carried along, since an operation may be more than one step
  refine (recorded.journal.keeps
    (P := fun s => s.HandedOut id agent ∧ (op.PutsBack id → s.tables.IsIgnored id)) ?_ sound
    ⟨h, ignored⟩).1
  rintro e he s s' _ step ⟨held, mark⟩
  exact ⟨step.handedOut (recorded.caused e he) mark held, fun back => step.isIgnored (mark back)⟩

/-- A live job that is reported to be scheduled waits. -/
theorem not_handedOut_of_putsBack (sound : s.Sound) (found : s.tables.findJob? id = some job)
    (live : ¬ s.tables.IsIgnored id) (back : op.PutsBack id) :
    ¬ (op.perform s).HandedOut id agent := by
  cases op with
  | reportState other state now =>
    obtain ⟨rfl, rfl⟩ := back
    rintro ⟨later, hlater, _, idle⟩
    have reported : ((Operation.reportState other .scheduled now).perform s).tables.findJob? other
        = some (job.enter .scheduled now) := findJob?_of_report sound found nofun
    rw [reported, Option.some.injEq] at hlater
    subst hlater
    refine idle (JobTables.isWaiting_iff.mpr ⟨rfl, ?_⟩)
    exact Bool.eq_false_iff.mpr fun mark => live ⟨job, found, mark⟩
  | _ => cases back

/-- The job that an agent gets is stored with the agent, and is live. -/
theorem findJob?_of_assign (sound : s.Sound) (h : assign id agent now s = (.ok job, s')) :
    s'.tables.findJob? id = some job ∧ job.agent = some agent ∧ job.state = .assigned ∧
      job.ignored = false := by
  obtain ⟨w, cache, rfl, _⟩ := sound
  obtain ⟨old, found, waits, rfl, htables⟩ := assign_ok h
  have hid : old.id = id := JobTables.id_of_findJob? found
  refine ⟨?_, rfl, rfl, (JobTables.isWaiting_iff.mp waits).2⟩
  rw [htables, Workspace.withJob_tables, JobTables.findJob?_insertJob, if_pos (by exact hid)]

/-! ## Runs -/

/-- A job stays with its agent as long as it is not reported to be scheduled while it is live. The
induction is on the run from the right, where the last operation finds the state that the rest of the
run has left. -/
theorem HandedOut.after (sound : s.Sound) (h : s.HandedOut id agent) (ops : List Operation)
    (ignored : ∀ earlier op, earlier ++ [op] <+: ops → op.PutsBack id →
      (s.after earlier).tables.IsIgnored id) : (s.after ops).HandedOut id agent := by
  induction ops using List.reverseRecOn with
  | nil => exact h
  | append_singleton ops op ih =>
    have held : (s.after ops).HandedOut id agent := by
      refine ih ?_
      intro earlier other within
      exact ignored earlier other (within.trans (List.prefix_append ops [op]))
    rw [after_append]
    exact held.perform (sound.after ops) (ignored ops op (List.prefix_refl _))

theorem Sound.hasAgent_after (sound : s.Sound) (ops : List Operation) (h : s.HasAgent id) :
    (s.after ops).HasAgent id := by
  refine sound.keeps_after (P := fun s => s.HasAgent id) ops ?_ h
  intro op _ e s s' cause _ step
  exact step.hasAgent cause

/-- A job that is ignored is withheld for good. -/
theorem Sound.withheld_of_isIgnored (sound : s.Sound) (ignored : s.tables.IsIgnored id)
    (h : s.HasAgent id) : ∃ holder, ∀ more, (s.after more).Withheld id holder := by
  obtain ⟨job, holder, found, held⟩ := h
  obtain ⟨marked, hmarked, mark⟩ := ignored
  have same : marked = job := Option.some.inj (hmarked.symm.trans found)
  subst same
  have handed : s.HandedOut id holder := ⟨_, found, held, JobTables.not_isWaiting_of_ignored mark⟩
  refine ⟨holder, ?_⟩
  intro more
  refine (withheld_iff (sound.after more)).mpr (handed.after sound more ?_)
  intro earlier _ _ _
  exact sound.isIgnored_after earlier ⟨_, found, mark⟩

/-- Once an agent has got a job, nobody else gets it in the course of a run exactly if it is not
reported to be scheduled before it has been replaced. From the replacement on nobody gets it, whatever
is reported then or was reported before. -/
theorem assigned_job_withheld_iff (keys : OrderKeys) (ids : IdSource) (before : List Operation)
    (id : Uuid) (agent : String) (now : Instant) (job : JobInstance) (s : Scheduler)
    (assigned : assign id agent now ((fresh keys ids).after before) = (.ok job, s))
    (ops : List Operation) :
    ((∀ earlier, earlier <+: ops → (s.after earlier).Withheld id agent) ↔
      ∀ earlier op, earlier ++ [op] <+: ops → op.PutsBack id → id ∈ s.replacedIn earlier) ∧
    (id ∈ s.replacedIn ops → ∃ holder, ∀ more, (s.after (ops ++ more)).Withheld id holder) := by
  have hbefore : ((fresh keys ids).after before).Sound := sound_after_fresh keys ids before
  have performed : (Operation.assign id agent now).perform ((fresh keys ids).after before) = s :=
    congrArg Prod.snd assigned
  have sound : s.Sound := performed ▸ hbefore.perform (.assign id agent now)
  obtain ⟨found, held, state, live⟩ := findJob?_of_assign hbefore assigned
  have handed : s.HandedOut id agent :=
    ⟨job, found, held, JobTables.not_isWaiting_of_state (by rw [state]; decide)⟩
  -- the job is live at the outset, so it is replaced before it is ignored
  have ignored_iff : ∀ earlier, (s.after earlier).tables.IsIgnored id ↔ id ∈ s.replacedIn earlier := by
    intro earlier
    rw [sound.isIgnored_after_iff earlier found]
    exact or_iff_right (JobTables.not_isIgnored found live)
  refine ⟨⟨?_, ?_⟩, ?_⟩
  · -- a job that is put back while it is live waits right afterwards, which is within the run
    intro withheld earlier op within back
    by_contra notReplaced
    obtain ⟨stored, hstored, _⟩ :=
      (withheld earlier ((List.prefix_append earlier [op]).trans within)).refused
    have later := (withheld_iff (sound.after _)).mp (withheld _ within)
    rw [after_append] at later
    exact not_handedOut_of_putsBack (sound.after earlier) hstored
      (mt (ignored_iff earlier).mp notReplaced) back later
  · intro replaced earlier within
    refine (withheld_iff (sound.after earlier)).mpr (handed.after sound earlier ?_)
    intro sooner op hsooner back
    exact (ignored_iff sooner).mpr (replaced sooner op (hsooner.trans within) back)
  · intro replaced
    obtain ⟨holder, withheld⟩ := (sound.after ops).withheld_of_isIgnored
      ((ignored_iff ops).mpr replaced) (sound.hasAgent_after ops ⟨job, agent, found, held⟩)
    refine ⟨holder, ?_⟩
    intro more
    rw [after_append]
    exact withheld more

/-- A late report that a job is scheduled comes to nothing when the job has been replaced. -/
theorem replaced_job_withheld_from_late_report :
    let start := fresh (.startingAt 0) (.startingAt ⟨1⟩)
    let schedule : Operation :=
      .schedule (.single "studios" "mingle" "unit") "studios" 1 (some "1") none ⟨0, 0⟩
    let s := start.after [schedule, .assign ⟨1⟩ "agent-1" ⟨5, 0⟩]
    let ops : List Operation := [.reportState ⟨1⟩ .building ⟨6, 0⟩, .reschedule ⟨1⟩ ⟨7, 0⟩,
      .reportState ⟨1⟩ .scheduled ⟨8, 0⟩]
    (∀ earlier, earlier <+: ops → (s.after earlier).Withheld ⟨1⟩ "agent-1") ∧
      ∃ holder, ∀ more, (s.after (ops ++ more)).Withheld ⟨1⟩ holder := by
  intro start schedule s ops
  let job : JobInstance :=
    { id := ⟨1⟩, identifier := ⟨"studios", 1, "1", "mingle", 1, "unit"⟩, state := .assigned,
      result := .unknown, agent := some "agent-1", ignored := false, scheduleOrder := 1,
      scheduledAt := ⟨0, 0⟩, transitions := [⟨.scheduled, ⟨0, 0⟩⟩, ⟨.assigned, ⟨5, 0⟩⟩] }
  have assigned : assign ⟨1⟩ "agent-1" ⟨5, 0⟩ (start.after [schedule]) = (.ok job, s) := by rfl
  obtain ⟨withheld, forGood⟩ := assigned_job_withheld_iff (.startingAt 0) (.startingAt ⟨1⟩)
    [schedule] ⟨1⟩ "agent-1" ⟨5, 0⟩ job s assigned ops
  refine ⟨withheld.mpr ?_, forGood (by decide +kernel)⟩
  -- only the last report puts the job back
  rintro earlier op ⟨rest, within⟩ back
  dsimp only [ops] at within
  rcases earlier with _ | ⟨_, _ | ⟨_, _ | ⟨_, earlier⟩⟩⟩
  · cases within
    cases back.2
  · cases within
    cases back
  · cases within
    decide +kernel
  · simp at within

/-- A job that is being built is offered again when it is reported to be scheduled, and another agent
gets it. -/
theorem job_put_back_goes_to_another_agent :
    let s := (fresh (.startingAt 0) (.startingAt ⟨1⟩)).after
      [.schedule (.single "studios" "mingle" "unit") "studios" 1 (some "1") none ⟨0, 0⟩,
        .assign ⟨1⟩ "agent-1" ⟨5, 0⟩, .reportState ⟨1⟩ .building ⟨6, 0⟩]
    let back := s.after [.reportState ⟨1⟩ .scheduled ⟨7, 0⟩]
    (s.tables.findJob? ⟨1⟩).map (·.agent) = some (some "agent-1") ∧
      back.tables.waitingIds = [⟨1⟩] ∧
      ((back.after [.assign ⟨1⟩ "agent-2" ⟨8, 0⟩]).tables.findJob? ⟨1⟩).map (·.agent)
        = some (some "agent-2") := by
  refine ⟨?_, ?_, ?_⟩ <;> decide +kernel

end Scheduler

end BuildServer
