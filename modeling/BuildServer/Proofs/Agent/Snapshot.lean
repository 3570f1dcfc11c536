import BuildServer.Proofs.Agent.Registry
import BuildServer.Proofs.Rows
import BuildServer.Server.Basic
/-!
# What the registry knows about an agent

The snapshot of an agent sums up the reports that were taken from it. Its fields follow four rules: who
the agent is comes from the first report, the cookie from the first one that has a cookie, a single
cancellation decides the status for good, and everything else comes from the last report. Merging one
more report keeps all four, whichever of its fields it brings along, and a report is turned away exactly
where the rule of the cookie could not be kept or no location is given. So the rules hold after any
reports of any agents in any order, by induction over the reports.
-/

set_option autoImplicit false

namespace BuildServer

/-! ## Summing up reports -/

/-- The snapshot sums up the reports of an agent, the first one first. -/
structure AgentInfo.SumsUp (known : AgentInfo) (reports : List AgentInfo) : Prop where
  identifier : reports.head?.map (·.identifier) = some known.identifier
  cookie : reports.findSome? (·.cookie) = known.cookie
  /-- No report has another cookie. -/
  sameCookie : ∀ report ∈ reports, ∀ cookie, report.cookie = some cookie → known.cookie = some cookie
  /-- One cancellation outlasts all other reports. -/
  status : (if reports.any (·.isCancelled) then some .cancelled else reports.getLast?.map (·.status))
    = some known.status
  buildingInfo : reports.getLast?.map (·.buildingInfo) = some known.buildingInfo
  location : reports.getLast?.map (·.location) = some known.location
  usableSpace : reports.getLast?.map (·.usableSpace) = some known.usableSpace
  operatingSystem : reports.getLast?.map (·.operatingSystem) = some known.operatingSystem
  agentVersion : reports.getLast?.map (·.agentVersion) = some known.agentVersion
  bootstrapperVersion : reports.getLast?.map (·.bootstrapperVersion) = some known.bootstrapperVersion

namespace AgentInfo

variable {known info : AgentInfo} {reports : List AgentInfo}

/-- Both cookies are there, and they are not the same. -/
theorem hasOtherCookie_iff {cookie : Option String} : known.hasOtherCookie cookie = true ↔
    ∃ ours theirs, known.cookie = some ours ∧ cookie = some theirs ∧ ours ≠ theirs := by
  rcases hours : known.cookie with _ | ours
  · simp [hasOtherCookie, hours]
  rcases cookie with _ | theirs
  · simp [hasOtherCookie, hours]
  · simp [hasOtherCookie, hours]

/-- The first report of an agent is its own summary. -/
theorem sumsUp_first (info : AgentInfo) : info.SumsUp [info] where
  identifier := rfl
  cookie := by
    rw [List.findSome?_singleton]
  sameCookie report member cookie given := by
    rw [List.mem_singleton.mp member] at given
    exact given
  status := by
    rw [List.any_cons, List.any_nil, Bool.or_false]
    by_cases cancelled : info.isCancelled = true
    · rw [if_pos cancelled, ← beq_iff_eq.mp cancelled]
    · rw [if_neg cancelled]
      rfl
  buildingInfo := rfl
  location := rfl
  usableSpace := rfl
  operatingSystem := rfl
  agentVersion := rfl
  bootstrapperVersion := rfl

/-- The snapshot is cancelled exactly if a report was. -/
theorem SumsUp.isCancelled_eq (h : known.SumsUp reports) :
    known.isCancelled = reports.any (·.isCancelled) := by
  have status := h.status
  by_cases cancelled : reports.any (·.isCancelled) = true
  · rw [if_pos cancelled, Option.some.injEq] at status
    rw [cancelled, isCancelled, ← status]
    rfl
  · rw [if_neg cancelled, Option.map_eq_some_iff] at status
    obtain ⟨last, hlast, same⟩ := status
    -- the status is that of the last report, which is not one of a cancellation either
    have lastStatus : last.isCancelled = false := by
      rw [Bool.not_eq_true, List.any_eq_false] at cancelled
      exact Bool.eq_false_iff.mpr (cancelled last (List.mem_of_getLast? hlast))
    rw [Bool.eq_false_iff.mpr cancelled, isCancelled, ← same]
    exact lastStatus

/-- A cookie that is known outlasts the report. -/
theorem cookie_merge (known info : AgentInfo) :
    (AgentRegistry.merge known info).cookie = known.cookie.or info.cookie := by
  simp only [AgentRegistry.merge, AgentInfo.update, Option.orElse_eq_orElse, Option.orElse_eq_or]

/-- A report without another cookie goes into the summary by merging it. -/
theorem SumsUp.merge (h : known.SumsUp reports) (same : known.hasOtherCookie info.cookie = false) :
    (AgentRegistry.merge known info).SumsUp (reports ++ [info]) where
  identifier := by
    obtain ⟨first, hfirst, sameAgent⟩ := Option.map_eq_some_iff.mp h.identifier
    rw [List.head?_append, hfirst, Option.some_or, Option.map_some, sameAgent]
    rfl
  cookie := by
    rw [List.findSome?_append, h.cookie, List.findSome?_singleton, cookie_merge]
  sameCookie report member cookie given := by
    rw [cookie_merge]
    rcases List.mem_append.mp member with old | new
    · rw [h.sameCookie report old cookie given, Option.some_or]
    · rw [List.mem_singleton.mp new] at given
      rcases hours : known.cookie with _ | ours
      · rw [Option.none_or, given]
      · -- another cookie would have been turned away
        have agree : ours = cookie := by
          by_cases agree : ours = cookie
          · exact agree
          · exact absurd (hasOtherCookie_iff.mpr ⟨ours, cookie, hours, given, agree⟩)
              (Bool.eq_false_iff.mp same)
        rw [Option.some_or, agree]
  status := by
    rw [AgentRegistry.status_merge, h.isCancelled_eq, List.any_append, List.any_cons, List.any_nil,
      Bool.or_false, List.getLast?_concat]
    -- a cancellation stays; without one the last report has the say
    by_cases before : reports.any (·.isCancelled) = true
    · rw [before, Bool.true_or, if_pos rfl, if_pos rfl]
    · rw [Bool.not_eq_true] at before
      rw [before, Bool.false_or, if_neg Bool.false_ne_true]
      by_cases now : info.isCancelled = true
      · rw [if_pos now, ← beq_iff_eq.mp now]
      · rw [if_neg now]
        rfl
  buildingInfo := by rw [List.getLast?_concat]; rfl
  location := by rw [List.getLast?_concat]; rfl
  usableSpace := by rw [List.getLast?_concat]; rfl
  operatingSystem := by rw [List.getLast?_concat]; rfl
  agentVersion := by rw [List.getLast?_concat]; rfl
  bootstrapperVersion := by rw [List.getLast?_concat]; rfl

end AgentInfo

namespace AgentRegistry

variable {r r' : AgentRegistry} {info merged known : AgentInfo} {reports : List AgentInfo} {uuid : String}

/-! ## Reports one after the other -/

/-- The registry after a report, which may be turned away. -/
def afterReport (r : AgentRegistry) (info : AgentInfo) : AgentRegistry := (r.ping info).2

/-- The registry after reports. -/
def afterReports (r : AgentRegistry) (reports : List AgentInfo) : AgentRegistry :=
  reports.foldl afterReport r

/-- The reports that are taken when they come in one after the other. -/
def taken (r : AgentRegistry) : List AgentInfo → List AgentInfo
  | [] => []
  | info :: reports =>
    match r.ping info with
    | (.ok _, r') => info :: r'.taken reports
    | (.error _, r') => r'.taken reports

/-- The reports that are taken from one agent. -/
def takenFrom (r : AgentRegistry) (uuid : String) (reports : List AgentInfo) : List AgentInfo :=
  (r.taken reports).filter (·.uuid == uuid)

/-! ## One report -/

/-- A report is turned away without a location, or with another cookie than the one that is known. -/
theorem ping_error_iff : (∃ e, (r.ping info).1 = .error e) ↔ Text.isAllBlank info.location = true ∨
    ∃ known, r.find? info.uuid = some known ∧ known.hasOtherCookie info.cookie = true := by
  rw [ping]
  by_cases blank : Text.isAllBlank info.location = true
  · simp [blank]
  rcases found : r.find? info.uuid with _ | known
  · simp [blank]
  · by_cases other : known.hasOtherCookie info.cookie = true <;> simp [blank, other]

/-! ## What is kept -/

/-- The registry holds, agent by agent, the summary of the reports. -/
structure Holds (r : AgentRegistry) (reports : List AgentInfo) : Prop where
  distinct : (r.agents.map (·.uuid)).Nodup
  unknown : ∀ uuid, r.find? uuid = none → reports.filter (·.uuid == uuid) = []
  sumsUp : ∀ uuid known, r.find? uuid = some known → known.SumsUp (reports.filter (·.uuid == uuid))

theorem holds_empty : Holds {} [] where
  distinct := List.nodup_nil
  unknown _ _ := rfl
  sumsUp _ _ h := by cases h

/-- A report that is taken joins those that are summed up. -/
theorem Holds.ping (h : r.Holds reports) (ok : r.ping info = (.ok merged, r')) :
    r'.Holds (reports ++ [info]) := by
  obtain ⟨agents, outcome⟩ := ping_ok_cases ok
  have sameAgent : merged.uuid = info.uuid := (ping_ok ok).1
  have find (uuid : String) :
      r'.find? uuid = if info.uuid = uuid then some merged else r.find? uuid := by
    rw [AgentRegistry.find?, agents, find?_putRow, sameAgent]
    rfl
  -- the report joins those of its own agent and leaves those of all others alone
  have own : (reports ++ [info]).filter (·.uuid == info.uuid)
      = reports.filter (·.uuid == info.uuid) ++ [info] := by
    rw [List.filter_append, List.filter_cons_of_pos (by simp), List.filter_nil]
  have others (uuid : String) (other : info.uuid ≠ uuid) :
      (reports ++ [info]).filter (·.uuid == uuid) = reports.filter (·.uuid == uuid) := by
    rw [List.filter_append, List.filter_cons_of_neg (by simpa using other), List.filter_nil,
      List.append_nil]
  constructor
  · rw [agents]
    exact nodup_putRow h.distinct merged
  · intro uuid missing
    rw [find] at missing
    by_cases same : info.uuid = uuid
    · rw [if_pos same] at missing
      cases missing
    · rw [if_neg same] at missing
      rw [others uuid same]
      exact h.unknown uuid missing
  · intro uuid known found
    rw [find] at found
    by_cases same : info.uuid = uuid
    · subst same
      rw [if_pos rfl, Option.some.injEq] at found
      subst found
      rw [own]
      rcases outcome with ⟨missing, rfl⟩ | ⟨known, found, sameCookie, rfl⟩
      · rw [h.unknown merged.uuid missing]
        exact AgentInfo.sumsUp_first merged
      · exact (h.sumsUp info.uuid known found).merge sameCookie
    · rw [if_neg same] at found
      rw [others uuid same]
      exact h.sumsUp uuid known found

/-- Whatever is reported, what is held goes on to be the summary of what was taken. -/
theorem Holds.afterReports (h : r.Holds reports) (more : List AgentInfo) :
    (r.afterReports more).Holds (reports ++ r.taken more) := by
  induction more generalizing r reports with
  | nil =>
    rw [AgentRegistry.taken, List.append_nil]
    exact h
  | cons info more ih =>
    rw [AgentRegistry.afterReports, List.foldl_cons, afterReport, AgentRegistry.taken]
    -- a report that is turned away leaves registry and list as they are
    rcases outcome : r.ping info with ⟨e | merged, r'⟩
    · rw [ping_error outcome]
      exact ih h
    · have hrest := ih (h.ping outcome)
      rw [List.append_assoc] at hrest
      exact hrest

theorem holds_afterReports (reports : List AgentInfo) :
    (({} : AgentRegistry).afterReports reports).Holds (({} : AgentRegistry).taken reports) :=
  holds_empty.afterReports reports

theorem Holds.find?_eq_none_iff (h : r.Holds reports) :
    r.find? uuid = none ↔ reports.filter (·.uuid == uuid) = [] := by
  refine ⟨h.unknown uuid, ?_⟩
  intro nothing
  rcases found : r.find? uuid with _ | known
  · rfl
  · have identifier := (h.sumsUp uuid known found).identifier
    rw [nothing] at identifier
    cases identifier

/-! ## Lists -/

theorem listedBefore_iff {a b : AgentInfo} : listedBefore a b = true ↔
    a.identifier.hostname < b.identifier.hostname ∨
      a.identifier.hostname = b.identifier.hostname ∧ a.uuid ≤ b.uuid := by
  rw [listedBefore]
  by_cases same : a.identifier.hostname = b.identifier.hostname
  · rw [if_pos same, decide_eq_true_iff]
    constructor
    · exact fun order => .inr ⟨same, order⟩
    · rintro (less | ⟨-, order⟩)
      · rw [same] at less
        exact absurd less (String.lt_irrefl _)
      · exact order
  · rw [if_neg same, decide_eq_true_iff]
    simp [same]

theorem listedBefore_trans (a b c : AgentInfo) (hab : listedBefore a b = true)
    (hbc : listedBefore b c = true) : listedBefore a c = true := by
  rw [listedBefore_iff] at hab hbc ⊢
  rcases hab with hab | ⟨hab, uuidsAB⟩
  · rcases hbc with hbc | ⟨hbc, -⟩
    · exact .inl (String.lt_trans hab hbc)
    · exact .inl (hbc ▸ hab)
  · rcases hbc with hbc | ⟨hbc, uuidsBC⟩
    · exact .inl (hab ▸ hbc)
    · exact .inr ⟨hab.trans hbc, String.le_trans uuidsAB uuidsBC⟩

theorem listedBefore_total (a b : AgentInfo) : (listedBefore a b || listedBefore b a) = true := by
  rw [Bool.or_eq_true, listedBefore_iff, listedBefore_iff]
  by_cases before : a.identifier.hostname < b.identifier.hostname
  · exact .inl (.inl before)
  by_cases behind : b.identifier.hostname < a.identifier.hostname
  · exact .inr (.inl behind)
  have same : a.identifier.hostname = b.identifier.hostname :=
    String.le_antisymm (String.not_lt.mp behind) (String.not_lt.mp before)
  rcases String.le_total a.uuid b.uuid with le | le
  · exact .inl (.inr ⟨same, le⟩)
  · exact .inr (.inr ⟨same.symm, le⟩)

/-- Where no two agents have one identifier, an agent is listed exactly if it is found. -/
theorem mem_list (distinct : (r.agents.map (·.uuid)).Nodup) :
    known ∈ r.list ↔ r.find? known.uuid = some known := by
  rw [list, List.mem_mergeSort]
  exact ⟨find?_of_mem distinct, List.mem_of_find?_eq_some⟩

theorem nodup_list (distinct : (r.agents.map (·.uuid)).Nodup) : (r.list.map (·.uuid)).Nodup :=
  ((List.mergeSort_perm r.agents listedBefore).map (·.uuid)).nodup_iff.mpr distinct

/-- Where no two agents have one identifier, the list leaves no choice of order. -/
theorem pairwise_list (distinct : (r.agents.map (·.uuid)).Nodup) :
    r.list.Pairwise fun a b => a.identifier.hostname < b.identifier.hostname ∨
      a.identifier.hostname = b.identifier.hostname ∧ a.uuid < b.uuid := by
  have sorted := List.pairwise_mergeSort listedBefore_trans listedBefore_total r.agents
  have apart : r.list.Pairwise fun a b => a.uuid ≠ b.uuid :=
    List.pairwise_map.mp (nodup_list distinct)
  refine (sorted.and apart).imp ?_
  rintro a b ⟨before, different⟩
  rcases listedBefore_iff.mp before with hostname | ⟨hostname, le⟩
  · exact .inl hostname
  · refine .inr ⟨hostname, String.not_le.mp ?_⟩
    exact fun ge => different (String.le_antisymm le ge)

/-! ## Any reports -/

/-- Whatever was reported to an empty registry, an agent is known exactly if a report was taken from it,
and what is known sums up the reports that were taken. A further report is turned away exactly if it has
no location, or a cookie other than the first one that was taken from the agent; then the registry stays
as it was, and so does a server that has it. The list has every agent that is known once, by hostname
and then by identifier. -/
theorem snapshots_sum_up_reports (reports : List AgentInfo) :
    let r := ({} : AgentRegistry).afterReports reports
    let reportsOf := fun uuid => ({} : AgentRegistry).takenFrom uuid reports
    (∀ uuid, (r.find? uuid = none ↔ reportsOf uuid = []) ∧
        ∀ known, r.find? uuid = some known → known.SumsUp (reportsOf uuid)) ∧
      (∀ info, ((∃ e, (r.ping info).1 = .error e) ↔ Text.isAllBlank info.location = true ∨
          ∃ fixed given, (reportsOf info.uuid).findSome? (·.cookie) = some fixed ∧
            info.cookie = some given ∧ fixed ≠ given) ∧
        ∀ e, (r.ping info).1 = .error e → (r.ping info).2 = r ∧
          ∀ (catalog : Catalog) (scheduler : Scheduler) (clock : Clock),
            let server : Server := ⟨catalog, scheduler, r⟩
            (server.ping info clock).2 = server) ∧
      (∀ known, known ∈ r.list ↔ r.find? known.uuid = some known) ∧
      (r.list.map (·.uuid)).Nodup ∧
      r.list.Pairwise fun a b => a.identifier.hostname < b.identifier.hostname ∨
        a.identifier.hostname = b.identifier.hostname ∧ a.uuid < b.uuid := by
  intro r reportsOf
  have h : r.Holds (({} : AgentRegistry).taken reports) := holds_afterReports reports
  refine ⟨fun uuid => ⟨h.find?_eq_none_iff, h.sumsUp uuid⟩, ?_, fun _ => mem_list h.distinct,
    nodup_list h.distinct, pairwise_list h.distinct⟩
  intro info
  constructor
  · rw [ping_error_iff]
    refine or_congr_right ?_
    constructor
    · rintro ⟨known, found, other⟩
      obtain ⟨ours, theirs, hours, htheirs, different⟩ := AgentInfo.hasOtherCookie_iff.mp other
      exact ⟨ours, theirs, (h.sumsUp info.uuid known found).cookie.trans hours, htheirs, different⟩
    · rintro ⟨fixed, given, hfixed, hgiven, different⟩
      -- who has a cookie is known
      have found : r.find? info.uuid ≠ none := by
        intro missing
        rw [show reportsOf info.uuid = [] from h.find?_eq_none_iff.mp missing] at hfixed
        cases hfixed
      obtain ⟨known, hknown⟩ := Option.ne_none_iff_exists'.mp found
      have hours := (h.sumsUp info.uuid known hknown).cookie.symm.trans hfixed
      exact ⟨known, hknown, AgentInfo.hasOtherCookie_iff.mpr ⟨fixed, given, hours, hgiven, different⟩⟩
  · intro e refused
    have h : r.ping info = (.error e, (r.ping info).2) := Prod.ext refused rfl
    refine ⟨ping_error h, ?_⟩
    intro catalog scheduler clock server
    rw [Server.ping, show server.agents.ping info = (.error e, r) from ping_error h ▸ h]

end AgentRegistry

end BuildServer
