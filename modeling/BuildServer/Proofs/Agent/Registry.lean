import BuildServer.Agent.Registry
/-!
# Reports of agents

A report that is taken leads to a snapshot under the identifier it came with. What the agent is said to
be doing is what it reports, unless it is held as cancelled: of the two places where a cancellation
could get lost, taking over the newer report keeps that of the older one, and the status that is
written last is only written where there is none.
-/

set_option autoImplicit false

namespace BuildServer.AgentRegistry

variable {r r' : AgentRegistry} {info merged known : AgentInfo} {uuid : String}

/-- The agent is held as cancelled. -/
def isCancelled (r : AgentRegistry) (uuid : String) : Bool :=
  (r.find? uuid).any (·.isCancelled)

theorem uuid_of_find? (h : r.find? uuid = some known) : known.uuid = uuid := by
  have found := List.find?_some h
  exact beq_iff_eq.mp found

@[simp] theorem uuid_merge (known info : AgentInfo) : (merge known info).uuid = known.uuid := rfl

/-- A cancellation that is known outlasts the report, and any other status gives way to it. -/
theorem status_merge (known info : AgentInfo) :
    (merge known info).status = if known.isCancelled then .cancelled else info.status := by
  simp only [merge, AgentInfo.update, AgentInfo.isCancelled, beq_iff_eq]
  by_cases newer : info.status = .cancelled
  · simp [newer]
  · simp [newer]

/-- A report that is taken is the first of its agent, or is merged into the snapshot that has no other
cookie. Nothing is known of other agents that was not known before. -/
theorem ping_ok_cases (h : r.ping info = (.ok merged, r')) :
    r'.agents = putRow (·.uuid) merged r.agents ∧
      ((r.find? info.uuid = none ∧ merged = info) ∨
        ∃ known, r.find? info.uuid = some known ∧ known.hasOtherCookie info.cookie = false ∧
          merged = merge known info) := by
  rw [ping] at h
  split at h
  · cases h
  rcases found : r.find? info.uuid with _ | known
  · simp only [found, Prod.mk.injEq, Except.ok.injEq] at h
    obtain ⟨rfl, rfl⟩ := h
    exact ⟨rfl, .inl ⟨rfl, rfl⟩⟩
  · simp only [found] at h
    split at h
    · cases h
    · rename_i same
      simp only [Prod.mk.injEq, Except.ok.injEq] at h
      obtain ⟨rfl, rfl⟩ := h
      exact ⟨rfl, .inr ⟨known, rfl, Bool.eq_false_iff.mpr same, rfl⟩⟩

/-- A report that is turned away leaves the registry as it was. -/
theorem ping_error {e : RegistryError} (h : r.ping info = (.error e, r')) : r' = r := by
  rw [ping] at h
  split at h
  · cases h
    rfl
  rcases found : r.find? info.uuid with _ | known
  · simp only [found] at h
    cases h
  · simp only [found] at h
    split at h
    · cases h
      rfl
    · cases h

/-- How a report that is taken comes out. -/
theorem ping_ok (h : r.ping info = (.ok merged, r')) :
    merged.uuid = info.uuid ∧
      merged.status = if r.isCancelled info.uuid then .cancelled else info.status := by
  obtain ⟨-, ⟨unknown, rfl⟩ | ⟨known, found, -, rfl⟩⟩ := ping_ok_cases h
  · simp [isCancelled, unknown]
  · rw [uuid_merge, uuid_of_find? found, status_merge, isCancelled, found, Option.any_some]
    exact ⟨rfl, rfl⟩

end BuildServer.AgentRegistry
