import BuildServer.Pipeline.Catalog
import BuildServer.Proofs.Pipeline.Resolve
import BuildServer.Proofs.Rows
import BuildServer.Proofs.Text.Names
import BuildServer.Server.Basic
/-!
# What the catalog keeps

A pipeline is taken in when its own graph can be built with it in place. That is enough for all of
them: a graph that passes through the pipeline that was replaced can still be built, since the new one
is grounded, and every other pipeline on it answers as before.

While a pipeline is tried out it is found under its name in any case of ASCII letters, and afterwards
under every name with the same small letters. No graph is built that could tell the two apart, since
a further spelling of the root closes a cycle before it is looked up.
-/

set_option autoImplicit false

namespace BuildServer

namespace Catalog

variable {c c' : Catalog} {p : PipelineConfig} {name : String}

theorem caseBlind_directory (c : Catalog) : c.directory.CaseBlind := by
  intro name other same
  have hfind : c.find? name = c.find? other := by rw [find?, find?, same]
  exact hfind

/-- A pipeline is taken in when its graph can be built, and then stored under its small letters. -/
theorem save_eq_ok (h : c.save p = (.ok (), c')) :
    (∃ g, DependencyGraph.resolve (c.overlay p) p.name = .ok g) ∧
      c' = ⟨putRow (·.1) (Text.lowercase p.name, p) c.entries⟩ := by
  rw [save] at h
  rcases hresolve : DependencyGraph.resolve (c.overlay p) p.name with e | g
  · rw [hresolve] at h
    cases h
  · rw [hresolve] at h
    cases h
    exact ⟨⟨g, rfl⟩, rfl⟩

/-- A pipeline that is turned away leaves the catalog as it was. -/
theorem save_eq_error {e : GraphError} (h : c.save p = (.error e, c')) : c' = c := by
  rw [save] at h
  rcases hresolve : DependencyGraph.resolve (c.overlay p) p.name with e | g
  · rw [hresolve] at h
    cases h
    rfl
  · rw [hresolve] at h
    cases h

/-- What is found once a pipeline has been taken in. -/
theorem find?_save (h : c.save p = (.ok (), c')) (name : String) :
    c'.find? name = if Text.lowercase p.name = Text.lowercase name then some p else c.find? name := by
  obtain ⟨_, rfl⟩ := save_eq_ok h
  exact lookup_putRow (Text.lowercase p.name) (Text.lowercase name) p c.entries

/-- Under names with other small letters nothing has changed. -/
theorem find?_save_other (h : c.save p = (.ok (), c'))
    (other : Text.lowercase name ≠ Text.lowercase p.name) : c'.find? name = c.find? name := by
  rw [find?_save h, if_neg (Ne.symm other)]

/-- A pipeline that is taken in is grounded in the catalog that has it. -/
theorem grounded_save (h : c.save p = (.ok (), c')) : c'.directory.Grounded p.name := by
  obtain ⟨⟨g, hresolve⟩, -⟩ := save_eq_ok h
  -- the answers differ only for the root: while it is tried out, and in its other spellings
  have tried : (c.overlay p).find? p.name = some p := if_pos (Text.sameName_self p.name)
  have stored : c'.directory.find? p.name = some p := (find?_save h p.name).trans (if_pos rfl)
  refine DependencyGraph.grounded_of_resolve (caseBlind_directory c') hresolve
    (stored.trans tried.symm) ?_
  intro name other
  have hname : ¬ p.hasName name = true := fun same =>
    other (Text.lowercase_eq_of_sameName same).symm
  exact (if_neg hname).trans (find?_save_other h other).symm

/-! ## Any number of saves -/

/-- What holds of the catalog whatever it is asked to take in. -/
structure Sound (c : Catalog) : Prop where
  /-- Every pipeline is stored under its name in small letters. -/
  keyed : ∀ key p, (key, p) ∈ c.entries → key = Text.lowercase p.name
  distinct : (c.entries.map (·.1)).Nodup
  grounded : ∀ key p, (key, p) ∈ c.entries → c.directory.Grounded p.name

theorem sound_empty : Sound empty where
  keyed _ _ h := by cases h
  distinct := List.nodup_nil
  grounded _ _ h := by cases h

theorem Sound.save (sound : c.Sound) (h : c.save p = (.ok (), c')) : c'.Sound := by
  have entries : c'.entries = putRow (·.1) (Text.lowercase p.name, p) c.entries :=
    congrArg Catalog.entries (save_eq_ok h).2
  constructor
  · intro key q hq
    rw [entries] at hq
    rcases mem_putRow hq with heq | hold
    · cases heq
      rfl
    · exact sound.keyed key q hold
  · rw [entries]
    exact nodup_putRow sound.distinct _
  · intro key q hq
    rw [entries] at hq
    rcases mem_putRow hq with heq | hold
    · cases heq
      exact grounded_save h
    · -- a graph through the pipeline that was replaced now goes through the new one
      exact (sound.grounded key q hold).replace (caseBlind_directory c') (grounded_save h)
        (fun name other => find?_save_other h other)

/-- The catalog after it was asked to take a pipeline in. -/
def afterSave (c : Catalog) (p : PipelineConfig) : Catalog := (c.save p).2

/-- The catalog after it was asked to take pipelines in one after the other. -/
def afterSaves (c : Catalog) (saves : List PipelineConfig) : Catalog := saves.foldl afterSave c

theorem Sound.afterSave (sound : c.Sound) (p : PipelineConfig) : (c.afterSave p).Sound := by
  rw [Catalog.afterSave]
  rcases h : c.save p with ⟨e | ⟨⟩, c'⟩
  · rw [save_eq_error h]
    exact sound
  · exact sound.save h

theorem Sound.afterSaves (sound : c.Sound) (saves : List PipelineConfig) :
    (c.afterSaves saves).Sound := by
  induction saves generalizing c with
  | nil => exact sound
  | cons p saves ih => exact ih (sound.afterSave p)

/-! ## Graphs of stored pipelines -/

/-- A stored pipeline is found under every spelling of its name. -/
theorem Sound.find?_eq (sound : c.Sound) {key : String} (stored : (key, p) ∈ c.entries)
    (spelled : Text.lowercase name = key) : c.find? name = some p := by
  rw [Catalog.find?, spelled]
  exact lookup_of_mem sound.distinct stored

theorem Sound.grounded_name (sound : c.Sound) {key : String} (stored : (key, p) ∈ c.entries)
    (spelled : Text.lowercase name = key) : c.directory.Grounded name :=
  (sound.grounded key p stored).spelled (caseBlind_directory c)
    (spelled.trans (sound.keyed key p stored))

/-- The graph of a stored pipeline can be built, and has the pipeline as its root. -/
theorem Sound.dependencyGraph_ok (sound : c.Sound) {key : String} (stored : (key, p) ∈ c.entries)
    (spelled : Text.lowercase name = key) :
    ∃ g root, c.dependencyGraph name = .ok g ∧ g.root? = some root ∧ root.pipeline = p := by
  obtain ⟨g, hg⟩ := DependencyGraph.resolve_ok (caseBlind_directory c)
    (sound.grounded_name stored spelled)
  obtain ⟨q, root, found, hroot, hpipeline⟩ := DependencyGraph.root_of_resolve hg
  have hfind : c.directory.find? name = some p := sound.find?_eq stored spelled
  rw [hfind, Option.some.injEq] at found
  exact ⟨g, root, hg, hroot, hpipeline.trans found.symm⟩

end Catalog

/-- What is shown of the root of a graph that can be built is shown. -/
theorem Server.atRoot_ok {α : Type} {s : Server} {name : String} {g : DependencyGraph}
    {root : GraphNode} (view : DependencyGraph → GraphNode → α)
    (hg : s.catalog.dependencyGraph name = .ok g) (hroot : g.root? = some root) :
    s.atRoot name view = .ok (view g root) := by
  rw [Server.atRoot, hg]
  dsimp only
  rw [hroot]

/-- A pipeline that the catalog turns away leaves the server as it was. -/
theorem Server.create_refused {s : Server} {p : PipelineConfig} {e : GraphError} {catalog : Catalog}
    (h : s.catalog.save p = (.error e, catalog)) : (s.create p).2 = s := by
  rw [Server.create, h]
  by_cases blank : Text.isAllBlank p.name = true
  · rw [if_pos blank]
  · rw [if_neg blank, Catalog.save_eq_error h]

/-- Whatever the catalog was asked to take in, every pipeline in it is stored under its name in small
letters, and under each spelling of the name its graph can be built, with the pipeline as its root:
everything it needs is found, and nothing needs itself. So the queue and the materials of the pipeline
are given to whoever asks. A pipeline that is turned away leaves the catalog as it was, and the server
that has it. -/
theorem stored_pipelines_resolve (saves : List PipelineConfig) :
    let c := Catalog.empty.afterSaves saves
    (∀ key p, (key, p) ∈ c.entries → key = Text.lowercase p.name ∧
      ∀ name, Text.lowercase name = key →
        (∃ g root, c.dependencyGraph name = .ok g ∧ g.root? = some root ∧ root.pipeline = p) ∧
        c.directory.Complete name ∧ c.directory.Acyclic name ∧
        ∀ (scheduler : Scheduler) (agents : AgentRegistry) (clock : Clock),
          let server : Server := { catalog := c, scheduler, agents }
          (∃ queue, (server.perform clock (.queue name)).1 = .ok queue) ∧
            ∃ materials, (server.perform clock (.materials name)).1 = .ok materials) ∧
      ∀ p e, (c.save p).1 = .error e → (c.save p).2 = c ∧
        ∀ (scheduler : Scheduler) (agents : AgentRegistry) (clock : Clock),
          let server : Server := { catalog := c, scheduler, agents }
          (server.perform clock (.createPipeline p)).2 = server := by
  intro c
  have sound : c.Sound := Catalog.sound_empty.afterSaves saves
  constructor
  · intro key p stored
    refine ⟨sound.keyed key p stored, ?_⟩
    intro name spelled
    have grounded := sound.grounded_name stored spelled
    obtain ⟨g, root, hg, hroot, hpipeline⟩ := sound.dependencyGraph_ok stored spelled
    refine ⟨⟨g, root, hg, hroot, hpipeline⟩, grounded.complete,
      grounded.acyclic (Catalog.caseBlind_directory c), ?_⟩
    intro scheduler agents clock server
    have hserver : server.catalog.dependencyGraph name = .ok g := hg
    exact ⟨⟨_, Server.atRoot_ok _ hserver hroot⟩, ⟨_, Server.atRoot_ok _ hserver hroot⟩⟩
  · intro p e refused
    have h : c.save p = (.error e, (c.save p).2) := Prod.ext refused rfl
    refine ⟨Catalog.save_eq_error h, ?_⟩
    intro scheduler agents clock server
    exact Server.create_refused h

end BuildServer
