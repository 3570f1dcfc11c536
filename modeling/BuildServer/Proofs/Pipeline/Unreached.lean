import BuildServer.Proofs.Pipeline.Outcome
/-!
# Pipelines that are not reached

The search for a graph asks the directory for names that are reached from the root, and for no others.
So two directories that answer alike to these names give the same graph, with the same nodes at the same
places, or fail alike. They need not know equally many pipelines: the limits of the two searches are
different then, but both are large enough for either.

Taking in a pipeline changes the answers to the spellings of its name. The graph of a pipeline that
reaches none of them stays as it is, and since it reaches the same names as before, this can be repeated
for any number of pipelines that are taken in.
-/

set_option autoImplicit false

namespace BuildServer

namespace Directory

variable {d d' : Directory} {root needed other name : String}

/-- The second directory answers like the first one to every name that is reached from the root. -/
def AgreesFrom (d : Directory) (root : String) (d' : Directory) : Prop :=
  ∀ other, d.Reaches root other → d'.find? other = d.find? other

/-- The name is not reached from the root in any spelling with the same small letters. -/
def Avoids (d : Directory) (root name : String) : Prop :=
  ∀ other, d.Reaches root other → Text.lowercase other ≠ Text.lowercase name

namespace AgreesFrom

/-- What the root reaches includes what a name reaches that it needs. -/
theorem of_needs (agrees : d.AgreesFrom root d') (needs : d.Needs root needed) :
    d.AgreesFrom needed d' :=
  fun other reached => agrees other (reached.head needs)

theorem reaches_iff (agrees : d.AgreesFrom root d') : d'.Reaches root other ↔ d.Reaches root other := by
  constructor
  · intro reached
    induction reached with
    | refl => exact .refl
    | tail _ needs ih =>
      obtain ⟨p, found, hneeded⟩ := needs
      exact ih.tail ⟨p, (agrees _ ih).symm.trans found, hneeded⟩
  · intro reached
    induction reached with
    | refl => exact .refl
    | tail reached needs ih =>
      obtain ⟨p, found, hneeded⟩ := needs
      exact ih.tail ⟨p, (agrees _ reached).trans found, hneeded⟩

/-- Where the directories agree, the same names are avoided. -/
theorem avoids (agrees : d.AgreesFrom root d') (avoids : d.Avoids root name) : d'.Avoids root name :=
  fun other reached => avoids other (agrees.reaches_iff.mp reached)

end AgreesFrom

end Directory

namespace DependencyGraph

open Directory

variable {d d' : Directory} {root name : String} {limit : Nat} {way : List String} {draft : Draft}

/-- With a limit in common, what is followed comes out alike. -/
theorem follow_agrees (agrees : d.AgreesFrom name d') :
    follow d'.find? limit way name draft = follow d.find? limit way name draft := by
  -- the induction is on the limit, and at each name the directory is asked for that name alone
  induction limit generalizing way name draft with
  | zero => rfl
  | succ limit ih =>
    have here : d'.find? name = d.find? name := agrees name .refl
    cases meets d.find? way draft name with
    | placed placed => rw [follow_placed placed, follow_placed placed]
    | onWay unplaced on => rw [follow_on_way unplaced on, follow_on_way unplaced on]
    | missing unplaced off missing =>
      rw [follow_missing unplaced off missing, follow_missing unplaced off (here.trans missing)]
    | @found p unplaced off found =>
      rw [follow_found unplaced off found, follow_found unplaced off (here.trans found)]
      rw [followEach_congr fun needed hneeded => funext fun mid =>
        ih (agrees.of_needs ⟨p, found, hneeded⟩)]

/-- Directories that agree on what is reached from a name give it the same graph, or none for the same
reason. -/
theorem resolve_agrees (agrees : d.AgreesFrom root d') : resolve d' root = resolve d root := by
  have large : d.wayLimit ≤ d.wayLimit + d'.wayLimit := Nat.le_add_right _ _
  have large' : d'.wayLimit ≤ d.wayLimit + d'.wayLimit := Nat.le_add_left _ _
  have searched : follow d'.find? d'.wayLimit [] root {} = follow d.find? d.wayLimit [] root {} :=
    calc follow d'.find? d'.wayLimit [] root {}
      _ = follow d'.find? (d.wayLimit + d'.wayLimit) [] root {} :=
        follow_limit (.outset (Nat.le_refl _) root) (.outset large' root)
      _ = follow d.find? (d.wayLimit + d'.wayLimit) [] root {} := follow_agrees agrees
      _ = follow d.find? d.wayLimit [] root {} :=
        follow_limit (.outset large root) (.outset (Nat.le_refl _) root)
  rw [resolve, resolve, resolveWithin, resolveWithin, searched]

end DependencyGraph

namespace Catalog

variable {c c' : Catalog} {p : PipelineConfig} {name : String}

/-! ## Taking pipelines in -/

theorem agreesFrom_save (h : c.save p = (.ok (), c')) (avoids : c.directory.Avoids name p.name) :
    c.directory.AgreesFrom name c'.directory :=
  fun other reached => find?_save_other h (avoids other reached)

theorem agreesFrom_afterSave (avoids : c.directory.Avoids name p.name) :
    c.directory.AgreesFrom name (c.afterSave p).directory := by
  rw [afterSave]
  rcases h : c.save p with ⟨e | ⟨⟩, c'⟩
  · rw [save_eq_error h]
    exact fun _ _ => rfl
  · exact agreesFrom_save h avoids

/-- Whatever else the catalog is asked to take in, a graph changes only with the pipelines in it. -/
theorem dependencyGraph_afterSaves {later : List PipelineConfig}
    (avoids : ∀ p ∈ later, c.directory.Avoids name p.name) :
    (c.afterSaves later).dependencyGraph name = c.dependencyGraph name := by
  induction later generalizing c with
  | nil => rfl
  | cons p later ih =>
    obtain ⟨first, others⟩ := List.forall_mem_cons.mp avoids
    have agrees := agreesFrom_afterSave first
    calc (c.afterSaves (p :: later)).dependencyGraph name
      _ = (c.afterSave p).dependencyGraph name := ih fun q hq => agrees.avoids (others q hq)
      _ = c.dependencyGraph name := DependencyGraph.resolve_agrees agrees

end Catalog

/-- What a server has taken in after a pipeline was given to it that its catalog accepts. Pipelines
without a name are turned away before the catalog is asked. -/
theorem Server.catalog_create {s : Server} {p : PipelineConfig} {c' : Catalog}
    (h : s.catalog.save p = (.ok (), c')) :
    (s.create p).2.catalog = if Text.isAllBlank p.name = true then s.catalog else c' := by
  rw [Server.create, h]
  by_cases blank : Text.isAllBlank p.name = true
  · rw [if_pos blank, if_pos blank]
  · rw [if_neg blank, if_neg blank]

/-- Taking in a pipeline leaves every stored pipeline as it is that does not reach it: the pipeline is
still found, reaches the same names, and has the same graph, so that whatever is shown of the graph and
its root is shown as before. That is its queue, its unshared materials, its fingerprints, and whether
revisions of shared materials are ignored. -/
theorem unreached_pipeline_changes_nothing (saves : List PipelineConfig) :
    let c := Catalog.empty.afterSaves saves
    ∀ p c', c.save p = (.ok (), c') → ∀ key q, (key, q) ∈ c.entries →
      ∀ name, Text.lowercase name = key → c.directory.Avoids name p.name →
      c'.find? name = some q ∧
      (∀ other, c'.directory.Reaches name other ↔ c.directory.Reaches name other) ∧
      ∃ g root, c.dependencyGraph name = .ok g ∧ c'.dependencyGraph name = .ok g ∧
        g.root? = some root ∧ root.pipeline = q ∧
        ∀ (scheduler : Scheduler) (agents : AgentRegistry) (clock : Clock),
          let before : Server := { catalog := c, scheduler, agents }
          let after := (before.perform clock (.createPipeline p)).2
          ∀ (α : Type) (view : DependencyGraph → GraphNode → α),
            before.atRoot name view = .ok (view g root) ∧ after.atRoot name view = .ok (view g root) := by
  intro c p c' saved key q stored name spelled avoids
  have sound : c.Sound := Catalog.sound_empty.afterSaves saves
  -- The two catalogs answer alike wherever the search from `name` can come.
  have agrees := Catalog.agreesFrom_save saved avoids
  have found : c'.find? name = c.find? name := agrees name .refl
  obtain ⟨g, root, hg, hroot, hpipeline⟩ := sound.dependencyGraph_ok stored spelled
  have hg' : c'.dependencyGraph name = .ok g := (DependencyGraph.resolve_agrees agrees).trans hg
  refine ⟨found.trans (sound.find?_eq stored spelled), fun other => agrees.reaches_iff, g, root, hg, hg',
    hroot, hpipeline, ?_⟩
  intro scheduler agents clock before after α view
  have catalog : after.catalog.dependencyGraph name = .ok g := by
    have given : after.catalog = if Text.isAllBlank p.name = true then c else c' :=
      Server.catalog_create saved
    rw [given]
    split
    · exact hg
    · exact hg'
  exact ⟨Server.atRoot_ok view hg hroot, Server.atRoot_ok view catalog hroot⟩

/-- Of two pipelines that need the same one, one is replaced by a pipeline that needs the other. The graph
of the other, which is asked for in another spelling, is as before. -/
theorem left_kept_when_right_replaced :
    let base : PipelineConfig := { name := "base", materials := [.hg { url := ⟨"hg-url"⟩ } {}] }
    let left : PipelineConfig := { name := "Left", materials := [.dependency ⟨"base", "first"⟩] }
    let right : PipelineConfig := { name := "right", materials := [.dependency ⟨"base", "first"⟩] }
    let replaced : PipelineConfig := { name := "RIGHT", materials := [.dependency ⟨"left", "first"⟩] }
    let c : Catalog := ⟨[("base", base), ("left", left), ("right", right)]⟩
    let c' : Catalog := ⟨[("base", base), ("left", left), ("right", replaced)]⟩
    Catalog.empty.afterSaves [base, left, right] = c ∧ c.save replaced = (.ok (), c') ∧
      c.directory.Avoids "LEFT" "RIGHT" ∧
      ∃ g root, c.dependencyGraph "LEFT" = .ok g ∧ c'.dependencyGraph "LEFT" = .ok g ∧
        g.root? = some root ∧ root.pipeline = left := by
  intro base left right replaced c c'
  have built : Catalog.empty.afterSaves [base, left, right] = c := by
    dsimp only [c, base, left, right]
    rfl
  have saved : c.save replaced = (.ok (), c') := by
    dsimp only [c, c', base, left, right, replaced]
    rfl
  have stored : ("left", left) ∈ c.entries := List.mem_cons_of_mem _ List.mem_cons_self
  have avoids : c.directory.Avoids "LEFT" "RIGHT" := by
    -- only the pipeline itself and the one it needs are reached
    have reached : ∀ other, c.directory.Reaches "LEFT" other → other = "LEFT" ∨ other = "base" := by
      intro other reached
      induction reached with
      | refl => exact Or.inl rfl
      | tail _ needs ih =>
        obtain ⟨q, found, hneeded⟩ := needs
        rcases ih with rfl | rfl
        · cases found
          exact Or.inr (List.mem_singleton.mp hneeded)
        · cases found
          cases hneeded
    intro other way
    rcases reached other way with rfl | rfl
    · decide
    · decide
  have kept := unreached_pipeline_changes_nothing [base, left, right]
  rw [built] at kept
  obtain ⟨-, -, g, root, hg, hg', hroot, hpipeline, -⟩ :=
    kept replaced c' saved "left" left stored "LEFT" (by decide) avoids
  exact ⟨built, saved, avoids, g, root, hg, hg', hroot, hpipeline⟩

end BuildServer
