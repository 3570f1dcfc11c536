import BuildServer.Proofs.Pipeline.Catalog
import BuildServer.Proofs.Pipeline.Contents
import BuildServer.Proofs.Pipeline.Materials
/-!
# What a name means

The catalog finds a pipeline under every name with its small letters. A pipeline at hand, a
dependency and a graph compare names up to the case of the twenty-six ASCII letters, which tells
more names apart. So there are names under which a pipeline is found and which it does not have.

Beyond that the places agree. Whatever the catalog finds under a name is the only pipeline that can
have the name: two stored pipelines never share their small letters, and a graph of the catalog
has no pipeline but the stored ones, each at one node. Hence whether the pipeline has the name also
decides whether a dependency, a graph and the entries of its queues take the name for it.
-/

set_option autoImplicit false

namespace BuildServer

variable {c : Catalog} {g : DependencyGraph} {p : PipelineConfig} {name root : String}
  {known : List String} {place : Nat} {node start : GraphNode}

theorem Text.sameName_comm (a b : String) : Text.sameName a b = Text.sameName b a :=
  Bool.beq_comm

namespace Catalog

/-- A pipeline is found under no names but those with its small letters. -/
theorem Sound.lowercase_eq (sound : c.Sound) (found : c.find? name = some p) :
    Text.lowercase name = Text.lowercase p.name :=
  sound.keyed _ _ (mem_of_lookup_eq_some found)

/-- The only stored pipeline that may have a name is the one that is found under it. -/
theorem Sound.eq_of_hasName (sound : c.Sound) (found : c.find? name = some p) {q : PipelineConfig}
    {other : String} (stored : c.find? other = some q) (has : q.hasName name = true) : q = p := by
  have same : Text.lowercase other = Text.lowercase name :=
    (sound.lowercase_eq stored).trans (Text.lowercase_eq_of_sameName has)
  rw [find?, same] at stored
  rw [find?, stored, Option.some.injEq] at found
  exact found

end Catalog

namespace DependencyGraph

/-- A node of the graph has a name, and holds what is found under it. -/
theorem Represents.exists_name {find? : String → Option PipelineConfig}
    (h : Represents find? root g known) (hnode : g.node? place = some node) :
    ∃ name, known[place]? = some (Text.lowercase name) ∧ find? name = some node.pipeline := by
  have inside : place < known.length := by
    rw [h.size]
    exact lt_size hnode
  obtain ⟨name, _, spelled⟩ := (h.reached _).mp (List.getElem_mem inside)
  have stands : known[place]? = some (Text.lowercase name) := by
    rw [spelled, List.getElem?_eq_getElem inside]
  exact ⟨name, stands, h.found place node name hnode stands⟩

/-- The pipelines on the way of an entry are in the graph. -/
theorem exists_node_of_mem_path (hstart : start ∈ g.nodes) {e : QueueEntry}
    (he : e ∈ g.buildQueue start) (hp : p ∈ e.path) : ∃ node ∈ g.nodes, node.pipeline = p := by
  obtain ⟨place, hplace⟩ := List.getElem?_of_mem hstart
  obtain ⟨path, _, lists⟩ := exists_counterpart (buildQueue_lists hplace).flip he
  have hsome : some p ∈ path.map g.pipeline? := by
    rw [lists.path]
    exact List.mem_map_of_mem hp
  obtain ⟨u, _, hu⟩ := List.mem_map.mp hsome
  obtain ⟨node, hnode, rfl⟩ := Option.map_eq_some_iff.mp hu
  exact ⟨node, List.mem_of_getElem? hnode, rfl⟩

end DependencyGraph

namespace Catalog

open DependencyGraph

/-- A graph of the catalog holds stored pipelines only. -/
theorem exists_find?_of_mem_nodes (built : c.dependencyGraph root = .ok g) (hnode : node ∈ g.nodes) :
    ∃ other, c.find? other = some node.pipeline := by
  obtain ⟨known, represents⟩ := exists_represents (caseBlind_directory c) built
  obtain ⟨place, hplace⟩ := List.getElem?_of_mem hnode
  obtain ⟨other, _, found⟩ := represents.exists_name hplace
  exact ⟨other, found⟩

/-- A graph of the catalog has one node for a pipeline. -/
theorem Sound.node_unique (sound : c.Sound) (built : c.dependencyGraph root = .ok g)
    {other : GraphNode} (hnode : node ∈ g.nodes) (hother : other ∈ g.nodes)
    (same : node.pipeline = other.pipeline) : node = other := by
  obtain ⟨known, represents⟩ := exists_represents (caseBlind_directory c) built
  -- the name of a node is that of its pipeline, and no two nodes have the same
  have named : ∀ (place : Nat) (node : GraphNode), g.node? place = some node →
      known[place]? = some (Text.lowercase node.pipeline.name) := by
    intro place node hplace
    obtain ⟨name, stands, found⟩ := represents.exists_name hplace
    rw [stands, sound.lowercase_eq found]
  obtain ⟨u, hu⟩ := List.getElem?_of_mem hnode
  obtain ⟨v, hv⟩ := List.getElem?_of_mem hother
  have inside : u < known.length := by
    rw [represents.size]
    exact lt_size hu
  have places : u = v := by
    refine (List.getElem?_inj inside represents.distinct).mp ?_
    rw [named u node hu, named v other hv, same]
  rw [places, hv, Option.some.injEq] at hu
  exact hu.symm

/-- A graph finds the pipeline under the name exactly if the pipeline has the name. -/
theorem Sound.find?_graph (sound : c.Sound) (found : c.find? name = some p)
    (built : c.dependencyGraph root = .ok g) (hnode : node ∈ g.nodes) (holds : node.pipeline = p) :
    g.find? name = if p.hasName name then some node else none := by
  have only : ∀ other ∈ g.nodes, other.pipeline.hasName name = true → other = node := by
    intro other hother has
    obtain ⟨spelling, stored⟩ := exists_find?_of_mem_nodes built hother
    have same : other.pipeline = p := sound.eq_of_hasName found stored has
    exact sound.node_unique built hother hnode (same.trans holds.symm)
  rcases hfind : g.find? name with _ | other
  · have none_has := List.find?_eq_none.mp hfind node hnode
    rw [holds] at none_has
    rw [if_neg none_has]
  · have has : other.pipeline.hasName name = true :=
      List.find?_some (p := fun node : GraphNode => node.pipeline.hasName name) hfind
    have same := only other (List.mem_of_find?_eq_some hfind) has
    rw [same, holds] at has
    rw [if_pos has, same]

/-- An entry passes through the name exactly if the pipeline is on its way and has the name. -/
theorem Sound.passesThrough_iff (sound : c.Sound) (found : c.find? name = some p)
    (built : c.dependencyGraph root = .ok g) (hstart : start ∈ g.nodes) {e : QueueEntry}
    (he : e ∈ g.buildQueue start) :
    e.passesThrough name = true ↔ p ∈ e.path ∧ p.hasName name = true := by
  rw [QueueEntry.passesThrough, List.any_eq_true]
  constructor
  · rintro ⟨q, hq, has⟩
    obtain ⟨node, hnode, rfl⟩ := exists_node_of_mem_path hstart he hq
    obtain ⟨other, stored⟩ := exists_find?_of_mem_nodes built hnode
    have same : node.pipeline = p := sound.eq_of_hasName found stored has
    exact same ▸ ⟨hq, has⟩
  · exact fun ⟨hp, has⟩ => ⟨p, hp, has⟩

/-- Whatever was saved: where the catalog finds a pipeline under a name, whether the pipeline has the
name decides about every other place as well, namely whether a dependency on the name is one on the
pipeline, whether the graphs that contain the pipeline find its node, and whether the entries of
their queues that lead through it are said to. A pipeline whose name is in ASCII has exactly those of
the names that are in ASCII, too. -/
theorem places_agree_where_name_is_had (saves : List PipelineConfig) :
    let c := Catalog.empty.afterSaves saves
    ∀ name p, c.find? name = some p →
      (∀ stage, (Dependency.mk name stage).dependsOn p.name = p.hasName name) ∧
      (∀ root g, c.dependencyGraph root = .ok g → ∀ node ∈ g.nodes, node.pipeline = p →
        g.find? name = (if p.hasName name then some node else none) ∧
        ∀ start ∈ g.nodes, ∀ e ∈ g.buildQueue start,
          (e.passesThrough name = true ↔ p ∈ e.path ∧ p.hasName name = true)) ∧
      (Text.IsAscii p.name → (p.hasName name = true ↔ Text.IsAscii name)) := by
  intro c name p found
  have sound : c.Sound := Catalog.sound_empty.afterSaves saves
  refine ⟨fun stage => Text.sameName_comm name p.name, ?_, ?_⟩
  · intro root g built node hnode holds
    exact ⟨sound.find?_graph found built hnode holds,
      fun start hstart e he => sound.passesThrough_iff found built hstart he⟩
  · intro ascii
    refine ⟨fun has => Text.isAscii_of_sameName has ascii, fun asciiName => ?_⟩
    exact Text.sameName_of_lowercase_eq ascii asciiName (sound.lowercase_eq found).symm

/-- A pipeline with an accented capital in its name is found under the name in small letters. It does
not have that name, no dependency on the name is one on the pipeline, and the graph of a pipeline
that needs it neither finds it nor sees it on the way. -/
theorem accented_name_found_and_not_had :
    let p : PipelineConfig := { name := "É", materials := [] }
    let c := Catalog.empty.afterSaves
      [p, { name := "down", materials := [.dependency ⟨"É", "build"⟩] }]
    c.find? "é" = some p ∧ p.hasName "é" = false ∧
      (Dependency.mk "é" "build").dependsOn p.name = false ∧
      ∃ g node start e, c.dependencyGraph "down" = .ok g ∧ node ∈ g.nodes ∧ node.pipeline = p ∧
        g.find? "é" = none ∧ start ∈ g.nodes ∧ e ∈ g.buildQueue start ∧ p ∈ e.path ∧
        e.passesThrough "é" = false := by
  intro p c
  have found : c.find? "é" = some p := by decide +kernel
  have notHad : p.hasName "é" = false := by decide +kernel
  have notMeant : (Dependency.mk "é" "build").dependsOn p.name = false := by decide +kernel
  have missed : ((c.dependencyGraph "down").toOption.any fun g =>
      (g.find? "é").isNone && (g.nodes.any fun node => decide (node.pipeline = p)) &&
      g.nodes.any fun start => (g.buildQueue start).any fun e =>
        decide (p ∈ e.path) && !e.passesThrough "é") = true := by decide +kernel
  rcases built : c.dependencyGraph "down" with failure | g
  · rw [built] at missed
    cases missed
  rw [built] at missed
  simp only [Except.toOption, Option.any_some, Bool.and_eq_true, List.any_eq_true,
    decide_eq_true_eq, Bool.not_eq_true', Option.isNone_iff_eq_none] at missed
  obtain ⟨⟨absent, node, hnode, holds⟩, start, hstart, e, he, hp, unseen⟩ := missed
  exact ⟨found, notHad, notMeant, g, node, start, e, rfl, hnode, holds, absent, hstart, he, hp, unseen⟩

end Catalog

end BuildServer
