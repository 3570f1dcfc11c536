import BuildServer.Material.Revision
import BuildServer.Pipeline.Basic
/-!
# Dependency graphs

A graph is a list of nodes, each a pipeline with the places of the nodes it needs, in the order in
which the pipeline declares its dependencies. A node is added behind those it refers to, so every
place it names is smaller than its own and no graph has a cycle; this is part of the type.

The build queue of a node is its breadth-first expansion: one entry for every path that leads on
from it, so a pipeline that is reached twice occurs twice. The work list of the expansion takes as
many steps as there are paths, and their number is computed first, node by node from the front of
the graph. The analysis of materials instead visits every needed node once.
-/

set_option autoImplicit false

namespace BuildServer

/-- Why a graph could not be built (`GraphError`). -/
inductive GraphError where
  | unknownPipeline (name : String)
  /-- The names on the way from the root, the last of which stands on it before. -/
  | cycle (path : List String)
  | unknownNode (place : Nat)
  deriving DecidableEq, Repr

namespace GraphError

def message : GraphError → String
  | .unknownPipeline name => "Pipeline '" ++ name ++ "' is not configured"
  | .cycle path => "Cyclic pipeline dependency: " ++ " -> ".intercalate path
  | .unknownNode place => "Node " ++ toString place ++ " does not exist in the graph"

end GraphError

/-- A pipeline in a graph (`GraphNode`). -/
structure GraphNode where
  pipeline : PipelineConfig
  /-- The places of the nodes it depends on. -/
  needs : List Nat
  /-- The fingerprints of the pipeline's materials. -/
  fingerprints : List String := pipeline.fingerprints
  fingerprints_eq : fingerprints = pipeline.fingerprints := by rfl
  deriving DecidableEq

/-- Every node refers to nodes before it only. -/
def NeedsFirst (nodes : List GraphNode) : Prop :=
  ∀ (place : Nat) (node : GraphNode), nodes[place]? = some node → ∀ u ∈ node.needs, u < place

/-- A graph of pipelines and the pipelines they need (`DependencyGraph`). -/
structure DependencyGraph where
  nodes : List GraphNode
  needsFirst : NeedsFirst nodes

namespace DependencyGraph

theorem needsFirst_nil : NeedsFirst [] := by
  intro place node h
  simp at h

theorem needsFirst_append {nodes : List GraphNode} {node : GraphNode}
    (old : NeedsFirst nodes) (new : ∀ u ∈ node.needs, u < nodes.length) :
    NeedsFirst (nodes ++ [node]) := by
  intro place found h u hu
  rcases Nat.lt_trichotomy place nodes.length with hlt | heq | hgt
  · rw [List.getElem?_append_left hlt] at h
    exact old place found h u hu
  · subst heq
    rw [List.getElem?_concat_length] at h
    cases h
    exact new u hu
  · rw [List.getElem?_eq_none (by simp; omega)] at h
    cases h

def empty : DependencyGraph := ⟨[], needsFirst_nil⟩

/-- How many nodes there are. -/
def size (g : DependencyGraph) : Nat := g.nodes.length

def isEmpty (g : DependencyGraph) : Bool := g.nodes.isEmpty

/-- Adds a pipeline behind the nodes it needs, and gives its place (`DependencyGraph::add_node`). -/
def addNode (g : DependencyGraph) (pipeline : PipelineConfig) (needs : List Nat) :
    Except GraphError (Nat × DependencyGraph) :=
  if h : ∀ u ∈ needs, u < g.nodes.length then
    .ok (g.size, ⟨g.nodes ++ [{ pipeline, needs }], needsFirst_append g.needsFirst h⟩)
  else
    .error (.unknownNode ((needs.find? (g.nodes.length ≤ ·)).getD 0))

/-- The node at a place. -/
def node? (g : DependencyGraph) (place : Nat) : Option GraphNode := g.nodes[place]?

/-- The node that was added last (`DependencyGraph::root`). -/
def root? (g : DependencyGraph) : Option GraphNode := g.nodes.getLast?

/-- The first node of the named pipeline (`DependencyGraph::find`). -/
def find? (g : DependencyGraph) (name : String) : Option GraphNode :=
  g.nodes.find? (·.pipeline.hasName name)

/-- The nodes that a node needs, in the order of declaration (`NodeView::upstream`). -/
def needsOf (g : DependencyGraph) (node : GraphNode) : List GraphNode :=
  node.needs.filterMap g.node?

/-! ## The build queue -/

/-- A pipeline that a node needs, with the pipelines on the way to it, both ends included
(`QueueEntry`). -/
structure QueueEntry where
  pipeline : PipelineConfig
  path : List PipelineConfig
  deriving DecidableEq

namespace QueueEntry

def pathNames (e : QueueEntry) : List String := e.path.map (·.name)

/-- The named pipeline is on the way (`contains_pipeline_in_path`). -/
def passesThrough (e : QueueEntry) (name : String) : Bool := e.path.any (·.hasName name)

end QueueEntry

/-- The number of paths that lead on from each node, the one without a step included, where
`counts` are those of the nodes before. -/
def pathCountsFrom (counts : List Nat) : List GraphNode → List Nat
  | [] => counts
  | node :: rest =>
    let count := (node.needs.map fun u => counts.getD u 0).foldr (· + ·) 1
    pathCountsFrom (counts ++ [count]) rest

/-- The number of paths that lead on from the node. -/
def pathCount (g : DependencyGraph) (node : GraphNode) : Nat :=
  (node.needs.map fun u => (pathCountsFrom [] g.nodes).getD u 0).foldr (· + ·) 1

/-- Takes up to `steps` nodes off the front of the work list. Each comes with the pipelines on the
way to it, itself left out; the nodes it needs are put out and join the end of the list. -/
def expand (g : DependencyGraph) :
    (steps : Nat) → List (GraphNode × List PipelineConfig) → List QueueEntry
  | 0, _ | _, [] => []
  | steps + 1, (node, way) :: work =>
    let path := way ++ [node.pipeline]
    let needed := g.needsOf node
    needed.map (fun u => ⟨u.pipeline, path ++ [u.pipeline]⟩) ++
      expand g steps (work ++ needed.map fun u => (u, path))

/-- Everything that a node needs, nearest first and siblings in the order of declaration, with one entry
for every path (`NodeView::build_queue`). -/
def buildQueue (g : DependencyGraph) (node : GraphNode) : List QueueEntry :=
  g.expand (g.pathCount node) [(node, [])]

/-! ## Materials of what is needed -/

/-- Takes up to `steps` nodes off the front of the work list, and puts out the places needed by
them that were not seen before. -/
def visit (g : DependencyGraph) : (steps : Nat) → (seen : List Nat) → List GraphNode → List Nat
  | 0, seen, _ | _, seen, [] => seen
  | steps + 1, seen, node :: work =>
    let fresh := (node.needs.filter (!seen.contains ·)).eraseDups
    visit g steps (seen ++ fresh) (work ++ fresh.filterMap g.node?)

/-- The nodes that a node needs, directly or through others, each once, in breadth-first order. -/
def neededNodes (g : DependencyGraph) (node : GraphNode) : List GraphNode :=
  (g.visit (g.size + 1) [] [node]).filterMap g.node?

/-- The materials of the pipelines that a node needs, with their fingerprints (`upstream_materials`). -/
def neededMaterials (g : DependencyGraph) (node : GraphNode) : List (Material × String) :=
  (g.neededNodes node).flatMap fun u => u.pipeline.materials.zip u.fingerprints

/-- The materials of a node that no pipeline it needs has (`unshared_material_configs`). -/
def unsharedMaterials (g : DependencyGraph) (node : GraphNode) : List Material :=
  let needed := (g.neededMaterials node).map (·.2)
  ((node.pipeline.materials.zip node.fingerprints).filter
    fun (_, fingerprint) => !needed.contains fingerprint).map (·.1)

/-- The fingerprints of the materials of a node and of all pipelines it needs, each once
(`all_material_fingerprints`). -/
def allFingerprints (g : DependencyGraph) (node : GraphNode) : List String :=
  (node.fingerprints ++ (g.neededMaterials node).map (·.2)).eraseDups

/-- Every revision of a material that is not unshared is ignored by each needed material with the same
fingerprint (`is_revisions_of_shared_materials_ignored`). -/
def ignoresSharedRevisions [RegexLibrary] (g : DependencyGraph) (node : GraphNode)
    (revisions : Revisions) : Bool :=
  let unshared := (g.unsharedMaterials node).map (·.fingerprint)
  let needed := g.neededMaterials node
  (revisions.list.filter fun r => !unshared.contains r.fingerprint).all fun r =>
    (needed.filter fun (_, fingerprint) => fingerprint == r.fingerprint).all fun (m, _) =>
      r.isIgnoredBy m

end DependencyGraph

end BuildServer
