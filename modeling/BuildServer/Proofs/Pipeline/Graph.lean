import BuildServer.Pipeline.Graph
import Mathlib.Algebra.BigOperators.Group.List.Basic
import Mathlib.Algebra.GroupWithZero.Nat
import Mathlib.Data.List.GetD
/-!
# Places and edges

A graph comes about by adding nodes one by one. A node that refers to a place that is not there yet is
turned away, and the graph stays as it was.

So an edge leads to a smaller place, and every place that an edge leads to has a node. What follows
edges never looks past the end of the graph, and never for long: the number of paths that lead on from
a place is one more than the sum of those from the places its edges lead to.
-/

set_option autoImplicit false

namespace BuildServer.DependencyGraph

variable {g : DependencyGraph} {place u : Nat} {node : GraphNode}

/-- The graph after a pipeline was to be added behind the places it needs, whether it was or not. -/
def afterAdd (g : DependencyGraph) (add : PipelineConfig × List Nat) : DependencyGraph :=
  match g.addNode add.1 add.2 with
  | .ok (_, g') => g'
  | .error _ => g

/-- The graph after pipelines were to be added one after the other. -/
def afterAdds (g : DependencyGraph) (adds : List (PipelineConfig × List Nat)) : DependencyGraph :=
  adds.foldl afterAdd g

/-- The places that the edges of a place lead to, in the order of declaration. -/
def edges (g : DependencyGraph) (place : Nat) : List Nat := ((g.node? place).map (·.needs)).getD []

/-- The pipeline at a place. -/
def pipeline? (g : DependencyGraph) (place : Nat) : Option PipelineConfig :=
  (g.node? place).map (·.pipeline)

theorem edges_eq (h : g.node? place = some node) : g.edges place = node.needs := by
  rw [edges, h]
  rfl

theorem pipeline?_eq (h : g.node? place = some node) : g.pipeline? place = some node.pipeline := by
  rw [pipeline?, h]
  rfl

theorem lt_size (h : g.node? place = some node) : place < g.size := by
  rw [node?] at h
  exact (List.getElem?_eq_some_iff.mp h).1

theorem exists_node (h : place < g.size) : ∃ node, g.node? place = some node :=
  ⟨g.nodes[place], List.getElem?_eq_getElem h⟩

theorem lt_of_mem_needs (h : g.node? place = some node) (hu : u ∈ node.needs) : u < place :=
  g.needsFirst place node h u hu

/-- Every place that a node refers to has a node. -/
theorem exists_needed (h : g.node? place = some node) (hu : u ∈ node.needs) :
    ∃ needed, g.node? u = some needed :=
  exists_node (Nat.lt_trans (lt_of_mem_needs h hu) (lt_size h))

/-- An edge leads to a smaller place, and there is a node there. -/
theorem lt_of_mem_edges (hu : u ∈ g.edges place) : u < place := by
  rcases h : g.node? place with _ | node
  · rw [edges, h] at hu
    cases hu
  · rw [edges_eq h] at hu
    exact lt_of_mem_needs h hu

theorem map_some_filterMap {α β : Type} {f : α → Option β} {l : List α}
    (all : ∀ a ∈ l, ∃ b, f a = some b) : l.map f = (l.filterMap f).map some := by
  induction l with
  | nil => rfl
  | cons a l ih =>
    obtain ⟨b, hb⟩ := all a List.mem_cons_self
    rw [List.map_cons, List.filterMap_cons_some hb, List.map_cons, hb,
      ih fun a ha => all a (List.mem_cons_of_mem _ ha)]

/-- None of the places that a node refers to is left out. -/
theorem map_node?_needs (h : g.node? place = some node) :
    node.needs.map g.node? = (g.needsOf node).map some :=
  map_some_filterMap fun _ hu => exists_needed h hu

/-- The nodes that a node needs are those found at the places it refers to. -/
theorem needsOf_eq {needed : List GraphNode} (h : node.needs.map g.node? = needed.map some) :
    g.needsOf node = needed := by
  have found := congrArg (List.filterMap id) h
  simpa [needsOf, List.filterMap_map] using found

/-- A node that is needed stands at one of the places referred to. -/
theorem place_of_mem_needsOf {needed : GraphNode} (h : needed ∈ g.needsOf node) :
    ∃ u ∈ node.needs, g.node? u = some needed :=
  List.mem_filterMap.mp h

/-! ## The number of paths -/

theorem foldr_add_one (counts : List Nat) : counts.foldr (· + ·) 1 = 1 + counts.sum := by
  induction counts with
  | nil => rfl
  | cons count counts ih =>
    rw [List.foldr_cons, ih, List.sum_cons]
    omega

/-- Counts that were there stay. -/
theorem getD_pathCountsFrom {counts : List Nat} (nodes : List GraphNode) (h : u < counts.length) :
    (pathCountsFrom counts nodes).getD u 0 = counts.getD u 0 := by
  induction nodes generalizing counts with
  | nil => rfl
  | cons node nodes ih =>
    have longer :
        u < (counts ++ [(node.needs.map fun u => counts.getD u 0).foldr (· + ·) 1]).length := by
      rw [List.length_append]
      omega
    rw [pathCountsFrom, ih longer, List.getD_append _ _ _ _ h]

/-- The count of a node is made from the counts of the nodes before. -/
theorem getD_pathCountsFrom_node {counts : List Nat} {nodes : List GraphNode} {i : Nat}
    (h : nodes[i]? = some node) (before : ∀ u ∈ node.needs, u < counts.length + i) :
    (pathCountsFrom counts nodes).getD (counts.length + i) 0
      = (node.needs.map fun u => (pathCountsFrom counts nodes).getD u 0).foldr (· + ·) 1 := by
  induction nodes generalizing counts i with
  | nil => cases h
  | cons other nodes ih =>
    let count := (other.needs.map fun u => counts.getD u 0).foldr (· + ·) 1
    have length : (counts ++ [count]).length = counts.length + 1 := by
      rw [List.length_append, List.length_singleton]
    rcases i with _ | i
    · rw [List.getElem?_cons_zero, Option.some.injEq] at h
      subst h
      have same : (other.needs.map fun u => counts.getD u 0)
          = other.needs.map fun u => (pathCountsFrom counts (other :: nodes)).getD u 0 := by
        refine List.map_congr_left fun u hu => ?_
        exact (getD_pathCountsFrom _ (before u hu)).symm
      rw [← same, pathCountsFrom, getD_pathCountsFrom nodes (by simp)]
      simp
    · -- the count of the first node has joined the others, so there is one more of them
      rw [List.getElem?_cons_succ] at h
      have next := @ih (counts ++ [count]) i h (fun u hu => by have := before u hu; omega)
      rw [length, Nat.add_assoc, Nat.add_comm 1 i] at next
      exact next

/-- The paths that lead on from a node: the one without a step, and those that go on from a node it
needs. -/
theorem pathCount_eq (h : g.node? place = some node) :
    g.pathCount node = 1 + ((g.needsOf node).map g.pathCount).sum := by
  have count : ∀ {u : Nat} {needed : GraphNode}, g.node? u = some needed →
      (pathCountsFrom [] g.nodes).getD u 0 = g.pathCount needed := by
    intro u needed hu
    have before : ∀ v ∈ needed.needs, v < ([] : List Nat).length + u := by
      intro v hv
      have := lt_of_mem_needs hu hv
      rw [List.length_nil]
      omega
    have atNode := getD_pathCountsFrom_node hu before
    rw [List.length_nil, Nat.zero_add] at atNode
    rw [atNode, pathCount]
  have counts : (node.needs.map fun u => (pathCountsFrom [] g.nodes).getD u 0)
      = (g.needsOf node).map g.pathCount := by
    have needs := congrArg (List.map fun found => (found.map g.pathCount).getD 0) (map_node?_needs h)
    rw [List.map_map, List.map_map] at needs
    refine (List.map_congr_left fun u hu => ?_).trans needs
    obtain ⟨needed, hneeded⟩ := exists_needed h hu
    rw [count hneeded, Function.comp_apply, hneeded]
    rfl
  rw [pathCount, counts, foldr_add_one]

end BuildServer.DependencyGraph
