import BuildServer.Proofs.Pipeline.Graph
import Mathlib.Data.List.Forall2
import Mathlib.Data.List.Nodup
/-!
# The build queue, level by level

The work list of the expansion is a queue: what is taken off the front has been reached by paths of one
length, and what joins the end by paths that are one step longer. So the list is gone through in
rounds, one for each length, and each round puts out the paths of the next length in their order.

Two facts carry this. The paths that lead on from the nodes of the work list become one fewer with each
step, so the steps that are counted beforehand are enough. And every edge leads to a smaller place, so a
path has no more steps than its first place says, and the rounds come to an end.
-/

set_option autoImplicit false

namespace BuildServer.DependencyGraph

variable {g : DependencyGraph} {place u last depth steps : Nat} {node : GraphNode}
  {work later : List (GraphNode × List PipelineConfig)} {out : List QueueEntry}
  {path : List Nat} {paths : List (List Nat)}

/-! ## The loop -/

/-- The expansion of a work list comes to an end, and has put out these entries. In every step each
place that the node refers to is looked up and has a node. -/
inductive Expands (g : DependencyGraph) :
    List (GraphNode × List PipelineConfig) → List QueueEntry → Prop
  | done : Expands g [] []
  | step {node : GraphNode} {way : List PipelineConfig}
      {work : List (GraphNode × List PipelineConfig)} {needed : List GraphNode}
      {out : List QueueEntry} : node.needs.map g.node? = needed.map some →
      Expands g (work ++ needed.map fun u => (u, way ++ [node.pipeline])) out →
      Expands g ((node, way) :: work)
        (needed.map (fun u => ⟨u.pipeline, way ++ [node.pipeline] ++ [u.pipeline]⟩) ++ out)

/-- Every node on the work list is one of the graph. -/
def Stored (g : DependencyGraph) (work : List (GraphNode × List PipelineConfig)) : Prop :=
  ∀ item ∈ work, ∃ place, g.node? place = some item.1

/-- The number of paths that lead on from the nodes of the work list. -/
def pathsFrom (g : DependencyGraph) (work : List (GraphNode × List PipelineConfig)) : Nat :=
  (work.map fun item => g.pathCount item.1).sum

theorem pathsFrom_append (work later : List (GraphNode × List PipelineConfig)) :
    g.pathsFrom (work ++ later) = g.pathsFrom work + g.pathsFrom later := by
  rw [pathsFrom, List.map_append, List.sum_append, pathsFrom, pathsFrom]

/-- A node that is taken off the list leaves the paths that go on from it. -/
theorem pathsFrom_cons (h : g.node? place = some node) (way next : List PipelineConfig) :
    g.pathsFrom ((node, way) :: work)
      = 1 + g.pathsFrom (work ++ (g.needsOf node).map fun u => (u, next)) := by
  have rest : g.pathsFrom ((g.needsOf node).map fun u => (u, next))
      = ((g.needsOf node).map g.pathCount).sum := by
    rw [pathsFrom, List.map_map]
    rfl
  rw [pathsFrom_append, rest, pathsFrom, List.map_cons, List.sum_cons, pathCount_eq h, pathsFrom]
  omega

theorem Stored.head {way : List PipelineConfig} (stored : g.Stored ((node, way) :: work)) :
    ∃ place, g.node? place = some node :=
  stored (node, way) List.mem_cons_self

theorem Stored.next {way : List PipelineConfig} (stored : g.Stored ((node, way) :: work))
    (next : List PipelineConfig) :
    g.Stored (work ++ (g.needsOf node).map fun u => (u, next)) := by
  intro item hitem
  rcases List.mem_append.mp hitem with hwork | hnext
  · exact stored item (List.mem_cons_of_mem _ hwork)
  · obtain ⟨needed, hneeded, rfl⟩ := List.mem_map.mp hnext
    obtain ⟨u, _, found⟩ := place_of_mem_needsOf hneeded
    exact ⟨u, found⟩

/-- As many steps as there are paths take the work list to its end. -/
theorem expands_expand (stored : g.Stored work) (enough : g.pathsFrom work ≤ steps) :
    Expands g work (g.expand steps work) := by
  induction steps generalizing work with
  | zero =>
    rcases work with _ | ⟨⟨node, way⟩, work⟩
    · exact .done
    · obtain ⟨place, found⟩ := stored.head
      rw [pathsFrom_cons found way way] at enough
      omega
  | succ steps ih =>
    rcases work with _ | ⟨⟨node, way⟩, work⟩
    · exact .done
    · obtain ⟨place, found⟩ := stored.head
      rw [pathsFrom_cons found way (way ++ [node.pipeline])] at enough
      exact .step (map_node?_needs found) (ih (stored.next _) (by omega))

/-- The nodes that were gone through and those whose entries were put out are the same, but for those
that were on the list at the outset. -/
theorem Expands.length_eq (h : Expands g work out) (stored : g.Stored work) :
    out.length + work.length = g.pathsFrom work := by
  induction h with
  | done => rfl
  | @step node way work needed out found _ ih =>
    obtain ⟨place, hnode⟩ := stored.head
    obtain rfl := needsOf_eq found
    have rest := ih (stored.next _)
    rw [pathsFrom_cons hnode way (way ++ [node.pipeline])]
    rw [List.length_append, List.length_map] at rest
    rw [List.length_append, List.length_map, List.length_cons]
    omega

/-! ## Paths -/

/-- The path continued along each edge of its last place, in the order of declaration. -/
def extensions (g : DependencyGraph) (path : List Nat) : List (List Nat) :=
  match path.getLast? with
  | some last => (g.edges last).map fun u => path ++ [u]
  | none => []

/-- The paths that continue the given ones by a number of steps. Every round replaces each path, in
order, by its extensions. -/
def level (g : DependencyGraph) (paths : List (List Nat)) : Nat → List (List Nat)
  | 0 => paths
  | k + 1 => (g.level paths k).flatMap g.extensions

theorem extensions_concat (way : List Nat) (last : Nat) :
    g.extensions (way ++ [last]) = (g.edges last).map fun u => way ++ [last] ++ [u] := by
  rw [extensions, List.getLast?_concat]

theorem mem_extensions {longer : List Nat} (h : longer ∈ g.extensions path) :
    ∃ last u, path.getLast? = some last ∧ u ∈ g.edges last ∧ longer = path ++ [u] := by
  rcases hlast : path.getLast? with _ | last
  · rw [extensions, hlast] at h
    cases h
  · rw [extensions, hlast, List.mem_map] at h
    obtain ⟨u, hu, rfl⟩ := h
    exact ⟨last, u, rfl, hu, rfl⟩

theorem level_flatMap (paths : List (List Nat)) (k : Nat) :
    g.level (paths.flatMap g.extensions) k = g.level paths (k + 1) := by
  induction k with
  | zero => rfl
  | succ k ih =>
    rw [level, ih]
    rfl

/-- A path of so many steps ends that much further down. -/
theorem mem_level {k : Nat} (h : path ∈ g.level [[place]] k) :
    path.length = k + 1 ∧ ∃ last, path.getLast? = some last ∧ last + k ≤ place := by
  induction k generalizing path with
  | zero =>
    rw [level, List.mem_singleton] at h
    subst h
    exact ⟨rfl, place, rfl, Nat.le_refl _⟩
  | succ k ih =>
    rw [level, List.mem_flatMap] at h
    obtain ⟨shorter, hshorter, hpath⟩ := h
    obtain ⟨length, last, hlast, bound⟩ := ih hshorter
    obtain ⟨last', u, hlast', hu, rfl⟩ := mem_extensions hpath
    rw [hlast, Option.some.injEq] at hlast'
    subst hlast'
    have smaller := lt_of_mem_edges hu
    refine ⟨?_, u, List.getLast?_concat, by omega⟩
    rw [List.length_append, length, List.length_singleton]

/-- No path has more steps than its first place says. -/
theorem level_eq_nil {k : Nat} (h : place < k) : g.level [[place]] k = [] := by
  refine List.eq_nil_iff_forall_not_mem.mpr fun path hpath => ?_
  obtain ⟨_, last, _, bound⟩ := mem_level hpath
  omega

/-! ## Rounds -/

/-- The entry has the pipelines at the places of the path, and is about the last one. -/
structure Lists (g : DependencyGraph) (path : List Nat) (e : QueueEntry) : Prop where
  path : path.map g.pipeline? = e.path.map some
  pipeline : e.path.getLast? = some e.pipeline

/-- The item of the work list has the node at the last place of the path, and the pipelines at the
places before. -/
def StandsFor (g : DependencyGraph) (path : List Nat) (item : GraphNode × List PipelineConfig) : Prop :=
  ∃ way last, path = way ++ [last] ∧ g.node? last = some item.1 ∧ way.map g.pipeline? = item.2.map some

/-- The items that join the work list when one is taken off it. -/
def nextItems (g : DependencyGraph) (item : GraphNode × List PipelineConfig) :
    List (GraphNode × List PipelineConfig) :=
  (g.needsOf item.1).map fun u => (u, item.2 ++ [item.1.pipeline])

/-- The entry that is put out when an item joins the work list. -/
def entryOf (item : GraphNode × List PipelineConfig) : QueueEntry :=
  ⟨item.1.pipeline, item.2 ++ [item.1.pipeline]⟩

/-- What is ahead on the work list is gone through before what is behind it, which by then has been
joined by the items of the next round. -/
theorem Expands.round (h : Expands g (work ++ later) out) :
    ∃ rest, out = (work.flatMap g.nextItems).map entryOf ++ rest ∧
      Expands g (later ++ work.flatMap g.nextItems) rest := by
  induction work generalizing later out with
  | nil => exact ⟨out, rfl, by rwa [List.flatMap_nil, List.append_nil]⟩
  | cons item work ih =>
    rw [List.cons_append] at h
    cases h with
    | @step node way _ needed after found expands =>
      obtain rfl := needsOf_eq found
      -- what the item leads to joins behind `later`, which the induction leaves open
      rw [List.append_assoc] at expands
      obtain ⟨rest, rfl, hrest⟩ := ih expands
      refine ⟨rest, ?_, ?_⟩
      · rw [List.flatMap_cons, List.map_append, List.append_assoc, nextItems, List.map_map]
        rfl
      · rw [List.append_assoc] at hrest
        exact hrest

/-- When an item stands for a path, those that it leads to stand for the extensions of the path. -/
theorem StandsFor.next {item : GraphNode × List PipelineConfig} (h : g.StandsFor path item) :
    List.Forall₂ g.StandsFor (g.extensions path) (g.nextItems item) := by
  obtain ⟨way, last, rfl, found, hway⟩ := h
  have stands : ∀ u needed, g.node? u = some needed →
      g.StandsFor (way ++ [last] ++ [u]) (needed, item.2 ++ [item.1.pipeline]) := by
    intro u needed hu
    refine ⟨way ++ [last], u, rfl, hu, ?_⟩
    rw [List.map_append, List.map_append, hway, List.map_singleton, List.map_singleton,
      pipeline?_eq found]
  have both : List.Forall₂ (fun u needed => g.node? u = some needed) item.1.needs
      (g.needsOf item.1) := by
    have needs := map_node?_needs found
    have same : List.Forall₂ (· = ·) (item.1.needs.map g.node?) ((g.needsOf item.1).map some) := by
      rw [needs]
      exact List.forall₂_refl _
    rwa [List.forall₂_map_left_iff, List.forall₂_map_right_iff] at same
  rw [extensions_concat, edges_eq found, nextItems, List.forall₂_map_left_iff,
    List.forall₂_map_right_iff]
  exact both.imp stands

theorem StandsFor.lists {item : GraphNode × List PipelineConfig} (h : g.StandsFor path item) :
    g.Lists path (entryOf item) := by
  obtain ⟨way, last, rfl, found, hway⟩ := h
  constructor
  · rw [List.map_append, hway, List.map_singleton, pipeline?_eq found, entryOf, List.map_append,
      List.map_singleton]
  · exact List.getLast?_concat

/-- The rounds of the expansion put out the levels, one after the other. -/
theorem Expands.levels (h : Expands g work out) (stands : List.Forall₂ g.StandsFor paths work)
    (below : ∀ path ∈ paths, ∀ last, path.getLast? = some last → last < depth) :
    List.Forall₂ g.Lists ((List.range depth).flatMap fun k => g.level paths (k + 1)) out := by
  induction depth generalizing work out paths with
  | zero =>
    -- no path could end below the first place, so there is none, and nothing to be gone through
    cases stands with
    | nil =>
      cases h
      exact .nil
    | cons first _ =>
      obtain ⟨way, last, rfl, _⟩ := first
      have hlast := below _ List.mem_cons_self last List.getLast?_concat
      omega
  | succ depth ih =>
    rw [← List.append_nil work] at h
    obtain ⟨rest, rfl, hrest⟩ := h.round
    rw [List.nil_append] at hrest
    have next : List.Forall₂ g.StandsFor (paths.flatMap g.extensions) (work.flatMap g.nextItems) :=
      List.rel_flatMap stands fun _ _ => StandsFor.next
    have deeper : ∀ path ∈ paths.flatMap g.extensions, ∀ last, path.getLast? = some last →
        last < depth := by
      intro path hpath last hlast
      obtain ⟨shorter, hshorter, hpath⟩ := List.mem_flatMap.mp hpath
      obtain ⟨before, u, hbefore, hu, rfl⟩ := mem_extensions hpath
      rw [List.getLast?_concat, Option.some.injEq] at hlast
      have smaller := lt_of_mem_edges hu
      have bound := below shorter hshorter before hbefore
      omega
    have first : List.Forall₂ g.Lists (paths.flatMap g.extensions)
        ((work.flatMap g.nextItems).map entryOf) := by
      rw [List.forall₂_map_right_iff]
      exact next.imp fun _ _ => StandsFor.lists
    have others := ih hrest next deeper
    rw [List.range_succ_eq_map, List.flatMap_cons, List.flatMap_map]
    refine List.rel_append first ?_
    simpa only [level_flatMap] using others

/-! ## Every way once -/

/-- The path that leads on from a place along the edges at the given positions. -/
def along? (g : DependencyGraph) : (place : Nat) → (route : List Nat) → Option (List Nat)
  | place, [] => some [place]
  | place, i :: route =>
    ((g.edges place)[i]?).bind fun next => (g.along? next route).map (place :: ·)

/-- The number of edges by which a route goes on. -/
def choices (g : DependencyGraph) (place : Nat) (route : List Nat) : Nat :=
  ((g.along? place route).map fun path => (g.extensions path).length).getD 0

/-- The routes of so many steps from a place. -/
def routes (g : DependencyGraph) (place : Nat) : Nat → List (List Nat)
  | 0 => [[]]
  | k + 1 => (g.routes place k).flatMap fun route =>
    (List.range (g.choices place route)).map fun i => route ++ [i]

variable {route : List Nat} {k : Nat}

theorem extensions_cons (first : Nat) (h : path ≠ []) :
    g.extensions (first :: path) = (g.extensions path).map (first :: ·) := by
  obtain ⟨way, last, rfl⟩ := List.eq_nil_or_concat' path |>.resolve_left h
  rw [← List.cons_append, extensions_concat, extensions_concat, List.map_map]
  rfl

theorem along?_ne_nil (h : g.along? place route = some path) : path ≠ [] := by
  cases route with
  | nil =>
    rw [along?, Option.some.injEq] at h
    rw [← h]
    exact List.cons_ne_nil _ _
  | cons i route =>
    rw [along?, Option.bind_eq_some_iff] at h
    obtain ⟨next, _, h⟩ := h
    rw [Option.map_eq_some_iff] at h
    obtain ⟨rest, _, rfl⟩ := h
    exact List.cons_ne_nil _ _

/-- A route that goes on leads to one of the extensions of its path. -/
theorem along?_concat (route : List Nat) (i : Nat) :
    g.along? place (route ++ [i])
      = (g.along? place route).bind fun path => (g.extensions path)[i]? := by
  induction route generalizing place with
  | nil =>
    have single : g.extensions [place] = (g.edges place).map fun u => [place, u] :=
      extensions_concat [] place
    rw [List.nil_append, along?, along?, Option.bind_some, single, List.getElem?_map]
    rcases (g.edges place)[i]? with _ | u <;> rfl
  | cons j route ih =>
    rw [List.cons_append, along?, along?]
    rcases (g.edges place)[j]? with _ | next
    · rfl
    rw [Option.bind_some, Option.bind_some, ih]
    rcases hpath : g.along? next route with _ | path
    · rfl
    rw [Option.bind_some, Option.map_some, Option.bind_some,
      extensions_cons place (along?_ne_nil hpath), List.getElem?_map]

/-- A route goes down with every step. -/
theorem length_le_of_along? (h : g.along? place route = some path) : route.length ≤ place := by
  induction route generalizing place path with
  | nil => exact Nat.zero_le _
  | cons i route ih =>
    rw [along?, Option.bind_eq_some_iff] at h
    obtain ⟨next, hnext, h⟩ := h
    rw [Option.map_eq_some_iff] at h
    obtain ⟨rest, hrest, _⟩ := h
    have smaller := lt_of_mem_edges (List.mem_of_getElem? hnext)
    have shorter := ih hrest
    rw [List.length_cons]
    omega

theorem choices_eq (h : g.along? place route = some path) :
    g.choices place route = (g.extensions path).length := by
  rw [choices, h]
  rfl

/-- The routes of so many steps are those that can be gone to their end. -/
theorem mem_routes :
    route ∈ g.routes place k ↔ route.length = k ∧ ∃ path, g.along? place route = some path := by
  induction k generalizing route with
  | zero =>
    rw [routes, List.mem_singleton, List.length_eq_zero_iff]
    constructor
    · rintro rfl
      exact ⟨rfl, [place], rfl⟩
    · exact fun h => h.1
  | succ k ih =>
    rw [routes, List.mem_flatMap]
    constructor
    · rintro ⟨shorter, hshorter, hroute⟩
      obtain ⟨length, path, hpath⟩ := ih.mp hshorter
      obtain ⟨i, hi, rfl⟩ := List.mem_map.mp hroute
      rw [choices_eq hpath, List.mem_range] at hi
      refine ⟨by rw [List.length_append, length, List.length_singleton], (g.extensions path)[i], ?_⟩
      rw [along?_concat, hpath, Option.bind_some, List.getElem?_eq_getElem hi]
    · rintro ⟨length, longer, hlonger⟩
      obtain ⟨shorter, i, rfl⟩ : ∃ shorter i, route = shorter ++ [i] := by
        rcases List.eq_nil_or_concat' route with rfl | split
        · cases length
        · exact split
      rw [List.length_append, List.length_singleton] at length
      rw [along?_concat, Option.bind_eq_some_iff] at hlonger
      obtain ⟨path, hpath, hi⟩ := hlonger
      refine ⟨shorter, ih.mpr ⟨by omega, path, hpath⟩, List.mem_map.mpr ⟨i, ?_, rfl⟩⟩
      rw [choices_eq hpath, List.mem_range]
      exact (List.getElem?_eq_some_iff.mp hi).1

theorem nodup_routes (g : DependencyGraph) (place k : Nat) : (g.routes place k).Nodup := by
  induction k with
  | zero => exact List.nodup_singleton _
  | succ k ih =>
    rw [routes, List.nodup_flatMap]
    constructor
    · intro route _
      refine List.nodup_range.map fun i j same => ?_
      simpa using same
    · -- routes that differ go on to routes that differ
      refine ih.imp fun {route other} differ => ?_
      refine List.disjoint_left.mpr ?_
      intro longer hroute hother
      obtain ⟨i, _, rfl⟩ := List.mem_map.mp hroute
      obtain ⟨j, _, same⟩ := List.mem_map.mp hother
      exact differ (List.append_inj_left' same rfl).symm

/-- Routes and paths of so many steps correspond, in their order. -/
theorem routes_along (g : DependencyGraph) (place k : Nat) :
    List.Forall₂ (fun route path => g.along? place route = some path) (g.routes place k)
      (g.level [[place]] k) := by
  induction k with
  | zero => exact .cons rfl .nil
  | succ k ih =>
    refine List.rel_flatMap ih fun route path hpath => ?_
    rw [List.forall₂_map_left_iff, choices_eq hpath, List.forall₂_iff_get]
    refine ⟨List.length_range, ?_⟩
    intro i _ hi
    rw [along?_concat, hpath, Option.bind_some, List.get_eq_getElem, List.getElem_range,
      List.get_eq_getElem, List.getElem?_eq_getElem hi]

/-- A node of the graph needs finitely many edges to be gone through, and each way along them once. -/
theorem exists_routes (g : DependencyGraph) (place : Nat) :
    ∃ routes : List (List Nat), routes.Nodup ∧
      (∀ route, route ∈ routes ↔ route ≠ [] ∧ ∃ path, g.along? place route = some path) ∧
      List.Forall₂ (fun route path => g.along? place route = some path) routes
        ((List.range place).flatMap fun k => g.level [[place]] (k + 1)) := by
  refine ⟨(List.range place).flatMap fun k => g.routes place (k + 1), ?_, ?_, ?_⟩
  · -- routes of different lengths differ
    rw [List.nodup_flatMap]
    refine ⟨fun k _ => nodup_routes g place (k + 1), ?_⟩
    refine List.nodup_range.imp fun {k j} differ => ?_
    refine List.disjoint_left.mpr ?_
    intro route hk hj
    have length := (mem_routes.mp hk).1
    rw [(mem_routes.mp hj).1] at length
    omega
  · intro route
    rw [List.mem_flatMap]
    constructor
    · rintro ⟨k, _, hroute⟩
      obtain ⟨length, path, hpath⟩ := mem_routes.mp hroute
      refine ⟨?_, path, hpath⟩
      rintro rfl
      cases length
    · rintro ⟨nonempty, path, hpath⟩
      have bound := length_le_of_along? hpath
      have positive := List.length_pos_iff.mpr nonempty
      refine ⟨route.length - 1, List.mem_range.mpr (by omega), mem_routes.mpr ⟨by omega, path, hpath⟩⟩
  · have same : List.Forall₂ (· = ·) (List.range place) (List.range place) := List.forall₂_refl _
    refine List.rel_flatMap same ?_
    rintro k _ rfl
    exact routes_along g place (k + 1)

/-! ## The queue of a node -/

theorem stored_singleton (h : g.node? place = some node) : g.Stored [(node, [])] := by
  intro item hitem
  rw [List.mem_singleton] at hitem
  exact ⟨place, by rw [hitem, h]⟩

theorem pathsFrom_singleton (g : DependencyGraph) (node : GraphNode) :
    g.pathsFrom [(node, [])] = g.pathCount node := by
  rw [pathsFrom, List.map_singleton, List.sum_singleton]

theorem expands_buildQueue (h : g.node? place = some node) :
    Expands g [(node, [])] (g.buildQueue node) :=
  expands_expand (stored_singleton h) (Nat.le_of_eq (pathsFrom_singleton g node))

/-- The queue lists the paths of one step and more, level by level. -/
theorem buildQueue_lists (h : g.node? place = some node) :
    List.Forall₂ g.Lists ((List.range place).flatMap fun k => g.level [[place]] (k + 1))
      (g.buildQueue node) := by
  have stands : List.Forall₂ g.StandsFor [[place]] [(node, [])] :=
    .cons ⟨[], place, rfl, h, rfl⟩ .nil
  have below : ∀ path ∈ [[place]], ∀ last, path.getLast? = some last → last < place + 1 := by
    intro path hpath last hlast
    rw [List.mem_singleton] at hpath
    rw [hpath, List.getLast?_singleton, Option.some.injEq] at hlast
    omega
  have levels := (expands_buildQueue h).levels stands below
  rw [List.range_succ, List.flatMap_append, List.flatMap_singleton,
    level_eq_nil (Nat.lt_succ_self place), List.append_nil] at levels
  exact levels

/-- The queue has an entry for every path but the one without a step. -/
theorem length_buildQueue (h : g.node? place = some node) :
    (g.buildQueue node).length + 1 = g.pathCount node := by
  have length := (expands_buildQueue h).length_eq (stored_singleton h)
  rw [List.length_singleton, pathsFrom_singleton] at length
  exact length

/-- Every node that is needed has its own entry, and the entries of its queue. -/
theorem length_buildQueue_eq_sum (h : g.node? place = some node) :
    (g.buildQueue node).length = ((g.needsOf node).map fun u => 1 + (g.buildQueue u).length).sum := by
  have below : (g.needsOf node).map (fun u => 1 + (g.buildQueue u).length)
      = (g.needsOf node).map g.pathCount := by
    refine List.map_congr_left fun needed hneeded => ?_
    obtain ⟨u, _, found⟩ := place_of_mem_needsOf hneeded
    rw [Nat.add_comm, length_buildQueue found]
  have length := length_buildQueue h
  rw [pathCount_eq h] at length
  rw [below]
  omega

/-- Whatever was added to a graph, and whatever was turned away, the expansion of each of its nodes
comes to an end without looking up a place that is not there. The queue it gives is the row of the
levels: the path of the node alone is level zero, every further level replaces each path, in order, by
its extensions along the edges of its last place, and from some level on there is nothing left. Each
entry has the pipelines of its path and is about the last of them. Every way along edges, told apart by
the positions of the edges it takes, is one entry. So the queue of a node is as long as those of the
nodes it needs, with one more entry for each of these. -/
theorem buildQueue_level_order (adds : List (PipelineConfig × List Nat)) :
    let g := empty.afterAdds adds
    ∀ place node, g.node? place = some node →
      Expands g [(node, [])] (g.buildQueue node) ∧
      (∀ k, place < k → g.level [[place]] k = []) ∧
      let paths := (List.range place).flatMap fun k => g.level [[place]] (k + 1)
      List.Forall₂ g.Lists paths (g.buildQueue node) ∧
      (∃ routes : List (List Nat), routes.Nodup ∧
        (∀ route, route ∈ routes ↔ route ≠ [] ∧ ∃ path, g.along? place route = some path) ∧
        List.Forall₂ (fun route path => g.along? place route = some path) routes paths) ∧
      ∃ needed : List GraphNode, node.needs.map g.node? = needed.map some ∧
        (g.buildQueue node).length = (needed.map fun u => 1 + (g.buildQueue u).length).sum := by
  intro g place node h
  exact ⟨expands_buildQueue h, fun k hk => level_eq_nil hk, buildQueue_lists h, exists_routes g place,
    g.needsOf node, map_node?_needs h, length_buildQueue_eq_sum h⟩

/-- Two ways lead to a shared pipeline, and one of them is declared twice. -/
theorem diamond_queue :
    let pipeline (name : String) : PipelineConfig := { name, materials := [] }
    let adds := [(pipeline "a", []), (pipeline "b", [0]), (pipeline "x", [7]), (pipeline "c", [0]),
      (pipeline "d", [1, 2, 1])]
    let g := empty.afterAdds adds
    let root : GraphNode := { pipeline := pipeline "d", needs := [1, 2, 1] }
    g.node? 3 = some root ∧
      Expands g [(root, [])] (g.buildQueue root) ∧
      List.Forall₂ g.Lists [[3, 1], [3, 2], [3, 1], [3, 1, 0], [3, 2, 0], [3, 1, 0]]
        (g.buildQueue root) := by
  intro pipeline adds g root
  have found : g.node? 3 = some root := rfl
  have levels : ((List.range 3).flatMap fun k => g.level [[3]] (k + 1))
      = [[3, 1], [3, 2], [3, 1], [3, 1, 0], [3, 2, 0], [3, 1, 0]] := by decide
  obtain ⟨expands, _, lists, _⟩ := buildQueue_level_order adds 3 root found
  rw [← levels]
  exact ⟨found, expands, lists⟩

end BuildServer.DependencyGraph
