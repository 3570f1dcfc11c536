import BuildServer.Proofs.Pipeline.Queue
import BuildServer.Regex.Search
import Mathlib.Data.List.Perm.Subperm
import Mathlib.Logic.Relation
/-!
# Materials of what is needed

The visit of the needed nodes looks at each of them once, while the build queue has an entry for every
path that leads to it. Both come to the same nodes: those that edges lead to from the place they set out
from. What was seen is therefore closed under edges as soon as nothing is left on the work list, for a
place that is skipped has been seen before, and its edges are followed when its own turn comes.

So whatever is asked about the materials of needed nodes may be asked about the entries of the queue.
-/

set_option autoImplicit false

namespace BuildServer

/-- Of equal elements only one is left. -/
theorem nodup_eraseDups {α : Type} [BEq α] [LawfulBEq α] : (l : List α) → l.eraseDups.Nodup
  | [] => List.nodup_nil
  | a :: l => by
    rw [List.eraseDups_cons, List.nodup_cons, List.mem_eraseDups, List.mem_filter]
    exact ⟨by simp, nodup_eraseDups _⟩
  termination_by l => l.length
  decreasing_by exact Nat.lt_succ_of_le (List.length_filter_le _ l)

/-- Where two lists correspond, every element of the first has a counterpart. -/
theorem exists_counterpart {α β : Type} {R : α → β → Prop} {l : List α} {l' : List β} {a : α}
    (h : List.Forall₂ R l l') (ha : a ∈ l) : ∃ b ∈ l', R a b := by
  induction h with
  | nil => cases ha
  | cons first _ ih =>
    rcases List.mem_cons.mp ha with rfl | hrest
    · exact ⟨_, List.mem_cons_self, first⟩
    · obtain ⟨b, hb, related⟩ := ih hrest
      exact ⟨b, List.mem_cons_of_mem _ hb, related⟩

namespace DependencyGraph

variable {g : DependencyGraph} {place u v steps : Nat} {node : GraphNode} {seen : List Nat}
  {work : List GraphNode} {p : PipelineConfig} {m : Material} {fingerprint : String}

/-! ## Along edges -/

/-- Edges, one or more of them, lead from the first place to the second. -/
def LeadsOn (g : DependencyGraph) : Nat → Nat → Prop := Relation.TransGen fun u v => v ∈ g.edges u

theorem LeadsOn.lt (h : g.LeadsOn place u) : u < place := by
  induction h with
  | single edge => exact lt_of_mem_edges edge
  | tail _ edge ih => exact Nat.lt_trans (lt_of_mem_edges edge) ih

/-- The place that a path of some steps ends at is led on to, and every such place ends a path. -/
theorem leadsOn_iff_exists_path :
    g.LeadsOn place u ↔ ∃ k, ∃ path ∈ g.level [[place]] (k + 1), path.getLast? = some u := by
  constructor
  · intro h
    -- A chain of `k + 1` edges is a path of the queue's level `k + 1`, grown at its far end.
    induction h with
    | @single u edge =>
      refine ⟨0, [place, u], ?_, rfl⟩
      rw [level, level, List.flatMap_singleton]
      exact List.mem_map.mpr ⟨u, edge, rfl⟩
    | @tail u v _ edge ih =>
      obtain ⟨k, path, hpath, hlast⟩ := ih
      refine ⟨k + 1, path ++ [v], ?_, List.getLast?_concat⟩
      rw [level, List.mem_flatMap]
      refine ⟨path, hpath, ?_⟩
      rw [extensions, hlast]
      exact List.mem_map.mpr ⟨v, edge, rfl⟩
  · rintro ⟨k, path, hpath, hlast⟩
    induction k generalizing path u with
    | zero =>
      rw [level, level, List.flatMap_singleton] at hpath
      obtain ⟨first, v, hfirst, edge, rfl⟩ := mem_extensions hpath
      rw [List.getLast?_concat, Option.some.injEq] at hlast
      rw [List.getLast?_singleton, Option.some.injEq] at hfirst
      subst hlast hfirst
      exact .single edge
    | succ k ih =>
      rw [level, List.mem_flatMap] at hpath
      obtain ⟨shorter, hshorter, hpath⟩ := hpath
      obtain ⟨last, v, hbefore, edge, rfl⟩ := mem_extensions hpath
      rw [List.getLast?_concat, Option.some.injEq] at hlast
      subst hlast
      exact (ih shorter hshorter hbefore).tail edge

/-- An entry is about the pipeline at the end of its path. -/
theorem Lists.pipeline?_eq {path : List Nat} {e : QueueEntry} (h : g.Lists path e)
    (last : path.getLast? = some u) : g.pipeline? u = some e.pipeline := by
  have same := congrArg List.getLast? h.path
  rw [List.getLast?_map, List.getLast?_map, last, h.pipeline, Option.map_some, Option.map_some,
    Option.some.injEq] at same
  exact same

/-- The pipelines of the queue are those at the places that edges lead on to. -/
theorem mem_pipelines_buildQueue (h : g.node? place = some node) :
    p ∈ (g.buildQueue node).map (·.pipeline) ↔ ∃ u, g.LeadsOn place u ∧ g.pipeline? u = some p := by
  have lists := buildQueue_lists h
  rw [List.mem_map]
  constructor
  · rintro ⟨e, he, rfl⟩
    obtain ⟨path, hpath, hlists⟩ := exists_counterpart lists.flip he
    obtain ⟨k, _, hlevel⟩ := List.mem_flatMap.mp hpath
    obtain ⟨_, u, hlast, _⟩ := mem_level hlevel
    exact ⟨u, leadsOn_iff_exists_path.mpr ⟨k, path, hlevel, hlast⟩, hlists.pipeline?_eq hlast⟩
  · rintro ⟨u, leads, hu⟩
    obtain ⟨k, path, hlevel, hlast⟩ := leadsOn_iff_exists_path.mp leads
    have bound : k < place := by
      obtain ⟨_, last, _, bound⟩ := mem_level hlevel
      omega
    obtain ⟨e, he, hlists⟩ := exists_counterpart lists
      (List.mem_flatMap.mpr ⟨k, List.mem_range.mpr bound, hlevel⟩)
    refine ⟨e, he, ?_⟩
    rw [hlists.pipeline?_eq hlast, Option.some.injEq] at hu
    exact hu

/-! ## The visit -/

/-- The places that a node refers to and that were not seen before, each once. -/
def freshNeeds (seen : List Nat) (node : GraphNode) : List Nat :=
  (node.needs.filter (!seen.contains ·)).eraseDups

theorem visit_cons (g : DependencyGraph) (steps : Nat) (seen : List Nat) (node : GraphNode)
    (work : List GraphNode) :
    g.visit (steps + 1) seen (node :: work)
      = g.visit steps (seen ++ freshNeeds seen node)
          (work ++ (freshNeeds seen node).filterMap g.node?) := rfl

theorem mem_freshNeeds : u ∈ freshNeeds seen node ↔ u ∈ node.needs ∧ u ∉ seen := by
  rw [freshNeeds, List.mem_eraseDups, List.mem_filter, Bool.not_eq_true', List.contains_eq_mem,
    decide_eq_false_iff_not]

/-- What holds of a visit that set out from a place: each place was seen once and is led on to, what is
on the work list was seen, and the edges of the place and of all that were seen have been followed or
are still to be followed. -/
structure Visiting (g : DependencyGraph) (place : Nat) (seen : List Nat) (work : List GraphNode) :
    Prop where
  distinct : seen.Nodup
  reached : ∀ u ∈ seen, g.LeadsOn place u
  listed : ∀ node ∈ work, ∃ u, g.node? u = some node ∧ (u = place ∨ u ∈ seen)
  followed : ∀ u node, g.node? u = some node → u = place ∨ u ∈ seen →
    node ∈ work ∨ ∀ v ∈ node.needs, v ∈ seen

theorem visiting_start (h : g.node? place = some node) : g.Visiting place [] [node] where
  distinct := List.nodup_nil
  reached _ hu := absurd hu List.not_mem_nil
  listed other hother := ⟨place, by rw [List.mem_singleton.mp hother, h], Or.inl rfl⟩
  followed u other hother hu := by
    rcases hu with rfl | hu
    · rw [h, Option.some.injEq] at hother
      exact Or.inl (hother ▸ List.mem_cons_self)
    · exact absurd hu List.not_mem_nil

namespace Visiting

variable (h : g.Visiting place seen (node :: work))

include h

/-- What a node on the work list refers to is led on to. -/
theorem leadsOn_of_mem_needs (hv : v ∈ node.needs) : g.LeadsOn place v := by
  obtain ⟨u, hu, hseen⟩ := h.listed node List.mem_cons_self
  have edge : v ∈ g.edges u := by rw [edges_eq hu]; exact hv
  rcases hseen with rfl | hseen
  · exact .single edge
  · exact (h.reached u hseen).tail edge

theorem freshNeeds_found :
    (freshNeeds seen node).map g.node? = ((freshNeeds seen node).filterMap g.node?).map some := by
  obtain ⟨u, hu, _⟩ := h.listed node List.mem_cons_self
  exact map_some_filterMap fun v hv => exists_needed hu (mem_freshNeeds.mp hv).1

/-- A node that is taken off the work list has its edges followed, and those that it leads to for the
first time join the list. -/
theorem step : g.Visiting place (seen ++ freshNeeds seen node)
    (work ++ (freshNeeds seen node).filterMap g.node?) where
  distinct := by
    rw [List.nodup_append]
    refine ⟨h.distinct, nodup_eraseDups _, ?_⟩
    intro u hu v hv same
    exact (mem_freshNeeds.mp hv).2 (same ▸ hu)
  reached u hu := by
    rcases List.mem_append.mp hu with hseen | hfresh
    · exact h.reached u hseen
    · exact h.leadsOn_of_mem_needs (mem_freshNeeds.mp hfresh).1
  listed other hother := by
    rcases List.mem_append.mp hother with hwork | hfresh
    · obtain ⟨u, hu, hseen⟩ := h.listed other (List.mem_cons_of_mem _ hwork)
      exact ⟨u, hu, hseen.imp_right (List.mem_append_left _)⟩
    · obtain ⟨u, hu, found⟩ := List.mem_filterMap.mp hfresh
      exact ⟨u, found, Or.inr (List.mem_append_right _ hu)⟩
  followed u other hother hu := by
    -- a place that is seen for the first time waits for its turn, and that of `node` has just come
    by_cases hfresh : u ∈ freshNeeds seen node
    · exact Or.inl (List.mem_append_right _ (List.mem_filterMap.mpr ⟨u, hfresh, hother⟩))
    · have hseen : u = place ∨ u ∈ seen := by
        rcases hu with hplace | hseen
        · exact Or.inl hplace
        · exact Or.inr ((List.mem_append.mp hseen).resolve_right hfresh)
      rcases h.followed u other hother hseen with hlisted | hdone
      · rcases List.mem_cons.mp hlisted with rfl | hwork
        · right
          intro v hv
          by_cases hold : v ∈ seen
          · exact List.mem_append_left _ hold
          · exact List.mem_append_right _ (mem_freshNeeds.mpr ⟨hv, hold⟩)
        · exact Or.inl (List.mem_append_left _ hwork)
      · exact Or.inr fun v hv => List.mem_append_left _ (hdone v hv)

end Visiting

/-- No more places are seen than there are nodes. -/
theorem Visiting.length_le (h : g.Visiting place seen work) (inside : place < g.size) :
    seen.length ≤ g.size := by
  have range : seen ⊆ List.range g.size := fun u hu =>
    List.mem_range.mpr (Nat.lt_trans (h.reached u hu).lt inside)
  have length := (List.subperm_of_subset h.distinct range).length_le
  rwa [List.length_range] at length

/-- The visit comes to the end of its work list, where there is a step for each node on the list and
for each place not yet seen. -/
theorem Visiting.run (h : g.Visiting place seen work) (inside : place < g.size)
    (enough : work.length + (g.size - seen.length) ≤ steps) :
    g.Visiting place (g.visit steps seen work) [] := by
  induction steps generalizing seen work with
  | zero =>
    rcases work with _ | ⟨node, work⟩
    · exact h
    · rw [List.length_cons] at enough
      omega
  | succ steps ih =>
    rcases work with _ | ⟨node, work⟩
    · exact h
    · rw [visit_cons]
      refine ih h.step ?_
      have joined := congrArg List.length h.freshNeeds_found
      have room := h.step.length_le inside
      rw [List.length_map, List.length_map] at joined
      rw [List.length_append] at room
      rw [List.length_cons] at enough
      rw [List.length_append, List.length_append]
      omega

/-- When nothing is left on the work list, all that is led on to has been seen. -/
theorem Visiting.mem_iff (h : g.Visiting place seen []) : u ∈ seen ↔ g.LeadsOn place u := by
  refine ⟨h.reached u, fun leads => ?_⟩
  have closed : ∀ u v, u = place ∨ u ∈ seen → v ∈ g.edges u → v ∈ seen := by
    intro u v hu edge
    rcases found : g.node? u with _ | node
    · rw [edges, found] at edge
      cases edge
    · rw [edges_eq found] at edge
      exact ((h.followed u node found hu).resolve_left List.not_mem_nil) v edge
  induction leads with
  | single edge => exact closed _ _ (Or.inl rfl) edge
  | tail _ edge ih => exact closed _ _ (Or.inr ih) edge

/-- The places of the needed nodes, in the order in which they are visited. -/
def neededPlaces (g : DependencyGraph) (node : GraphNode) : List Nat := g.visit (g.size + 1) [] [node]

theorem visiting_neededPlaces (h : g.node? place = some node) :
    g.Visiting place (g.neededPlaces node) [] := by
  refine (visiting_start h).run (lt_size h) ?_
  rw [List.length_singleton, List.length_nil]
  omega

theorem map_node?_neededPlaces (h : g.node? place = some node) :
    (g.neededPlaces node).map g.node? = (g.neededNodes node).map some := by
  refine map_some_filterMap fun u hu => ?_
  exact exists_node (Nat.lt_trans ((visiting_neededPlaces h).reached u hu).lt (lt_size h))

/-- The visit comes to the pipelines of the queue, and to no others. -/
theorem mem_pipelines_neededNodes (h : g.node? place = some node) :
    p ∈ (g.neededNodes node).map (·.pipeline) ↔ p ∈ (g.buildQueue node).map (·.pipeline) := by
  rw [mem_pipelines_buildQueue h, List.mem_map]
  constructor
  · rintro ⟨needed, hneeded, rfl⟩
    obtain ⟨u, hu, found⟩ := List.mem_filterMap.mp hneeded
    exact ⟨u, (visiting_neededPlaces h).mem_iff.mp hu, pipeline?_eq found⟩
  · rintro ⟨u, leads, hu⟩
    obtain ⟨needed, found, rfl⟩ := Option.map_eq_some_iff.mp hu
    exact ⟨needed, List.mem_filterMap.mpr ⟨u, (visiting_neededPlaces h).mem_iff.mpr leads, found⟩, rfl⟩

/-! ## Materials -/

/-- A node carries the fingerprints of its materials beside them. -/
theorem zip_fingerprints (node : GraphNode) :
    node.pipeline.materials.zip node.fingerprints
      = node.pipeline.materials.map fun m => (m, m.fingerprint) := by
  rw [node.fingerprints_eq, PipelineConfig.fingerprints, List.map_prod_left_eq_zip]

/-- The needed materials are those of the pipelines of the queue, each with its own fingerprint. -/
theorem mem_neededMaterials (h : g.node? place = some node) :
    (m, fingerprint) ∈ g.neededMaterials node ↔
      m.fingerprint = fingerprint ∧ ∃ e ∈ g.buildQueue node, m ∈ e.pipeline.materials := by
  have queued : (∃ needed ∈ g.neededNodes node, m ∈ needed.pipeline.materials) ↔
      ∃ e ∈ g.buildQueue node, m ∈ e.pipeline.materials := by
    constructor
    · rintro ⟨needed, hneeded, hm⟩
      obtain ⟨e, he, same⟩ := List.mem_map.mp
        ((mem_pipelines_neededNodes h).mp (List.mem_map_of_mem hneeded))
      exact ⟨e, he, same ▸ hm⟩
    · rintro ⟨e, he, hm⟩
      obtain ⟨needed, hneeded, same⟩ := List.mem_map.mp
        ((mem_pipelines_neededNodes h).mpr (List.mem_map_of_mem he))
      exact ⟨needed, hneeded, same ▸ hm⟩
  rw [← queued, neededMaterials, List.mem_flatMap]
  simp only [zip_fingerprints, List.mem_map, Prod.mk.injEq]
  constructor
  · rintro ⟨needed, hneeded, m, hm, rfl, rfl⟩
    exact ⟨rfl, needed, hneeded, hm⟩
  · rintro ⟨rfl, needed, hneeded, hm⟩
    exact ⟨needed, hneeded, m, hm, rfl, rfl⟩

/-- The fingerprints that a node needs are those of the materials of the queue. -/
theorem mem_neededFingerprints (h : g.node? place = some node) :
    fingerprint ∈ (g.neededMaterials node).map (·.2) ↔
      ∃ e ∈ g.buildQueue node, ∃ m ∈ e.pipeline.materials, m.fingerprint = fingerprint := by
  rw [List.mem_map]
  constructor
  · rintro ⟨⟨m, fingerprint⟩, hmem, rfl⟩
    obtain ⟨same, e, he, hm⟩ := (mem_neededMaterials h).mp hmem
    exact ⟨e, he, m, hm, same⟩
  · rintro ⟨e, he, m, hm, same⟩
    exact ⟨(m, fingerprint), (mem_neededMaterials h).mpr ⟨same, e, he, hm⟩, rfl⟩

/-- What is unshared is left of the materials of a node when those are struck out that some pipeline of
the queue has as well. -/
theorem unsharedMaterials_eq (h : g.node? place = some node) :
    g.unsharedMaterials node = node.pipeline.materials.filter fun m =>
      ∀ e ∈ g.buildQueue node, ∀ other ∈ e.pipeline.materials, other.fingerprint ≠ m.fingerprint := by
  rw [unsharedMaterials, zip_fingerprints, List.filter_map, List.map_map]
  refine (List.map_id _).trans (List.filter_congr fun m _ => ?_)
  rw [Function.comp_apply, Bool.eq_iff_iff, Bool.not_eq_true', List.contains_eq_mem,
    decide_eq_false_iff_not, mem_neededFingerprints h, decide_eq_true_iff]
  simp only [not_exists, not_and]

/-- All fingerprints are those of the node and those of the queue. -/
theorem mem_allFingerprints (h : g.node? place = some node) :
    fingerprint ∈ g.allFingerprints node ↔
      (∃ m ∈ node.pipeline.materials, m.fingerprint = fingerprint) ∨
        ∃ e ∈ g.buildQueue node, ∃ m ∈ e.pipeline.materials, m.fingerprint = fingerprint := by
  rw [allFingerprints, List.mem_eraseDups, List.mem_append, mem_neededFingerprints h,
    node.fingerprints_eq, PipelineConfig.fingerprints, List.mem_map]

/-- Whatever was added to a graph, and whatever was turned away: the visit of the needed nodes comes to
each place once at which a path of the queue ends, and so to the pipelines of the queue. A material of
the node is unshared if no material of a pipeline in the queue has its fingerprint, and all fingerprints
are those of the node's own materials and of the materials of the queue. -/
theorem needed_materials_are_those_of_queue (adds : List (PipelineConfig × List Nat)) :
    let g := empty.afterAdds adds
    ∀ place node, g.node? place = some node →
      (∃ places : List Nat, places.Nodup ∧
        places.map g.node? = (g.neededNodes node).map some ∧
        ∀ u, u ∈ places ↔ ∃ k, ∃ path ∈ g.level [[place]] (k + 1), path.getLast? = some u) ∧
      (∀ p, p ∈ (g.neededNodes node).map (·.pipeline) ↔ p ∈ (g.buildQueue node).map (·.pipeline)) ∧
      g.unsharedMaterials node = (node.pipeline.materials.filter fun m =>
        ∀ e ∈ g.buildQueue node, ∀ other ∈ e.pipeline.materials,
          other.fingerprint ≠ m.fingerprint) ∧
      (g.allFingerprints node).Nodup ∧
      ∀ fingerprint, fingerprint ∈ g.allFingerprints node ↔
        (∃ m ∈ node.pipeline.materials, m.fingerprint = fingerprint) ∨
          ∃ e ∈ g.buildQueue node, ∃ m ∈ e.pipeline.materials, m.fingerprint = fingerprint := by
  intro g place node h
  have visited := visiting_neededPlaces h
  refine ⟨⟨g.neededPlaces node, visited.distinct, map_node?_neededPlaces h, ?_⟩,
    fun p => mem_pipelines_neededNodes h, unsharedMaterials_eq h, nodup_eraseDups _,
    fun fingerprint => mem_allFingerprints h⟩
  intro u
  rw [visited.mem_iff, leadsOn_iff_exists_path]

/-- Two ways lead to the pipeline that shares a repository with the root. The visit goes through it
once, and the root's own checkout of the repository, into another folder, is not unshared. -/
theorem diamond_shares_repository :
    let repository : Material := .hg { url := ⟨"hg-url"⟩ } {}
    let base : PipelineConfig :=
      { name := "base", materials := [repository.withFolder "one", .git { url := ⟨"url"⟩ } {}] }
    let left : PipelineConfig := { name := "left", materials := [.dependency ⟨"base", "build"⟩] }
    let right : PipelineConfig := { name := "right", materials := [.dependency ⟨"base", "build"⟩] }
    let root : GraphNode :=
      { pipeline := { name := "root", materials := [repository.withFolder "other"] }, needs := [1, 2] }
    let g := empty.afterAdds
      [(base, []), (left, [0]), (right, [0]), (left, [9]), (root.pipeline, [1, 2])]
    g.node? 3 = some root ∧ base ∈ (g.neededNodes root).map (·.pipeline) ∧
      g.unsharedMaterials root = [] ∧ repository.fingerprint ∈ g.allFingerprints root := by
  intro repository base left right root g
  have found : g.node? 3 = some root := rfl
  obtain ⟨_, pipelines, unshared, _, all⟩ := needed_materials_are_those_of_queue _ 3 root found
  have edge : 1 ∈ g.edges 3 := List.mem_cons_self
  have onward : 0 ∈ g.edges 1 := List.mem_cons_self
  have queued : base ∈ (g.buildQueue root).map (·.pipeline) :=
    (mem_pipelines_buildQueue found).mpr ⟨0, .tail (.single edge) onward, rfl⟩
  refine ⟨found, (pipelines base).mpr queued, ?_, ?_⟩
  · obtain ⟨e, he, same⟩ := List.mem_map.mp queued
    refine unshared.trans (List.filter_eq_nil_iff.mpr fun m hm => ?_)
    rw [List.mem_singleton.mp hm, decide_eq_true_iff]
    intro none
    refine none e he (repository.withFolder "one") ?_ rfl
    rw [same]
    exact List.mem_cons_self
  · exact (all repository.fingerprint).mpr (Or.inl ⟨_, List.mem_cons_self, rfl⟩)

/-! ## Revisions of shared materials -/

/-- Every needed material with the fingerprint of a revision ignores it, whatever the revision is of. -/
def ignoresRevisions [RegexLibrary] (g : DependencyGraph) (node : GraphNode) (revisions : Revisions) :
    Bool :=
  revisions.list.all fun r =>
    ((g.neededMaterials node).filter fun (_, fingerprint) => fingerprint == r.fingerprint).all
      fun (m, _) => r.isIgnoredBy m

theorem ignoresRevisions_iff [RegexLibrary] (h : g.node? place = some node) {revisions : Revisions} :
    g.ignoresRevisions node revisions = true ↔
      ∀ r ∈ revisions.list, ∀ e ∈ g.buildQueue node, ∀ m ∈ e.pipeline.materials,
        m.fingerprint = r.fingerprint → r.isIgnoredBy m = true := by
  rw [ignoresRevisions, List.all_eq_true]
  refine forall₂_congr fun r _ => ?_
  rw [List.all_eq_true]
  constructor
  · intro all e he m hm same
    refine all (m, m.fingerprint) (List.mem_filter.mpr ⟨?_, beq_iff_eq.mpr same⟩)
    exact (mem_neededMaterials h).mpr ⟨rfl, e, he, hm⟩
  · rintro queued ⟨m, fingerprint⟩ hm
    obtain ⟨hneeded, same⟩ := List.mem_filter.mp hm
    obtain ⟨rfl, e, he, hmem⟩ := (mem_neededMaterials h).mp hneeded
    exact queued e he m hmem (beq_iff_eq.mp same)

/-- Leaving out the revisions of unshared materials changes nothing, since no needed material has the
fingerprint of one. -/
theorem ignoresSharedRevisions_eq [RegexLibrary] (h : g.node? place = some node)
    (revisions : Revisions) :
    g.ignoresSharedRevisions node revisions = g.ignoresRevisions node revisions := by
  rw [ignoresSharedRevisions, List.all_filter, ignoresRevisions]
  refine List.all_congr rfl fun r => ?_
  by_cases unshared : r.fingerprint ∈ (g.unsharedMaterials node).map (·.fingerprint)
  · obtain ⟨m, hm, same⟩ := List.mem_map.mp unshared
    rw [unsharedMaterials_eq h, List.mem_filter, decide_eq_true_iff] at hm
    have none : (g.neededMaterials node).filter (fun (_, f) => f == r.fingerprint) = [] := by
      rw [List.filter_eq_nil_iff]
      rintro ⟨other, fingerprint⟩ hother
      obtain ⟨rfl, e, he, hmem⟩ := (mem_neededMaterials h).mp hother
      rw [beq_iff_eq, ← same]
      exact hm.2 e he other hmem
    rw [none, List.all_nil, Bool.or_true]
  · rw [List.contains_eq_mem, decide_eq_false unshared]
    rfl

/-- Whatever was added to a graph, and whatever was turned away: revisions of shared materials are ignored
exactly if every revision is ignored by each material of the queue that has its fingerprint. That the
revisions of unshared materials are left out changes nothing. So revisions that are put together are
ignored if both parts are, and their order does not count. -/
theorem shared_revisions_ignored_iff_queue_ignores [RegexLibrary]
    (adds : List (PipelineConfig × List Nat)) :
    let g := empty.afterAdds adds
    ∀ place node, g.node? place = some node →
      (∀ revisions, g.ignoresSharedRevisions node revisions = true ↔
        ∀ r ∈ revisions.list, ∀ e ∈ g.buildQueue node, ∀ m ∈ e.pipeline.materials,
          m.fingerprint = r.fingerprint → r.isIgnoredBy m = true) ∧
      (∀ revisions, g.ignoresSharedRevisions node revisions = g.ignoresRevisions node revisions) ∧
      (∀ revisions others, g.ignoresSharedRevisions node (revisions.addAll others)
        = (g.ignoresSharedRevisions node revisions && g.ignoresSharedRevisions node others)) ∧
      ∀ revisions others : Revisions, revisions.list.Perm others.list →
        g.ignoresSharedRevisions node revisions = g.ignoresSharedRevisions node others := by
  intro g place node h
  have exclusion := ignoresSharedRevisions_eq h
  refine ⟨?_, exclusion, ?_, ?_⟩
  · intro revisions
    rw [exclusion]
    exact ignoresRevisions_iff h
  · intro revisions others
    rw [exclusion, exclusion, exclusion]
    exact List.all_append
  · intro revisions others same
    rw [exclusion, exclusion]
    exact same.all_eq

/-- Of two pipelines that share a repository with the root one has a filter for documents. A revision of
a document alone is ignored by that one, and not by the other. -/
theorem document_ignored_by_filter_only :
    let repository : Material := .hg { url := ⟨"hg-url"⟩ } {}
    let filtered := repository.withFilter (.ofTexts ["docs/**"])
    let document : Revision := .ofMaterial repository
      [{ userName := none, comment := none, emailAddress := none, modifiedTime := ⟨0, 0⟩,
         revision := "r1", modifiedFiles := [⟨"docs/a.md", none, .added⟩] }]
    let strict : PipelineConfig := { name := "strict", materials := [filtered] }
    let eager : PipelineConfig := { name := "eager", materials := [repository] }
    let tolerant : GraphNode := { pipeline := { name := "a", materials := [repository] }, needs := [0] }
    let careful : GraphNode := { pipeline := { name := "b", materials := [repository] }, needs := [0, 1] }
    let g := empty.afterAdds
      [(strict, []), (eager, []), (tolerant.pipeline, [0]), (careful.pipeline, [0, 1])]
    g.node? 2 = some tolerant ∧ g.ignoresSharedRevisions tolerant ⟨[document]⟩ = true ∧
      g.node? 3 = some careful ∧ g.ignoresSharedRevisions careful ⟨[document]⟩ = false := by
  intro repository filtered document strict eager tolerant careful g
  have hfirst : g.node? 2 = some tolerant := rfl
  have hsecond : g.node? 3 = some careful := rfl
  have ignored : document.isIgnoredBy filtered = true := by decide
  refine ⟨hfirst, ?_, hsecond, ?_⟩
  · rw [(shared_revisions_ignored_iff_queue_ignores _ 2 tolerant hfirst).1]
    intro r hr e he m hm _
    obtain rfl := List.mem_singleton.mp hr
    have visited : (g.neededNodes tolerant).map (·.pipeline) = [strict] := rfl
    have queued := (mem_pipelines_neededNodes hfirst).mpr (List.mem_map_of_mem he)
    rw [visited, List.mem_singleton] at queued
    rw [queued, List.mem_singleton] at hm
    rw [hm]
    exact ignored
  · rw [← Bool.not_eq_true, (shared_revisions_ignored_iff_queue_ignores _ 3 careful hsecond).1]
    have edge : 1 ∈ g.edges 3 := List.mem_cons_of_mem _ List.mem_cons_self
    obtain ⟨e, he, same⟩ := List.mem_map.mp
      ((mem_pipelines_buildQueue hsecond).mpr ⟨1, .single edge, rfl⟩)
    intro all
    have wanted := all document List.mem_cons_self e he repository
      (same ▸ List.mem_cons_self) rfl
    exact absurd wanted (by decide)

end DependencyGraph

end BuildServer
