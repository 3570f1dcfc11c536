import BuildServer.Proofs.Pipeline.Materials
/-!
# Analyses along edges

Every node finds out about its materials by a visit of its own, although the nodes it needs have been
visited in part for the same purpose by their own analyses. The answers fit together all the same: what
is led on to is one of the needed nodes or is led on to from one of them, so a fact about all that a
node needs is one about each node it refers to and about all that this one needs in turn. That the
parts overlap does no harm, since both analyses only ask whether something occurs.

Hence, going down along edges, fingerprints only become fewer, and what is ignored stays ignored.
-/

set_option autoImplicit false

namespace BuildServer.DependencyGraph

variable {g : DependencyGraph} {place lower u : Nat} {node needed : GraphNode} {p : PipelineConfig}
  {fingerprint : String} {revisions : Revisions}

/-! ## One edge -/

/-- What is led on to is at the end of an edge, or is led on to from there. -/
theorem leadsOn_iff_edge :
    g.LeadsOn place u ↔ ∃ v ∈ g.edges place, v = u ∨ g.LeadsOn v u := by
  rw [LeadsOn, Relation.TransGen.head'_iff]
  refine exists_congr fun v => and_congr_right fun _ => ?_
  rw [Relation.reflTransGen_iff_eq_or_transGen, eq_comm]

/-- The pipelines of the queue are those of the nodes that are referred to, and those of their
queues. -/
theorem mem_pipelines_buildQueue_iff (h : g.node? place = some node) :
    p ∈ (g.buildQueue node).map (·.pipeline) ↔
      ∃ needed ∈ g.needsOf node,
        p = needed.pipeline ∨ p ∈ (g.buildQueue needed).map (·.pipeline) := by
  rw [mem_pipelines_buildQueue h]
  constructor
  · rintro ⟨u, leads, hu⟩
    obtain ⟨v, edge, onward⟩ := leadsOn_iff_edge.mp leads
    rw [edges_eq h] at edge
    obtain ⟨needed, found⟩ := exists_needed h edge
    refine ⟨needed, List.mem_filterMap.mpr ⟨v, edge, found⟩, ?_⟩
    rcases onward with rfl | leads
    · rw [pipeline?_eq found, Option.some.injEq] at hu
      exact Or.inl hu.symm
    · exact Or.inr ((mem_pipelines_buildQueue found).mpr ⟨u, leads, hu⟩)
  · rintro ⟨needed, hneeded, hp⟩
    obtain ⟨v, edge, found⟩ := place_of_mem_needsOf hneeded
    rw [← edges_eq h] at edge
    rcases hp with rfl | queued
    · exact ⟨v, leadsOn_iff_edge.mpr ⟨v, edge, Or.inl rfl⟩, pipeline?_eq found⟩
    · obtain ⟨u, leads, hu⟩ := (mem_pipelines_buildQueue found).mp queued
      exact ⟨u, leadsOn_iff_edge.mpr ⟨v, edge, Or.inr leads⟩, hu⟩

/-- What occurs in the queue occurs at one of its pipelines. -/
theorem exists_mem_buildQueue_iff_mem_pipelines {P : PipelineConfig → Prop} :
    (∃ e ∈ g.buildQueue node, P e.pipeline) ↔ ∃ p ∈ (g.buildQueue node).map (·.pipeline), P p := by
  simp only [List.mem_map, exists_exists_and_eq_and]

/-- Something occurs in the queue if it occurs at a node that is referred to, or in the queue of
one. -/
theorem exists_mem_buildQueue_iff (h : g.node? place = some node) {P : PipelineConfig → Prop} :
    (∃ e ∈ g.buildQueue node, P e.pipeline) ↔
      ∃ needed ∈ g.needsOf node, P needed.pipeline ∨ ∃ e ∈ g.buildQueue needed, P e.pipeline := by
  simp only [exists_mem_buildQueue_iff_mem_pipelines, mem_pipelines_buildQueue_iff h]
  constructor
  · rintro ⟨p, ⟨needed, hneeded, rfl | queued⟩, hp⟩
    · exact ⟨needed, hneeded, Or.inl hp⟩
    · exact ⟨needed, hneeded, Or.inr ⟨p, queued, hp⟩⟩
  · rintro ⟨needed, hneeded, hp | ⟨p, queued, hp⟩⟩
    · exact ⟨needed.pipeline, ⟨needed, hneeded, Or.inl rfl⟩, hp⟩
    · exact ⟨p, ⟨needed, hneeded, Or.inr queued⟩, hp⟩

/-- Something occurs in the queue if it occurs at a node that edges lead to. -/
theorem exists_mem_buildQueue_iff_leadsOn (h : g.node? place = some node)
    {P : PipelineConfig → Prop} : (∃ e ∈ g.buildQueue node, P e.pipeline) ↔
      ∃ u other, g.LeadsOn place u ∧ g.node? u = some other ∧ P other.pipeline := by
  rw [exists_mem_buildQueue_iff_mem_pipelines]
  constructor
  · rintro ⟨p, queued, holds⟩
    obtain ⟨u, leads, hu⟩ := (mem_pipelines_buildQueue h).mp queued
    obtain ⟨other, found, rfl⟩ := Option.map_eq_some_iff.mp hu
    exact ⟨u, other, leads, found, holds⟩
  · rintro ⟨u, other, leads, found, holds⟩
    exact ⟨other.pipeline, (mem_pipelines_buildQueue h).mpr ⟨u, leads, pipeline?_eq found⟩, holds⟩

/-! ## The two analyses -/

/-- All fingerprints of a node are its own and all those of the nodes it refers to. -/
theorem mem_allFingerprints_iff_needs (h : g.node? place = some node) :
    fingerprint ∈ g.allFingerprints node ↔
      fingerprint ∈ node.pipeline.fingerprints ∨
        ∃ needed ∈ g.needsOf node, fingerprint ∈ g.allFingerprints needed := by
  rw [mem_allFingerprints h,
    exists_mem_buildQueue_iff h (P := fun p => ∃ m ∈ p.materials, m.fingerprint = fingerprint)]
  refine or_congr List.mem_map.symm (exists_congr fun needed => and_congr_right fun hneeded => ?_)
  obtain ⟨u, _, found⟩ := place_of_mem_needsOf hneeded
  rw [mem_allFingerprints found]

/-- The materials of a pipeline ignore the revisions that have the fingerprint of one of them. -/
def IgnoredBy [RegexLibrary] (revisions : Revisions) (p : PipelineConfig) : Prop :=
  ∀ m ∈ p.materials, ∀ r ∈ revisions.list, m.fingerprint = r.fingerprint → r.isIgnoredBy m = true

/-- Revisions of shared materials are ignored if the pipelines of the queue ignore the revisions. -/
theorem ignoresSharedRevisions_iff [RegexLibrary] (h : g.node? place = some node) :
    g.ignoresSharedRevisions node revisions = true ↔
      ∀ e ∈ g.buildQueue node, IgnoredBy revisions e.pipeline := by
  rw [ignoresSharedRevisions_eq h, ignoresRevisions_iff h]
  constructor
  · intro all e he m hm r hr same
    exact all r hr e he m hm same
  · intro all r hr e he m hm same
    exact all e he m hm r hr same

/-- They are ignored if every node that is referred to has them ignored and ignores them itself. -/
theorem ignoresSharedRevisions_iff_needs [RegexLibrary] (h : g.node? place = some node) :
    g.ignoresSharedRevisions node revisions = true ↔
      ∀ needed ∈ g.needsOf node,
        g.ignoresSharedRevisions needed revisions = true ∧ IgnoredBy revisions needed.pipeline := by
  have heeded := not_congr (exists_mem_buildQueue_iff h (P := fun p => ¬ IgnoredBy revisions p))
  simp only [not_exists, not_and, not_not, not_or] at heeded
  rw [ignoresSharedRevisions_iff h, heeded]
  refine forall₂_congr fun needed hneeded => ?_
  obtain ⟨u, _, found⟩ := place_of_mem_needsOf hneeded
  rw [ignoresSharedRevisions_iff found, and_comm]

/-! ## Many edges -/

/-- What follows from an analysis at a node for the nodes it refers to follows for all that it leads on
to. -/
theorem LeadsOn.descends {P : GraphNode → Prop}
    (edge : ∀ place node, g.node? place = some node → P node → ∀ needed ∈ g.needsOf node, P needed)
    (leads : g.LeadsOn place lower) (h : g.node? place = some node) (hp : P node)
    (found : g.node? lower = some needed) : P needed := by
  induction leads generalizing needed with
  | single step =>
    rw [edges_eq h] at step
    exact edge _ _ h hp _ (List.mem_filterMap.mpr ⟨_, step, found⟩)
  | @tail middle _ before step ih =>
    obtain ⟨between, hbetween⟩ := exists_node (Nat.lt_trans (LeadsOn.lt before) (lt_size h))
    rw [edges_eq hbetween] at step
    exact edge _ _ hbetween (ih hbetween) _ (List.mem_filterMap.mpr ⟨_, step, found⟩)

/-- A node has all fingerprints of whatever it leads on to. -/
theorem LeadsOn.allFingerprints_subset (leads : g.LeadsOn place lower)
    (h : g.node? place = some node) (found : g.node? lower = some needed) :
    g.allFingerprints needed ⊆ g.allFingerprints node := by
  intro fingerprint
  refine not_imp_not.mp fun absent => ?_
  refine leads.descends (P := fun node => fingerprint ∉ g.allFingerprints node) ?_ h absent found
  intro place node hnode absent needed hneeded hmem
  exact absent ((mem_allFingerprints_iff_needs hnode).mpr (Or.inr ⟨needed, hneeded, hmem⟩))

/-- What a node ignores is ignored by whatever it leads on to. -/
theorem LeadsOn.ignoresSharedRevisions [RegexLibrary] (leads : g.LeadsOn place lower)
    (h : g.node? place = some node) (found : g.node? lower = some needed)
    (ignored : g.ignoresSharedRevisions node revisions = true) :
    g.ignoresSharedRevisions needed revisions = true := by
  refine leads.descends (P := fun node => g.ignoresSharedRevisions node revisions = true) ?_ h
    ignored found
  intro place node hnode ignored needed hneeded
  exact ((ignoresSharedRevisions_iff_needs hnode).mp ignored needed hneeded).1

/-- Whatever was added to a graph, and whatever was turned away: the fingerprints of a node are those of
its own materials and those of the nodes it refers to. Revisions of shared materials are ignored at a
node exactly if, for each node it refers to, they are ignored there and every material of its pipeline
that has the fingerprint of a revision ignores that revision. So whatever edges lead on to has no
fingerprint that the node has not, and ignores what the node ignores. -/
theorem analyses_compose_along_edges [RegexLibrary] (adds : List (PipelineConfig × List Nat)) :
    let g := empty.afterAdds adds
    ∀ place node, g.node? place = some node →
      node.needs.map g.node? = (g.needsOf node).map some ∧
      (∀ fingerprint, fingerprint ∈ g.allFingerprints node ↔
        (∃ m ∈ node.pipeline.materials, m.fingerprint = fingerprint) ∨
          ∃ needed ∈ g.needsOf node, fingerprint ∈ g.allFingerprints needed) ∧
      (∀ revisions, g.ignoresSharedRevisions node revisions = true ↔
        ∀ needed ∈ g.needsOf node, g.ignoresSharedRevisions needed revisions = true ∧
          ∀ m ∈ needed.pipeline.materials, ∀ r ∈ revisions.list,
            m.fingerprint = r.fingerprint → r.isIgnoredBy m = true) ∧
      ∀ lower needed, g.LeadsOn place lower → g.node? lower = some needed →
        (∀ fingerprint ∈ g.allFingerprints needed, fingerprint ∈ g.allFingerprints node) ∧
        ∀ revisions, g.ignoresSharedRevisions node revisions = true →
          g.ignoresSharedRevisions needed revisions = true := by
  intro g place node h
  refine ⟨map_node?_needs h, ?_, fun _ => ignoresSharedRevisions_iff_needs h, ?_⟩
  · intro fingerprint
    rw [mem_allFingerprints_iff_needs h, PipelineConfig.fingerprints, List.mem_map]
  · intro lower needed leads found
    exact ⟨leads.allFingerprints_subset h found, fun _ => leads.ignoresSharedRevisions h found⟩

/-- A document is ignored where only the filtered checkout is needed, and no longer further up, where
the checkout without a filter is needed as well. The fingerprint is there all the way up. -/
theorem document_noticed_further_up :
    let repository : Material := .hg { url := ⟨"hg-url"⟩ } {}
    let document : Revision := .ofMaterial repository
      [{ userName := none, comment := none, emailAddress := none, modifiedTime := ⟨0, 0⟩,
         revision := "r1", modifiedFiles := [⟨"docs/a.md", none, .added⟩] }]
    let base : GraphNode :=
      { pipeline := { name := "base", materials := [repository.withFilter (.ofTexts ["docs/**"])] }
        needs := [] }
    let middle : GraphNode :=
      { pipeline := { name := "middle", materials := [repository] }, needs := [0] }
    let top : GraphNode := { pipeline := { name := "top", materials := [] }, needs := [1, 0] }
    let g := empty.afterAdds
      [(base.pipeline, []), (middle.pipeline, [0]), (top.pipeline, [4]), (top.pipeline, [1, 0])]
    (g.node? 1 = some middle ∧ g.ignoresSharedRevisions middle ⟨[document]⟩ = true) ∧
      (g.node? 2 = some top ∧ g.ignoresSharedRevisions top ⟨[document]⟩ = false) ∧
      repository.fingerprint ∈ g.allFingerprints top := by
  intro repository document base middle top g
  have hbase : g.node? 0 = some base := rfl
  have hmiddle : g.node? 1 = some middle := rfl
  have htop : g.node? 2 = some top := rfl
  have needsBase : g.needsOf base = [] := rfl
  have needsMiddle : g.needsOf middle = [base] := rfl
  have needsTop : g.needsOf top = [middle, base] := rfl
  have filtered : document.isIgnoredBy (repository.withFilter (.ofTexts ["docs/**"])) = true := by
    decide
  have unfiltered : document.isIgnoredBy repository = false := by decide
  obtain ⟨_, _, ignoredBase, _⟩ := analyses_compose_along_edges _ 0 base hbase
  obtain ⟨_, _, ignoredMiddle, _⟩ := analyses_compose_along_edges _ 1 middle hmiddle
  obtain ⟨_, fingerprints, ignoredTop, _⟩ := analyses_compose_along_edges _ 2 top htop
  -- nothing is needed by the base, so it has nothing that could take notice
  have ignored : g.ignoresSharedRevisions base ⟨[document]⟩ = true := by
    refine (ignoredBase _).mpr fun needed hneeded => ?_
    rw [needsBase] at hneeded
    cases hneeded
  refine ⟨⟨hmiddle, (ignoredMiddle _).mpr ?_⟩, ⟨htop, ?_⟩, ?_⟩
  · intro needed hneeded
    rw [needsMiddle] at hneeded
    obtain rfl := List.mem_singleton.mp hneeded
    refine ⟨ignored, ?_⟩
    intro m hm r hr _
    rw [List.mem_singleton.mp hm, List.mem_singleton.mp hr]
    exact filtered
  · rw [← Bool.not_eq_true, ignoredTop]
    intro all
    have noticed := (all middle (needsTop ▸ List.mem_cons_self)).2 repository List.mem_cons_self
      document List.mem_cons_self rfl
    rw [unfiltered] at noticed
    cases noticed
  · refine (fingerprints _).mpr (Or.inr ⟨middle, needsTop ▸ List.mem_cons_self, ?_⟩)
    exact (mem_allFingerprints hmiddle).mpr (Or.inl ⟨repository, List.mem_cons_self, rfl⟩)

end BuildServer.DependencyGraph
