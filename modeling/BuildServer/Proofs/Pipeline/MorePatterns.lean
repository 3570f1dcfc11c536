import BuildServer.Proofs.Material.Filtering
import BuildServer.Proofs.Pipeline.Composition
/-!
# Graphs with more patterns

Two graphs have the same edges, and at each place the same materials but for further patterns in their
filters. No filter is part of a fingerprint, so whatever the analyses decide by fingerprints comes out the
same in both: which pipelines are needed, which fingerprints occur, and which materials are unshared. What
is left is whether the materials that are needed ignore a revision, and this is asked of each of them
alone. So a statement about two materials that stand at the same place carries over to the two graphs.

Nothing of this asks how the needed nodes are found. They are those that edges lead to, and the edges are
the same.
-/

set_option autoImplicit false

namespace BuildServer

namespace Material

/-- Patterns were added to the filter, if any were, and the filter is not inverted. -/
def Widened (m m' : Material) : Prop :=
  m' = m ∨ m.isFilterInverted = false ∧ m.AddsPatterns m'

/-- Patterns were added to the filter, if any were, and the filter is inverted and had some. -/
def WidenedInverted (m m' : Material) : Prop :=
  m' = m ∨ m.isFilterInverted = true ∧ m.filter.isEmpty = false ∧ m.AddsPatterns m'

variable {m m' : Material} {r : Revision}

theorem Widened.fingerprint_eq (h : m.Widened m') : m.fingerprint = m'.fingerprint := by
  rcases h with rfl | ⟨-, adds⟩
  · rfl
  · exact adds.fingerprint_eq

theorem WidenedInverted.fingerprint_eq (h : m.WidenedInverted m') :
    m.fingerprint = m'.fingerprint := by
  rcases h with rfl | ⟨-, -, adds⟩
  · rfl
  · exact adds.fingerprint_eq

theorem Widened.isIgnoredBy [RegexLibrary] (h : m.Widened m')
    (ignored : r.isIgnoredBy m = true) : r.isIgnoredBy m' = true := by
  rcases h with rfl | ⟨plain, adds⟩
  · exact ignored
  · exact Revision.isIgnoredBy_of_addsPatterns adds plain ignored

theorem WidenedInverted.isIgnoredBy [RegexLibrary] (h : m.WidenedInverted m')
    (ignored : r.isIgnoredBy m' = true) : r.isIgnoredBy m = true := by
  rcases h with rfl | ⟨inverted, some, adds⟩
  · exact ignored
  · exact Revision.isIgnoredBy_of_addsPatterns_inverted adds inverted some ignored

end Material

namespace DependencyGraph

variable {g g' : DependencyGraph} {place u : Nat} {node node' : GraphNode} {revisions : Revisions}
  {R : Material → Material → Prop} {l l' : List Material} {fingerprint : String}

/-! ## Two graphs -/

/-- The nodes refer to the same places, and have materials that are related one by one. -/
structure Counterparts (R : Material → Material → Prop) (node node' : GraphNode) : Prop where
  needs : node.needs = node'.needs
  materials : List.Forall₂ R node.pipeline.materials node'.pipeline.materials

/-- The nodes of the graphs are counterparts place by place. -/
def Corresponds (R : Material → Material → Prop) (g g' : DependencyGraph) : Prop :=
  List.Forall₂ (Counterparts R) g.nodes g'.nodes

theorem Corresponds.flip (h : Corresponds R g g') : Corresponds (fun m m' => R m' m) g' g :=
  List.Forall₂.imp (fun _ _ both => ⟨both.needs.symm, both.materials.flip⟩) (List.Forall₂.flip h)

theorem Corresponds.exists_node? (h : Corresponds R g g') (found : g.node? place = some node) :
    ∃ node', g'.node? place = some node' ∧ Counterparts R node node' := by
  obtain ⟨inside, rfl⟩ := List.getElem?_eq_some_iff.mp found
  have inside' : place < g'.nodes.length := List.Forall₂.length_eq h ▸ inside
  exact ⟨g'.nodes[place], List.getElem?_eq_getElem inside', List.Forall₂.get h inside inside'⟩

theorem Corresponds.edges_subset (h : Corresponds R g g') : g.edges place ⊆ g'.edges place := by
  rcases found : g.node? place with _ | node
  · rw [edges, found]
    exact List.nil_subset _
  · obtain ⟨node', found', both⟩ := h.exists_node? found
    rw [edges_eq found, edges_eq found', both.needs]
    exact List.Subset.refl _

/-- Edges that lead somewhere in one graph do so in the other. -/
theorem Corresponds.leadsOn (h : Corresponds R g g') (leads : g.LeadsOn place u) :
    g'.LeadsOn place u := by
  induction leads with
  | single edge => exact .single (h.edges_subset edge)
  | tail _ edge ih => exact ih.tail (h.edges_subset edge)

/-! ## What needed pipelines have in common -/

/-- Something occurs in the queue of a node if something occurs in the queue of its counterpart that brings
it about. -/
theorem Corresponds.exists_mem_buildQueue (h : Corresponds R g g')
    (hnode : g.node? place = some node) (hnode' : g'.node? place = some node')
    {P P' : PipelineConfig → Prop}
    (both : ∀ p p' : PipelineConfig, List.Forall₂ R p.materials p'.materials → P p → P' p')
    (occurs : ∃ e ∈ g.buildQueue node, P e.pipeline) : ∃ e ∈ g'.buildQueue node', P' e.pipeline := by
  obtain ⟨u, other, leads, found, holds⟩ := (exists_mem_buildQueue_iff_leadsOn hnode).mp occurs
  obtain ⟨other', found', counterparts⟩ := h.exists_node? found
  exact (exists_mem_buildQueue_iff_leadsOn hnode').mpr
    ⟨u, other', h.leadsOn leads, found', both _ _ counterparts.materials holds⟩

theorem map_fingerprint_eq (same : ∀ m m', R m m' → m.fingerprint = m'.fingerprint)
    (h : List.Forall₂ R l l') : l.map (·.fingerprint) = l'.map (·.fingerprint) := by
  induction h with
  | nil => rfl
  | cons first _ ih => exact congrArg₂ List.cons (same _ _ first) ih

theorem exists_material_imp (same : ∀ m m', R m m' → m.fingerprint = m'.fingerprint)
    (h : List.Forall₂ R l l') (some : ∃ m ∈ l, m.fingerprint = fingerprint) :
    ∃ m ∈ l', m.fingerprint = fingerprint := by
  rw [← List.mem_map] at some ⊢
  rwa [← map_fingerprint_eq same h]

/-- The queues of counterparts have the same fingerprints. -/
theorem Corresponds.mem_queue_fingerprints (h : Corresponds R g g')
    (same : ∀ m m', R m m' → m.fingerprint = m'.fingerprint)
    (hnode : g.node? place = some node) (hnode' : g'.node? place = some node') :
    (∃ e ∈ g.buildQueue node, ∃ m ∈ e.pipeline.materials, m.fingerprint = fingerprint) ↔
      ∃ e ∈ g'.buildQueue node', ∃ m ∈ e.pipeline.materials, m.fingerprint = fingerprint :=
  ⟨h.exists_mem_buildQueue hnode hnode' fun _ _ => exists_material_imp same,
    h.flip.exists_mem_buildQueue hnode' hnode fun _ _ =>
      exists_material_imp fun m m' related => (same m' m related).symm⟩

/-! ## The analyses -/

/-- The places of the marked elements of a list. -/
def markedPlaces (marks : List Bool) : List Nat :=
  (List.range marks.length).filter fun place => marks[place]? = some true

/-- At the marked places stand the elements that are kept, in their order. -/
theorem map_markedPlaces {α : Type} (keep : α → Bool) (l : List α) :
    (markedPlaces (l.map keep)).map (l[·]?) = (l.filter keep).map some := by
  induction l with
  | nil => rfl
  | cons a l ih =>
    -- the places in the tail are those in the list, one further on
    have places : markedPlaces ((a :: l).map keep)
        = (if keep a then [0] else []) ++ (markedPlaces (l.map keep)).map (· + 1) := by
      rw [markedPlaces, markedPlaces, List.map_cons, List.length_cons, List.range_succ_eq_map,
        List.filter_cons, List.filter_map]
      cases keep a <;> rfl
    have tail : (markedPlaces (l.map keep)).map (((a :: l)[·]?) ∘ (· + 1))
        = (l.filter keep).map some := ih
    rw [places, List.map_append, List.map_map, tail, List.filter_cons]
    cases keep a <;> rfl

/-- No material of the queue has the fingerprint. -/
def isNotNeeded (g : DependencyGraph) (node : GraphNode) (fingerprint : String) : Bool :=
  decide (∀ e ∈ g.buildQueue node, ∀ m ∈ e.pipeline.materials, m.fingerprint ≠ fingerprint)

/-- What the analyses of two nodes come to alike: the fingerprints of their own materials and of those
they need, and the places of their unshared materials in the order of declaration. -/
structure SameFingerprints (g g' : DependencyGraph) (node node' : GraphNode) : Prop where
  own : node.fingerprints = node'.fingerprints
  all : ∀ fingerprint, fingerprint ∈ g.allFingerprints node ↔ fingerprint ∈ g'.allFingerprints node'
  unshared : ∃ places : List Nat, places.Pairwise (· < ·) ∧
    places.map (node.pipeline.materials[·]?) = (g.unsharedMaterials node).map some ∧
    places.map (node'.pipeline.materials[·]?) = (g'.unsharedMaterials node').map some

theorem Corresponds.sameFingerprints (h : Corresponds R g g')
    (same : ∀ m m', R m m' → m.fingerprint = m'.fingerprint)
    (hnode : g.node? place = some node) (hnode' : g'.node? place = some node')
    (counterparts : Counterparts R node node') : SameFingerprints g g' node node' := by
  have own : node.pipeline.fingerprints = node'.pipeline.fingerprints :=
    map_fingerprint_eq same counterparts.materials
  constructor
  · rw [node.fingerprints_eq, node'.fingerprints_eq, own]
  · intro fingerprint
    rw [mem_allFingerprints hnode, mem_allFingerprints hnode', h.mem_queue_fingerprints same hnode hnode',
      ← List.mem_map, ← List.mem_map]
    exact or_congr_left (by rw [map_fingerprint_eq same counterparts.materials])
  · -- a material is marked for its fingerprint, and fingerprints agree at every place
    have marks : g.isNotNeeded node = g'.isNotNeeded node' := by
      funext fingerprint
      rw [isNotNeeded, isNotNeeded, decide_eq_decide, ← not_iff_not]
      simpa only [not_forall, not_not, exists_prop] using h.mem_queue_fingerprints same hnode hnode'
    refine ⟨markedPlaces (node.pipeline.fingerprints.map (g.isNotNeeded node)),
      List.pairwise_lt_range.filter _, ?_, ?_⟩
    · rw [unsharedMaterials_eq hnode, PipelineConfig.fingerprints, List.map_map]
      exact map_markedPlaces _ _
    · rw [unsharedMaterials_eq hnode', own, marks, PipelineConfig.fingerprints, List.map_map]
      exact map_markedPlaces _ _

/-- What the materials of a pipeline ignore is ignored by those that they are related to. -/
theorem IgnoredBy.of_related [RegexLibrary] {p p' : PipelineConfig}
    (same : ∀ m m', R m m' → m.fingerprint = m'.fingerprint)
    (ignores : ∀ m m' (r : Revision), R m m' → r.isIgnoredBy m = true → r.isIgnoredBy m' = true)
    (related : List.Forall₂ R p.materials p'.materials) (ignored : IgnoredBy revisions p) :
    IgnoredBy revisions p' := by
  intro m' hm' r hr fingerprint
  obtain ⟨m, hm, both⟩ := exists_counterpart related.flip hm'
  exact ignores m m' r both (ignored m hm r hr ((same m m' both).trans fingerprint))

/-- What is ignored at a node is ignored at its counterpart, where each material that is related to
another ignores no more than that. -/
theorem Corresponds.ignoresSharedRevisions [RegexLibrary] (h : Corresponds R g g')
    (same : ∀ m m', R m m' → m.fingerprint = m'.fingerprint)
    (ignores : ∀ m m' (r : Revision), R m m' → r.isIgnoredBy m = true → r.isIgnoredBy m' = true)
    (hnode : g.node? place = some node) (hnode' : g'.node? place = some node')
    (ignored : g.ignoresSharedRevisions node revisions = true) :
    g'.ignoresSharedRevisions node' revisions = true := by
  rw [ignoresSharedRevisions_iff hnode] at ignored
  rw [ignoresSharedRevisions_iff hnode']
  by_contra noticed
  simp only [not_forall, exists_prop] at noticed
  -- a pipeline that takes notice in the second graph has a counterpart that does in the first
  have carried : ∀ p' p : PipelineConfig, List.Forall₂ (fun m' m => R m m') p'.materials p.materials →
      ¬ IgnoredBy revisions p' → ¬ IgnoredBy revisions p :=
    fun _ _ related noticed ignored => noticed (ignored.of_related same ignores related.flip)
  obtain ⟨e, he, holds⟩ := h.flip.exists_mem_buildQueue hnode' hnode carried noticed
  exact holds (ignored e he)

/-- Two graphs have the same edges, and at each place the same materials but for further patterns in
filters. Then every node has the same fingerprints in both, of its own and all together, and its unshared
materials stand at the same places. If the patterns were added to filters that are not inverted, whatever
is ignored in the first graph is ignored in the second. If they were added to inverted filters that had
patterns before, it is the other way around. -/
theorem added_patterns_ignore_more [RegexLibrary] (adds adds' : List (PipelineConfig × List Nat)) :
    let g := empty.afterAdds adds
    let g' := empty.afterAdds adds'
    (Corresponds Material.Widened g g' → ∀ place node, g.node? place = some node →
      ∃ node', g'.node? place = some node' ∧ SameFingerprints g g' node node' ∧
        ∀ revisions, g.ignoresSharedRevisions node revisions = true →
          g'.ignoresSharedRevisions node' revisions = true) ∧
    (Corresponds Material.WidenedInverted g g' → ∀ place node, g.node? place = some node →
      ∃ node', g'.node? place = some node' ∧ SameFingerprints g g' node node' ∧
        ∀ revisions, g'.ignoresSharedRevisions node' revisions = true →
          g.ignoresSharedRevisions node revisions = true) := by
  intro g g'
  constructor
  · intro corresponds place node hnode
    have same : ∀ m m' : Material, m.Widened m' → m.fingerprint = m'.fingerprint :=
      fun _ _ widened => widened.fingerprint_eq
    obtain ⟨node', hnode', both⟩ := corresponds.exists_node? hnode
    refine ⟨node', hnode', corresponds.sameFingerprints same hnode hnode' both, fun revisions => ?_⟩
    exact corresponds.ignoresSharedRevisions same (fun _ _ _ widened => widened.isIgnoredBy) hnode hnode'
  · intro corresponds place node hnode
    have same : ∀ m m' : Material, m.WidenedInverted m' → m.fingerprint = m'.fingerprint :=
      fun _ _ widened => widened.fingerprint_eq
    obtain ⟨node', hnode', both⟩ := corresponds.exists_node? hnode
    refine ⟨node', hnode', corresponds.sameFingerprints same hnode hnode' both, fun revisions => ?_⟩
    exact corresponds.flip.ignoresSharedRevisions (fun m' m widened => (same m m' widened).symm)
      (fun _ _ _ widened => widened.isIgnoredBy) hnode' hnode

/-- A pipeline shares a repository with the one that it needs, where a filter gets a further pattern. A
revision of a document that the filter for documents ignored is still ignored. If the filter is one for
sources, and inverted, a revision of a document that is ignored with the further pattern was ignored
before. -/
theorem document_ignored_before_and_after :
    let repository : Material := .hg { url := ⟨"hg-url"⟩ } {}
    let document : Revision := .ofMaterial repository
      [{ userName := none, comment := none, emailAddress := none, modifiedTime := ⟨0, 0⟩,
         revision := "r1", modifiedFiles := [⟨"docs/a.md", none, .added⟩] }]
    let top : GraphNode := { pipeline := { name := "top", materials := [repository] }, needs := [0] }
    let graph (filtered : Material) : DependencyGraph := empty.afterAdds
      [({ name := "base", materials := [filtered] }, []), (top.pipeline, [7]), (top.pipeline, [0])]
    let g := graph (repository.withFilter (.ofTexts ["docs/**"]))
    let g' := graph (repository.withFilter (.ofTexts ["*.txt", "docs/**"]))
    let h := graph ((repository.withFilter (.ofTexts ["src/**"])).withInvertedFilter)
    let h' := graph ((repository.withFilter (.ofTexts ["src/**", "lib/**"])).withInvertedFilter)
    (Corresponds Material.Widened g g' ∧ g.ignoresSharedRevisions top ⟨[document]⟩ = true ∧
      g'.ignoresSharedRevisions top ⟨[document]⟩ = true) ∧
    (Corresponds Material.WidenedInverted h h' ∧ h'.ignoresSharedRevisions top ⟨[document]⟩ = true ∧
      h.ignoresSharedRevisions top ⟨[document]⟩ = true) := by
  intro repository document top graph g g' h h'
  have found : ∀ filtered, (graph filtered).node? 1 = some top := fun _ => rfl
  have ignored : ∀ filtered, document.isIgnoredBy filtered = true →
      (graph filtered).ignoresSharedRevisions top ⟨[document]⟩ = true := by
    intro filtered ignores
    refine (ignoresSharedRevisions_iff (found filtered)).mpr fun e he m hm r hr _ => ?_
    have needed : ((graph filtered).neededNodes top).map (·.pipeline)
        = [{ name := "base", materials := [filtered] }] := rfl
    have queued := (mem_pipelines_neededNodes (found filtered)).mpr (List.mem_map_of_mem he)
    rw [needed, List.mem_singleton] at queued
    rw [queued, List.mem_singleton] at hm
    rw [hm, List.mem_singleton.mp hr]
    exact ignores
  have widened : Corresponds Material.Widened g g' := by
    refine .cons ⟨rfl, .cons (.inr ⟨rfl, .ofTexts ["*.txt", "docs/**"], ?_, rfl⟩) .nil⟩
      (.cons ⟨rfl, .cons (.inl rfl) .nil⟩ .nil)
    exact List.subset_cons_self _ _
  have widenedInverted : Corresponds Material.WidenedInverted h h' := by
    refine .cons ⟨rfl, .cons (.inr ⟨rfl, rfl, .ofTexts ["src/**", "lib/**"], ?_, rfl⟩) .nil⟩
      (.cons ⟨rfl, .cons (.inl rfl) .nil⟩ .nil)
    exact List.cons_subset_cons _ (List.nil_subset _)
  have before : g.ignoresSharedRevisions top ⟨[document]⟩ = true := ignored _ (by decide)
  have after : h'.ignoresSharedRevisions top ⟨[document]⟩ = true := ignored _ (by decide)
  refine ⟨⟨widened, before, ?_⟩, widenedInverted, after, ?_⟩
  · obtain ⟨node', hnode', -, carries⟩ :=
      (added_patterns_ignore_more _ _).1 widened 1 top (found _)
    obtain rfl := Option.some.inj ((found _).symm.trans hnode')
    exact carries _ before
  · obtain ⟨node', hnode', -, carries⟩ :=
      (added_patterns_ignore_more _ _).2 widenedInverted 1 top (found _)
    obtain rfl := Option.some.inj ((found _).symm.trans hnode')
    exact carries _ after

end DependencyGraph

end BuildServer
