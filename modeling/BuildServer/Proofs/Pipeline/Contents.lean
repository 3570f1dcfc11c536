import BuildServer.Proofs.Pipeline.Graph
import BuildServer.Proofs.Pipeline.Resolve
import Mathlib.Data.List.Nodup
/-!
# What a graph contains

A graph that was built has one node for each name that is reached from the root, where spellings with
the same small letters are one name. The names of the nodes, in the order of their places, stand beside
the graph while it is built: each node holds what is found under its name, and the places it refers to
are those of the names it needs, one for each dependency.

A name gets its node after everything it needs. While that is being followed the name is on the way,
where no node is added for it, so no name gets a second one.

Nothing here asks for a limit that is large enough, or for finitely many pipelines: it is said of every
search that has come to a result.
-/

set_option autoImplicit false

namespace BuildServer.DependencyGraph

variable {find? : String → Option PipelineConfig} {limit place : Nat} {way names known : List String}
  {name : String} {draft mid draft' : Draft} {needs places : List Nat} {p : PipelineConfig}

/-- The pipeline that is found under the first name depends on the second one. Other than
`Directory.Needs` this is said of any look-up, be it of finitely many pipelines or not. -/
def LeadsTo (find? : String → Option PipelineConfig) (name needed : String) : Prop :=
  ∃ p, find? name = some p ∧ needed ∈ p.neededNames

/-- The second name is the first one, or one that it depends on directly or through others. -/
def Reaches (find? : String → Option PipelineConfig) : String → String → Prop :=
  Relation.ReflTransGen (LeadsTo find?)

/-- The places have the names, in another spelling perhaps, one after the other. -/
def Names (known : List String) (places : List Nat) (names : List String) : Prop :=
  places.map (known[·]?) = names.map fun name => some (Text.lowercase name)

theorem Names.lt_length (h : Names known places names) : ∀ u ∈ places, u < known.length := by
  intro u hu
  have hmem : known[u]? ∈ names.map fun name => some (Text.lowercase name) := by
    rw [← h]
    exact List.mem_map_of_mem hu
  obtain ⟨name, _, hname⟩ := List.mem_map.mp hmem
  exact (List.getElem?_eq_some_iff.mp hname.symm).1

/-- Places that have names keep them when further names join. -/
theorem Names.append (h : Names known places names) (more : List String) :
    Names (known ++ more) places names := by
  refine Eq.trans (List.map_congr_left fun u hu => ?_) h
  exact List.getElem?_append_left (h.lt_length u hu)

/-- A name that is asked for has a place among the given ones. -/
theorem Names.exists_place (h : Names known places names) (hname : name ∈ names) :
    ∃ u ∈ places, known[u]? = some (Text.lowercase name) := by
  have hmem : some (Text.lowercase name) ∈ names.map fun name => some (Text.lowercase name) :=
    List.mem_map_of_mem hname
  rw [← h] at hmem
  exact List.mem_map.mp hmem

/-- A name that joins stands behind the others, which stay where they are. -/
theorem getElem?_concat_eq_some {key other : String} (fresh : key ∉ known) :
    (known ++ [key])[place]? = some other ↔
      if other = key then place = known.length else known[place]? = some other := by
  have absent : known[place]? ≠ some key := fun h => fresh (List.mem_of_getElem? h)
  have end_none : known[known.length]? = none := List.getElem?_eq_none (Nat.le_refl _)
  rw [getElem?_concat]
  by_cases last : place = known.length
  · rw [if_pos last, last, end_none, Option.some.injEq]
    by_cases same : other = key
    · rw [if_pos same]
      exact iff_of_true same.symm rfl
    · rw [if_neg same]
      exact iff_of_false (Ne.symm same) (Option.some_ne_none _).symm
  · rw [if_neg last]
    by_cases same : other = key
    · rw [if_pos same, same]
      exact iff_of_false absent last
    · rw [if_neg same]

/-! ## While the graph is built -/

/-- The names that have a node, in small letters, in the order of their places. -/
def Draft.keys (draft : Draft) : List String := (draft.places.map (·.1)).reverse

theorem Draft.keys_cons (graph : DependencyGraph) (key : String) (place : Nat) (draft : Draft) :
    Draft.keys ⟨graph, (key, place) :: draft.places⟩ = draft.keys ++ [key] := by
  rw [keys, List.map_cons, List.reverse_cons, keys]

/-- What holds of a draft whenever the search has it. -/
structure Draft.Faithful (find? : String → Option PipelineConfig) (draft : Draft) : Prop where
  size : draft.keys.length = draft.graph.size
  distinct : draft.keys.Nodup
  placed : ∀ key place, draft.places.lookup key = some place ↔ draft.keys[place]? = some key
  found : ∀ place node name, draft.graph.node? place = some node →
    draft.keys[place]? = some (Text.lowercase name) → find? name = some node.pipeline
  needs : ∀ place node, draft.graph.node? place = some node →
    Names draft.keys node.needs node.pipeline.neededNames

theorem Draft.faithful_empty (find? : String → Option PipelineConfig) : Draft.Faithful find? {} where
  size := rfl
  distinct := List.nodup_nil
  placed _ _ := by simp [Draft.keys]
  found _ _ _ h := by cases h
  needs _ _ h := by cases h

/-- Names have joined the draft. Each is reached from one of those asked for, and none was on the
way. -/
def Gains (find? : String → Option PipelineConfig) (way asked : List String) (draft draft' : Draft) :
    Prop :=
  ∃ more, draft'.keys = draft.keys ++ more ∧ ∀ key ∈ more, key ∉ way ∧
    ∃ name ∈ asked, ∃ other, Reaches find? name other ∧ Text.lowercase other = key

/-- Names were followed, and this is where they stand now. -/
structure Followed (find? : String → Option PipelineConfig) (way asked : List String) (draft : Draft)
    (places : List Nat) (draft' : Draft) : Prop where
  faithful : draft'.Faithful find?
  names : Names draft'.keys places asked
  gains : Gains find? way asked draft draft'

theorem Followed.nil (faithful : draft.Faithful find?) (way : List String) :
    Followed find? way [] draft [] draft where
  faithful := faithful
  names := rfl
  gains := ⟨[], (List.append_nil _).symm, fun _ h => absurd h List.not_mem_nil⟩

/-- Names that are followed later do not move those that were followed before. -/
theorem Followed.cons (first : Followed find? way [name] draft [place] mid)
    (others : Followed find? way names mid places draft') :
    Followed find? way (name :: names) draft (place :: places) draft' := by
  obtain ⟨before, hbefore, joined⟩ := first.gains
  obtain ⟨after, hafter, joined'⟩ := others.gains
  refine ⟨others.faithful, ?_, before ++ after, ?_, ?_⟩
  · -- later names join behind, so the first one still stands where it was
    have kept := first.names.append after
    rw [← hafter] at kept
    have head : draft'.keys[place]? = some (Text.lowercase name) := List.head_eq_of_cons_eq kept
    rw [Names, List.map_cons, List.map_cons, head, others.names]
  · rw [hafter, hbefore, List.append_assoc]
  · intro key hkey
    rcases List.mem_append.mp hkey with h | h
    · obtain ⟨off, asked, hasked, reached⟩ := joined key h
      rw [List.mem_singleton] at hasked
      exact ⟨off, name, List.mem_cons_self, hasked ▸ reached⟩
    · obtain ⟨off, asked, hasked, reached⟩ := joined' key h
      exact ⟨off, asked, List.mem_cons_of_mem _ hasked, reached⟩

/-- A pipeline that gets a node behind those of the names it needs leaves the draft faithful. -/
theorem Draft.Faithful.add {graph : DependencyGraph} (h : mid.Faithful find?)
    (blind : ∀ name other, Text.lowercase name = Text.lowercase other → find? name = find? other)
    (found : find? name = some p) (fresh : Text.lowercase name ∉ mid.keys)
    (named : Names mid.keys needs p.neededNames)
    (added : mid.graph.addNode p needs = .ok (place, graph)) :
    Draft.Faithful find? ⟨graph, (Text.lowercase name, place) :: mid.places⟩ := by
  have nodes := node?_of_addNode added
  obtain ⟨rfl, hnodes⟩ := addNode_eq_ok added
  have keys := Draft.keys_cons graph (Text.lowercase name) mid.graph.size mid
  constructor
  · rw [keys, List.length_append, List.length_singleton, h.size, DependencyGraph.size,
      DependencyGraph.size, hnodes, List.length_append, List.length_singleton]
  · rw [keys, ← List.concat_eq_append]
    exact List.Nodup.concat fresh h.distinct
  · -- the new name stands last among the keys, as its node does among the nodes
    intro key place
    rw [keys, lookup_cons_eq, getElem?_concat_eq_some fresh]
    by_cases same : key = Text.lowercase name
    · rw [if_pos same, if_pos same, Option.some.injEq, h.size, eq_comm]
    · rw [if_neg same, if_neg same, h.placed key place]
  · -- a node is the new one, or it was there before and is as faithful as it was
    intro place node other hnode hkey
    rw [nodes] at hnode
    rw [keys, getElem?_concat_eq_some fresh] at hkey
    by_cases same : Text.lowercase other = Text.lowercase name
    · rw [if_pos same, h.size] at hkey
      rw [if_pos hkey, Option.some.injEq] at hnode
      rw [blind other name same, found, ← hnode]
    · rw [if_neg same] at hkey
      have hlt : place < mid.graph.size := by
        rw [← h.size]
        exact (List.getElem?_eq_some_iff.mp hkey).1
      rw [if_neg (Nat.ne_of_lt hlt)] at hnode
      exact h.found place node other hnode hkey
  · intro place node hnode
    rw [nodes] at hnode
    rw [keys]
    by_cases last : place = mid.graph.size
    · rw [if_pos last, Option.some.injEq] at hnode
      rw [← hnode]
      exact named.append _
    · rw [if_neg last] at hnode
      exact (h.needs place node hnode).append _

theorem followEach_followed {f : String → Draft → Except GraphError (Nat × Draft)}
    (step : ∀ name draft place draft', draft.Faithful find? → f name draft = .ok (place, draft') →
      Followed find? way [name] draft [place] draft')
    (faithful : draft.Faithful find?) (h : followEach f names draft = .ok (places, draft')) :
    Followed find? way names draft places draft' := by
  induction names generalizing draft places with
  | nil =>
    cases h
    exact .nil faithful way
  | cons name names ih =>
    obtain ⟨place, mid, rest, first, others, rfl⟩ := followEach_cons_eq_ok h
    have followed := step name draft place mid faithful first
    exact followed.cons (ih followed.faithful others)

/-- A search that succeeds from a faithful draft leaves a faithful draft, and gives the place of the
name. -/
theorem follow_followed
    (blind : ∀ name other, Text.lowercase name = Text.lowercase other → find? name = find? other)
    (faithful : draft.Faithful find?) (h : follow find? limit way name draft = .ok (place, draft')) :
    Followed find? way [name] draft [place] draft' := by
  induction limit generalizing way name draft place draft' with
  | zero => cases h
  | succ limit ih =>
    rcases follow_eq_ok h with
      ⟨placed, rfl⟩ | ⟨p, needs, mid, graph, unplaced, off, found, each, added, rfl⟩
    · have stands := (faithful.placed _ _).mp placed
      refine ⟨faithful, congrArg (fun found => [found]) stands, [], (List.append_nil _).symm, ?_⟩
      exact fun _ h => absurd h List.not_mem_nil
    · have below : Followed find? (way ++ [Text.lowercase name]) p.neededNames draft needs mid :=
        followEach_followed (fun _ _ _ _ hfaithful hstep => ih hfaithful hstep) faithful each
      obtain ⟨more, hmore, joined⟩ := below.gains
      -- the name was on the way while what it needs was followed, and had no node before
      have fresh : Text.lowercase name ∉ mid.keys := by
        rw [hmore, List.mem_append, not_or]
        constructor
        · intro hkey
          obtain ⟨old, hold⟩ := List.getElem?_of_mem hkey
          rw [← faithful.placed, unplaced] at hold
          cases hold
        · exact fun hkey => (joined _ hkey).1 (List.mem_append_right _ (List.mem_singleton_self _))
      have keys := Draft.keys_cons graph (Text.lowercase name) place mid
      refine ⟨below.faithful.add blind found fresh below.names added, ?_, more ++ [Text.lowercase name],
        ?_, ?_⟩
      · obtain ⟨rfl, -⟩ := addNode_eq_ok added
        rw [Names, keys, List.map_singleton, List.map_singleton, ← below.faithful.size,
          List.getElem?_concat_length]
      · rw [keys, hmore, List.append_assoc]
      · intro key hkey
        rcases List.mem_append.mp hkey with hbelow | hself
        · obtain ⟨off, needed, hneeded, other, reaches, rfl⟩ := joined key hbelow
          refine ⟨fun on => off (List.mem_append_left _ on), name, List.mem_singleton_self _, other, ?_,
            rfl⟩
          exact .head ⟨p, found, hneeded⟩ reaches
        · rw [List.mem_singleton] at hself
          subst hself
          exact ⟨off, name, List.mem_singleton_self _, name, .refl, rfl⟩

/-! ## When it is built -/

/-- An edge of a node leads to each name that its pipeline depends on. -/
theorem Draft.Faithful.exists_edge (h : draft.Faithful find?) {u : Nat} {needed : String}
    (stands : draft.keys[u]? = some (Text.lowercase name)) (leads : LeadsTo find? name needed) :
    ∃ v ∈ draft.graph.edges u, draft.keys[v]? = some (Text.lowercase needed) := by
  have inside : u < draft.graph.size := by
    rw [← h.size]
    exact (List.getElem?_eq_some_iff.mp stands).1
  obtain ⟨node, hnode⟩ := exists_node inside
  obtain ⟨p, found, hneeded⟩ := leads
  rw [h.found u node name hnode stands, Option.some.injEq] at found
  subst found
  rw [edges_eq hnode]
  exact (h.needs u node hnode).exists_place hneeded

/-- Edges lead from a node to each name that is reached from the name of the node. -/
theorem Draft.Faithful.exists_way (h : draft.Faithful find?) {u : Nat} {other : String}
    (stands : draft.keys[u]? = some (Text.lowercase name)) (reaches : Reaches find? name other) :
    ∃ v, Relation.ReflTransGen (fun u v => v ∈ draft.graph.edges u) u v ∧
      draft.keys[v]? = some (Text.lowercase other) := by
  induction reaches with
  | refl => exact ⟨u, .refl, stands⟩
  | tail _ leads ih =>
    obtain ⟨v, way, hv⟩ := ih
    obtain ⟨w, edge, hw⟩ := h.exists_edge hv leads
    exact ⟨w, way.tail edge, hw⟩

/-- The name that the search was begun with gets the last node. -/
theorem getLast?_keys_of_follow (h : follow find? limit [] name {} = .ok (place, draft)) :
    draft.keys.getLast? = some (Text.lowercase name) := by
  rcases limit with _ | limit
  · cases h
  rcases follow_eq_ok h with ⟨placed, -⟩ | ⟨p, needs, mid, graph, -, -, -, -, -, rfl⟩
  · cases placed
  · rw [Draft.keys_cons, List.getLast?_concat]

/-- A name has a node only if it is reached from the name that the search was begun with. -/
theorem exists_reached_of_follow
    (blind : ∀ name other, Text.lowercase name = Text.lowercase other → find? name = find? other)
    (h : follow find? limit [] name {} = .ok (place, draft)) :
    ∀ key ∈ draft.keys, ∃ other, Reaches find? name other ∧ Text.lowercase other = key := by
  obtain ⟨more, hmore, joined⟩ := (follow_followed blind (Draft.faithful_empty find?) h).gains
  intro key hkey
  -- the search was begun without a node, so every name has joined in the course of it
  rw [hmore] at hkey
  obtain ⟨-, asked, hasked, other, reaches, hother⟩ := joined key hkey
  rw [List.mem_singleton] at hasked
  exact ⟨other, hasked ▸ reaches, hother⟩

/-- The graph holds what is reached from the root, its nodes having these names. -/
structure Represents (find? : String → Option PipelineConfig) (root : String) (g : DependencyGraph)
    (known : List String) : Prop where
  size : known.length = g.size
  /-- No two nodes have the same name. -/
  distinct : known.Nodup
  /-- The names are those that are reached from the root, in small letters. -/
  reached : ∀ key, key ∈ known ↔ ∃ name, Reaches find? root name ∧ Text.lowercase name = key
  /-- A node holds what is found under its name, however that is spelled. -/
  found : ∀ place node name, g.node? place = some node →
    known[place]? = some (Text.lowercase name) → find? name = some node.pipeline
  /-- It refers to the nodes of what its pipeline depends on, one for each dependency, in the order
  of declaration. -/
  needs : ∀ place node, g.node? place = some node →
    node.needs.map (known[·]?)
      = node.pipeline.dependencies.map fun d => some (Text.lowercase d.pipelineName)
  smaller : ∀ place node, g.node? place = some node → ∀ u ∈ node.needs, u < place
  last : known.getLast? = some (Text.lowercase root)
  root : ∃ node, g.root? = some node ∧ find? root = some node.pipeline
  /-- Edges lead from the last node to every one. -/
  connected : ∀ place < g.size,
    Relation.ReflTransGen (fun u v => v ∈ g.edges u) (g.size - 1) place

/-- Whatever answers names, as long as it answers alike to names with the same small letters: a graph
that is built has one node for each name that is reached from the root, with what is found under the
name, and refers from it to what that depends on. The root has the last node, and every node is reached
from there. -/
theorem exists_represents
    (blind : ∀ name other, Text.lowercase name = Text.lowercase other → find? name = find? other)
    {root : String} {g : DependencyGraph} (h : resolveWithin find? limit root = .ok g) :
    ∃ known, Represents find? root g known := by
  obtain ⟨place, draft, hfollow, rfl⟩ := resolveWithin_eq_ok h
  have faithful := (follow_followed blind (Draft.faithful_empty find?) hfollow).faithful
  have reached := exists_reached_of_follow blind hfollow
  have last := getLast?_keys_of_follow hfollow
  have lastPlace : draft.keys[draft.graph.size - 1]? = some (Text.lowercase root) := by
    rw [← faithful.size, ← List.getLast?_eq_getElem?]
    exact last
  have inside : draft.graph.size - 1 < draft.graph.size := by
    have := (List.getElem?_eq_some_iff.mp lastPlace).1
    rwa [faithful.size] at this
  refine ⟨draft.keys, faithful.size, faithful.distinct, ?_, faithful.found, ?_, ?_, last, ?_, ?_⟩
  · intro key
    refine ⟨reached key, ?_⟩
    rintro ⟨name, reaches, rfl⟩
    obtain ⟨v, _, hv⟩ := faithful.exists_way lastPlace reaches
    exact List.mem_of_getElem? hv
  · intro place node hnode
    have needs := faithful.needs place node hnode
    rw [Names, PipelineConfig.neededNames, List.map_map] at needs
    exact needs
  · exact fun place node hnode u hu => lt_of_mem_needs hnode hu
  · obtain ⟨node, hnode⟩ := exists_node inside
    refine ⟨node, ?_, faithful.found _ node root hnode lastPlace⟩
    rw [root?, List.getLast?_eq_getElem?]
    exact hnode
  · intro place hplace
    -- the name of the node is reached, and the way to it ends at the only node with that name
    have hlength : place < draft.keys.length := by rw [faithful.size]; exact hplace
    obtain ⟨name, reaches, hname⟩ := reached _ (List.getElem_mem hlength)
    obtain ⟨v, way, hv⟩ := faithful.exists_way lastPlace reaches
    have hplaced : draft.keys[place]? = some (Text.lowercase name) := by
      rw [hname, List.getElem?_eq_getElem hlength]
    rw [← faithful.placed] at hv hplaced
    rw [hv, Option.some.injEq] at hplaced
    exact hplaced ▸ way

/-- Every name is answered, and three of them depend on others. The one that is needed by two ways, and
the one that is needed twice in two spellings, have one node each. -/
theorem diamond_represented :
    let needed (key : String) : List String :=
      if key = "deploy" then ["Left", "RIGHT", "left"]
      else if key = "left" ∨ key = "right" then ["Base"] else []
    let find? (name : String) : Option PipelineConfig :=
      some { name := Text.lowercase name,
             materials := (needed (Text.lowercase name)).map (.dependency ⟨·, "build"⟩) }
    ∃ g known, resolveWithin find? 3 "Deploy" = .ok g ∧ g.size = 4 ∧
      Represents find? "Deploy" g known := by
  intro needed find?
  have blind : ∀ name other, Text.lowercase name = Text.lowercase other → find? name = find? other := by
    intro name other same
    dsimp only [find?]
    rw [same]
  have size : (resolveWithin find? 3 "Deploy").toOption.map (·.size) = some 4 := by decide +kernel
  rcases h : resolveWithin find? 3 "Deploy" with e | g
  · rw [h] at size
    cases size
  · rw [h] at size
    obtain ⟨known, represents⟩ := exists_represents blind h
    exact ⟨g, known, rfl, Option.some.inj size, represents⟩

end BuildServer.DependencyGraph
