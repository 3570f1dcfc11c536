import BuildServer.Pipeline.Resolve
import BuildServer.Proofs.Rows
import Mathlib.Logic.Relation
/-!
# When a graph can be built

A name is grounded in a directory when it is found there and everything it needs is grounded. This is
what the search for a graph finds out: it succeeds exactly on grounded names. It cannot succeed on
another one, since a node is added only when everything it needs has one. It cannot fail on a grounded
one, since no way from dependency to dependency leads back to a name on it, and a way without
repetition is shorter than the limit of the search.

A directory is asked for names in any spelling, so it matters that it answers alike to names with the
same small letters.
-/

set_option autoImplicit false

namespace BuildServer

namespace Directory

variable {d d' : Directory} {name other again : String} {p : PipelineConfig}

/-- Names with the same small letters get the same answer. -/
def CaseBlind (d : Directory) : Prop :=
  ∀ name other : String, Text.lowercase name = Text.lowercase other → d.find? name = d.find? other

/-- The pipeline that is found under the first name depends on the second one. -/
def Needs (d : Directory) (name needed : String) : Prop :=
  ∃ p, d.find? name = some p ∧ needed ∈ p.neededNames

/-- The second name is the first one, or one that it needs directly or through others. -/
def Reaches (d : Directory) : String → String → Prop := Relation.ReflTransGen d.Needs

/-- Every name that is reached is found. -/
def Complete (d : Directory) (root : String) : Prop :=
  ∀ name, d.Reaches root name → ∃ p, d.find? name = some p

/-- No name that is reached needs itself, in any spelling. -/
def Acyclic (d : Directory) (root : String) : Prop :=
  ∀ name again, d.Reaches root name → Relation.TransGen d.Needs name again →
    Text.lowercase again ≠ Text.lowercase name

/-- The name is found, and so is everything that it needs, in finitely many steps. -/
inductive Grounded (d : Directory) : String → Prop
  | intro {name : String} {p : PipelineConfig} : d.find? name = some p →
      (∀ needed ∈ p.neededNames, Grounded d needed) → Grounded d name

namespace Grounded

theorem exists_found (h : d.Grounded name) : ∃ p, d.find? name = some p := by
  cases h with
  | intro found _ => exact ⟨_, found⟩

theorem of_needs (h : d.Grounded name) (needs : d.Needs name other) : d.Grounded other := by
  obtain ⟨p, found, hother⟩ := needs
  cases h with
  | intro found' grounded =>
    rw [found, Option.some.injEq] at found'
    subst found'
    exact grounded other hother

theorem of_reaches (h : d.Grounded name) (reaches : d.Reaches name other) : d.Grounded other := by
  induction reaches with
  | refl => exact h
  | tail _ needs ih => exact ih.of_needs needs

/-- A name in another spelling is grounded as well. -/
theorem spelled (h : d.Grounded name) (blind : d.CaseBlind)
    (same : Text.lowercase other = Text.lowercase name) : d.Grounded other := by
  cases h with
  | intro found grounded => exact .intro (by rw [blind other name same, found]) grounded

/-- No way leads from a grounded name back to it. -/
theorem no_way_back (h : d.Grounded name) (blind : d.CaseBlind)
    (way : Relation.TransGen d.Needs name again) : Text.lowercase again ≠ Text.lowercase name := by
  induction h generalizing again with
  | @intro name p found _ ih =>
    intro same
    obtain ⟨needed, ⟨p', found', hneeded⟩, rest⟩ := Relation.TransGen.head'_iff.mp way
    rw [found, Option.some.injEq] at found'
    subst found'
    -- the name that is met again needs what the name itself needs, so the way goes on in a circle
    have circle : Relation.TransGen d.Needs needed needed := by
      refine Relation.TransGen.tail' rest ?_
      exact ⟨p, by rw [blind again name same, found], hneeded⟩
    exact ih needed hneeded circle rfl

theorem complete (h : d.Grounded name) : d.Complete name :=
  fun _ reaches => (h.of_reaches reaches).exists_found

theorem acyclic (h : d.Grounded name) (blind : d.CaseBlind) : d.Acyclic name :=
  fun _ _ reaches way => (h.of_reaches reaches).no_way_back blind way

/-- When the answers to one name are exchanged for those of a directory in which the name is grounded,
every name stays grounded. -/
theorem replace (h : d.Grounded name) (blind : d'.CaseBlind) {replaced : String}
    (grounded : d'.Grounded replaced)
    (agree : ∀ name, Text.lowercase name ≠ Text.lowercase replaced → d'.find? name = d.find? name) :
    d'.Grounded name := by
  induction h with
  | @intro name p found _ ih =>
    -- a way that meets the exchanged name goes on as in the new directory
    by_cases same : Text.lowercase name = Text.lowercase replaced
    · exact grounded.spelled blind same
    · exact .intro ((agree name same).trans found) ih

end Grounded

end Directory

namespace DependencyGraph

open Directory

variable {d d' : Directory} {find? : String → Option PipelineConfig} {limit : Nat} {way : List String}
  {name : String} {draft draft' : Draft} {place : Nat} {p : PipelineConfig}

/-! ## One step of the search -/

/-- A name that has a node is not followed again. -/
theorem follow_placed (placed : draft.places.lookup (Text.lowercase name) = some place) :
    follow find? (limit + 1) way name draft = .ok (place, draft) := by
  rw [follow]
  dsimp only
  rw [placed]

/-- A name without a node that is on the way closes a cycle. -/
theorem follow_on_way (unplaced : draft.places.lookup (Text.lowercase name) = none)
    (on : Text.lowercase name ∈ way) :
    follow find? (limit + 1) way name draft = .error (.cycle (way ++ [Text.lowercase name])) := by
  have hway : way.contains (Text.lowercase name) = true := by simpa using on
  rw [follow]
  dsimp only
  rw [unplaced]
  dsimp only
  rw [hway]
  rfl

/-- A name that is not found has no pipeline. -/
theorem follow_missing (unplaced : draft.places.lookup (Text.lowercase name) = none)
    (off : Text.lowercase name ∉ way) (missing : find? name = none) :
    follow find? (limit + 1) way name draft = .error (.unknownPipeline name) := by
  have hway : way.contains (Text.lowercase name) = false := by simpa using off
  rw [follow]
  dsimp only
  rw [unplaced]
  dsimp only
  rw [hway, missing]
  rfl

/-- A name that has no node, is not on the way and is found gets a node behind those of what it
needs. -/
theorem follow_found (unplaced : draft.places.lookup (Text.lowercase name) = none)
    (off : Text.lowercase name ∉ way) (found : find? name = some p) :
    follow find? (limit + 1) way name draft = (do
      let (needs, draft) ←
        followEach (follow find? limit (way ++ [Text.lowercase name])) p.neededNames draft
      let (place, graph) ← draft.graph.addNode p needs
      return (place, ⟨graph, (Text.lowercase name, place) :: draft.places⟩)) := by
  have hway : way.contains (Text.lowercase name) = false := by simpa using off
  rw [follow]
  dsimp only
  rw [unplaced]
  dsimp only
  rw [hway, found]
  rfl

/-- What the search finds out about a name before it follows what the name needs. -/
inductive Meets (find? : String → Option PipelineConfig) (way : List String) (draft : Draft)
    (name : String) : Prop
  | placed {place : Nat} : draft.places.lookup (Text.lowercase name) = some place →
      Meets find? way draft name
  | onWay : draft.places.lookup (Text.lowercase name) = none → Text.lowercase name ∈ way →
      Meets find? way draft name
  | missing : draft.places.lookup (Text.lowercase name) = none → Text.lowercase name ∉ way →
      find? name = none → Meets find? way draft name
  | found {p : PipelineConfig} : draft.places.lookup (Text.lowercase name) = none →
      Text.lowercase name ∉ way → find? name = some p → Meets find? way draft name

theorem meets (find? : String → Option PipelineConfig) (way : List String) (draft : Draft)
    (name : String) : Meets find? way draft name := by
  rcases placed : draft.places.lookup (Text.lowercase name) with _ | place
  · by_cases on : Text.lowercase name ∈ way
    · exact .onWay placed on
    · rcases found : find? name with _ | p
      · exact .missing placed on found
      · exact .found placed on found
  · exact .placed placed

theorem bind_eq_ok {ε α β : Type} {x : Except ε α} {f : α → Except ε β} {b : β} :
    (x >>= f) = .ok b ↔ ∃ a, x = .ok a ∧ f a = .ok b := by
  cases x with
  | error e =>
    refine iff_of_false (fun h => by cases h) ?_
    rintro ⟨a, h, -⟩
    cases h
  | ok a =>
    refine ⟨fun h => ⟨a, rfl, h⟩, ?_⟩
    rintro ⟨_, h, hf⟩
    cases h
    exact hf

theorem bind_eq_error {ε α β : Type} {x : Except ε α} {f : α → Except ε β} {e : ε} :
    (x >>= f) = .error e ↔ x = .error e ∨ ∃ a, x = .ok a ∧ f a = .error e := by
  cases x with
  | error e' =>
    constructor
    · intro h
      cases h
      exact Or.inl rfl
    · rintro (h | ⟨a, h, -⟩)
      · cases h
        rfl
      · cases h
  | ok a =>
    refine ⟨fun h => Or.inr ⟨a, rfl, h⟩, ?_⟩
    rintro (h | ⟨_, h, hf⟩)
    · cases h
    · cases h
      exact hf

/-- How the search succeeds: the name had a node, or it was found and got one behind those of what
it needs. -/
theorem follow_eq_ok (h : follow find? (limit + 1) way name draft = .ok (place, draft')) :
    (draft.places.lookup (Text.lowercase name) = some place ∧ draft' = draft) ∨
      ∃ p needs mid graph, draft.places.lookup (Text.lowercase name) = none ∧
        Text.lowercase name ∉ way ∧ find? name = some p ∧
        followEach (follow find? limit (way ++ [Text.lowercase name])) p.neededNames draft
          = .ok (needs, mid) ∧
        mid.graph.addNode p needs = .ok (place, graph) ∧
        draft' = ⟨graph, (Text.lowercase name, place) :: mid.places⟩ := by
  cases meets find? way draft name with
  | placed placed =>
    left
    rw [follow_placed placed] at h
    cases h
    exact ⟨placed, rfl⟩
  | onWay unplaced on =>
    rw [follow_on_way unplaced on] at h
    cases h
  | missing unplaced off missing =>
    rw [follow_missing unplaced off missing] at h
    cases h
  | @found p unplaced off found =>
    right
    rw [follow_found unplaced off found, bind_eq_ok] at h
    obtain ⟨⟨needs, mid⟩, each, h⟩ := h
    obtain ⟨⟨last, graph⟩, added, h⟩ := bind_eq_ok.mp h
    cases h
    exact ⟨p, needs, mid, graph, unplaced, off, found, each, added, rfl⟩

/-- A node is added behind those that are there. -/
theorem addNode_eq_ok {g graph : DependencyGraph} {needs : List Nat}
    (h : g.addNode p needs = .ok (place, graph)) :
    place = g.size ∧ graph.nodes = g.nodes ++ [{ pipeline := p, needs := needs }] := by
  rw [addNode] at h
  split at h
  · cases h
    exact ⟨rfl, rfl⟩
  · cases h

/-- What joins a list is found at its end, and the others where they were. -/
theorem getElem?_concat {α : Type} (l : List α) (a : α) (u : Nat) :
    (l ++ [a])[u]? = if u = l.length then some a else l[u]? := by
  rcases Nat.lt_trichotomy u l.length with before | rfl | behind
  · rw [List.getElem?_append_left before, if_neg (Nat.ne_of_lt before)]
  · rw [List.getElem?_concat_length, if_pos rfl]
  · rw [if_neg (Nat.ne_of_gt behind), List.getElem?_eq_none (Nat.le_of_lt behind),
      List.getElem?_eq_none]
    rw [List.length_append, List.length_singleton]
    exact behind

/-- What was there is found where it was, and the node that was added at the end. -/
theorem node?_of_addNode {g graph : DependencyGraph} {needs : List Nat}
    (h : g.addNode p needs = .ok (place, graph)) (u : Nat) :
    graph.node? u = if u = g.size then some { pipeline := p, needs := needs } else g.node? u := by
  rw [node?, (addNode_eq_ok h).2, getElem?_concat]
  rfl

theorem addNode_ok {g : DependencyGraph} {needs : List Nat} (inside : ∀ u ∈ needs, u < g.size) :
    ∃ graph, g.addNode p needs = .ok (g.size, graph) ∧ graph.size = g.size + 1 := by
  refine ⟨⟨g.nodes ++ [{ pipeline := p, needs := needs }], needsFirst_append g.needsFirst inside⟩,
    ?_, ?_⟩
  · rw [addNode]
    exact dif_pos inside
  · rw [size, List.length_append, List.length_singleton, size]

/-! ## What is built is grounded -/

/-- Several names are followed by following the first one, and then the others from there. -/
theorem followEach_cons_eq_ok {f : String → Draft → Except GraphError (Nat × Draft)}
    {names : List String} {places : List Nat}
    (h : followEach f (name :: names) draft = .ok (places, draft')) :
    ∃ place mid rest, f name draft = .ok (place, mid) ∧ followEach f names mid = .ok (rest, draft') ∧
      places = place :: rest := by
  rw [followEach, bind_eq_ok] at h
  obtain ⟨⟨place, mid⟩, first, h⟩ := h
  obtain ⟨⟨rest, last⟩, others, h⟩ := bind_eq_ok.mp h
  cases h
  exact ⟨place, mid, rest, first, others, rfl⟩

/-- What the search keeps, it keeps over several names, and what it shows of each of them it shows of
all. -/
theorem followEach_keeps {f : String → Draft → Except GraphError (Nat × Draft)} {K : Draft → Prop}
    {S : String → Prop} (keep : ∀ name draft place draft', K draft →
      f name draft = .ok (place, draft') → S name ∧ K draft')
    {names : List String} {places : List Nat} (held : K draft)
    (h : followEach f names draft = .ok (places, draft')) : (∀ name ∈ names, S name) ∧ K draft' := by
  induction names generalizing draft places with
  | nil =>
    cases h
    exact ⟨fun _ hname => absurd hname List.not_mem_nil, held⟩
  | cons name names ih =>
    obtain ⟨place, mid, rest, first, others, rfl⟩ := followEach_cons_eq_ok h
    obtain ⟨hname, hmid⟩ := keep name draft place mid held first
    obtain ⟨hnames, hlast⟩ := ih hmid others
    exact ⟨List.forall_mem_cons.mpr ⟨hname, hnames⟩, hlast⟩

/-- Every name that has a node is grounded. -/
def Draft.Grounded (d : Directory) (draft : Draft) : Prop :=
  ∀ name place, draft.places.lookup (Text.lowercase name) = some place → d.Grounded name

theorem grounded_of_follow (blind : d.CaseBlind) (held : draft.Grounded d)
    (h : follow d.find? limit way name draft = .ok (place, draft')) :
    d.Grounded name ∧ draft'.Grounded d := by
  induction limit generalizing way name draft place draft' with
  | zero => cases h
  | succ limit ih =>
    rcases follow_eq_ok h with ⟨placed, rfl⟩ | ⟨p, needs, mid, graph, -, -, found, each, -, rfl⟩
    · exact ⟨held name place placed, held⟩
    · -- the limit is smaller below the name, whatever the way has become
      obtain ⟨hneeds, hmid⟩ := followEach_keeps
        (fun _ _ _ _ hdraft hfollow => ih hdraft hfollow) held each
      have grounded : d.Grounded name := .intro found hneeds
      refine ⟨grounded, ?_⟩
      intro other last hlast
      rw [lookup_cons_eq] at hlast
      by_cases same : Text.lowercase other = Text.lowercase name
      · exact grounded.spelled blind same
      · rw [if_neg same] at hlast
        exact hmid other last hlast

/-! ## What is grounded is built -/

/-- The small letters of all names that known pipelines depend on. -/
def neededKeys (d : Directory) : List String :=
  (d.known.flatMap (·.neededNames)).map Text.lowercase

theorem length_neededKeys (d : Directory) : d.wayLimit = (neededKeys d).length + 2 := by
  rw [neededKeys, List.length_map, wayLimit]

/-- A way without a repeated name is short when every name behind the first one is needed. -/
theorem length_lt_wayLimit (nodup : way.Nodup) (behind : ∀ key ∈ way.tail, key ∈ neededKeys d) :
    way.length < d.wayLimit := by
  rw [length_neededKeys]
  have htail : way.tail.length ≤ (neededKeys d).length :=
    List.Nodup.length_le_of_subset (nodup.sublist (List.tail_sublist way)) behind
  rw [List.length_tail] at htail
  omega

/-- What holds of a call of the search on the way from the root. The limit and the length of the way
together stay what they were at the outset. -/
structure OnWay (d : Directory) (limit : Nat) (way : List String) (name : String) : Prop where
  nodup : way.Nodup
  /-- Every name behind the root is needed by a known pipeline. -/
  behind : ∀ key ∈ way.tail, key ∈ neededKeys d
  limit : d.wayLimit ≤ limit + way.length
  /-- Nothing that is still reached from here is on the way. -/
  ahead : ∀ other, d.Reaches name other → Text.lowercase other ∉ way

namespace OnWay

theorem root (d : Directory) (name : String) : OnWay d d.wayLimit [] name where
  nodup := List.nodup_nil
  behind _ h := by cases h
  limit := Nat.le_refl _
  ahead _ _ := List.not_mem_nil

/-- A way is never so long that the limit is used up. -/
theorem limit_pos (h : OnWay d limit way name) : 0 < limit := by
  have hlimit := h.limit
  have hway := length_lt_wayLimit h.nodup h.behind
  omega

/-- The way goes on to a name that is needed. -/
theorem step {needed : String} (h : OnWay d (limit + 1) way name) (blind : d.CaseBlind)
    (grounded : d.Grounded name) (found : d.find? name = some p) (hneeded : needed ∈ p.neededNames)
    (hname : way ≠ [] → Text.lowercase name ∈ neededKeys d) :
    OnWay d limit (way ++ [Text.lowercase name]) needed where
  nodup := by
    rw [List.nodup_append]
    refine ⟨h.nodup, List.pairwise_singleton _ _, ?_⟩
    intro key hkey other hother same
    rw [List.mem_singleton.mp hother] at same
    exact h.ahead name .refl (same ▸ hkey)
  behind key hkey := by
    -- the root stands first and need not be needed by anything
    rcases way with _ | ⟨first, rest⟩
    · cases hkey
    · rw [List.cons_append, List.tail_cons, List.mem_append, List.mem_singleton] at hkey
      rcases hkey with hrest | rfl
      · exact h.behind key hrest
      · exact hname (List.cons_ne_nil _ _)
  limit := by
    have := h.limit
    rw [List.length_append, List.length_singleton]
    omega
  ahead other reaches := by
    have needs : d.Needs name needed := ⟨p, found, hneeded⟩
    rw [List.mem_append, List.mem_singleton, not_or]
    exact ⟨h.ahead other (.head needs reaches),
      grounded.no_way_back blind (Relation.TransGen.head' needs reaches)⟩

end OnWay

/-- A name that a known pipeline depends on. -/
theorem mem_neededKeys {needed : String} (found : d.find? name = some p)
    (hneeded : needed ∈ p.neededNames) : Text.lowercase needed ∈ neededKeys d :=
  List.mem_map_of_mem (List.mem_flatMap.mpr ⟨p, d.mem_known found, hneeded⟩)

/-- The places of a draft are places of nodes. -/
def Draft.Placed (draft : Draft) : Prop :=
  ∀ key place, draft.places.lookup key = some place → place < draft.graph.size

/-- The search succeeds from the draft on, and what it gives lies in the graph it leaves. -/
def Succeeds (search : Draft → Except GraphError (Nat × Draft)) : Prop :=
  ∀ draft : Draft, draft.Placed → ∃ place draft', search draft = .ok (place, draft') ∧
    draft'.Placed ∧ place < draft'.graph.size ∧ draft.graph.size ≤ draft'.graph.size

theorem followEach_ok {f : String → Draft → Except GraphError (Nat × Draft)} {names : List String}
    (succeed : ∀ name ∈ names, Succeeds (f name)) (placed : draft.Placed) :
    ∃ places draft', followEach f names draft = .ok (places, draft') ∧ draft'.Placed ∧
      (∀ place ∈ places, place < draft'.graph.size) ∧ draft.graph.size ≤ draft'.graph.size := by
  induction names generalizing draft with
  | nil => exact ⟨[], draft, rfl, placed, fun _ h => absurd h List.not_mem_nil, Nat.le_refl _⟩
  | cons name names ih =>
    obtain ⟨place, mid, first, hmid, hplace, hgrown⟩ := succeed name List.mem_cons_self draft placed
    obtain ⟨places, last, rest, hlast, hplaces, hgrown'⟩ :=
      ih (fun other hother => succeed other (List.mem_cons_of_mem _ hother)) hmid
    refine ⟨place :: places, last, ?_, hlast, ?_, Nat.le_trans hgrown hgrown'⟩
    · rw [followEach, first]
      dsimp only [bind, Except.bind]
      rw [rest]
      rfl
    · exact List.forall_mem_cons.mpr ⟨Nat.lt_of_lt_of_le hplace hgrown', hplaces⟩

theorem follow_ok (blind : d.CaseBlind) (grounded : d.Grounded name) (onWay : OnWay d limit way name)
    (hname : way ≠ [] → Text.lowercase name ∈ neededKeys d) :
    Succeeds (follow d.find? limit way name) := by
  -- the induction is on what the name needs, and `OnWay` says that the limit lasts for it
  induction grounded generalizing limit way with
  | @intro name p found needs ih =>
    intro draft placed
    obtain ⟨limit, rfl⟩ := Nat.exists_eq_add_one.mpr onWay.limit_pos
    rcases hlookup : draft.places.lookup (Text.lowercase name) with _ | place
    · have off : Text.lowercase name ∉ way := onWay.ahead name .refl
      have succeed : ∀ needed ∈ p.neededNames,
          Succeeds (follow d.find? limit (way ++ [Text.lowercase name]) needed) := by
        intro needed hneeded
        exact ih needed hneeded (onWay.step blind (.intro found needs) found hneeded hname)
          (fun _ => mem_neededKeys found hneeded)
      obtain ⟨places, mid, each, hmid, hplaces, hgrown⟩ := followEach_ok succeed placed
      obtain ⟨graph, added, hsize⟩ := addNode_ok (p := p) hplaces
      refine ⟨mid.graph.size, ⟨graph, (Text.lowercase name, mid.graph.size) :: mid.places⟩,
        ?_, ?_, ?_, ?_⟩
      · rw [follow_found hlookup off found, each]
        dsimp only [bind, Except.bind]
        rw [added]
        rfl
      · intro key place hplace
        dsimp only at hplace ⊢
        rw [lookup_cons_eq] at hplace
        rw [hsize]
        by_cases same : key = Text.lowercase name
        · rw [if_pos same] at hplace
          cases hplace
          exact Nat.lt_succ_self _
        · rw [if_neg same] at hplace
          exact Nat.lt_succ_of_lt (hmid key place hplace)
      · dsimp only
        rw [hsize]
        exact Nat.lt_succ_self _
      · dsimp only
        rw [hsize]
        exact Nat.le_succ_of_le hgrown
    · exact ⟨place, draft, follow_placed hlookup, placed, placed _ place hlookup, Nat.le_refl _⟩

/-! ## Graphs of names -/

/-- A graph is what the draft holds when the root has been followed. -/
theorem resolveWithin_eq_ok {g : DependencyGraph} {root : String}
    (h : resolveWithin find? limit root = .ok g) :
    ∃ place draft, follow find? limit [] root {} = .ok (place, draft) ∧ draft.graph = g := by
  rw [resolveWithin] at h
  rcases hfollow : follow find? limit [] root {} with e | ⟨place, draft⟩
  · rw [hfollow] at h
    cases h
  · rw [hfollow] at h
    exact ⟨place, draft, rfl, Except.ok.inj h⟩

/-- The graph of a name has the pipeline that is found under the name as its root. -/
theorem root_of_resolve {g : DependencyGraph} {root : String} (h : resolve d root = .ok g) :
    ∃ p node, d.find? root = some p ∧ g.root? = some node ∧ node.pipeline = p := by
  rw [resolve, length_neededKeys] at h
  obtain ⟨place, draft, hfollow, rfl⟩ := resolveWithin_eq_ok h
  rcases follow_eq_ok hfollow with ⟨placed, -⟩ | ⟨p, needs, mid, graph, -, -, found, -, added, rfl⟩
  · cases placed
  · refine ⟨p, { pipeline := p, needs := needs }, found, ?_, rfl⟩
    rw [root?, (addNode_eq_ok added).2, List.getLast?_concat]

/-- The graph of a grounded name can be built. -/
theorem resolve_ok (blind : d.CaseBlind) {root : String} (grounded : d.Grounded root) :
    ∃ g, resolve d root = .ok g := by
  have succeed := follow_ok blind grounded (.root d root) (fun h => absurd rfl h)
  obtain ⟨place, draft, hfollow, -⟩ := succeed {} (fun _ _ h => by cases h)
  exact ⟨draft.graph, by rw [resolve, resolveWithin, hfollow]; rfl⟩

/-- The search asks for no name that is on the way already, so directories that agree on the others
give the same result. -/
theorem follow_congr (agree : ∀ name, Text.lowercase name ∉ way → d.find? name = d'.find? name) :
    follow d.find? limit way name draft = follow d'.find? limit way name draft := by
  induction limit generalizing way name draft with
  | zero => rfl
  | succ limit ih =>
    cases meets d.find? way draft name with
    | placed placed => rw [follow_placed placed, follow_placed placed]
    | onWay unplaced on => rw [follow_on_way unplaced on, follow_on_way unplaced on]
    | missing unplaced off missing =>
      have missing' : d'.find? name = none := (agree name off).symm.trans missing
      rw [follow_missing unplaced off missing, follow_missing unplaced off missing']
    | found unplaced off found =>
      have same : follow d.find? limit (way ++ [Text.lowercase name])
          = follow d'.find? limit (way ++ [Text.lowercase name]) := by
        funext other mid
        refine ih fun further off => agree further ?_
        exact fun hway => off (List.mem_append_left _ hway)
      have found' := (agree name off).symm.trans found
      rw [follow_found unplaced off found, follow_found unplaced off found', same]

/-- If the graph of a name can be built in a directory, the name is grounded in every other one that
answers it alike, and also every name with other small letters. -/
theorem grounded_of_resolve {g : DependencyGraph} {root : String} (blind : d'.CaseBlind)
    (h : resolve d root = .ok g) (same : d'.find? root = d.find? root)
    (agree : ∀ name, Text.lowercase name ≠ Text.lowercase root → d.find? name = d'.find? name) :
    d'.Grounded root := by
  rw [resolve, length_neededKeys] at h
  obtain ⟨place, draft, hfollow, -⟩ := resolveWithin_eq_ok h
  rcases follow_eq_ok hfollow with ⟨placed, -⟩ | ⟨p, needs, mid, graph, -, -, found, each, added, -⟩
  · cases placed
  -- below the root its small letters are on the way, whatever the spelling it is asked for in
  have below : follow d.find? ((neededKeys d).length + 1) ([] ++ [Text.lowercase root])
      = follow d'.find? ((neededKeys d).length + 1) ([] ++ [Text.lowercase root]) := by
    funext name draft
    refine follow_congr fun name off => agree name ?_
    exact fun heq => off (List.mem_singleton.mpr heq)
  rw [below] at each
  have empty : Draft.Grounded d' {} := fun _ _ h => by cases h
  obtain ⟨hneeds, -⟩ := followEach_keeps
    (fun _ _ _ _ hdraft hstep => grounded_of_follow blind hdraft hstep) empty each
  exact .intro (same.trans found) hneeds

end DependencyGraph

end BuildServer
