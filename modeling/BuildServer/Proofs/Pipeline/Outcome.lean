import BuildServer.Proofs.Pipeline.Catalog
import BuildServer.Proofs.Pipeline.Contents
import Mathlib.Data.List.Chain
/-!
# How the search for a graph comes out

A search in a directory always comes to an end, and there are three ways in which it can: with a graph,
at a name that is not found, or at a name that is met again while it is being followed. In the second
case the name is reached from the root. In the third one the names on the way, with the one that is met
again, are a walk from the root that turns back to a name on it.

So a search that does not fail for one of these two reasons succeeds, and the graph of a name exists
exactly when every name that is reached is found and none of them needs itself. A name that was given a
node earlier is never on the way again, whatever spelling it is asked for in and however often: the walk
that is reported is one of dependencies, and where there is no circle of them there is no such walk.

The names on the way differ, and each behind the root is a dependency of a known pipeline. That is why
the limit is never used up, and why a larger one gives the same result.
-/

set_option autoImplicit false

namespace BuildServer

namespace Directory

variable {d : Directory} {name needed key again : String}

/-- A pipeline that is found under the first name depends on the second one, where both are in small
letters. -/
def KeyNeeds (d : Directory) : String → String → Prop :=
  Relation.Map d.Needs Text.lowercase Text.lowercase

/-- A dependency is one of every spelling of the name. -/
theorem KeyNeeds.exists_needs (needs : d.KeyNeeds key needed) (blind : d.CaseBlind)
    (spelled : Text.lowercase name = key) :
    ∃ other, d.Needs name other ∧ Text.lowercase other = needed := by
  obtain ⟨found, other, ⟨p, hfind, hother⟩, hkey, hneeded⟩ := needs
  refine ⟨other, ⟨p, ?_, hother⟩, hneeded⟩
  rw [blind name found (spelled.trans hkey.symm), hfind]

/-- A way between names in small letters is followed from every spelling of the first one. -/
theorem exists_way_of_keys (blind : d.CaseBlind) (spelled : Text.lowercase name = key)
    (way : Relation.TransGen d.KeyNeeds key again) :
    ∃ other, Relation.TransGen d.Needs name other ∧ Text.lowercase other = again := by
  induction way with
  | single needs =>
    obtain ⟨other, hneeds, hother⟩ := needs.exists_needs blind spelled
    exact ⟨other, .single hneeds, hother⟩
  | tail _ needs ih =>
    obtain ⟨mid, way, hmid⟩ := ih
    obtain ⟨other, hneeds, hother⟩ := needs.exists_needs blind hmid
    exact ⟨other, way.tail hneeds, hother⟩

/-- A grounded name does not need itself in any spelling. -/
theorem Grounded.no_circle (h : d.Grounded name) (blind : d.CaseBlind) :
    ¬ Relation.TransGen d.KeyNeeds (Text.lowercase name) (Text.lowercase name) := by
  intro circle
  obtain ⟨other, way, same⟩ := exists_way_of_keys blind rfl circle
  exact h.no_way_back blind way same

/-- A walk that turns back to a name on it contains a circle. -/
theorem circle_of_walk {earlier : List String} (walk : (earlier ++ [key]).IsChain d.KeyNeeds)
    (on : key ∈ earlier) : Relation.TransGen d.KeyNeeds key key := by
  obtain ⟨before, after, rfl⟩ := List.append_of_mem on
  rw [List.append_assoc, List.cons_append, List.isChain_split] at walk
  -- what is left of the walk goes from the name to the name
  have round := walk.2
  rcases after with _ | ⟨next, rest⟩
  · exact .single (List.isChain_pair.mp round)
  · obtain ⟨first, onward⟩ := List.isChain_cons_cons.mp round
    refine .head' first (List.relationReflTransGen_of_exists_isChain_cons _ onward ?_)
    exact List.getLast_concat (l := next :: rest)

end Directory

namespace DependencyGraph

open Directory

variable {d : Directory} {find? : String → Option PipelineConfig} {limit limit' : Nat}
  {way : List String} {name root : String} {draft : Draft} {p : PipelineConfig} {e : GraphError}

/-! ## Where the search is -/

/-- Behind the first name of a walk every name is one that a known pipeline depends on. -/
theorem mem_neededKeys_of_walk {walk : List String} (h : walk.IsChain d.KeyNeeds) :
    ∀ key ∈ walk.tail, key ∈ neededKeys d := by
  induction walk with
  | nil =>
    intro key hkey
    cases hkey
  | cons first rest ih =>
    rw [List.tail_cons]
    rcases rest with _ | ⟨next, rest⟩
    · exact fun key hkey => absurd hkey List.not_mem_nil
    · obtain ⟨⟨found, needed, ⟨p, hfind, hneeded⟩, -, rfl⟩, onward⟩ := List.isChain_cons_cons.mp h
      exact List.forall_mem_cons.mpr ⟨mem_neededKeys hfind hneeded, ih onward⟩

/-- What holds when the search that was begun with the root follows a name. The names on the way are
those that are being followed, so that they and the name are a walk. -/
structure Underway (d : Directory) (root : String) (limit : Nat) (way : List String) (name : String) :
    Prop where
  nodup : way.Nodup
  walk : (way ++ [Text.lowercase name]).IsChain d.KeyNeeds
  start : (way ++ [Text.lowercase name]).head? = some (Text.lowercase root)
  reached : d.Reaches root name
  limit : d.wayLimit ≤ limit + way.length

namespace Underway

theorem outset (large : d.wayLimit ≤ limit) (root : String) : Underway d root limit [] root where
  nodup := List.nodup_nil
  walk := List.isChain_singleton _
  start := rfl
  reached := .refl
  limit := large

theorem limit_pos (h : Underway d root limit way name) : 0 < limit := by
  have hlimit := h.limit
  have hway := length_lt_wayLimit h.nodup (mem_neededKeys_of_walk h.walk.left_of_append)
  omega

/-- The search goes on to a name that is needed. -/
theorem step {needed : String} (h : Underway d root (limit + 1) way name)
    (off : Text.lowercase name ∉ way) (found : d.find? name = some p)
    (hneeded : needed ∈ p.neededNames) :
    Underway d root limit (way ++ [Text.lowercase name]) needed := by
  have needs : d.Needs name needed := ⟨p, found, hneeded⟩
  constructor
  · rw [← List.concat_eq_append]
    exact List.Nodup.concat off h.nodup
  · rw [List.append_assoc, List.singleton_append, List.isChain_append_cons_cons]
    exact ⟨h.walk, ⟨name, needed, needs, rfl, rfl⟩, List.isChain_singleton _⟩
  · rw [List.head?_append, h.start, Option.some_or]
  · exact h.reached.tail needs
  · have hlimit := h.limit
    rw [List.length_append, List.length_singleton]
    omega

end Underway

/-! ## The limit -/

theorem followEach_congr {f f' : String → Draft → Except GraphError (Nat × Draft)}
    {names : List String} (same : ∀ name ∈ names, f name = f' name) :
    followEach f names draft = followEach f' names draft := by
  induction names generalizing draft with
  | nil => rfl
  | cons name names ih =>
    obtain ⟨first, others⟩ := List.forall_mem_cons.mp same
    rw [followEach, followEach, first]
    refine congrArg (f' name draft >>= ·) ?_
    funext found
    obtain ⟨place, mid⟩ := found
    dsimp only
    rw [ih others]

/-- As long as the limits are large enough for what is left to do, it does not matter which one it
is. -/
theorem follow_limit (h : Underway d root limit way name) (h' : Underway d root limit' way name) :
    follow d.find? limit way name draft = follow d.find? limit' way name draft := by
  induction limit generalizing limit' way name draft with
  | zero => exact absurd h.limit_pos (Nat.lt_irrefl 0)
  | succ limit ih =>
    obtain ⟨limit', rfl⟩ := Nat.exists_eq_add_one.mpr h'.limit_pos
    cases meets d.find? way draft name with
    | placed placed => rw [follow_placed placed, follow_placed placed]
    | onWay unplaced on => rw [follow_on_way unplaced on, follow_on_way unplaced on]
    | missing unplaced off missing =>
      rw [follow_missing unplaced off missing, follow_missing unplaced off missing]
    | found unplaced off found =>
      rw [follow_found unplaced off found, follow_found unplaced off found]
      -- below the name both limits are smaller by one, and still large enough
      rw [followEach_congr fun needed hneeded => funext fun mid =>
        ih (h.step off found hneeded) (h'.step off found hneeded)]

/-! ## How the search fails -/

/-- The ways in which following a name can fail. -/
theorem follow_eq_error (h : follow find? (limit + 1) way name draft = .error e) :
    (Text.lowercase name ∈ way ∧ e = .cycle (way ++ [Text.lowercase name])) ∨
      (find? name = none ∧ e = .unknownPipeline name) ∨
      ∃ p, Text.lowercase name ∉ way ∧ find? name = some p ∧
        (followEach (follow find? limit (way ++ [Text.lowercase name])) p.neededNames draft = .error e ∨
          ∃ needs mid,
            followEach (follow find? limit (way ++ [Text.lowercase name])) p.neededNames draft
              = .ok (needs, mid) ∧ mid.graph.addNode p needs = .error e) := by
  cases meets find? way draft name with
  | placed placed =>
    rw [follow_placed placed] at h
    cases h
  | onWay unplaced on =>
    rw [follow_on_way unplaced on] at h
    cases h
    exact Or.inl ⟨on, rfl⟩
  | missing unplaced off missing =>
    rw [follow_missing unplaced off missing] at h
    cases h
    exact Or.inr (Or.inl ⟨missing, rfl⟩)
  | @found p unplaced off found =>
    rw [follow_found unplaced off found, bind_eq_error] at h
    refine Or.inr (Or.inr ⟨p, off, found, ?_⟩)
    rcases h with failed | ⟨⟨needs, mid⟩, each, h⟩
    · exact Or.inl failed
    · rcases bind_eq_error.mp h with refused | ⟨_, _, h⟩
      · exact Or.inr ⟨needs, mid, each, refused⟩
      · cases h

/-- When several names cannot be followed, it is because of one of them, and what the search keeps held
until there. -/
theorem followEach_eq_error {f : String → Draft → Except GraphError (Nat × Draft)} {K : Draft → Prop}
    (keep : ∀ name draft place draft', K draft → f name draft = .ok (place, draft') → K draft')
    {names : List String} (held : K draft) (h : followEach f names draft = .error e) :
    ∃ name ∈ names, ∃ mid, K mid ∧ f name mid = .error e := by
  induction names generalizing draft with
  | nil => cases h
  | cons name names ih =>
    rw [followEach, bind_eq_error] at h
    rcases h with failed | ⟨⟨place, mid⟩, first, h⟩
    · exact ⟨name, List.mem_cons_self, draft, held, failed⟩
    rcases bind_eq_error.mp h with failed | ⟨_, _, h⟩
    · have hmid := keep name draft place mid held first
      obtain ⟨other, hother, found⟩ := ih hmid failed
      exact ⟨other, List.mem_cons_of_mem _ hother, found⟩
    · cases h

/-- What is true of the names below the root when the search fails. That a node is missing is no reason
for it. -/
def Explains (d : Directory) (root : String) : GraphError → Prop
  | .unknownPipeline name => d.Reaches root name ∧ d.find? name = none
  | .cycle path => path.IsChain d.KeyNeeds ∧ path.head? = some (Text.lowercase root) ∧
      ∃ earlier again, path = earlier ++ [Text.lowercase again] ∧ Text.lowercase again ∈ earlier ∧
        d.Reaches root again
  | .unknownNode _ => False

theorem explains_of_follow (blind : d.CaseBlind) (underway : Underway d root limit way name)
    (faithful : draft.Faithful d.find?) (h : follow d.find? limit way name draft = .error e) :
    Explains d root e := by
  -- the induction is on the limit, which falls with every name that joins the way
  induction limit generalizing way name draft with
  | zero => exact absurd underway.limit_pos (Nat.lt_irrefl 0)
  | succ limit ih =>
    rcases follow_eq_error h with
      ⟨on, rfl⟩ | ⟨missing, rfl⟩ | ⟨p, off, found, failed | ⟨needs, mid, each, refused⟩⟩
    · exact ⟨underway.walk, underway.start, way, name, rfl, on, underway.reached⟩
    · exact ⟨underway.reached, missing⟩
    · -- the reason lies below one of the names that are needed
      obtain ⟨needed, hneeded, mid, hmid, hfailed⟩ :=
        followEach_eq_error (K := Draft.Faithful d.find?)
          (fun _ _ _ _ hfaithful hstep => (follow_followed blind hfaithful hstep).faithful)
          faithful failed
      exact ih (underway.step off found hneeded) hmid hfailed
    · -- everything the pipeline needs has a node by then
      have below : Followed d.find? (way ++ [Text.lowercase name]) p.neededNames draft needs mid :=
        followEach_followed (fun _ _ _ _ hfaithful hstep => follow_followed blind hfaithful hstep)
          faithful each
      have inside : ∀ u ∈ needs, u < mid.graph.size := by
        rw [← below.faithful.size]
        exact below.names.lt_length
      obtain ⟨graph, added, -⟩ := addNode_ok (p := p) inside
      rw [added] at refused
      cases refused

theorem explains_of_resolve (blind : d.CaseBlind) (h : resolve d root = .error e) :
    Explains d root e := by
  rw [resolve, resolveWithin] at h
  rcases hfollow : follow d.find? d.wayLimit [] root {} with e' | ⟨place, draft⟩
  · rw [hfollow] at h
    cases h
    exact explains_of_follow blind (.outset (Nat.le_refl _) root) (Draft.faithful_empty d.find?) hfollow
  · rw [hfollow] at h
    cases h

/-- What a failure shows cannot be where every name that is reached is found and none needs itself. -/
theorem not_explains (complete : d.Complete root)
    (acyclic : ∀ name, d.Reaches root name →
      ¬ Relation.TransGen d.KeyNeeds (Text.lowercase name) (Text.lowercase name)) :
    ¬ Explains d root e := by
  intro explains
  cases e with
  | unknownPipeline name =>
    obtain ⟨reached, missing⟩ := explains
    obtain ⟨p, found⟩ := complete name reached
    rw [missing] at found
    cases found
  | cycle path =>
    obtain ⟨walk, -, earlier, again, rfl, on, reached⟩ := explains
    exact acyclic again reached (circle_of_walk walk on)
  | unknownNode _ => exact explains

/-- In a directory that answers alike to names with the same small letters, the search for a graph comes
to an end: no larger limit changes the result. A graph is found exactly when every name that is reached
from the root is found and none of them needs itself. Otherwise the result is a name that is reached and
not found, or a walk of dependencies from the root back to a name on it, and never a node that does not
exist. -/
theorem resolve_outcome (d : Directory) (blind : d.CaseBlind) (root : String) :
    (∀ limit, d.wayLimit ≤ limit → resolveWithin d.find? limit root = resolve d root) ∧
    ((∃ g, resolve d root = .ok g) ↔ d.Complete root ∧ ∀ name, d.Reaches root name →
      ¬ Relation.TransGen d.KeyNeeds (Text.lowercase name) (Text.lowercase name)) ∧
    (∀ name, resolve d root = .error (.unknownPipeline name) →
      d.Reaches root name ∧ d.find? name = none) ∧
    (∀ path, resolve d root = .error (.cycle path) →
      path.IsChain d.KeyNeeds ∧ path.head? = some (Text.lowercase root) ∧
      ∃ earlier last, path = earlier ++ [last] ∧ last ∈ earlier) ∧
    ∀ place, resolve d root ≠ .error (.unknownNode place) := by
  refine ⟨?_, ⟨?_, ?_⟩, ?_, ?_, ?_⟩
  · intro limit large
    rw [resolve, resolveWithin, resolveWithin,
      follow_limit (.outset large root) (.outset (Nat.le_refl _) root)]
  · rintro ⟨g, hg⟩
    have grounded : d.Grounded root := grounded_of_resolve blind hg rfl fun _ _ => rfl
    exact ⟨grounded.complete, fun name reached => (grounded.of_reaches reached).no_circle blind⟩
  · rintro ⟨complete, acyclic⟩
    -- a failure would show a name that is not found, or a circle
    rcases hresolve : resolve d root with e | g
    · exact absurd (explains_of_resolve blind hresolve) (not_explains complete acyclic)
    · exact ⟨g, rfl⟩
  · exact fun name failed => explains_of_resolve blind failed
  · intro path failed
    obtain ⟨walk, start, earlier, again, hpath, on, -⟩ := explains_of_resolve blind failed
    exact ⟨walk, start, earlier, _, hpath, on⟩
  · exact fun place failed => explains_of_resolve blind failed

/-- Two pipelines that need each other, one of them by another spelling. -/
theorem circle_reported :
    let c : Catalog :=
      ⟨[("a", { name := "a", materials := [.dependency ⟨"b", "first"⟩] }),
        ("b", { name := "b", materials := [.dependency ⟨"A", "first"⟩] })]⟩
    c.directory.CaseBlind ∧
      (∀ limit, c.directory.wayLimit ≤ limit →
        resolveWithin c.directory.find? limit "a" = .error (.cycle ["a", "b", "a"])) ∧
      ["a", "b", "a"].IsChain c.directory.KeyNeeds := by
  intro c
  have blind : c.directory.CaseBlind := Catalog.caseBlind_directory c
  have failed : resolve c.directory "a" = .error (.cycle ["a", "b", "a"]) := by rfl
  obtain ⟨ends, -, -, circle, -⟩ := resolve_outcome c.directory blind "a"
  exact ⟨blind, fun limit large => (ends limit large).trans failed, (circle _ failed).1⟩

end DependencyGraph

end BuildServer
