import BuildServer.Pipeline.Graph
/-!
# Resolving dependencies

The graph of a pipeline is built by following its dependencies depth first. Each name, by its small
letters, gets one node when everything it needs has one; a name that is met again while its
own dependencies are being followed closes a cycle. The root comes last.

Names are looked up in a directory that answers from finitely many pipelines. A name below the root
is a dependency of one of them, which bounds the length of every way the search can go.
-/

set_option autoImplicit false

namespace BuildServer

/-- A look-up of pipelines by name that answers from a list of known ones. -/
structure Directory where
  find? : String → Option PipelineConfig
  known : List PipelineConfig
  mem_known : ∀ {name : String} {p : PipelineConfig}, find? name = some p → p ∈ known

namespace Directory

/-- The directory that answers with the first pipeline that has the name up to the case of ASCII
letters. -/
def ofList (pipelines : List PipelineConfig) : Directory where
  find? name := pipelines.find? (·.hasName name)
  known := pipelines
  mem_known := List.mem_of_find?_eq_some

/-- More than the length of any way from dependency to dependency without a repeated name. -/
def wayLimit (d : Directory) : Nat :=
  (d.known.flatMap (·.neededNames)).length + 2

end Directory

namespace DependencyGraph

/-- A graph under construction, with the places of the names that have a node (`GraphBuilder`). -/
structure Draft where
  graph : DependencyGraph := .empty
  places : List (String × Nat) := []

/-- Follows the dependencies one after the other and gives their places. -/
def followEach (follow : String → Draft → Except GraphError (Nat × Draft)) :
    List String → Draft → Except GraphError (List Nat × Draft)
  | [], draft => .ok ([], draft)
  | name :: names, draft => do
    let (place, draft) ← follow name draft
    let (places, draft) ← followEach follow names draft
    return (place :: places, draft)

/-- Gives the named pipeline a node, and everything it needs one before (`GraphBuilder::visit`). `way`
holds the names whose dependencies are being followed, in small letters, and `limit` bounds how many more
there may be. -/
def follow (find? : String → Option PipelineConfig) :
    (limit : Nat) → (way : List String) → String → Draft → Except GraphError (Nat × Draft)
  | 0, way, name, _ => .error (.cycle (way ++ [Text.lowercase name]))
  | limit + 1, way, name, draft =>
    let key := Text.lowercase name
    match draft.places.lookup key with
    | some place => .ok (place, draft)
    | none =>
      if way.contains key then .error (.cycle (way ++ [key]))
      else
        match find? name with
        | none => .error (.unknownPipeline name)
        | some pipeline => do
          let (needs, draft) ←
            followEach (follow find? limit (way ++ [key])) pipeline.neededNames draft
          let (place, graph) ← draft.graph.addNode pipeline needs
          return (place, ⟨graph, (key, place) :: draft.places⟩)

/-- The graph of the named pipeline and everything it needs, where no way from dependency to
dependency has more names than the limit. -/
def resolveWithin (find? : String → Option PipelineConfig) (limit : Nat) (root : String) :
    Except GraphError DependencyGraph :=
  (follow find? limit [] root {}).map fun (_, draft) => draft.graph

/-- The graph of the named pipeline and everything it needs (`DependencyGraph::from_configs`). -/
def resolve (d : Directory) (root : String) : Except GraphError DependencyGraph :=
  resolveWithin d.find? d.wayLimit root

end DependencyGraph

end BuildServer
