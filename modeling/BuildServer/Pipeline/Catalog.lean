import BuildServer.Pipeline.Resolve
import BuildServer.Rows
/-!
# The catalog of pipelines

The configured pipelines, by their names in small letters. A pipeline is taken in only when its
graph can be built with it in place, so the graph of every pipeline in the catalog can be built.
-/

set_option autoImplicit false

namespace BuildServer

/-- The configured pipelines, each under its name in small letters (`PipelineConfigRepository`). -/
structure Catalog where
  entries : List (String × PipelineConfig) := []

namespace Catalog

def empty : Catalog := {}

/-- The pipeline with the name (`PipelineConfigRepository::find`). -/
def find? (c : Catalog) (name : String) : Option PipelineConfig :=
  c.entries.lookup (Text.lowercase name)

theorem mem_of_lookup {key : String} {p : PipelineConfig} :
    {entries : List (String × PipelineConfig)} → entries.lookup key = some p →
      p ∈ entries.map (·.2)
  | (k, q) :: rest, h => by
    rw [List.lookup_cons] at h
    split at h
    · cases h
      simp
    · simp only [List.map_cons, List.mem_cons]
      exact Or.inr (mem_of_lookup h)

/-- The pipelines of the catalog. -/
def pipelines (c : Catalog) : List PipelineConfig := c.entries.map (·.2)

/-- The catalog as a directory. -/
def directory (c : Catalog) : Directory where
  find? := c.find?
  known := c.pipelines
  mem_known := mem_of_lookup

/-- The catalog with a pipeline laid over it. The pipeline is found under its name in any case of
the ASCII letters. -/
def overlay (c : Catalog) (p : PipelineConfig) : Directory where
  find? name := if p.hasName name then some p else c.find? name
  known := p :: c.pipelines
  mem_known := by
    intro name q h
    split at h
    · cases h
      simp
    · exact List.mem_cons_of_mem _ (mem_of_lookup h)

/-- Takes a pipeline in, in the place of one of the same name (`PipelineConfigRepository::save`). -/
def save (c : Catalog) (p : PipelineConfig) : Except GraphError Unit × Catalog :=
  match DependencyGraph.resolve (c.overlay p) p.name with
  | .ok _ => (.ok (), ⟨putRow (·.1) (Text.lowercase p.name, p) c.entries⟩)
  | .error e => (.error e, c)

/-- The pipelines in the order of their names (`PipelineConfigRepository::list`). -/
def list (c : Catalog) : List PipelineConfig :=
  c.pipelines.mergeSort fun p q => decide (p.name ≤ q.name)

/-- The graph of the named pipeline (`PipelineConfigRepository::dependency_graph`). -/
def dependencyGraph (c : Catalog) (name : String) : Except GraphError DependencyGraph :=
  DependencyGraph.resolve c.directory name

/-- The names of the pipelines with a git material on the repository, in order
(`pipelines_with_git_url`). -/
def onRepository (c : Catalog) (url : String) : List String :=
  ((c.pipelines.filter fun p => p.materials.any (·.isOnRepository url)).map (·.name)).mergeSort
    fun a b => decide (a ≤ b)

end Catalog

end BuildServer
