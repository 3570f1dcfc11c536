import BuildServer.Pipeline.Graph
import BuildServer.Pipeline.Json
/-!
# What is told about pipelines

Short descriptions of pipelines, of their build queues and of their materials, as they are sent to
those who ask.
-/

set_option autoImplicit false

namespace BuildServer

/-- A pipeline in a few words (`PipelineSummary`). -/
structure PipelineSummary where
  name : String
  materialCount : Nat
  /-- The names of the pipelines depended on, one for each dependency. -/
  needed : List String
  /-- The names of the stages. -/
  stages : List String
  deriving DecidableEq, Repr, Inhabited

namespace PipelineSummary

def ofConfig (p : PipelineConfig) : PipelineSummary :=
  ⟨p.name, p.materials.length, p.neededNames, p.stages.map (·.name)⟩

def toJson (s : PipelineSummary) : Json :=
  .object [("name", .string s.name), ("material_count", .integer s.materialCount),
    ("upstream", Json.ofList .string s.needed), ("stages", Json.ofList .string s.stages)]

def ofJson : Json.Decoder PipelineSummary :=
  Json.record ["name", "material_count", "upstream", "stages"] fun parts =>
    PipelineSummary.mk
      <$> parts.required 0 "name" Json.text
      <*> parts.required 1 "material_count" (Json.natBelow (Nat.pow 2 64))
      <*> parts.required 2 "upstream" (Json.listOf Json.text)
      <*> parts.required 3 "stages" (Json.listOf Json.text)

end PipelineSummary

/-- An entry of a build queue, by names (`QueueEntrySummary`). -/
structure QueueSummary where
  pipeline : String
  path : List String
  deriving DecidableEq, Repr, Inhabited

namespace QueueSummary

def ofEntry (e : DependencyGraph.QueueEntry) : QueueSummary := ⟨e.pipeline.name, e.pathNames⟩

def toJson (s : QueueSummary) : Json :=
  .object [("pipeline", .string s.pipeline), ("path", Json.ofList .string s.path)]

def ofJson : Json.Decoder QueueSummary :=
  Json.record ["pipeline", "path"] fun parts =>
    QueueSummary.mk
      <$> parts.required 0 "pipeline" Json.text
      <*> parts.required 1 "path" (Json.listOf Json.text)

end QueueSummary

/-- A material in a few words (`MaterialSummary`). -/
structure MaterialSummary where
  fingerprint : String
  kind : MaterialKind
  displayName : String
  deriving DecidableEq, Repr, Inhabited

namespace MaterialSummary

def ofMaterial (m : Material) : MaterialSummary := ⟨m.fingerprint, m.kind, m.displayName⟩

def toJson (s : MaterialSummary) : Json :=
  .object [("fingerprint", .string s.fingerprint), ("material_type", s.kind.toJson),
    ("display_name", .string s.displayName)]

def ofJson : Json.Decoder MaterialSummary :=
  Json.record ["fingerprint", "material_type", "display_name"] fun parts =>
    MaterialSummary.mk
      <$> parts.required 0 "fingerprint" Json.text
      <*> parts.required 1 "material_type" MaterialKind.ofJson
      <*> parts.required 2 "display_name" Json.text

end MaterialSummary

/-- The materials of a pipeline that it shares with none it needs, and all fingerprints in its
graph in order (`PipelineMaterials`). -/
structure MaterialReport where
  pipeline : String
  unshared : List MaterialSummary
  fingerprints : List String
  deriving DecidableEq, Repr, Inhabited

namespace MaterialReport

def ofNode (g : DependencyGraph) (node : GraphNode) : MaterialReport where
  pipeline := node.pipeline.name
  unshared := (g.unsharedMaterials node).map .ofMaterial
  fingerprints := (g.allFingerprints node).mergeSort fun a b => decide (a ≤ b)

def toJson (r : MaterialReport) : Json :=
  .object [("pipeline", .string r.pipeline),
    ("unshared", Json.ofList MaterialSummary.toJson r.unshared),
    ("fingerprints", Json.ofList .string r.fingerprints)]

def ofJson : Json.Decoder MaterialReport :=
  Json.record ["pipeline", "unshared", "fingerprints"] fun parts =>
    MaterialReport.mk
      <$> parts.required 0 "pipeline" Json.text
      <*> parts.required 1 "unshared" (Json.listOf MaterialSummary.ofJson)
      <*> parts.required 2 "fingerprints" (Json.listOf Json.text)

end MaterialReport

end BuildServer
