import BuildServer.Material.Json
import BuildServer.Pipeline.Basic
/-!
# Pipelines as JSON

Every record is written with all its fields, in the order of declaration. On reading, the lists of
stages, jobs, resources and artifacts and the destination of an artifact may be missing.
-/

set_option autoImplicit false

namespace BuildServer

namespace ArtifactKind

/-- The name of a kind where it is a value of its own. -/
def name : ArtifactKind → String
  | .file => "File"
  | .test => "Test"
  | .external => "External"

def toJson (kind : ArtifactKind) : Json := .string kind.name

def ofJson : Json.Decoder ArtifactKind :=
  Json.oneOf [("File", .file), ("Test", .test), ("External", .external)]

end ArtifactKind

namespace ArtifactConfig

def toJson (a : ArtifactConfig) : Json :=
  .object [("artifact_type", a.kind.toJson), ("src", .string a.src), ("dest", .string a.dest)]

def ofJson : Json.Decoder ArtifactConfig :=
  Json.record ["artifact_type", "src", "dest"] fun parts =>
    ArtifactConfig.mk
      <$> parts.required 0 "artifact_type" ArtifactKind.ofJson
      <*> parts.required 1 "src" Json.text
      <*> parts.defaulted 2 "dest" Json.text ""

end ArtifactConfig

namespace JobConfig

def toJson (job : JobConfig) : Json :=
  .object [("name", .string job.name), ("resources", Json.ofList .string job.resources),
    ("artifacts", Json.ofList ArtifactConfig.toJson job.artifacts)]

def ofJson : Json.Decoder JobConfig :=
  Json.record ["name", "resources", "artifacts"] fun parts =>
    JobConfig.mk
      <$> parts.required 0 "name" Json.text
      <*> parts.defaulted 1 "resources" (Json.listOf Json.text) []
      <*> parts.defaulted 2 "artifacts" (Json.listOf ArtifactConfig.ofJson) []

end JobConfig

namespace StageConfig

def toJson (stage : StageConfig) : Json :=
  .object [("name", .string stage.name), ("jobs", Json.ofList JobConfig.toJson stage.jobs)]

def ofJson : Json.Decoder StageConfig :=
  Json.record ["name", "jobs"] fun parts =>
    StageConfig.mk
      <$> parts.required 0 "name" Json.text
      <*> parts.defaulted 1 "jobs" (Json.listOf JobConfig.ofJson) []

end StageConfig

namespace PipelineConfig

def toJson (p : PipelineConfig) : Json :=
  .object [("name", .string p.name), ("materials", Json.ofList Material.toJson p.materials),
    ("stages", Json.ofList StageConfig.toJson p.stages)]

def ofJson : Json.Decoder PipelineConfig :=
  Json.record ["name", "materials", "stages"] fun parts =>
    PipelineConfig.mk
      <$> parts.required 0 "name" Json.text
      <*> parts.required 1 "materials" (Json.listOf Material.ofJson)
      <*> parts.defaulted 2 "stages" (Json.listOf StageConfig.ofJson) []

end PipelineConfig

end BuildServer
