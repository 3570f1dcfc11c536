import BuildServer.Material.Basic
/-!
# Pipelines

A pipeline has materials and stages, a stage has jobs, and a job says which resources an agent must
have to run it and which artifacts it publishes. Names of pipelines, stages and jobs are looked up
without regard to the case of ASCII letters.
-/

set_option autoImplicit false

namespace BuildServer

/-- What a published artifact is (`ArtifactType`). -/
inductive ArtifactKind where
  | file
  | test
  | external
  deriving DecidableEq, Repr, Inhabited

namespace ArtifactKind

/-- The word for a kind in reports. -/
def label : ArtifactKind → String
  | .file => "file"
  | .test => "unit"
  | .external => "external"

/-- The kind with the word for it. -/
def ofLabel? (s : String) : Option ArtifactKind :=
  [ArtifactKind.file, .test, .external].find? (·.label == s)

/-- The message about a word that stands for no kind. -/
def unknownMessage (s : String) : String := "unknown artifact type: " ++ s

end ArtifactKind

/-- A file or directory that a job publishes (`ArtifactConfig`). -/
structure ArtifactConfig where
  kind : ArtifactKind
  src : String
  dest : String := ""
  deriving DecidableEq, Repr, Inhabited

/-- A job as it is configured (`JobConfig`). -/
structure JobConfig where
  name : String
  resources : List String := []
  artifacts : List ArtifactConfig := []
  deriving DecidableEq, Repr, Inhabited

/-- A stage as it is configured (`StageConfig`). -/
structure StageConfig where
  name : String
  jobs : List JobConfig := []
  deriving DecidableEq, Repr, Inhabited

/-- A pipeline as it is configured (`PipelineConfig`). -/
structure PipelineConfig where
  name : String
  /-- In the order of declaration. -/
  materials : List Material
  stages : List StageConfig := []
  deriving DecidableEq, Repr, Inhabited

namespace StageConfig

def findJob? (stage : StageConfig) (name : String) : Option JobConfig :=
  stage.jobs.find? fun job => Text.sameName job.name name

end StageConfig

namespace PipelineConfig

def hasName (p : PipelineConfig) (name : String) : Bool := Text.sameName p.name name

/-- The dependencies on other pipelines, in the order of declaration (`dependency_materials`). -/
def dependencies (p : PipelineConfig) : List Dependency := p.materials.filterMap (·.dependency?)

/-- The names of the pipelines depended on, one for each dependency. -/
def neededNames (p : PipelineConfig) : List String := p.dependencies.map (·.pipelineName)

def findStage? (p : PipelineConfig) (name : String) : Option StageConfig :=
  p.stages.find? fun stage => Text.sameName stage.name name

def firstStage? (p : PipelineConfig) : Option StageConfig := p.stages.head?

/-- The fingerprints of the materials, in order. -/
def fingerprints (p : PipelineConfig) : List String := p.materials.map (·.fingerprint)

end PipelineConfig

/-- One run of a pipeline (`PipelineIdentifier`). -/
structure PipelineRun where
  name : String
  counter : Int
  label : String
  deriving DecidableEq, Repr, Inhabited

namespace PipelineRun

/-- Name and counter (`pipeline_locator`). -/
def locator (run : PipelineRun) : String := run.name ++ "/" ++ toString run.counter

/-- Name and label, for people (`pipeline_locator_for_display`). -/
def displayLocator (run : PipelineRun) : String := run.name ++ "/" ++ run.label

/-- The uniform resource name of the run (`as_urn`). -/
def urn (run : PipelineRun) : String :=
  "urn:x-go.studios.thoughtworks.com:job-id:" ++ run.name ++ ":" ++ toString run.counter

end PipelineRun

end BuildServer
