import BuildServer.Job.Instance
import BuildServer.Pipeline.Json
/-!
# Job plans

The plan of a job says what it needs and publishes, as rows that belong to the job. When a job is
replaced, the replacement gets a copy of the plan whose rows have identifiers of their own.
-/

set_option autoImplicit false

namespace BuildServer

/-- A resource that an agent must have (`Resource`). -/
structure ResourceRow where
  id : Uuid
  jobId : Uuid
  name : String
  deriving DecidableEq, Repr, Inhabited

namespace ResourceRow

def toJson (row : ResourceRow) : Json :=
  .object [("id", row.id.toJson), ("job_id", row.jobId.toJson), ("name", .string row.name)]

def ofJson : Json.Decoder ResourceRow :=
  Json.record ["id", "job_id", "name"] fun parts =>
    ResourceRow.mk
      <$> parts.required 0 "id" Uuid.ofJson
      <*> parts.required 1 "job_id" Uuid.ofJson
      <*> parts.required 2 "name" Json.text

end ResourceRow

/-- An artifact that the job publishes (`ArtifactPlan`). -/
structure ArtifactRow where
  id : Uuid
  jobId : Uuid
  kind : ArtifactKind
  src : String
  dest : String
  deriving DecidableEq, Repr, Inhabited

namespace ArtifactRow

/-- The artifact without the identifiers of the row. -/
def content (row : ArtifactRow) : ArtifactConfig := ⟨row.kind, row.src, row.dest⟩

def toJson (row : ArtifactRow) : Json :=
  .object [("id", row.id.toJson), ("job_id", row.jobId.toJson),
    ("artifact_type", row.kind.toJson), ("src", .string row.src), ("dest", .string row.dest)]

def ofJson : Json.Decoder ArtifactRow :=
  Json.record ["id", "job_id", "artifact_type", "src", "dest"] fun parts =>
    ArtifactRow.mk
      <$> parts.required 0 "id" Uuid.ofJson
      <*> parts.required 1 "job_id" Uuid.ofJson
      <*> parts.required 2 "artifact_type" ArtifactKind.ofJson
      <*> parts.required 3 "src" Json.text
      <*> parts.required 4 "dest" Json.text

end ArtifactRow

/-- What a scheduled job needs and publishes (`JobPlan`). -/
structure JobPlan where
  jobId : Uuid
  identifier : JobIdentifier
  resources : List ResourceRow
  artifacts : List ArtifactRow
  deriving DecidableEq, Repr, Inhabited

namespace JobPlan

/-- One row for each name, with fresh identifiers. -/
def resourceRows (jobId : Uuid) : List String → IdSource → List ResourceRow × IdSource
  | [], ids => ([], ids)
  | name :: names, ids =>
    let (id, ids) := ids.next
    let (rows, ids) := resourceRows jobId names ids
    (⟨id, jobId, name⟩ :: rows, ids)

/-- One row for each artifact, with fresh identifiers. -/
def artifactRows (jobId : Uuid) : List ArtifactConfig → IdSource → List ArtifactRow × IdSource
  | [], ids => ([], ids)
  | artifact :: artifacts, ids =>
    let (id, ids) := ids.next
    let (rows, ids) := artifactRows jobId artifacts ids
    (⟨id, jobId, artifact.kind, artifact.src, artifact.dest⟩ :: rows, ids)

/-- The names of the resources, in order (`resource_names`). -/
def resourceNames (plan : JobPlan) : List String := plan.resources.map (·.name)

/-- The artifacts, in order. -/
def contents (plan : JobPlan) : List ArtifactConfig := plan.artifacts.map (·.content)

/-- A plan for a job with the given resources and artifacts. -/
def make (jobId : Uuid) (identifier : JobIdentifier) (resources : List String)
    (artifacts : List ArtifactConfig) (ids : IdSource) : JobPlan × IdSource :=
  let (resources, ids) := resourceRows jobId resources ids
  let (artifacts, ids) := artifactRows jobId artifacts ids
  (⟨jobId, identifier, resources, artifacts⟩, ids)

/-- The plan of a job that is scheduled from its configuration (`JobPlan::from_config`). -/
def ofConfig (jobId : Uuid) (identifier : JobIdentifier) (config : JobConfig) (ids : IdSource) :
    JobPlan × IdSource :=
  make jobId identifier config.resources config.artifacts ids

/-- The same plan for another job (`JobPlan::copy_to`). -/
def copyTo (plan : JobPlan) (jobId : Uuid) (ids : IdSource) : JobPlan × IdSource :=
  make jobId plan.identifier plan.resourceNames plan.contents ids

/-- The plans agree in resources and artifacts (`same_content_as`). -/
def sameContent (plan other : JobPlan) : Bool :=
  plan.resourceNames == other.resourceNames && plan.contents == other.contents

/-- The identifiers of all rows. -/
def rowIds (plan : JobPlan) : List Uuid :=
  plan.resources.map (·.id) ++ plan.artifacts.map (·.id)

/-- Every row belongs to the job of the plan. -/
def ownsRows (plan : JobPlan) : Bool :=
  plan.resources.all (·.jobId == plan.jobId) && plan.artifacts.all (·.jobId == plan.jobId)

def toJson (plan : JobPlan) : Json :=
  .object [("job_id", plan.jobId.toJson), ("identifier", plan.identifier.toJson),
    ("resources", Json.ofList ResourceRow.toJson plan.resources),
    ("artifact_plans", Json.ofList ArtifactRow.toJson plan.artifacts)]

def ofJson : Json.Decoder JobPlan :=
  Json.record ["job_id", "identifier", "resources", "artifact_plans"] fun parts =>
    JobPlan.mk
      <$> parts.required 0 "job_id" Uuid.ofJson
      <*> parts.required 1 "identifier" JobIdentifier.ofJson
      <*> parts.required 2 "resources" (Json.listOf ResourceRow.ofJson)
      <*> parts.required 3 "artifact_plans" (Json.listOf ArtifactRow.ofJson)

end JobPlan

/-- What is told about a job that waits for an agent (`ScheduledBuild`). -/
structure ScheduledBuild where
  jobId : Uuid
  locator : String
  resources : List String
  artifacts : List ArtifactConfig
  deriving DecidableEq, Repr, Inhabited

namespace ScheduledBuild

def ofPlan (plan : JobPlan) : ScheduledBuild :=
  ⟨plan.jobId, plan.identifier.buildLocator, plan.resourceNames, plan.contents⟩

def toJson (b : ScheduledBuild) : Json :=
  .object [("job_id", b.jobId.toJson), ("locator", .string b.locator),
    ("resources", Json.ofList .string b.resources),
    ("artifacts", Json.ofList ArtifactConfig.toJson b.artifacts)]

/-- Reads an artifact with all its fields. -/
def readArtifact : Json.Decoder ArtifactConfig :=
  Json.record ["artifact_type", "src", "dest"] fun parts =>
    ArtifactConfig.mk
      <$> parts.required 0 "artifact_type" ArtifactKind.ofJson
      <*> parts.required 1 "src" Json.text
      <*> parts.required 2 "dest" Json.text

def ofJson : Json.Decoder ScheduledBuild :=
  Json.record ["job_id", "locator", "resources", "artifacts"] fun parts =>
    ScheduledBuild.mk
      <$> parts.required 0 "job_id" Uuid.ofJson
      <*> parts.required 1 "locator" Json.text
      <*> parts.required 2 "resources" (Json.listOf Json.text)
      <*> parts.required 3 "artifacts" (Json.listOf readArtifact)

end ScheduledBuild

end BuildServer
