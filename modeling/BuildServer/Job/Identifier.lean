import BuildServer.Json.Decode
import BuildServer.Json.Printer
import BuildServer.Pipeline.Basic
/-!
# Identifiers of jobs

A job is located within a run of a pipeline: by the run, the stage with the number of times it has
been scheduled in the run, and the name of the job. All runs of a configured job share one key, its
three names in small letters.
-/

set_option autoImplicit false

namespace BuildServer

/-- Locates a job within a run of a pipeline (`JobIdentifier`). -/
structure JobIdentifier where
  pipelineName : String
  pipelineCounter : Int
  pipelineLabel : String
  stageName : String
  stageCounter : Int
  jobName : String
  deriving DecidableEq, Repr, Inhabited

/-- The names of a configured pipeline, stage and job (`JobConfigIdentifier`). -/
structure JobKey where
  pipelineName : String
  stageName : String
  jobName : String
  deriving DecidableEq, Repr, Inhabited

namespace JobKey

/-- The key of a configured job, its names in small letters (`JobConfigIdentifier::new`). -/
def ofNames (pipeline stage job : String) : JobKey :=
  ⟨Text.lowercase pipeline, Text.lowercase stage, Text.lowercase job⟩

def toJson (key : JobKey) : Json :=
  .object [("pipeline_name", .string key.pipelineName), ("stage_name", .string key.stageName),
    ("job_name", .string key.jobName)]

/-- Reads a key; the names are taken as they are. -/
def ofJson : Json.Decoder JobKey :=
  Json.record ["pipeline_name", "stage_name", "job_name"] fun parts =>
    JobKey.mk
      <$> parts.required 0 "pipeline_name" Json.text
      <*> parts.required 1 "stage_name" Json.text
      <*> parts.required 2 "job_name" Json.text

end JobKey

namespace JobIdentifier

/-- The identifier of a job of a run. -/
def ofRun (run : PipelineRun) (stageName : String) (stageCounter : Int) (jobName : String) :
    JobIdentifier :=
  ⟨run.name, run.counter, run.label, stageName, stageCounter, jobName⟩

/-- The run the job belongs to (`pipeline_identifier`). -/
def run (id : JobIdentifier) : PipelineRun :=
  ⟨id.pipelineName, id.pipelineCounter, id.pipelineLabel⟩

/-- The key that all runs of the configured job share (`job_config_identifier`). -/
def key (id : JobIdentifier) : JobKey :=
  .ofNames id.pipelineName id.stageName id.jobName

def stageLocator (id : JobIdentifier) : String :=
  "/".intercalate
    [id.pipelineName, toString id.pipelineCounter, id.stageName, toString id.stageCounter]

def buildLocator (id : JobIdentifier) : String :=
  id.stageLocator ++ "/" ++ id.jobName

/-- The locator for people, with the label of the run for its counter. -/
def displayLocator (id : JobIdentifier) : String :=
  "/".intercalate
    [id.pipelineName, id.pipelineLabel, id.stageName, toString id.stageCounter, id.jobName]

def toJson (id : JobIdentifier) : Json :=
  .object [("pipeline_name", .string id.pipelineName),
    ("pipeline_counter", .integer id.pipelineCounter),
    ("pipeline_label", .string id.pipelineLabel), ("stage_name", .string id.stageName),
    ("stage_counter", .integer id.stageCounter), ("job_name", .string id.jobName)]

def ofJson : Json.Decoder JobIdentifier :=
  Json.record ["pipeline_name", "pipeline_counter", "pipeline_label", "stage_name",
      "stage_counter", "job_name"] fun parts =>
    JobIdentifier.mk
      <$> parts.required 0 "pipeline_name" Json.text
      <*> parts.required 1 "pipeline_counter" Json.signed64
      <*> parts.required 2 "pipeline_label" Json.text
      <*> parts.required 3 "stage_name" Json.text
      <*> parts.required 4 "stage_counter" Json.signed64
      <*> parts.required 5 "job_name" Json.text

end JobIdentifier

end BuildServer
