import BuildServer.Client.Basic
import BuildServer.Terminal.Arguments
import BuildServer.Terminal.Screen
/-!
# The program on the terminal

Every task is a command to the server and a screen for its result. What goes wrong is shown with the
word `Error`, and the cause below it where there is one. The program ends with 0 if all went well,
with 1 if the task failed and with 2 if the arguments made no sense.
-/

set_option autoImplicit false

namespace BuildServer.Terminal

/-- What the program needs of its surroundings. -/
structure World (m : Type → Type) where
  send : Transport m
  /-- The text of a file. -/
  fileText? : String → m (Option String)
  ink : Ink

/-- What went wrong, and why. -/
structure Complaint where
  message : String
  cause : Option String := none
  deriving DecidableEq, Repr

namespace Complaint

def lines (c : Complaint) : List String :=
  ("Error: " ++ c.message) :: match c.cause with
    | some cause => ["", "Caused by:", "    " ++ cause]
    | none => []

def ofClient (e : ClientError) : Complaint := { message := e.message }

end Complaint

/-- A part of the program, which may fail. -/
abbrev Program (m : Type → Type) (α : Type) := ExceptT Complaint m α

section

variable {m : Type → Type} [Monad m]

/-- Sends a command, and says with `complain` what it means if it fails. -/
def asking (w : World m) (client : Client) (c : Command) (complain : ClientError → Complaint) :
    Program m c.Result := do
  let outcome ← (client.ask w.send c : m _)
  match outcome with
  | .ok result => return result
  | .error e => throw (complain e)

/-- The identifier of a job, with blanks around it. -/
def readId (s : String) : Program m Uuid :=
  match Uuid.parse? (Text.trim s) with
  | some id => return id
  | none => throw { message := "'" ++ s ++ "' is not a valid job ID" }

/-- The pipeline in a text, if the text is that of a pipeline and nothing else. -/
def pipelineOf? (text : String) : Option PipelineConfig :=
  let document := Json.read text
  match PipelineConfig.ofJson document.value with
  | .ok config => if document.trailing then none else some config
  | .error _ => none

/-- The pipeline in a file. -/
def readPipeline (w : World m) (file : String) : Program m PipelineConfig := do
  let text ← (w.fileText? file : m _)
  match text with
  | none => throw { message := "Failed to read pipeline file: " ++ file }
  | some text =>
    match pipelineOf? text with
    | some config => return config
    | none => throw { message := "Invalid pipeline definition in " ++ file }

/-- Does a task and gives the lines to show. -/
def perform (w : World m) (client : Client) (task : Task) : Program m (List String) := do
  let ask := fun (c : Command) => asking w client c .ofClient
  match task with
  | .createPipeline file name =>
    let config ← readPipeline w file
    let config := { config with name := name.getD config.name }
    let summary ← asking w client (.createPipeline config) fun e =>
      { message := "Failed to create pipeline " ++ config.name, cause := some e.message }
    return Screen.saved w.ink summary
  | .listPipelines => return Screen.pipelines w.ink (← ask .listPipelines)
  | .pipeline name => return Screen.pipelineDetails w.ink (← ask (.pipeline name))
  | .queue name => return Screen.queue w.ink name (← ask (.queue name))
  | .materials name => return Screen.materials w.ink (← ask (.materials name))
  | .schedule name run =>
    return Screen.scheduled w.ink name run.counter (← ask (.schedule name run))
  | .waiting => return Screen.builds w.ink (← ask .waiting)
  | .job id => return Screen.jobDetails w.ink (← ask (.job (← readId id)))
  | .reschedule id => return Screen.rescheduled w.ink (← ask (.reschedule (← readId id)))
  | .cancel id => return Screen.cancelled w.ink (← ask (.cancel (← readId id)))
  | .status pipeline stage job =>
    let outcome ← (client.ask w.send (.currentJob pipeline stage job) : m _)
    match outcome with
    | .ok summary => return Screen.jobDetails w.ink summary
    | .error e =>
      if e.isNotFound then return Screen.neverScheduled w.ink pipeline stage job
      else throw (.ofClient e)
  | .listAgents => return Screen.agents w.ink (← ask .listAgents)
  | .notifyGit url => return Screen.notified w.ink (← ask (.notifyGit url))

/-- How the program ended: its code, and the lines it showed on its two channels. -/
structure Ending where
  code : Nat
  output : List String := []
  errors : List String := []
  deriving DecidableEq, Repr

namespace Ending

/-- Lines as a channel carries them. -/
def carried (lines : List String) : String := String.join (lines.map (· ++ "\n"))

def outputText (e : Ending) : String := carried e.output

def errorText (e : Ending) : String := carried e.errors

end Ending

/-- Where the server is if nothing else is said. -/
def defaultUrl : String := "http://localhost:8080"

/-- The tasks of the program, one a line. -/
def usageLines : List String :=
  "Usage: gantry [--orchestrator-url URL] GROUP TASK" ::
    Task.groups.map fun group => "  " ++ group.1 ++ ": " ++ ", ".intercalate (group.2.map (·.1))

/-- Runs the program with arguments, and with the URL of the server from its surroundings. -/
def run (w : World m) (url : Option String) (arguments : List String) : m Ending := do
  match Invocation.ofArguments arguments with
  | .error .help => return { code := 0, output := usageLines }
  | .error .wrong => return { code := 2, errors := usageLines }
  | .ok invocation =>
    let client := Client.ofUrl ((invocation.url <|> url).getD defaultUrl)
    match ← (perform w client invocation.task).run with
    | .ok lines => return { code := 0, output := lines }
    | .error complaint => return { code := 1, errors := complaint.lines }

end

end BuildServer.Terminal
