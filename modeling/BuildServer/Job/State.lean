import BuildServer.Json.Decode
/-!
# States and results of jobs
-/

set_option autoImplicit false

namespace BuildServer

/-- Where a job is in its life (`JobState`). -/
inductive JobState where
  | scheduled
  | assigned
  | preparing
  | building
  | completing
  | completed
  | rescheduled
  | unknown
  deriving DecidableEq, Repr, Inhabited

namespace JobState

def all : List JobState :=
  [.scheduled, .assigned, .preparing, .building, .completing, .completed, .rescheduled, .unknown]

def name : JobState → String
  | .scheduled => "Scheduled"
  | .assigned => "Assigned"
  | .preparing => "Preparing"
  | .building => "Building"
  | .completing => "Completing"
  | .completed => "Completed"
  | .rescheduled => "Rescheduled"
  | .unknown => "Unknown"

/-- The job waits for an agent or is with one (`JobState::is_active`). -/
def isActive : JobState → Bool
  | .scheduled | .assigned | .preparing | .building | .completing => true
  | .completed | .rescheduled | .unknown => false

/-- The state with the name. -/
def ofName? (s : String) : Option JobState := all.find? (·.name == s)

/-- The message about a name that no state has. -/
def unknownMessage (s : String) : String := "unknown job state: " ++ s

def toJson (state : JobState) : Json := .string state.name

def ofJson : Json.Decoder JobState := Json.oneOf (all.map fun state => (state.name, state))

end JobState

/-- How a job came out (`JobResult`). -/
inductive JobResult where
  | unknown
  | passed
  | failed
  | cancelled
  deriving DecidableEq, Repr, Inhabited

namespace JobResult

def all : List JobResult := [.unknown, .passed, .failed, .cancelled]

def name : JobResult → String
  | .unknown => "Unknown"
  | .passed => "Passed"
  | .failed => "Failed"
  | .cancelled => "Cancelled"

/-- The result with the name. -/
def ofName? (s : String) : Option JobResult := all.find? (·.name == s)

/-- The message about a name that no result has. -/
def unknownMessage (s : String) : String := "unknown job result: " ++ s

def toJson (result : JobResult) : Json := .string result.name

def ofJson : Json.Decoder JobResult := Json.oneOf (all.map fun result => (result.name, result))

end JobResult

end BuildServer
