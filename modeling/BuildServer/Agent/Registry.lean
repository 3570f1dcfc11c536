import BuildServer.Agent.Basic
import BuildServer.Rows
/-!
# The registry of agents

The registry keeps one snapshot for every agent that has reported. The first report with a cookie
fixes the cookie of the agent; a later report with another one is turned away, as is one without a
location. An agent that was cancelled stays so, whatever it reports.
-/

set_option autoImplicit false

namespace BuildServer

/-- Why a report was turned away (`AgentRegistryError`). -/
inductive RegistryError where
  /-- Another process reports under the identifier. -/
  | duplicateCookie (uuid : String)
  | agent (error : AgentError)
  deriving DecidableEq, Repr

/-- The agents that have reported, in the order of their first reports (`AgentRegistry`). -/
structure AgentRegistry where
  agents : List AgentInfo := []
  deriving DecidableEq, Repr, Inhabited

namespace AgentRegistry

/-- The snapshot of an agent (`AgentRegistry::find`). -/
def find? (r : AgentRegistry) (uuid : String) : Option AgentInfo :=
  r.agents.find? (·.uuid == uuid)

/-- The snapshot after another report of the agent with no other cookie. -/
def merge (known info : AgentInfo) : AgentInfo :=
  let merged := known.update info
  { merged with
    cookie := merged.cookie <|> info.cookie
    status := if merged.isCancelled then .cancelled else info.status }

/-- Puts a snapshot in the place of the one of the same agent, or at the end. -/
def put (info : AgentInfo) (agents : List AgentInfo) : List AgentInfo :=
  putRow (·.uuid) info agents

/-- Takes a report and gives the snapshot it leads to (`AgentRegistry::ping`). -/
def ping (r : AgentRegistry) (info : AgentInfo) : Except RegistryError AgentInfo × AgentRegistry :=
  if Text.isAllBlank info.location then (.error (.agent .missingLocation), r)
  else
    match r.find? info.uuid with
    | none => (.ok info, ⟨put info r.agents⟩)
    | some known =>
      if known.hasOtherCookie info.cookie then (.error (.duplicateCookie info.uuid), r)
      else
        let merged := merge known info
        (.ok merged, ⟨put merged r.agents⟩)

/-- The first agent comes before the second in lists: by hostname, then by identifier. -/
def listedBefore (a b : AgentInfo) : Bool :=
  if a.identifier.hostname = b.identifier.hostname then decide (a.uuid ≤ b.uuid)
  else decide (a.identifier.hostname < b.identifier.hostname)

/-- All agents, by hostname and then by identifier (`AgentRegistry::list`). -/
def list (r : AgentRegistry) : List AgentInfo :=
  r.agents.mergeSort listedBefore

end AgentRegistry

end BuildServer
