import BuildServer.Json.Decode
import BuildServer.Json.Printer
import BuildServer.Network.IpAddress
import BuildServer.Text.Blank
/-!
# Agents

An agent is the machine that builds. What the server knows about it is a snapshot, which every
report of the agent brings up to date. The cookie is chosen by the process that reports: two
processes that go by one identifier carry different cookies.
-/

set_option autoImplicit false

namespace BuildServer

/-- Who an agent is (`AgentIdentifier`). -/
structure AgentIdentifier where
  hostname : String
  ipAddress : String
  uuid : String
  deriving DecidableEq, Repr, Inhabited

namespace AgentIdentifier

/-- The agent runs on the machine of the server (`AgentIdentifier::is_local`). -/
def isLocal (id : AgentIdentifier) : Bool :=
  (IpAddress.parse? id.ipAddress).any (·.isLoopback)

def toJson (id : AgentIdentifier) : Json :=
  .object [("hostname", .string id.hostname), ("ip_address", .string id.ipAddress),
    ("uuid", .string id.uuid)]

def ofJson : Json.Decoder AgentIdentifier :=
  Json.record ["hostname", "ip_address", "uuid"] fun parts =>
    AgentIdentifier.mk
      <$> parts.required 0 "hostname" Json.text
      <*> parts.required 1 "ip_address" Json.text
      <*> parts.required 2 "uuid" Json.text

end AgentIdentifier

/-- What an agent is doing (`AgentRuntimeStatus`). -/
inductive AgentStatus where
  | idle
  | building
  | lostContact
  | missing
  | cancelled
  | unknown
  deriving DecidableEq, Repr, Inhabited

namespace AgentStatus

def all : List AgentStatus := [.idle, .building, .lostContact, .missing, .cancelled, .unknown]

def name : AgentStatus → String
  | .idle => "Idle"
  | .building => "Building"
  | .lostContact => "LostContact"
  | .missing => "Missing"
  | .cancelled => "Cancelled"
  | .unknown => "Unknown"

def toJson (status : AgentStatus) : Json := .string status.name

def ofJson : Json.Decoder AgentStatus := Json.oneOf (all.map fun status => (status.name, status))

end AgentStatus

/-- What an agent is building; both texts are empty if it builds nothing (`AgentBuildingInfo`). -/
structure BuildingInfo where
  buildInfo : String := ""
  buildLocator : String := ""
  deriving DecidableEq, Repr, Inhabited

namespace BuildingInfo

def isBuilding (info : BuildingInfo) : Bool := !info.buildLocator.isEmpty

def toJson (info : BuildingInfo) : Json :=
  .object [("build_info", .string info.buildInfo), ("build_locator", .string info.buildLocator)]

def ofJson : Json.Decoder BuildingInfo :=
  Json.record ["build_info", "build_locator"] fun parts =>
    BuildingInfo.mk
      <$> parts.required 0 "build_info" Json.text
      <*> parts.required 1 "build_locator" Json.text

end BuildingInfo

/-- Why a snapshot was refused (`AgentError`). -/
inductive AgentError where
  | missingLocation
  deriving DecidableEq, Repr

namespace AgentError

def message : AgentError → String
  | .missingLocation => "Agent should not register without installation path"

end AgentError

/-- What is known about an agent (`AgentRuntimeInfo`). -/
structure AgentInfo where
  identifier : AgentIdentifier
  status : AgentStatus
  buildingInfo : BuildingInfo := {}
  location : String
  /-- The octets free at the location, if known. -/
  usableSpace : Option UInt64 := none
  operatingSystem : Option String := none
  cookie : Option String := none
  agentVersion : Option String := none
  bootstrapperVersion : Option String := none
  deriving DecidableEq, Repr, Inhabited

namespace AgentInfo

/-- The snapshot of an agent that the server registers (`AgentRuntimeInfo::from_server`). It must have a
location; it counts as idle if it is registered already or runs on the machine of the server. -/
def ofServer (identifier : AgentIdentifier) (registered : Bool) (location : String)
    (usableSpace : Option UInt64) (operatingSystem : Option String) : Except AgentError AgentInfo :=
  if Text.isAllBlank location then .error .missingLocation
  else
    let status := if registered || identifier.isLocal then .idle else .unknown
    .ok { identifier, status, location, usableSpace, operatingSystem }

/-- The snapshot that an agent reports about itself, with the space it measured
(`AgentRuntimeInfo::from_agent`). -/
def ofAgent (identifier : AgentIdentifier) (status : AgentStatus) (location : String)
    (cookie : Option String) (operatingSystem : Option String) (measured : Option UInt64) :
    AgentInfo :=
  { identifier, status, location, usableSpace := measured, operatingSystem, cookie }

/-- The snapshot of an agent that has not been heard from (`AgentRuntimeInfo::initial_state`). -/
def initial (identifier : AgentIdentifier) : AgentInfo :=
  { identifier, status := .missing, location := "" }

def uuid (info : AgentInfo) : String := info.identifier.uuid

def withAgentVersion (version : String) (info : AgentInfo) : AgentInfo :=
  { info with agentVersion := some version }

def withBootstrapperVersion (version : String) (info : AgentInfo) : AgentInfo :=
  { info with bootstrapperVersion := some version }

/-- Less space is known to be free than the limit (`is_low_disk_space`). -/
def isLowOnSpace (info : AgentInfo) (limit : UInt64) : Bool :=
  info.usableSpace.any (· < limit)

/-- Both cookies are known, and they differ (`has_duplicate_cookie`). -/
def hasOtherCookie (info : AgentInfo) (cookie : Option String) : Bool :=
  match info.cookie, cookie with
  | some ours, some theirs => ours != theirs
  | _, _ => false

def isCancelled (info : AgentInfo) : Bool := info.status == .cancelled

def idle (info : AgentInfo) : AgentInfo :=
  { info with status := .idle, buildingInfo := {} }

def busy (buildingInfo : BuildingInfo) (info : AgentInfo) : AgentInfo :=
  { info with status := .building, buildingInfo := buildingInfo }

def lostContact (info : AgentInfo) : AgentInfo :=
  { info with status := .lostContact }

/-- Takes over what a newer report says (`update_self`). Of its status only a cancellation is
taken over. -/
def update (info newer : AgentInfo) : AgentInfo :=
  { info with
    status := if newer.isCancelled then .cancelled else info.status
    buildingInfo := newer.buildingInfo
    location := newer.location
    usableSpace := newer.usableSpace
    operatingSystem := newer.operatingSystem
    agentVersion := newer.agentVersion
    bootstrapperVersion := newer.bootstrapperVersion }

/-- A line about the agent for logs (`agent_info_debug_string`). -/
def debugLine (info : AgentInfo) : String :=
  "Agent [" ++ ", ".intercalate
    [info.identifier.hostname, info.identifier.ipAddress, info.identifier.uuid,
      info.cookie.getD ""] ++ "]"

/-- A line about the agent for people (`agent_info_for_display`). -/
def displayLine (info : AgentInfo) : String :=
  "Agent located at [" ++ ", ".intercalate
    [info.identifier.hostname, info.identifier.ipAddress, info.location] ++ "]"

def toJson (info : AgentInfo) : Json :=
  .object [("identifier", info.identifier.toJson), ("runtime_status", info.status.toJson),
    ("building_info", info.buildingInfo.toJson), ("location", .string info.location),
    ("usable_space", Json.ofOption (fun n => .integer n.toNat) info.usableSpace),
    ("operating_system", Json.ofOption .string info.operatingSystem),
    ("cookie", Json.ofOption .string info.cookie),
    ("agent_version", Json.ofOption .string info.agentVersion),
    ("bootstrapper_version", Json.ofOption .string info.bootstrapperVersion)]

def ofJson : Json.Decoder AgentInfo :=
  Json.record ["identifier", "runtime_status", "building_info", "location", "usable_space",
      "operating_system", "cookie", "agent_version", "bootstrapper_version"] fun parts =>
    AgentInfo.mk
      <$> parts.required 0 "identifier" AgentIdentifier.ofJson
      <*> parts.required 1 "runtime_status" AgentStatus.ofJson
      <*> parts.defaulted 2 "building_info" BuildingInfo.ofJson {}
      <*> parts.required 3 "location" Json.text
      <*> parts.optional 4 "usable_space" Json.word64
      <*> parts.optional 5 "operating_system" Json.text
      <*> parts.optional 6 "cookie" Json.text
      <*> parts.defaulted 7 "agent_version" (Json.nullable Json.text) none
      <*> parts.defaulted 8 "bootstrapper_version" (Json.nullable Json.text) none

end AgentInfo

/-- What is told about an agent (`AgentSummary`). -/
structure AgentSummary where
  uuid : String
  hostname : String
  ipAddress : String
  status : AgentStatus
  location : String
  usableSpace : Option UInt64
  operatingSystem : Option String
  agentVersion : Option String
  deriving DecidableEq, Repr, Inhabited

namespace AgentSummary

def ofInfo (info : AgentInfo) : AgentSummary where
  uuid := info.uuid
  hostname := info.identifier.hostname
  ipAddress := info.identifier.ipAddress
  status := info.status
  location := info.location
  usableSpace := info.usableSpace
  operatingSystem := info.operatingSystem
  agentVersion := info.agentVersion

def toJson (s : AgentSummary) : Json :=
  .object [("uuid", .string s.uuid), ("hostname", .string s.hostname),
    ("ip_address", .string s.ipAddress), ("status", s.status.toJson),
    ("location", .string s.location),
    ("usable_space", Json.ofOption (fun n => .integer n.toNat) s.usableSpace),
    ("operating_system", Json.ofOption .string s.operatingSystem),
    ("agent_version", Json.ofOption .string s.agentVersion)]

def ofJson : Json.Decoder AgentSummary :=
  Json.record ["uuid", "hostname", "ip_address", "status", "location", "usable_space",
      "operating_system", "agent_version"] fun parts =>
    AgentSummary.mk
      <$> parts.required 0 "uuid" Json.text
      <*> parts.required 1 "hostname" Json.text
      <*> parts.required 2 "ip_address" Json.text
      <*> parts.required 3 "status" AgentStatus.ofJson
      <*> parts.required 4 "location" Json.text
      <*> parts.optional 5 "usable_space" Json.word64
      <*> parts.optional 6 "operating_system" Json.text
      <*> parts.optional 7 "agent_version" Json.text

end AgentSummary

end BuildServer
