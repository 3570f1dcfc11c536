import BuildServer.Text.Blank
import BuildServer.Text.Digits
/-!
# Settings of the server

The settings come from the environment, each with a value of its own where it is not set. A number
of connections that is no number is an error at once; a time limit that is none is passed over.
Whether the settings make sense is asked separately.
-/

set_option autoImplicit false

namespace BuildServer

/-- What the server is told when it starts (`Config`). -/
structure Settings where
  /-- The address it listens on. -/
  bindAddress : String := "0.0.0.0:8080"
  /-- The database for jobs, which are kept in memory if there is none. -/
  databaseUrl : Option String := none
  maxConnections : UInt32 := 10
  /-- How many seconds it waits for a connection to the database. -/
  acquireTimeout : UInt64 := 5
  deriving DecidableEq, Repr, Inhabited

/-- What is wrong with settings. -/
inductive SettingsError where
  | connectionsNotNumber (text : String)
  | emptyAddress
  | otherDatabase
  | noConnections
  | noTimeout
  deriving DecidableEq, Repr

namespace SettingsError

def message : SettingsError → String
  | .connectionsNotNumber s => "DB_MAX_CONNECTIONS must be a number, got '" ++ s ++ "'"
  | .emptyAddress => "bind_addr cannot be empty"
  | .otherDatabase => "DATABASE_URL must start with postgres:// or postgresql://"
  | .noConnections => "db_max_connections must be greater than 0"
  | .noTimeout => "db_acquire_timeout must be greater than 0"

end SettingsError

namespace Settings

/-- The settings that an environment gives (`Config::from_env`). -/
def ofEnvironment (valueOf? : String → Option String) : Except SettingsError Settings := do
  let default : Settings := {}
  let maxConnections ← match valueOf? "DB_MAX_CONNECTIONS" with
    | none => pure default.maxConnections
    | some s =>
      match Text.decimalBelow? UInt32.size s with
      | some n => pure (UInt32.ofNat n)
      | none => throw (.connectionsNotNumber s)
  let acquireTimeout := (valueOf? "DB_ACQUIRE_TIMEOUT").bind (Text.decimalBelow? UInt64.size)
  return {
    bindAddress := (valueOf? "ORCHESTRATOR_BIND_ADDR").getD default.bindAddress
    databaseUrl := (valueOf? "DATABASE_URL").filter (!Text.isAllBlank ·)
    maxConnections
    acquireTimeout := (acquireTimeout.map UInt64.ofNat).getD default.acquireTimeout }

/-- The databases that are supported, by the beginnings of their URLs. -/
def databaseSchemes : List String := ["postgres://", "postgresql://"]

/-- The first thing that is wrong with the settings (`Config::validate`). -/
def fault? (settings : Settings) : Option SettingsError :=
  if settings.bindAddress.isEmpty then some .emptyAddress
  else if settings.databaseUrl.any fun url => !databaseSchemes.any fun scheme =>
      scheme.toList.isPrefixOf url.toList then
    some .otherDatabase
  else if settings.maxConnections = 0 then some .noConnections
  else if settings.acquireTimeout = 0 then some .noTimeout
  else none

end Settings

end BuildServer
