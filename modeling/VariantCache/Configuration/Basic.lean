import VariantCache.Net.Address
import VariantCache.Configuration.Draft

/-!
# Settings of the program

Settings are a draft in which every gap is filled by a default and every value is
valid. Server, log and cache are checked in this order, and the first fault is
reported with the name of the setting.
-/

namespace VariantCache.Configuration

/-! ### The log -/

/-- How much is logged. -/
inductive Level where
  | off
  | error
  | warn
  | info
  | debug
  | trace
  deriving DecidableEq

namespace Level

/-- Every level, with less logged first. -/
def all : List Level := [off, error, warn, info, debug, trace]

/-- The name of a level. -/
def name : Level → String
  | off => "off"
  | error => "error"
  | warn => "warn"
  | info => "info"
  | debug => "debug"
  | trace => "trace"

/-- Reads a level: its number or its name in any letter case. No text at all means errors. -/
def parse? (text : String) : Option Level :=
  match (Natural.parse? Natural.max64 text).bind (all[·]?) with
  | some level => some level
  | none => if text = "" then some error else all.find? fun level => Text.sameName level.name text

end Level

/-- How the log is written. -/
inductive LogFormat where
  | json
  | compact
  deriving DecidableEq

/-! ### Settings -/

/-- The settings of the server. -/
structure ServerSettings where
  address : Net.Address
  /-- How long a shutdown may take. -/
  gracefulShutdown : Duration

/-- The settings of the log. -/
structure LoggingSettings where
  level : Level
  format : LogFormat

/-- The settings of the program. -/
structure Settings where
  server : ServerSettings
  logging : LoggingSettings
  cache : BackendSettings

/-! ### Faults -/

/-- What is wrong with a setting. -/
inductive Fault where
  /-- The port is zero. -/
  | zeroPort
  /-- The text is no address. -/
  | invalidAddress (text : String)
  /-- A duration of zero. -/
  | notPositive
  /-- The text names no level. -/
  | invalidLevel
  /-- A setting of the cache is wrong. -/
  | cache (reason : Reason)
  /-- The cache reports something else. -/
  | cacheFailure (error : CacheError)
  deriving DecidableEq

/-- What the fault is called in messages. -/
def Fault.message : Fault → String
  | zeroPort => "port must be greater than zero"
  | invalidAddress text => s!"invalid address `{text}`: invalid socket address syntax"
  | notPositive => "must be greater than zero"
  | invalidLevel =>
    "failed to parse: error parsing level filter: expected one of \"off\", \"error\", \"warn\", " ++
      "\"info\", \"debug\", \"trace\", or a number 0-5"
  | cache reason => reason.message
  | cacheFailure error => error.message

/-- Why settings could not be loaded. -/
inductive LoadError where
  /-- A source is missing, or its text is not in its format. -/
  | unreadable (source : String)
  /-- A value is not of the type of its setting. -/
  | illTyped
  | invalid (key : String) (fault : Fault)
  deriving DecidableEq

namespace LoadError

/-- What the error is called in messages. -/
def message : LoadError → String
  | unreadable source => s!"failed to build configuration: cannot read {source}"
  | illTyped => "failed to build configuration: a value has the wrong type"
  | invalid key fault => s!"invalid configuration for `{key}`: {fault.message}"

/-- The error of the cache as one of the program's settings. -/
def ofCache (error : CacheError) : LoadError :=
  match error.within BackendSettings.tableName with
  | .invalidConfig key reason => invalid key (.cache reason)
  | error => invalid BackendSettings.tableName (.cacheFailure error)

end LoadError

/-! ### Checking a draft -/

/-- The host when nothing is said. -/
def defaultHost : String := "127.0.0.1"

/-- The port when nothing is said. -/
def defaultPort : Nat := 3000

/-- The seconds of a shutdown when nothing is said. -/
def defaultGracefulShutdown : Nat := 30

namespace Settings

/-- Checks the settings of the server. -/
def checkServer (d : ServerDraft) : Except LoadError ServerSettings :=
  let port := d.port.getD defaultPort
  let seconds := d.gracefulShutdown.getD defaultGracefulShutdown
  let text := s!"{d.host.getD defaultHost}:{port}"
  if port = 0 then .error (.invalid "server.port" .zeroPort)
  else
    match Net.Address.parse? text with
    | none => .error (.invalid "server.addr" (.invalidAddress text))
    | some address =>
      if seconds = 0 then .error (.invalid "server.graceful_shutdown_seconds" .notPositive)
      else .ok ⟨address, .ofSeconds seconds⟩

/-- Checks the settings of the log. -/
def checkLogging (d : LoggingDraft) : Except LoadError LoggingSettings :=
  match Level.parse? (d.level.getD Level.info.name) with
  | none => .error (.invalid "logging.level" .invalidLevel)
  | some level => .ok ⟨level, if d.json.getD false then .json else .compact⟩

/-- Checks a draft. -/
def ofDraft (d : Draft) : Except LoadError Settings := do
  let server ← checkServer d.server
  let logging ← checkLogging d.logging
  d.cache.validate.mapError .ofCache
  return { server, logging, cache := d.cache }

end Settings
end VariantCache.Configuration
