import VariantCache.CommandLine.Basic
import VariantCache.Configuration.Draft

/-!
# Commands of the program

The program serves, or checks its configuration. Settings on the command line go
before those of every other source; a check takes only those of the cache. The
path of a configuration file stands before the command, or in an environment
variable.
-/

namespace VariantCache.CommandLine

open VariantCache.Configuration

/-! ### Values -/

/-- Reads a value as one that it must be. -/
def require {α : Type} (value : Option α) : Except UsageFault α :=
  match value with
  | some v => .ok v
  | none => .error .invalidValue

/-- Reads a natural number of 64 bits. -/
def count (text : String) : Except UsageFault Nat := require (Natural.parse? Natural.max64 text)

/-- Reads a port. Zero may have a minus. -/
def port (text : String) : Except UsageFault Nat :=
  require <| match text.toList with
    | '-' :: digits => Natural.ofDigits? 0 digits
    | _ => Natural.parse? Natural.max16 text

/-- Reads the kind of a backend. -/
def kind (text : String) : Except UsageFault BackendKind := require (BackendKind.parse text).toOption

/-- Words for yes. -/
def yesWords : List String := ["y", "yes", "t", "true", "on", "1"]

/-- Words for no. -/
def noWords : List String := ["n", "no", "f", "false", "off", "0"]

/-- Reads a word for yes or no in any letter case. -/
def yesOrNo (text : String) : Except UsageFault Bool :=
  let word := Text.lower text
  if yesWords.contains word then .ok true
  else if noWords.contains word then .ok false
  else .error .invalidValue

/-- Reads a path, which is not empty. -/
def path (text : String) : Except UsageFault String :=
  if text.isEmpty then .error .missingValue else .ok text

/-! ### Options -/

/-- The options for the settings of the cache. -/
def cacheFlags : List (Flag Override) := [
  ⟨"cache-type", "TYPE", "Override the cache backend (map|bounded|tiered|none)",
    fun text => (kind text).map fun k => .cache (.kind k)⟩,
  ⟨"cache-max-size", "BYTES", "Override the bounded cache capacity in bytes",
    fun text => (count text).map fun n => .cache (.maxSize n)⟩,
  ⟨"cache-average-size", "BYTES",
    "Override the expected entry size used to pre-size the bounded cache",
    fun text => (count text).map fun n => .cache (.averageSize n)⟩,
  ⟨"cache-prune-frequency-seconds", "SECONDS", "Override the background prune interval",
    fun text => (count text).map fun n => .cache (.pruneFrequency n)⟩,
  ⟨"cache-write-buffer", "COUNT", "Override the bounded cache write buffer length",
    fun text => (count text).map fun n => .cache (.writeBuffer n)⟩]

/-- The options for the settings of the server and of the log. -/
def serverFlags : List (Flag Override) := [
  ⟨"server-host", "HOST", "Override the listener host", fun text => .ok (.host text)⟩,
  ⟨"server-port", "PORT", "Override the listener port", fun text => (port text).map .port⟩,
  ⟨"server-graceful-shutdown-seconds", "SECONDS", "Override the graceful shutdown timeout",
    fun text => (count text).map .gracefulShutdown⟩,
  ⟨"log-level", "LEVEL", "Override the base log level (trace|debug|info|warn|error)",
    fun text => .ok (.level text)⟩,
  ⟨"log-json", "BOOL", "Toggle JSON logging [possible values: true, false]",
    fun text => (yesOrNo text).map .json⟩]

/-- The option for the path of a configuration file. -/
def configFlag : Flag String :=
  ⟨"config-file", "PATH", "Optional path to a configuration file", path⟩

/-- The environment variable for the path of a configuration file. -/
def configVariable : String := "REPCACHE_CONFIG_FILE"

/-! ### Commands -/

/-- The commands. -/
inductive CommandName where
  | serve
  | checkConfig
  deriving DecidableEq

namespace CommandName

/-- Every command. -/
def all : List CommandName := [serve, checkConfig]

/-- What a command is called. -/
def text : CommandName → String
  | serve => "serve"
  | checkConfig => "check-config"

/-- The command with a name. -/
def ofText? (text : String) : Option CommandName := all.find? (·.text == text)

/-- What may follow a command. -/
def level (c : CommandName) : Level Override where
  flags := match c with
    | serve => cacheFlags ++ serverFlags
    | checkConfig => cacheFlags
  commands := []
  command := some c.text

end CommandName

/-- The command that asks for help. -/
def helpCommand : String := "help"

/-- What may stand before a command. -/
def programLevel : Level String where
  flags := [configFlag]
  commands := CommandName.all.map (·.text) ++ [helpCommand]
  command := none

/-- A command with the settings that go before those of other sources. -/
structure Command where
  name : CommandName
  overrides : List Override

/-- What a command line asks for. -/
structure Invocation where
  /-- The path of a configuration file. -/
  configFile : Option String
  /-- The command, if one is named. -/
  command : Option Command

/-! ### Reading -/

/-- Reads the words after a command. -/
def CommandName.parse (name : CommandName) (words : List String) : Except Halt Command := do
  let (scan, _) ← name.level.scan .empty words
  return ⟨name, ← scan.values⟩

/-- Reads the words after the command that asks for help. -/
def helpOn : List String → Halt
  | [] => .help none
  | [word] => if programLevel.commands.contains word then .help (some word) else .fault .unknownCommand
  | _ :: _ :: _ => .fault .unknownCommand

/-- Reads a command, if there is one. -/
def parseCommand : Option (String × List String) → Except Halt (Option Command)
  | none => .ok none
  | some (word, rest) =>
    match CommandName.ofText? word with
    | some name => (name.parse rest).map some
    | none => .error (helpOn rest)

/-- Reads a command line. The environment variable counts when the option is not there. -/
def Invocation.parse (environment : List (String × String)) (words : List String) :
    Except Halt Invocation := do
  let (scan, rest) ← programLevel.scan .empty words
  let command ← parseCommand rest
  match ← scan.values, environment.lookup configVariable with
  | file :: _, _ => return ⟨some file, command⟩
  | [], none => return ⟨none, command⟩
  | [], some text => return ⟨some (← (path text).mapError .fault), command⟩

/-- The settings that go before those of other sources. -/
def Invocation.overrides (i : Invocation) : List Override :=
  match i.command with
  | some command => command.overrides
  | none => []

end VariantCache.CommandLine
