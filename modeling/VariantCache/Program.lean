import VariantCache.CommandLine.Help
import VariantCache.Configuration.Description
import VariantCache.Configuration.Load

/-!
# The program

What a run of the program comes to, up to the point where it begins to serve:
it prints a text, or complains about its command line, or fails, or has the
settings to serve with.
-/

namespace VariantCache

open VariantCache.Configuration CommandLine

/-- Why a run failed. -/
inductive ProgramError where
  /-- Reading, writing or listening failed. -/
  | io (detail : String)
  /-- The log could not be set up. -/
  | telemetry (detail : String)
  /-- The configuration is wrong. -/
  | configuration (detail : String)
  /-- The cache failed. -/
  | cache (error : CacheError)
  deriving DecidableEq

/-- What the error is called in messages. -/
def ProgramError.message : ProgramError → String
  | io detail => s!"io error: {detail}"
  | telemetry detail => s!"telemetry initialization failed: {detail}"
  | configuration detail => s!"configuration error: {detail}"
  | cache error => error.message

/-- The error for settings that could not be loaded. -/
def ProgramError.ofLoad (error : LoadError) : ProgramError :=
  configuration s!"failed to load configuration: {error.message}"

/-- What a run comes to. -/
inductive Outcome where
  /-- A text is printed. -/
  | printed (text : String)
  /-- The command line is wrong. -/
  | misused (fault : UsageFault)
  | failed (error : ProgramError)
  /-- The program is to serve. -/
  | serving (settings : Settings)

/-- Runs the program up to where it serves. -/
def run (files : Document.Files) (environment : List (String × String)) (words : List String) :
    Outcome :=
  match Invocation.parse environment words with
  | .error (.fault fault) => .misused fault
  | .error (.help command) => .printed (helpText environment command)
  | .error .version => .printed versionText
  | .ok invocation =>
    match load files environment invocation with
    | .error e => .failed (.ofLoad e)
    | .ok settings =>
      match invocation.command with
      | some ⟨.checkConfig, _⟩ => .printed (settings.description ++ "\n")
      | some ⟨.serve, _⟩ | none => .serving settings

/-- The status with which a run ends. Serving only ends when it fails. -/
def Outcome.exitCode : Outcome → Nat
  | printed _ => 0
  | misused _ => 2
  | failed _ | serving _ => 1

end VariantCache
