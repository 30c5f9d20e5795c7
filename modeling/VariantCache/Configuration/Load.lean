import VariantCache.CommandLine.Invocation
import VariantCache.Configuration.Basic
import VariantCache.Document.Files

/-!
# Loading the settings

Settings come from layers. From the bottom up these are the default file, the local
file, the file that is asked for, the environment, and the command line; a setting
in a higher layer goes before the same setting in a lower one. Only the file that
is asked for has to be there.
-/

namespace VariantCache.Configuration

open Document CommandLine

/-! ### Layers -/

/-- The entries of a layer. -/
abbrev Layer := List (String × Value)

/-- The name of the default file. -/
def defaultFile : String := "config/default"

/-- The name of the local file. -/
def localFile : String := "repcache"

/-- The start of the names of the environment's settings, in lower case. -/
def variablePrefix : List Char := "repcache__".toList

/-- Two underscores in the name of a variable stand for a point in a path. -/
def pathOfVariable : List Char → List Char
  | '_' :: '_' :: rest => '.' :: pathOfVariable rest
  | c :: rest => c :: pathOfVariable rest
  | [] => []

/-- The setting in an environment variable, if it is one. The letter case of the name does not
matter. -/
def variableEntry? (binding : String × String) : Option (String × Value) :=
  let name := Text.lowered binding.1.toList
  if variablePrefix.isPrefixOf name then
    some (String.ofList (pathOfVariable (name.drop variablePrefix.length)), .text binding.2)
  else none

/-- The layer of the environment. -/
def environmentLayer (environment : List (String × String)) : Layer :=
  environment.filterMap variableEntry?

/-- The layer of a file. One that is not there is empty, unless it has to be there. -/
def fileLayer (files : Files) (name : String) (isRequired : Bool) : Except LoadError Layer :=
  match files.locate? name with
  | none => if isRequired then .error (.unreadable name) else .ok []
  | some (format, text) =>
    match format.parse? text with
    | some entries => .ok entries
    | none => .error (.unreadable name)

/-- The layers below the command line, with the lowest first. -/
def layers (files : Files) (environment : List (String × String)) (configFile : Option String) :
    Except LoadError (List Layer) := do
  let standard ← fileLayer files defaultFile false
  let here ← fileLayer files localFile false
  let asked ← match configFile with
    | none => pure []
    | some name => fileLayer files name true
  return [standard, here, asked, environmentLayer environment]

/-! ### Settings -/

/-- Loads the settings for what a command line asks for. -/
def load (files : Files) (environment : List (String × String)) (invocation : Invocation) :
    Except LoadError Settings := do
  let layers ← layers files environment invocation.configFile
  match Draft.ofValue? (merge layers) with
  | none => .error .illTyped
  | some draft => Settings.ofDraft (invocation.overrides.foldl Draft.override draft)

end VariantCache.Configuration
