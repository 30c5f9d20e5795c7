import VariantCache.Program

/-!
# The command line program

Reads the files and the environment that the configuration may come from, runs the
program, and prints what it comes to. There is no network here: a run that would
begin to serve ends with an error instead.
-/

namespace VariantCache

open Document CommandLine

/-- The bindings in a text where a character of number zero ends each one. -/
def bindingsOf (text : String) : List (String × String) :=
  (Text.splitAt '\x00' text.toList).filterMap fun cs =>
    (Text.cut? '=' cs).map fun (name, value) => (String.ofList name, String.ofList value)

/-- The environment of the process. -/
def readEnvironment : IO (List (String × String)) := do
  try
    return bindingsOf (← IO.FS.readFile "/proc/self/environ")
  catch _ =>
    return ((← IO.getEnv configVariable).map fun value => [(configVariable, value)]).getD []

/-- The files that documents of the given names may be in, as far as they can be read. -/
def readFiles (names : List String) : IO Files := do
  let mut files := []
  for path in names.flatMap Files.candidates do
    try
      files := files ++ [(path, ← IO.FS.readFile path)]
    catch _ => pure ()
  return files

/-- The names of the documents that the settings may come from. -/
def documentNames (environment : List (String × String)) (words : List String) : List String :=
  let asked := match Invocation.parse environment words with
    | .ok invocation => invocation.configFile.toList
    | .error _ => []
  [Configuration.defaultFile, Configuration.localFile] ++ asked

end VariantCache

open VariantCache in
/-- Runs the program. -/
def main (words : List String) : IO UInt32 := do
  let environment ← readEnvironment
  let files ← readFiles (documentNames environment words)
  let outcome := run files environment words
  match outcome with
  | .printed text => IO.print text
  | .misused _ => IO.eprintln s!"error: the command line is wrong; try '{CommandLine.programName} --help'"
  | .failed e => IO.eprintln s!"error: {e.message}"
  | .serving _ => IO.eprintln ("error: " ++ (ProgramError.io "no network").message)
  return outcome.exitCode.toUInt32
