import VariantCache.CommandLine.Invocation

/-!
# Help

The help of the program and of each command lists what may stand on the command
line. What an option does stands next to it where there is room on every line,
and below it otherwise.
-/

namespace VariantCache.CommandLine

/-- The name of the program. -/
def programName : String := "repcache"

/-- The version of the program. -/
def programVersion : String := "0.1.0"

/-- A line of a list: what may be written, and what it does. -/
structure Item where
  /-- What stands at the start of the line, which may be empty. -/
  lead : String
  written : String
  purpose : String

namespace Item

/-- The width of a line. -/
def lineWidth : Nat := 100

/-- The text with blanks after it up to a width. -/
def padded (width : Nat) (text : String) : String :=
  text ++ String.ofList (List.replicate (width - text.length) ' ')

/-- The greatest width of what may be written. -/
def width (items : List Item) : Nat := (items.map (·.written.length)).foldl max 0

/-- An item has no room beside what is written, which takes up the given width. -/
def isCramped (taken : Nat) (i : Item) : Bool :=
  taken ≤ lineWidth && 40 * lineWidth < 100 * taken && lineWidth - taken < i.purpose.length

/-- The lines of options. -/
def optionLines (items : List Item) : String :=
  let taken := width items + 12
  let lines := items.map fun i =>
    if items.any (isCramped taken) then s!"  {i.lead}{i.written}\n          {i.purpose}\n"
    else s!"  {i.lead}{padded (width items) i.written}  {i.purpose}\n"
  String.join lines

/-- The lines of commands. -/
def commandLines (items : List Item) : String :=
  String.join (items.map fun i => s!"  {padded (width items) i.written}  {i.purpose}\n")

/-- The line of an option with a value. -/
def ofFlag {α : Type} (flag : Flag α) : Item :=
  ⟨"    ", s!"--{flag.name} <{flag.valueName}>", flag.purpose⟩

/-- The line of the option that asks for help. -/
def help : Item := ⟨"-h, ", "--help", "Print help"⟩

/-- The line of the option that asks for the version. -/
def version : Item := ⟨"-V, ", "--version", "Print version"⟩

end Item

/-- What a command does. -/
def CommandName.purpose : CommandName → String
  | serve => "Run the HTTP demo server"
  | checkConfig => "Resolve and validate configuration, then exit"

/-- What the command does that asks for help. -/
def helpPurpose : String := "Print this message or the help of the given subcommand(s)"

/-- The help of the program. It shows the value of the environment variable. -/
def programHelp (environment : List (String × String)) : String :=
  let commands := CommandName.all.map fun c => Item.mk "" c.text c.purpose
  let value := (environment.lookup configVariable).getD ""
  let shown := s!"[env: {configVariable}={value}]"
  let flag := Item.ofFlag { configFlag with purpose := s!"{configFlag.purpose} {shown}" }
  "Representation cache and content negotiation demo server\n\n" ++
    s!"Usage: {programName} [OPTIONS] [COMMAND]\n\n" ++
    "Commands:\n" ++ Item.commandLines (commands ++ [⟨"", helpCommand, helpPurpose⟩]) ++ "\n" ++
    "Options:\n" ++ Item.optionLines [flag, Item.help, Item.version]

/-- The help of a command. -/
def CommandName.help (c : CommandName) : String :=
  s!"{c.purpose}\n\nUsage: {programName} {c.text} [OPTIONS]\n\nOptions:\n" ++
    Item.optionLines (c.level.flags.map Item.ofFlag ++ [Item.help])

/-- The help of the command that asks for help. -/
def helpOnHelp : String :=
  s!"{helpPurpose}\n\nUsage: {programName} {helpCommand} [COMMAND]...\n\nArguments:\n" ++
    "  [COMMAND]...  Print help for the subcommand(s)\n"

/-- The help of a command or of the program. -/
def helpText (environment : List (String × String)) : Option String → String
  | none => programHelp environment
  | some word =>
    match CommandName.ofText? word with
    | some name => name.help
    | none => helpOnHelp

/-- What the program says when asked for its version. -/
def versionText : String := s!"{programName} {programVersion}\n"

end VariantCache.CommandLine
