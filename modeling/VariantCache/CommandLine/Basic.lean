/-!
# Command lines

A command line is a sequence of options with values and perhaps a command, which
takes the words after it. An option is written with two dashes, and its value
follows as the next word or after an equals sign. A value is read when the next
option comes, or at the end; one after an equals sign is read at once. After two
dashes alone no word is an option.
-/

namespace VariantCache.CommandLine

/-- What is wrong with a command line. -/
inductive UsageFault where
  /-- A word that is no option, where none can stand. -/
  | unknownArgument
  /-- An option without its value. -/
  | missingValue
  /-- An option for the second time. -/
  | repeatedOption
  /-- A word that is no command, where one can stand. -/
  | unknownCommand
  /-- A value that the option cannot have. -/
  | invalidValue
  /-- A value for an option that has none. -/
  | needlessValue
  deriving DecidableEq

/-- Why no command is carried out. -/
inductive Halt where
  | fault (fault : UsageFault)
  /-- The help of a command, or of the program, was asked for. -/
  | help (command : Option String)
  /-- The version of the program was asked for. -/
  | version
  deriving DecidableEq

/-- An option with values of type `α`. -/
structure Flag (α : Type) where
  /-- The name without dashes. -/
  name : String
  /-- What the value is called in the help. -/
  valueName : String
  /-- What the option does. -/
  purpose : String
  /-- Reads the value. -/
  read : String → Except UsageFault α

/-- What may stand on a command line, or on the part of it that a command takes. -/
structure Level (α : Type) where
  flags : List (Flag α)
  commands : List String
  /-- The command whose words these are. -/
  command : Option String

/-! ### Words -/

/-- What a word looks like. -/
inductive Word where
  /-- Two dashes alone. -/
  | separator
  /-- A name after two dashes, and a value after an equals sign. -/
  | long (name : String) (value : Option String)
  /-- Letters after one dash. -/
  | short (letters : List Char)
  | plain

/-- What a word looks like. -/
def Word.ofString (word : String) : Word :=
  match word.toList with
  | ['-', '-'] => separator
  | '-' :: '-' :: rest =>
    let name := rest.takeWhile (· != '=')
    match rest.dropWhile (· != '=') with
    | [] => long (String.ofList name) none
    | _ :: value => long (String.ofList name) (some (String.ofList value))
  | '-' :: c :: rest => short (c :: rest)
  | _ => plain

/-! ### Scanning -/

/-- What was seen of a command line. -/
structure Scan (α : Type) where
  /-- The options that were read, with their values. -/
  settled : List (String × α)
  /-- An option that is not read yet, with its value once that was seen. -/
  pending : Option (Flag α × Option String)
  /-- Two dashes alone were seen. -/
  isTrailing : Bool

namespace Scan

variable {α : Type}

/-- Nothing was seen. -/
def empty : Scan α := ⟨[], none, false⟩

/-- The next word is the value of an option. -/
def awaitsValue (s : Scan α) : Bool :=
  match s.pending with
  | some (_, none) => true
  | _ => false

/-- Reads an option, which must not have been read before. -/
def take (s : Scan α) (flag : Flag α) (value : String) : Except Halt (Scan α) :=
  if s.settled.any (·.1 == flag.name) then .error (.fault .repeatedOption)
  else
    match flag.read value with
    | .error fault => .error (.fault fault)
    | .ok v => .ok { s with settled := s.settled ++ [(flag.name, v)] }

/-- Reads the option that is pending. -/
def settle (s : Scan α) : Except Halt (Scan α) :=
  match s.pending with
  | none => .ok s
  | some (_, none) => .error (.fault .missingValue)
  | some (flag, some value) => take { s with pending := none } flag value

/-- The options that were read, once none is pending. -/
def values (s : Scan α) : Except Halt (List α) := s.settle.map fun s => s.settled.map (·.2)

/-- Stops for something that is asked for, unless the option before it is wrong. -/
def haltFor (s : Scan α) (halt : Halt) : Except Halt (Scan α) :=
  s.settle.bind fun _ => .error halt

end Scan

namespace Level

variable {α : Type}

/-- The word is out of place. -/
def stray (level : Level α) : Halt :=
  .fault (if level.commands.isEmpty then .unknownArgument else .unknownCommand)

/-- Goes over a name after two dashes. -/
def long (level : Level α) (s : Scan α) (name : String) (value : Option String) :
    Except Halt (Scan α) :=
  let asked : Option Halt :=
    if name = "help" then some (.help level.command)
    else if name = "version" && level.command.isNone then some .version
    else none
  match asked, value with
  | some halt, none => s.haltFor halt
  | some _, some _ => .error (.fault .needlessValue)
  | none, _ =>
    match level.flags.find? (·.name == name) with
    | none => .error (.fault .unknownArgument)
    | some flag =>
      s.settle.bind fun s =>
        match value with
        | some value => s.take flag value
        | none => .ok { s with pending := some (flag, none) }

/-- Goes over letters after one dash. -/
def short (level : Level α) (s : Scan α) : List Char → Except Halt (Scan α)
  | [] => .ok s
  | c :: _ =>
    if c = 'h' then s.haltFor (.help level.command)
    else if c = 'V' && level.command.isNone then s.haltFor .version
    else .error (.fault .unknownArgument)

/-- Goes over a word that is neither an option nor a command. -/
def plain (level : Level α) (s : Scan α) (word : String) : Except Halt (Scan α) :=
  match s.pending with
  | some (flag, none) => .ok { s with pending := some (flag, some word) }
  | _ => .error level.stray

/-- Goes over a command line up to a command, and gives that and the words after it. -/
def scan (level : Level α) (s : Scan α) :
    List String → Except Halt (Scan α × Option (String × List String))
  | [] => .ok (s, none)
  | word :: rest =>
    let isCommand := level.commands.contains word
    if s.isTrailing then
      .error (if isCommand then .fault .unknownArgument else level.stray)
    else if isCommand && !s.awaitsValue then .ok (s, some (word, rest))
    else
      match Word.ofString word with
      | .separator => scan level { s with isTrailing := true } rest
      | .long name value => (level.long s name value).bind fun s => scan level s rest
      | .short letters => (level.short s letters).bind fun s => scan level s rest
      | .plain => (level.plain s word).bind fun s => scan level s rest

end Level
end VariantCache.CommandLine
