import VariantCache.Configuration.Basic

/-!
# Descriptions of settings

Settings are described as a tree of named parts, each on a line of its own and
indented by its depth.
-/

namespace VariantCache.Configuration

/-- A part of a description. -/
inductive Part where
  /-- A word. -/
  | word (text : String)
  /-- Named parts in braces. -/
  | fields (name : String) (parts : List (String × Part))
  /-- A part in parentheses. -/
  | wrapped (name : String) (part : Part)
  /-- Parts in brackets. -/
  | items (parts : List Part)

namespace Part

/-- What stands before a line of the given depth. -/
def indent (depth : Nat) : String := String.ofList (List.replicate (4 * depth) ' ')

mutual

/-- The text of a part that stands at the given depth. -/
def text (depth : Nat) : Part → String
  | word text => text
  | fields name parts => name ++ " \x7b\n" ++ fieldLines (depth + 1) parts ++ indent depth ++ "\x7d"
  | wrapped name part =>
    name ++ "(\n" ++ indent (depth + 1) ++ text (depth + 1) part ++ ",\n" ++ indent depth ++ ")"
  | items [] => "[]"
  | items (part :: parts) =>
    "[\n" ++ itemLines (depth + 1) (part :: parts) ++ indent depth ++ "]"

/-- The lines of named parts. -/
def fieldLines (depth : Nat) : List (String × Part) → String
  | [] => ""
  | (name, part) :: rest =>
    indent depth ++ name ++ ": " ++ text depth part ++ ",\n" ++ fieldLines depth rest

/-- The lines of parts. -/
def itemLines (depth : Nat) : List Part → String
  | [] => ""
  | part :: rest => indent depth ++ text depth part ++ ",\n" ++ itemLines depth rest

end

/-- A number that may be missing. -/
def ofNumber (n : Option Nat) : Part :=
  match n with
  | none => word "None"
  | some n => wrapped "Some" (word (toString n))

/-- The kind of a backend. -/
def ofKind (kind : BackendKind) : Part :=
  word <| match kind with
    | .map => "Map"
    | .bounded => "Bounded"
    | .tiered => "Tiered"
    | .none => "None"

mutual

/-- The settings of a backend. -/
def ofBackend : BackendSettings → Part
  | ⟨kind, maxSize, averageSize, pruneFrequency, writeBuffer, tiers⟩ =>
    fields "BackendConfig" [("kind", ofKind kind), ("max_size", ofNumber maxSize),
      ("average_size", ofNumber averageSize), ("prune_frequency", ofNumber pruneFrequency),
      ("write_buffer", ofNumber writeBuffer), ("tiers", items (ofTiers tiers))]

/-- The settings of tiers. -/
def ofTiers : List BackendSettings → List Part
  | [] => []
  | tier :: rest => ofBackend tier :: ofTiers rest

end

/-- The settings of the program. -/
def ofSettings (s : Settings) : Part :=
  let format := match s.logging.format with
    | .json => "Json"
    | .compact => "Compact"
  fields "Settings" [
    ("server", fields "ServerSettings" [("addr", word s.server.address.text),
      ("graceful_shutdown", word s!"{s.server.gracefulShutdown.seconds}s")]),
    ("logging", fields "LoggingSettings" [
      ("level", word s!"LevelFilter::{s.logging.level.name.map Char.toUpper}"),
      ("format", word format)]),
    ("cache", ofBackend s.cache)]

end Part

/-- The description of settings. -/
def Settings.description (s : Settings) : String := (Part.ofSettings s).text 0

end VariantCache.Configuration
