import VariantCache.Document.Value
import VariantCache.Number.Natural
import VariantCache.Configuration.Backend

/-!
# From values to settings

Settings are read from the values of a document. Values of one type convert to
another where the meaning is plain: a number in a text counts as the number, a
number as its text, and both have words and numbers for the truth values. A table
may be given as the list of its values in the order of their names.

Where no such freedom is wanted, a reading is exact instead.
-/

namespace VariantCache.Configuration

open Document

/-! ### Single values -/

/-- Words that count as true. -/
def trueWords : List String := ["true", "on", "yes"]

/-- Words that count as false. -/
def falseWords : List String := ["false", "off", "no"]

/-- The natural number that a value stands for, within a limit. -/
def naturalOf? (limit : Nat) : Value → Option Nat
  | .integer n => if 0 ≤ n then Natural.within? limit n.toNat else none
  | .bool b => Natural.within? limit b.toNat
  | .real x => Natural.within? limit (x.roundWithin Natural.max64)
  | .text s =>
    if trueWords.contains (Text.lower s) then Natural.within? limit 1
    else if falseWords.contains (Text.lower s) then Natural.within? limit 0
    else Natural.parse? limit s
  | .null | .list _ | .table _ => none

/-- The truth value that a value stands for. -/
def boolOf? : Value → Option Bool
  | .bool b => some b
  | .integer n => some (n != 0)
  | .real x => some (!x.isZero)
  | .text s =>
    if ("1" :: trueWords).contains (Text.lower s) then some true
    else if ("0" :: falseWords).contains (Text.lower s) then some false
    else none
  | .null | .list _ | .table _ => none

/-- The text that a value stands for. -/
def textOf? : Value → Option String
  | .text s => some s
  | .bool b => some (if b then "true" else "false")
  | .integer n => some (toString n)
  | .real x => some x.text
  | .null | .list _ | .table _ => none

/-- The kind that a value names. A table with the name alone, and anything under it, is one
way to name it. -/
def kindOf? : Value → Option BackendKind
  | .text s => BackendKind.ofName? s
  | .table [(name, _)] => BackendKind.ofName? name
  | _ => none

/-- A setting that may be left open by nothing at all. -/
def optional {α : Type} (read : Value → Option α) : Value → Option (Option α)
  | .null => some none
  | v => (read v).map some

/-! ### Ways of reading -/

/-- How the values of a backend's table are read. -/
structure Reading where
  natural? : Value → Option Nat
  kind? : Value → Option BackendKind
  /-- A list of values may be longer than the table. -/
  ignoresExcess : Bool

namespace Reading

/-- The reading that converts values. -/
def lenient : Reading := ⟨naturalOf? Natural.max64, kindOf?, true⟩

/-- The reading that takes values as they are. -/
def exact : Reading where
  natural?
    | .integer n => if 0 ≤ n then Natural.within? Natural.max64 n.toNat else none
    | _ => none
  kind?
    | .text s => BackendKind.ofName? s
    | .table [(name, .null)] => BackendKind.ofName? name
    | _ => none
  ignoresExcess := false

end Reading

/-! ### The table of a backend -/

namespace BackendSettings

/-- The names of the settings, in order. -/
def names : List String :=
  ["type", "max_size", "average_size", "prune_frequency", "write_buffer", "tiers"]

/-- The settings after one other than the tiers is read. Unknown names are passed over. -/
def setScalar? (reading : Reading) (s : BackendSettings) (name : String) (v : Value) :
    Option BackendSettings :=
  let number := optional reading.natural? v
  match name with
  | "type" => (reading.kind? v).map ({ s with kind := · })
  | "max_size" => number.map ({ s with maxSize := · })
  | "average_size" => number.map ({ s with averageSize := · })
  | "prune_frequency" => number.map ({ s with pruneFrequency := · })
  | "write_buffer" => number.map ({ s with writeBuffer := · })
  | _ => some s

variable (reading : Reading)

mutual

/-- Reads a table, or the list of its values. -/
def ofValue? : Value → Option BackendSettings
  | .table entries => ofEntries? standard entries
  | .list items => ofItems? standard names items
  | _ => none

/-- Reads the entries of a table into settings. -/
def ofEntries? (s : BackendSettings) : List (String × Value) → Option BackendSettings
  | [] => some s
  | (name, v) :: rest =>
    if name = "tiers" then
      match tiers? v with
      | some tiers => ofEntries? { s with tiers } rest
      | none => none
    else
      match s.setScalar? reading name v with
      | some s => ofEntries? s rest
      | none => none

/-- Reads values for some names into settings. -/
def ofItems? (s : BackendSettings) (names : List String) : List Value → Option BackendSettings
  | [] => some s
  | v :: rest =>
    match names with
    | [] => if reading.ignoresExcess then some s else none
    | name :: names =>
      if name = "tiers" then
        match tiers? v with
        | some tiers => ofItems? { s with tiers } names rest
        | none => none
      else
        match s.setScalar? reading name v with
        | some s => ofItems? s names rest
        | none => none

/-- Reads a list of tables. -/
def tiers? : Value → Option (List BackendSettings)
  | .list items => tierItems? items
  | _ => none

/-- Reads the tables of tiers. -/
def tierItems? : List Value → Option (List BackendSettings)
  | [] => some []
  | v :: rest =>
    match ofValue? v, tierItems? rest with
    | some tier, some tiers => some (tier :: tiers)
    | _, _ => none

end

end BackendSettings
end VariantCache.Configuration
