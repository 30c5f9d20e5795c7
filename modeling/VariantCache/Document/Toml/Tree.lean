import VariantCache.Document.Value

/-!
# Tables of TOML under construction

The tables of a document are opened by headers and filled line by line. How a table
came about decides what may still be added to it: a table is opened by a header
once, tables that a header only passes through may be opened later, and tables
that a dotted key made grow by dotted keys. A value that is complete grows no
more.
-/

namespace VariantCache.Document.Toml

/-- How a table came about. -/
inductive Origin where
  /-- A header opened it. -/
  | header
  /-- A header opened a table inside it. -/
  | implied
  /-- A dotted key leads through it. -/
  | dotted
  deriving DecidableEq

/-- What a name stands for in a table under construction. -/
inductive Node where
  | value (v : Value)
  | table (origin : Origin) (entries : List (String × Node))
  /-- The tables of a list that headers add to, the latest one first. -/
  | tables (rows : List (List (String × Node)))

namespace Node

mutual

/-- The value that a node stands for. -/
def toValue : Node → Value
  | value v => v
  | table _ entries => .table (entryValues entries)
  | tables rows => .list (rowValues rows).reverse

/-- The values of the entries of a table. -/
def entryValues : List (String × Node) → List (String × Value)
  | [] => []
  | (name, node) :: rest => (name, toValue node) :: entryValues rest

/-- The values of tables. -/
def rowValues : List (List (String × Node)) → List Value
  | [] => []
  | row :: rest => .table (entryValues row) :: rowValues rest

end

end Node

/-- The entries of a table under construction. -/
abbrev Entries := List (String × Node)

namespace Entries

/-- What a name stands for. -/
def get? (entries : Entries) (name : String) : Option Node :=
  (entries.find? (·.1 == name)).map (·.2)

/-- The entries with a new node for a name. -/
def put (name : String) (node : Node) : Entries → Entries
  | [] => [(name, node)]
  | entry :: rest =>
    if entry.1 = name then (name, node) :: rest else entry :: put name node rest

/-- Changes the entries of the table that names lead to. Missing tables are made on the way,
with the given origin. Whether the way may go through an existing table depends on the
table's origin, or on its being a row of a list, and on whether it is the last on the way. -/
def descend? (origin : Origin) (passes : Option Origin → Bool → Bool)
    (change : Entries → Option Entries) : List String → Entries → Option Entries
  | [], entries => change entries
  | name :: rest, entries =>
    match get? entries name with
    | none =>
      (descend? origin passes change rest []).map fun inner =>
        put name (.table origin inner) entries
    | some (.table old inner) =>
      if passes (some old) rest.isEmpty then
        (descend? origin passes change rest inner).map fun inner =>
          put name (.table old inner) entries
      else none
    | some (.tables (row :: rows)) =>
      if passes none rest.isEmpty then
        (descend? origin passes change rest row).map fun row =>
          put name (.tables (row :: rows)) entries
      else none
    | some (.tables []) | some (.value _) => none

/-- Changes the table that a header's names lead to. -/
def underHeader? (change : Entries → Option Entries) (names : List String) (entries : Entries) :
    Option Entries :=
  descend? .implied (fun _ _ => true) change names entries

/-- A dotted key may lead through a table that no header opened, and may end in one that a
dotted key made. -/
def passesDotted : Option Origin → Bool → Bool
  | some origin, isLast => if isLast then origin == .dotted else origin != .header
  | none, isLast => !isLast

/-- Adds a value under a new name. -/
def addValue? (name : String) (v : Value) (entries : Entries) : Option Entries :=
  match get? entries name with
  | none => some (put name (.value v) entries)
  | some _ => none

/-- Adds a value under a dotted key. -/
def addKey? (key : List String) (v : Value) (entries : Entries) : Option Entries := do
  let name ← key.getLast?
  descend? .dotted passesDotted (addValue? name v) key.dropLast entries

/-- Opens a table by a header. -/
def openTable? (key : List String) (entries : Entries) : Option Entries := do
  let name ← key.getLast?
  underHeader? (fun entries =>
    match get? entries name with
    | none => some (put name (.table .header []) entries)
    | some (.table .implied inner) => some (put name (.table .header inner) entries)
    | some _ => none) key.dropLast entries

/-- Opens a new table at the end of a list of tables. -/
def openRow? (key : List String) (entries : Entries) : Option Entries := do
  let name ← key.getLast?
  underHeader? (fun entries =>
    match get? entries name with
    | none => some (put name (.tables [[]]) entries)
    | some (.tables rows) => some (put name (.tables ([] :: rows)) entries)
    | some _ => none) key.dropLast entries

end Entries
end VariantCache.Document.Toml
