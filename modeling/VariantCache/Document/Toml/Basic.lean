import VariantCache.Document.Toml.Scalar
import VariantCache.Document.Toml.Text
import VariantCache.Document.Toml.Tree

/-!
# TOML

A TOML document is a sequence of headers and of keys with values, one to a line,
with blank lines and comments between them. A key belongs to the table of the
header before it.
-/

namespace VariantCache.Document.Toml

/-! ### Values -/

mutual

/-- Reads a value. -/
def value? (fuel : Nat) (cs : List Char) : Option (Value × List Char) :=
  match fuel with
  | 0 => none
  | fuel + 1 =>
    match cs with
    | '[' :: rest => (items? fuel rest).map fun (items, rest) => (.list items, rest)
    | '\x7b' :: rest =>
      (members? fuel [] rest).map fun (entries, rest) => (.table (Node.entryValues entries), rest)
    | '"' :: rest => (text? '"' rest).map fun (s, rest) => (.text s, rest)
    | '\'' :: rest => (text? '\'' rest).map fun (s, rest) => (.text s, rest)
    | cs => word? cs

/-- Reads the rest of a list: items with commas between them, and one after the last or not. -/
def items? (fuel : Nat) (cs : List Char) : Option (List Value × List Char) :=
  match fuel with
  | 0 => none
  | fuel + 1 => do
    match ← skipLines? cs.length cs with
    | ']' :: rest => some ([], rest)
    | cs =>
      let (item, rest) ← value? fuel cs
      match ← skipLines? rest.length rest with
      | ',' :: rest => (items? fuel rest).map fun (items, rest) => (item :: items, rest)
      | ']' :: rest => some ([item], rest)
      | _ => none

/-- Reads the rest of a table in braces, after the entries that it has already. -/
def members? (fuel : Nat) (entries : Entries) (cs : List Char) : Option (Entries × List Char) :=
  match fuel with
  | 0 => none
  | fuel + 1 => do
    match ← skipLines? cs.length cs with
    | '\x7d' :: rest => some (entries, rest)
    | cs =>
      let (key, rest) ← key? cs.length cs
      match rest with
      | '=' :: rest =>
        let (v, rest) ← value? fuel (skipSpace rest)
        let entries ← Entries.addKey? key v entries
        match ← skipLines? rest.length rest with
        | ',' :: rest => members? fuel entries rest
        | '\x7d' :: rest => some (entries, rest)
        | _ => none
      | _ => none

end

/-! ### Documents -/

/-- What was read of a document. -/
structure State where
  root : Entries
  /-- The names of the latest header. -/
  header : List String

/-- Reads a header after its first bracket. A second bracket opens a table of a list. -/
def header? (state : State) (cs : List Char) : Option (State × List Char) :=
  match cs with
  | '[' :: rest => do
    let (key, rest) ← key? rest.length (skipSpace rest)
    match rest with
    | ']' :: ']' :: rest => some (⟨← state.root.openRow? key, key⟩, rest)
    | _ => none
  | _ => do
    let (key, rest) ← key? cs.length (skipSpace cs)
    match rest with
    | ']' :: rest => some (⟨← state.root.openTable? key, key⟩, rest)
    | _ => none

/-- Reads a key and its value. -/
def keyValue? (state : State) (cs : List Char) : Option (State × List Char) := do
  let (key, rest) ← key? cs.length cs
  match rest with
  | '=' :: rest =>
    let (v, rest) ← value? (2 * rest.length + 2) (skipSpace rest)
    let root ← state.root.underHeader? (·.addKey? key v) state.header
    some ({ state with root }, rest)
  | _ => none

/-- Reads lines until the text ends. -/
def lines? : (fuel : Nat) → State → List Char → Option State
  | 0, _, _ => none
  | fuel + 1, state, cs => do
    match ← skipLines? cs.length cs with
    | [] => some state
    | c :: rest =>
      let (state, rest) ← if c = '[' then header? state rest else keyValue? state (c :: rest)
      let rest ← skipComment? (skipSpace rest)
      if rest.isEmpty then some state else lines? fuel state (← lineBreak? rest)

/-- Reads a document. -/
def parse? (text : String) : Option (List (String × Value)) :=
  (lines? (text.length + 1) ⟨[], []⟩ text.toList).map fun state => Node.entryValues state.root

end VariantCache.Document.Toml
