import VariantCache.Document.Value
import VariantCache.Text.Split

/-!
# Paths into documents

A path names a value inside a document: a name, and then further names after points
and numbers in brackets, as in `cache.tiers[0].type`. Numbers count the items of a
list from zero, and from the end when they are negative. A path can be assigned
to whether there is something at it or not.
-/

namespace VariantCache.Document

/-- A step from a value to one inside it. -/
inductive Step where
  /-- To the value of a name in a table. -/
  | name (name : String)
  /-- To an item of a list. -/
  | index (number : Int)
  deriving DecidableEq

/-- A path into a document. -/
structure Path where
  first : String
  steps : List Step
  deriving DecidableEq

namespace Path

/-! ### Reading -/

/-- The character may stand in a name without quotes. -/
def isNameChar (c : Char) : Bool := c.isAlphanum || c == '_' || c == '-'

/-- The largest number in brackets; the smallest is one less than its opposite. -/
def maxIndex : Nat := 0x7fffffffffffffff

/-- Reads a number without blanks. -/
def index? (cs : List Char) : Option Int :=
  let (negative, digits) := match cs with
    | '-' :: rest => (true, rest)
    | _ => (false, cs)
  let size := Decimal.ofDigits digits
  if digits.isEmpty || !digits.all Char.isDigit then none
  else if negative then if size ≤ maxIndex + 1 then some (-(size : Int)) else none
  else if size ≤ maxIndex then some size else none

/-- The characters without the blanks at either end. -/
def withoutBlanks (cs : List Char) : List Char :=
  let isBlank (c : Char) : Bool := c == ' ' || c == '\t'
  ((cs.dropWhile isBlank).reverse.dropWhile isBlank).reverse

/-- Reads the part of a path between two points: a name, and numbers in brackets. -/
def part? (cs : List Char) : Option (String × List Step) := do
  let name := cs.takeWhile isNameChar
  if name.isEmpty then none
  match cs.dropWhile isNameChar with
  | [] => some (String.ofList name, [])
  | '[' :: rest =>
    let numbers ← (Text.splitAt '[' rest).mapM fun piece =>
      match piece.reverse with
      | ']' :: inner => (index? (withoutBlanks inner.reverse)).map Step.index
      | _ => none
    some (String.ofList name, numbers)
  | _ => none

/-- Reads a path. -/
def parse? (text : String) : Option Path := do
  match ← (Text.splitAt '.' text.toList).mapM part? with
  | [] => none
  | (first, steps) :: rest =>
    some ⟨first, steps ++ rest.flatMap fun (name, numbers) => .name name :: numbers⟩

end Path

namespace Value

/-! ### Assigning -/

/-- Changes an item of a list, which grows by empty items until there is one. -/
def updateItem (number : Int) (f : Value → Value) (items : List Value) : List Value :=
  let position := if number < 0 then (items.length : Int) + number else number
  if position < 0 then
    f null :: List.replicate (position.natAbs - 1) null ++ items
  else
    let place := position.toNat
    let items := items ++ List.replicate (place + 1 - items.length) null
    items.modify place f

/-- Changes what is at the end of some steps. A value that has no such parts gives way to one
that has. -/
def updateAt (f : Value → Value) : List Step → Value → Value
  | [], v => f v
  | .name name :: rest, v => v.set name (updateAt f rest (v.get name))
  | .index number :: rest, v => list (updateItem number (updateAt f rest) v.items)

/-- Lays a value over what is at a path. -/
def assign (v : Value) (path : Path) (new : Value) : Value :=
  v.updateAt (overlay · new) (.name path.first :: path.steps)

/-- Lays a value over what a text names, read as a path if it is one and else as a name. -/
def assignText (v : Value) (entry : String × Value) : Value :=
  v.assign ((Path.parse? entry.1).getD ⟨entry.1, []⟩) entry.2

end Value

/-- The documents laid over each other, the first one at the bottom. The names at the top of
each document are read as paths. -/
def merge (documents : List (List (String × Value))) : Value :=
  documents.foldl (fun v entries => entries.foldl Value.assignText v) (.table [])

end VariantCache.Document
