import VariantCache.Text.Blank
import VariantCache.Text.Split
import VariantCache.Weight

/-!
# Weighted lists of preferences

The headers by which a client says what it prefers are lists of elements between
commas. An element is a name with parameters after semicolons, of which `q` gives
its weight. A malformed element is left out by itself. The list that results is
sorted by weight, heaviest first, and elements of one weight keep their order.
-/

namespace VariantCache

/-- One element of a weighted list. -/
structure Preference where
  /-- What is preferred, in lower case. -/
  name : String
  /-- The parameters other than the weight, in order. -/
  parameters : List (String × String)
  weight : Weight

namespace Preference

/-- The element refuses what it names. -/
def isRefused (p : Preference) : Bool := p.weight.isZero

/-- The value of the first parameter of a name, in any letter case. -/
def parameter? (p : Preference) (name : String) : Option String :=
  (p.parameters.find? fun entry => Text.sameName entry.1 name).map (·.2)

/-- The name and the value of a parameter. Without an equals sign the value is empty; quotes
around it are left out. -/
def splitParameter (part : List Char) : List Char × List Char :=
  let (key, value) := (Text.cut? '=' part).getD (part, [])
  (Text.lowered (Text.trimmed key), Text.strippedOf '"' (Text.trimmed value))

/-- Adds a parameter to an element; the weight has to be one. -/
def addParameter? (p : Preference) (part : List Char) : Option Preference :=
  if part.isEmpty then some p
  else
    let (key, value) := splitParameter part
    if key = ['q'] then (Weight.parse? value).map fun w => { p with weight := w }
    else some { p with
      parameters := p.parameters ++ [(String.ofList key, String.ofList value)] }

/-- Reads an element. It is malformed without a name or with a bad weight. -/
def parse? (element : List Char) : Option Preference :=
  match (Text.splitAt ';' element).map Text.trimmed with
  | [] => none
  | name :: parts =>
    if name.isEmpty then none
    else
      let start : Preference := ⟨String.ofList (Text.lowered name), [], .one⟩
      parts.foldlM addParameter? start

/-- The well-formed elements of a header, in its order. -/
def elements (header : List Char) : List Preference :=
  (Text.splitAt ',' header).filterMap fun element => parse? (Text.trimmed element)

/-- Heavier elements come first. -/
def comesFirst (a b : Preference) : Bool := b.weight.rank ≤ a.weight.rank

/-- The elements of a header, heaviest first. -/
def ofHeader (header : String) : List Preference := (elements header.toList).mergeSort comesFirst

end Preference
end VariantCache
