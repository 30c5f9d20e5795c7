import VariantCache.Bytes
import VariantCache.Text.Ascii

/-!
# Header fields

The name of a header field is a token and is kept in lower case. A value holds
visible characters, blanks and tabs, and bytes outside ASCII. A header may have
several fields of one name, in order.
-/

namespace VariantCache.Http

/-- The characters of a token, letters and digits apart. -/
def tokenMarks : List Char :=
  ['!', '#', '$', '%', '&', '\'', '*', '+', '-', '.', '^', '_', '`', '|', '~']

/-- The byte may stand in a token. -/
def isTokenByte (b : UInt8) : Bool :=
  let c := Char.ofNat b.toNat
  b < 128 && (c.isAlphanum || tokenMarks.contains c)

/-- The longest name of a field. -/
def nameLimit : Nat := 65535

/-- The name of a field in lower case, if it is one. -/
def fieldName? (name : Bytes) : Option String :=
  if !name.isEmpty && name.length ≤ nameLimit && name.all isTokenByte then
    Bytes.toString? (name.map Text.lowerByte)
  else none

/-- The bytes may stand in the value of a field. -/
def isFieldValue (value : Bytes) : Bool := value.all fun b => (32 ≤ b && b != 127) || b == 9

/-- The bytes may stand in a value and belong to ASCII. -/
def isAsciiValue (value : Bytes) : Bool := value.all fun b => (32 ≤ b && b < 127) || b == 9

/-- The text of a value that belongs to ASCII. -/
def valueText? (value : Bytes) : Option String :=
  if isAsciiValue value then Bytes.toString? value else none

/-- Fields by name and value, in order. -/
abbrev Headers := List (String × Bytes)

namespace Headers

/-- The first value of a field. -/
def first? (headers : Headers) (name : String) : Option Bytes :=
  (headers.find? (·.1 == name)).map (·.2)

/-- Adds a field after those of the same name. -/
def append (headers : Headers) (name : String) (value : Bytes) : Headers := headers ++ [(name, value)]

/-- Adds a field in the place of those of the same name. -/
def replace (headers : Headers) (name : String) (value : Bytes) : Headers :=
  append (headers.filter (·.1 != name)) name value

/-- Replaces a field by a text, if the text may be a value. -/
def replaceText (headers : Headers) (name value : String) : Headers :=
  let bytes := Bytes.ofString value
  if isFieldValue bytes then headers.replace name bytes else headers

/-- The fields that were received, if every name and value may be one. -/
def ofFields? (fields : List (Bytes × Bytes)) : Option Headers :=
  fields.mapM fun field => do
    let name ← fieldName? field.1
    if isFieldValue field.2 then some (name, field.2) else none

end Headers
end VariantCache.Http
