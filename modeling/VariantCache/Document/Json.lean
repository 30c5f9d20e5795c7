import VariantCache.Document.Value

/-!
# JSON

A JSON text is one value with blanks around it. Of several members of an object with
one name the last counts. Whole numbers are kept as they are up to a limit that
the reader sets, and are read as the nearest real number beyond it. Values nest
to a limited depth.
-/

namespace VariantCache.Document.Json

/-- The character is blank between the parts of a value. -/
def isBlank (c : Char) : Bool := c == ' ' || c == '\t' || c == '\n' || c == '\r'

/-- The text after the blanks at its start. -/
def skip (cs : List Char) : List Char := cs.dropWhile isBlank

/-! ### Texts -/

/-- The number that a hexadecimal digit stands for. -/
def hexDigit? (c : Char) : Option Nat :=
  if '0' ≤ c && c ≤ '9' then some (c.toNat - '0'.toNat)
  else if 'a' ≤ c && c ≤ 'f' then some (c.toNat - 'a'.toNat + 10)
  else if 'A' ≤ c && c ≤ 'F' then some (c.toNat - 'A'.toNat + 10)
  else none

/-- The number that hexadecimal digits spell. -/
def hexadecimal? (digits : List Char) : Option Nat :=
  digits.foldlM (fun n c => (hexDigit? c).map (16 * n + ·)) 0

/-- Reads four hexadecimal digits. -/
def codeUnit? (cs : List Char) : Option (Nat × List Char) :=
  if (cs.take 4).length < 4 then none
  else (hexadecimal? (cs.take 4)).map fun n => (n, cs.drop 4)

/-- The unit begins a pair. -/
def isLeading (n : Nat) : Bool := 0xd800 ≤ n && n < 0xdc00

/-- The unit ends a pair. -/
def isTrailing (n : Nat) : Bool := 0xdc00 ≤ n && n < 0xe000

/-- Reads a character written by its number. One beyond the first 65536 is a pair of numbers. -/
def numbered? (cs : List Char) : Option (Char × List Char) := do
  let (n, rest) ← codeUnit? cs
  if isTrailing n then none
  else if isLeading n then
    match rest with
    | '\\' :: 'u' :: rest =>
      let (m, rest) ← codeUnit? rest
      if isTrailing m then
        some (Char.ofNat (0x10000 + (n - 0xd800) * 0x400 + (m - 0xdc00)), rest)
      else none
    | _ => none
  else some (Char.ofNat n, rest)

/-- The characters with short names. -/
def shortNames : List (Char × Char) :=
  [('"', '"'), ('\\', '\\'), ('/', '/'), ('b', '\x08'), ('f', '\x0c'), ('n', '\n'), ('r', '\r'),
    ('t', '\t')]

/-- Reads what stands after a backslash. -/
def escape? : List Char → Option (Char × List Char)
  | 'u' :: rest => numbered? rest
  | c :: rest => (shortNames.lookup c).map (·, rest)
  | [] => none

/-- Reads the rest of a text in quotes. -/
def textRest? : (fuel : Nat) → List Char → Option (List Char × List Char)
  | 0, _ | _, [] => none
  | fuel + 1, c :: rest =>
    if c = '"' then some ([], rest)
    else if c = '\\' then do
      let (c, rest) ← escape? rest
      let (cs, rest) ← textRest? fuel rest
      some (c :: cs, rest)
    else if c.toNat < 32 then none
    else (textRest? fuel rest).map fun (cs, rest) => (c :: cs, rest)

/-- Reads the rest of a text in quotes. -/
def text? (cs : List Char) : Option (String × List Char) :=
  (textRest? cs.length cs).map fun (body, rest) => (String.ofList body, rest)

/-- A text as JSON writes it. Control characters are escaped. -/
def quote (s : String) : String :=
  let escape (c : Char) : List Char :=
    match (shortNames.drop 3).find? (·.2 == c) with
    | some (name, _) => ['\\', name]
    | none =>
      if c = '"' || c = '\\' then ['\\', c]
      else if c.toNat < 32 then
        ['\\', 'u', '0', '0', Nat.digitChar (c.toNat / 16), Nat.digitChar (c.toNat % 16)]
      else [c]
  String.ofList (['"'] ++ s.toList.flatMap escape ++ ['"'])

/-! ### Numbers -/

/-- Reads digits, at least one. -/
def digits? (cs : List Char) : Option (List Char × List Char) :=
  let digits := cs.takeWhile Char.isDigit
  if digits.isEmpty then none else some (digits, cs.dropWhile Char.isDigit)

/-- Reads the digits before the point. A zero stands alone. -/
def whole? (cs : List Char) : Option (List Char × List Char) :=
  match digits? cs with
  | some ('0' :: _ :: _, _) | none => none
  | some result => some result

/-- Reads the digits after a point, if there is a point. -/
def fraction? : List Char → Option (Option (List Char) × List Char)
  | '.' :: rest => (digits? rest).map fun (digits, rest) => (some digits, rest)
  | cs => some (none, cs)

/-- Reads an exponent, if there is one. -/
def exponent? : List Char → Option (Option Int × List Char)
  | [] => some (none, [])
  | mark :: rest =>
    if mark = 'e' || mark = 'E' then
      let (negative, rest) := Decimal.sign rest
      (digits? rest).map fun (digits, rest) =>
        let size : Int := Decimal.ofDigits digits
        (some (if negative then -size else size), rest)
    else some (none, mark :: rest)

/-- A number with its sign. Whole numbers within the limit are exact, apart from negative zero,
and real numbers are finite. -/
def number? (limit : Nat) (negative : Bool) (whole : List Char) (fraction : Option (List Char))
    (exponent : Option Int) : Option Value :=
  let size := Decimal.ofDigits whole
  let isWhole := fraction.isNone && exponent.isNone
  if isWhole && !negative && size ≤ limit then some (.integer size)
  else if isWhole && negative && size != 0 && size ≤ 0x8000000000000000 then some (.integer (-(size : Int)))
  else
    let places := fraction.getD []
    match Binary64.ofDecimal (.finite negative (Decimal.ofDigits (whole ++ places))
        (exponent.getD 0 - places.length)) with
    | .infinite _ => none
    | x => some (.real x)

/-- Reads a number. -/
def readNumber? (limit : Nat) (cs : List Char) : Option (Value × List Char) := do
  let (negative, cs) := match cs with
    | '-' :: rest => (true, rest)
    | _ => (false, cs)
  let (whole, cs) ← whole? cs
  let (fraction, cs) ← fraction? cs
  let (exponent, cs) ← exponent? cs
  (number? limit negative whole fraction exponent).map (·, cs)

/-! ### Values -/

/-- Reads a word that stands for a value. -/
def word? (cs : List Char) : Option (Value × List Char) :=
  let word := String.ofList (cs.takeWhile Char.isAlpha)
  let rest := cs.dropWhile Char.isAlpha
  if word = "null" then some (.null, rest)
  else if word = "true" then some (.bool true, rest)
  else if word = "false" then some (.bool false, rest)
  else none

mutual

/-- Reads a value. Lists and objects inside it nest less deep than `depth`. -/
def value? (limit : Nat) (fuel depth : Nat) (cs : List Char) : Option (Value × List Char) :=
  match fuel with
  | 0 => none
  | fuel + 1 =>
    match skip cs with
    | [] => none
    | '"' :: rest => (text? rest).map fun (s, rest) => (.text s, rest)
    | '[' :: rest =>
      if depth ≤ 1 then none
      else
        match skip rest with
        | ']' :: rest => some (.list [], rest)
        | rest => (items? limit fuel (depth - 1) rest).map fun (items, rest) => (.list items, rest)
    | '\x7b' :: rest =>
      if depth ≤ 1 then none
      else
        match skip rest with
        | '\x7d' :: rest => some (.table [], rest)
        | rest => (members? limit fuel (depth - 1) [] rest).map fun (es, rest) => (.table es, rest)
    | c :: rest =>
      if c = '-' || c.isDigit then readNumber? limit (c :: rest) else word? (c :: rest)

/-- Reads the items of a list and the bracket after them. -/
def items? (limit : Nat) (fuel depth : Nat) (cs : List Char) : Option (List Value × List Char) :=
  match fuel with
  | 0 => none
  | fuel + 1 => do
    let (item, rest) ← value? limit fuel depth cs
    match skip rest with
    | ',' :: rest => (items? limit fuel depth rest).map fun (items, rest) => (item :: items, rest)
    | ']' :: rest => some ([item], rest)
    | _ => none

/-- Reads the members of an object, after those in `entries`, and the brace after them. -/
def members? (limit : Nat) (fuel depth : Nat) (entries : List (String × Value)) (cs : List Char) :
    Option (List (String × Value) × List Char) :=
  match fuel with
  | 0 => none
  | fuel + 1 =>
    match skip cs with
    | '"' :: rest => do
      let (name, rest) ← text? rest
      match skip rest with
      | ':' :: rest =>
        let (value, rest) ← value? limit fuel depth rest
        let entries := Value.put name value entries
        match skip rest with
        | ',' :: rest => members? limit fuel depth entries rest
        | '\x7d' :: rest => some (entries, rest)
        | _ => none
      | _ => none
    | _ => none

end

/-- How deep values may nest. -/
def maxDepth : Nat := 128

/-- Reads a JSON text. Whole numbers above the limit are read as real numbers. -/
def parse? (limit : Nat) (text : String) : Option Value :=
  match value? limit (2 * text.length + 2) maxDepth text.toList with
  | some (value, rest) => if (skip rest).isEmpty then some value else none
  | none => none

end VariantCache.Document.Json
