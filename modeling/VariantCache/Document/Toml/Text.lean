import VariantCache.Document.Json
import VariantCache.Document.Path

/-!
# Texts and keys of TOML

A text stands between double quotes, with escapes, or between single quotes, where
every character stands for itself. Three quotes on either side let it go over
several lines; a line break right after the opening ones does not count. A key is
one or more names with points between them, and a name is bare or a text on one
line.
-/

namespace VariantCache.Document.Toml

/-! ### Blanks and comments -/

/-- The character is blank within a line. -/
def isSpace (c : Char) : Bool := c == ' ' || c == '\t'

/-- The rest of a line after blanks. -/
def skipSpace (cs : List Char) : List Char := cs.dropWhile isSpace

/-- A control character that may stand in no text and in no comment. -/
def isForbidden (c : Char) : Bool := (c.toNat < 32 && c != '\t') || c.toNat == 127

/-- Reads the end of a line. -/
def lineBreak? : List Char → Option (List Char)
  | '\n' :: rest => some rest
  | '\r' :: '\n' :: rest => some rest
  | _ => none

/-- The text after a comment, if there is one. A comment goes to the end of its line. -/
def skipComment? : List Char → Option (List Char)
  | '#' :: rest =>
    let rest := rest.dropWhile fun c => !isForbidden c
    if rest.isEmpty || (lineBreak? rest).isSome then some rest else none
  | cs => some cs

/-- The text after blanks, comments and line breaks. -/
def skipLines? : (fuel : Nat) → List Char → Option (List Char)
  | 0, cs => some cs
  | fuel + 1, cs => do
    let cs ← skipComment? (skipSpace cs)
    match lineBreak? cs with
    | some rest => skipLines? fuel rest
    | none => some cs

/-! ### Texts -/

/-- The characters with short names. -/
def shortNames : List (Char × Char) :=
  [('"', '"'), ('\\', '\\'), ('b', '\x08'), ('e', '\x1b'), ('f', '\x0c'), ('n', '\n'), ('r', '\r'),
    ('t', '\t')]

/-- How many digits the number of a character has after each mark. -/
def numberMarks : List (Char × Nat) := [('x', 2), ('u', 4), ('U', 8)]

/-- Reads what stands after a backslash. -/
def escape? : List Char → Option (Char × List Char)
  | [] => none
  | mark :: rest =>
    match shortNames.lookup mark, numberMarks.lookup mark with
    | some c, _ => some (c, rest)
    | none, none => none
    | none, some count => do
      let digits := rest.take count
      let n ← Json.hexadecimal? digits
      if digits.length = count && n.isValidChar then some (Char.ofNat n, rest.drop count) else none

/-- Reads the rest of a text on one line. Only a text between double quotes has escapes. -/
def lineText? (mark : Char) : (fuel : Nat) → List Char → Option (List Char × List Char)
  | 0, _ | _, [] => none
  | fuel + 1, c :: rest =>
    if c = mark then some ([], rest)
    else if c = '\\' && mark = '"' then do
      let (c, rest) ← escape? rest
      let (cs, rest) ← lineText? mark fuel rest
      some (c :: cs, rest)
    else if isForbidden c then none
    else (lineText? mark fuel rest).map fun (cs, rest) => (c :: cs, rest)

/-- The text after blanks and line breaks, if a line ends before any other character. -/
def afterLineEnd? (cs : List Char) : Option (List Char) :=
  match lineBreak? (skipSpace cs) with
  | none => none
  | some _ => some (cs.dropWhile fun c => isSpace c || c == '\n' || c == '\r')

/-- Reads the rest of a text on several lines. Up to two quotes may stand right before the closing
ones, and a backslash at the end of a line takes away the blanks after it. -/
def blockText? (mark : Char) : (fuel : Nat) → List Char → Option (List Char × List Char)
  | 0, _ | _, [] => none
  | fuel + 1, c :: rest =>
    if c = mark then
      let count := 1 + (rest.takeWhile (· == mark)).length
      let after := rest.dropWhile (· == mark)
      if count < 3 then
        (blockText? mark fuel after).map fun (cs, rest) => (List.replicate count mark ++ cs, rest)
      else if count ≤ 5 then some (List.replicate (count - 3) mark, after)
      else none
    else if c = '\\' && mark = '"' then
      match afterLineEnd? rest with
      | some rest => blockText? mark fuel rest
      | none => do
        let (c, rest) ← escape? rest
        let (cs, rest) ← blockText? mark fuel rest
        some (c :: cs, rest)
    else
      match lineBreak? (c :: rest) with
      | some rest => (blockText? mark fuel rest).map fun (cs, rest) => ('\n' :: cs, rest)
      | none =>
        if isForbidden c then none
        else (blockText? mark fuel rest).map fun (cs, rest) => (c :: cs, rest)

/-- Reads a text after its first quote. -/
def text? (mark : Char) (cs : List Char) : Option (String × List Char) :=
  let read := match cs with
    | a :: b :: rest =>
      if a = mark && b = mark then
        blockText? mark (rest.length + 1) ((lineBreak? rest).getD rest)
      else lineText? mark cs.length cs
    | _ => lineText? mark cs.length cs
  read.map fun (body, rest) => (String.ofList body, rest)

/-! ### Keys -/

/-- Reads a name. -/
def name? (cs : List Char) : Option (String × List Char) :=
  match cs with
  | [] => none
  | c :: rest =>
    if c = '"' || c = '\'' then
      (lineText? c rest.length rest).map fun (body, rest) => (String.ofList body, rest)
    else
      let bare := cs.takeWhile Path.isNameChar
      if bare.isEmpty then none else some (String.ofList bare, cs.dropWhile Path.isNameChar)

/-- Reads names with points between them. -/
def key? : (fuel : Nat) → List Char → Option (List String × List Char)
  | 0, _ => none
  | fuel + 1, cs => do
    let (name, rest) ← name? cs
    match skipSpace rest with
    | '.' :: rest => (key? fuel (skipSpace rest)).map fun (names, rest) => (name :: names, rest)
    | rest => some ([name], rest)

end VariantCache.Document.Toml
