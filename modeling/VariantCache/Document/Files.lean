import VariantCache.Document.Json
import VariantCache.Document.Toml.Basic

/-!
# Documents in files

A file is named by its path, with or without the extension that tells its format. A
file with exactly the name comes first; its format is then told by the extension
that it has, or not at all.
-/

namespace VariantCache.Document

/-- The formats of files. -/
inductive Format where
  | toml
  | json
  deriving DecidableEq

namespace Format

/-- The extension of the files in a format. -/
def extension : Format → String
  | toml => "toml"
  | json => "json"

/-- Every format, in the order in which files are looked for. -/
def all : List Format := [toml, json]

/-- The format whose files have the extension. -/
def ofExtension? (extension : String) : Option Format := all.find? (·.extension == extension)

/-- The character that may stand at the start of a file to tell its encoding. -/
def byteOrderMark : Char := '\ufeff'

/-- Reads a file in the format. The whole document is a table. -/
def parse? (format : Format) (text : String) : Option (List (String × Value)) :=
  let text := match text.toList with
    | c :: rest => if c = byteOrderMark then String.ofList rest else text
    | [] => text
  match format with
  | toml => Toml.parse? text
  | json =>
    match Json.parse? Toml.maxInteger text with
    | some (.table entries) => some entries
    | _ => none

end Format

/-- Files with their texts, by path from the directory that is looked from. -/
abbrev Files := List (String × String)

namespace Files

/-- The names that are left of a path after one more. The parent of the topmost directory is
the directory itself. -/
def step (names : List String) (name : String) : List String :=
  if name = "" || name = "." then names
  else if name = ".." then
    match names.getLast? with
    | none | some ".." => names ++ [name]
    | some "/" => names
    | some _ => names.dropLast
  else names ++ [name]

/-- The names on a path, without those that it goes back over. -/
def components (path : String) : List String :=
  let start := if path.startsWith "/" then ["/"] else []
  ((Text.splitAt '/' path.toList).map String.ofList).foldl step start

/-- The text of the file at a path, if there is one. -/
def read? (files : Files) (path : String) : Option String :=
  (files.find? fun file => components file.1 == components path).map (·.2)

/-- The extension of the last name on a path: what follows its last point, unless that is the
first character. -/
def extensionOf (path : String) : String :=
  let name := ((path.toList.reverse).takeWhile (· != '/')).reverse
  match (name.drop 1).reverse.dropWhile (· != '.') with
  | [] => ""
  | _ => String.ofList ((name.reverse.takeWhile (· != '.')).reverse)

/-- The names under which a document is looked for. -/
def candidates (name : String) : List String :=
  name :: Format.all.map fun format => s!"{name}.{format.extension}"

/-- Finds the file of a document, and its format and text. A file with exactly the name that has
no known format hides the others. -/
def locate? (files : Files) (name : String) : Option (Format × String) :=
  match files.read? name with
  | some text => (Format.ofExtension? (extensionOf name)).map (·, text)
  | none =>
    Format.all.findSome? fun format =>
      (files.read? s!"{name}.{format.extension}").map (format, ·)

end Files
end VariantCache.Document
