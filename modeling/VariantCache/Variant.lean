import VariantCache.Text.Ascii
import VariantCache.Text.Blank
import VariantCache.Text.Split

/-!
# The variants of a resource

A resource is offered in variants, each of a content type and a language. Variants
are registered in the order in which the server prefers them.
-/

namespace VariantCache

/-- One variant of a resource, with what produces it. -/
structure Variant (H : Type) where
  /-- The media type in lower case and without parameters; empty for the default variant. -/
  contentType : String
  /-- The charset in lower case, or nothing. -/
  charset : String
  /-- The language tag, or nothing. -/
  language : String
  /-- What produces it. -/
  handler : H
  deriving DecidableEq

/-- The variants of a resource, the server's favourites first. -/
abbrev Resource (H : Type) := List (Variant H)

namespace Variant

/-- The type and the subtype of a media type, if it has both. -/
def halves? (mediaType : String) : Option (List Char × List Char) := Text.cut? '/' mediaType.toList

/-- The value of the parameter `charset`, if a list of parameters has one. -/
def charset? (parameters : List (List Char)) : Option (List Char) :=
  (parameters.filterMap (Text.cut? '=')).find?
      (fun entry => Text.lowered (Text.trimmed entry.1) == "charset".toList)
    |>.map fun entry => Text.strippedOf '"' (Text.trimmed entry.2)

/-- The media type and the charset of a content type. -/
def splitContentType (value : String) : String × String :=
  match Text.splitAt ';' value.toList with
  | [] => ("", "")
  | media :: parameters =>
    (String.ofList (Text.lowered (Text.trimmed media)),
      String.ofList (Text.lowered ((charset? parameters).getD [])))

end Variant

namespace Resource

/-- Registers a handler for every pair of a content type and a language. An empty list
stands for the default of its dimension. -/
def register {H : Type} (resource : Resource H) (contentTypes languages : List String)
    (handler : H) : Resource H :=
  let contentTypes := if contentTypes.isEmpty then [""] else contentTypes
  let languages := if languages.isEmpty then [""] else languages
  resource ++ contentTypes.flatMap fun contentType =>
    let (media, charset) := Variant.splitContentType contentType
    languages.map fun language => ⟨media, charset, Text.trim language, handler⟩

end Resource
end VariantCache
