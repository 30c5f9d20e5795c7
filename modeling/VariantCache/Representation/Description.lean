import VariantCache.Calendar
import VariantCache.Representation.Basic
import VariantCache.Text.Quoted

/-!
# Representations described for people
-/

namespace VariantCache

/-- The name of a coding in descriptions. -/
def Coding.title : Coding → String
  | identity => "Identity"
  | brotli => "Brotli"
  | deflate => "Deflate"
  | gzip => "GZip"
  | zstandard => "Zstandard"
  | compress => "Compress"
  | unsupported => "Unsupported"

/-- The groups, the number of headers, the codings and the expiration of a representation. -/
def Representation.description (r : Representation) : String :=
  let groups := ", ".intercalate (r.details.groups.map Text.Quoted.quote)
  let codings := ", ".intercalate (r.bodies.codings.map Coding.title)
  "CachedRepresentation \x7b groups: \x7b" ++ groups ++ "\x7d, headers: " ++
    toString r.details.headers.length ++ ", encodings: [" ++ codings ++ "], expiration: " ++
    Calendar.text r.details.expiration ++ " \x7d"

end VariantCache
