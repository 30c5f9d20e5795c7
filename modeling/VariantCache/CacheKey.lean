import VariantCache.Text.Ascii
import VariantCache.Text.Blank

/-!
# Cache keys

A key names a stored representation: what was asked for, and the variant that was
chosen. The three parts of the variant are folded to lower case and trimmed, so
that headers in other letter case lead to the same entry.
-/

namespace VariantCache

/-- The name of a stored representation. -/
structure CacheKey where
  /-- What was asked for. -/
  logicalKey : String
  contentType : String
  charset : String
  language : String
  deriving DecidableEq

namespace CacheKey

/-- The form in which a part of the variant is kept. -/
def fold (part : String) : String := Text.lower (Text.trim part)

/-- The key of a variant. -/
def ofParts (logicalKey contentType charset language : String) : CacheKey :=
  ⟨logicalKey, fold contentType, fold charset, fold language⟩

/-- The parts of a key in order. -/
def parts (key : CacheKey) : List String :=
  [key.logicalKey, key.contentType, key.charset, key.language]

/-- A key written out. -/
def display (key : CacheKey) : String := "|".intercalate key.parts

/-- Keys are ordered part by part, and parts by their characters. -/
instance : Ord CacheKey where
  compare a b := compareLex (compareOn (·.logicalKey))
    (compareLex (compareOn (·.contentType)) (compareLex (compareOn (·.charset)) (compareOn (·.language)))) a b

end CacheKey
end VariantCache
