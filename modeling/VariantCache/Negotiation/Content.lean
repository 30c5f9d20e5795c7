import VariantCache.Preference
import VariantCache.Variant

/-!
# Choosing a variant

A client says which media types and which languages it prefers. A variant that the
client refuses is never chosen. Among the others the first of these decides: a
preferred type in a preferred language, the language matching exactly or at least
in its primary tag; a preferred type in any language; the default variant; the first
variant.
-/

namespace VariantCache.Negotiation

/-! ### Media types -/

/-- A media range covers a media type. -/
def covers (range mediaType : String) : Bool :=
  if range = "*/*" ∨ range = "*" then true
  else
    match Variant.halves? mediaType, Variant.halves? range with
    | some (type, subtype), some (rangeType, rangeSubtype) =>
      Text.lowered rangeType == Text.lowered type &&
        (rangeSubtype == ['*'] || Text.lowered rangeSubtype == Text.lowered subtype)
    | _, _ => false

/-- How narrow a media range is: everything, all of one type, one media type. -/
def specificity (range : String) : Nat :=
  match Variant.halves? range with
  | none => 0
  | some (type, subtype) => if subtype = ['*'] then (if type = ['*'] then 0 else 1) else 2

/-- The elements that cover a media type and are as narrow as any of them. -/
def narrowest (accept : List Preference) (mediaType : String) : List Preference :=
  let covering := accept.filter fun p => covers p.name mediaType
  covering.filter fun p => covering.all fun other => specificity other.name ≤ specificity p.name

/-- The last of the narrowest elements, which is a lightest one, refuses the media type. -/
def refuses (accept : List Preference) (mediaType : String) : Bool :=
  (narrowest accept mediaType).getLast?.any (·.isRefused)

/-! ### Languages -/

/-- The part of a language tag before the first hyphen. -/
def primaryTag (tag : String) : List Char := ((Text.splitAt '-' tag.toList).head?).getD []

/-- How a language range has to match a language. -/
inductive Fit where
  /-- The tags are equal. -/
  | exact
  /-- The primary tags are equal. -/
  | primary

/-- A language range matches the language of a variant. -/
def speaks (fit : Fit) (range language : String) : Bool :=
  range == "*" ||
    match fit with
    | .exact => Text.sameName range language
    | .primary => language != "" && Text.lowered (primaryTag range) == Text.lowered (primaryTag language)

/-! ### The choice -/

/-- The media ranges of a request. To say nothing is to accept everything. -/
def mediaRanges (accept : Option String) : List Preference :=
  match accept with
  | some header => Preference.ofHeader (if (Text.trim header).isEmpty then "*/*" else header)
  | none => Preference.ofHeader "*/*"

/-- The language ranges of a request that are not refusals. -/
def languageRanges (acceptLanguage : Option String) : List Preference :=
  ((acceptLanguage.map Preference.ofHeader).getD []).filter (! ·.isRefused)

/-- The first candidate in a preferred language, by media range, then by language range. -/
def byLanguage? {H : Type} (fit : Fit) (ranges languages : List Preference)
    (candidates : Resource H) : Option (Variant H) :=
  ranges.findSome? fun range =>
    languages.findSome? fun language =>
      candidates.find? fun v => covers range.name v.contentType && speaks fit language.name v.language

/-- The first candidate of a preferred media type. -/
def byType? {H : Type} (ranges : List Preference) (candidates : Resource H) : Option (Variant H) :=
  ranges.findSome? fun range => candidates.find? fun v => covers range.name v.contentType

/-- The variant that a request is answered with, unless it refuses them all. -/
def chooseVariant? {H : Type} (resource : Resource H) (accept acceptLanguage : Option String) :
    Option (Variant H) :=
  let ranges := mediaRanges accept
  let languages := languageRanges acceptLanguage
  let candidates := resource.filter fun v => !refuses ranges v.contentType
  let wanted := ranges.filter (! ·.isRefused)
  byLanguage? .exact wanted languages candidates
    <|> byLanguage? .primary wanted languages candidates
    <|> byType? wanted candidates
    <|> candidates.find? (·.contentType == "")
    <|> candidates.head?

end VariantCache.Negotiation
