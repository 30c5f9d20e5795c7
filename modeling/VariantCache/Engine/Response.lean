import VariantCache.CacheKey
import VariantCache.Http.Response
import VariantCache.Representation.Basic

/-!
# Responses with a representation

A response replays the headers of its representation and sets those that belong to
the single response anew: what the variant is, how the body is coded, how long it
may be kept, and whether it came from the cache.
-/

namespace VariantCache.Engine

open Http

/-- Where a representation came from. -/
inductive CacheStatus where
  | hit
  | miss
  deriving DecidableEq

/-- The status in a header. -/
def CacheStatus.text : CacheStatus → String
  | hit => "HIT"
  | miss => "MISS"

/-- The name of the server. -/
def serverName : String := "repcache"

/-- The headers by which a request chooses its variant. -/
def varyOn : String := "Accept, Accept-Language, Accept-Encoding"

/-- The name of the header that says where a representation came from. -/
def cacheStatusHeader : String := "x-cache"

/-- The headers that are set on every response. -/
def addCommon (headers : Headers) : Headers :=
  (headers.replaceText "vary" varyOn).replaceText "server" serverName

/-- The stored headers that may be sent. -/
def replayed (stored : List Field) : Headers :=
  stored.filterMap fun field => do
    let name ← fieldName? field.1
    if isFieldValue field.2 then some (name, field.2) else none

/-- The content type with its charset. -/
def contentType (key : CacheKey) : String :=
  if key.charset = "" then key.contentType else key.contentType ++ "; charset=" ++ key.charset

/-- How long a response may be kept, in seconds; not at all when nothing is said. -/
def cacheControl (maxAge : Option Nat) : String :=
  match maxAge with
  | some seconds => s!"max-age={seconds}"
  | none => "no-store"

/-- Sets a header unless its value is empty. -/
def setUnlessEmpty (headers : Headers) (name value : String) : Headers :=
  if value = "" then headers else headers.replaceText name value

/-- A response with a representation. -/
def respond (key : CacheKey) (coding : Coding) (stored : List Field) (body : Bytes)
    (maxAge : Option Nat) (status : CacheStatus) : Response :=
  let headers := replayed stored
  let headers := if key.contentType = "" then headers
    else headers.replaceText "content-type" (contentType key)
  let headers := setUnlessEmpty headers "content-language" key.language
  let headers := if coding = .identity then headers
    else setUnlessEmpty headers "content-encoding" (coding.token?.getD "")
  let headers := addCommon (headers.replaceText "cache-control" (cacheControl maxAge))
  ⟨.ok, headers.replaceText cacheStatusHeader status.text, body⟩

/-- A response that has no representation to send, and says why. -/
def respondError (status : Status) : Response :=
  let response := Response.ofText status status.reason
  { response with
    headers := addCommon (response.headers.replaceText "cache-control" (cacheControl none)) }

end VariantCache.Engine
