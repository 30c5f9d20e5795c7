import VariantCache.Http.Header
import VariantCache.Http.Uri

/-!
# Requests

What a request asks for, and in which variant it prefers to get it.
-/

namespace VariantCache.Http

/-- The parts of a request that choosing and making a representation depend on. -/
structure Request where
  path : String
  query : Option String
  accept : Option String
  acceptLanguage : Option String
  acceptEncoding : Option String
  deriving DecidableEq

namespace Request

/-- A request for a path. -/
def ofPath (path : String) : Request := ⟨path, none, none, none, none⟩

/-- Path and query: all that says what is asked for. -/
def logicalKey (r : Request) : String :=
  match r.query with
  | some query => r.path ++ "?" ++ query
  | none => r.path

/-- The text of the first field of a name, if it belongs to ASCII. -/
def textOf? (headers : Headers) (name : String) : Option String :=
  (headers.first? name).bind valueText?

/-- The request with the given target and headers. An empty query is none. -/
def ofHttp? (target : Target) (headers : Headers) : Option Request := do
  let path ← Bytes.toString? target.path
  let query ← match target.query with
    | none => some none
    | some query => if query.isEmpty then some none else (Bytes.toString? query).map some
  return {
    path, query
    accept := textOf? headers "accept"
    acceptLanguage := textOf? headers "accept-language"
    acceptEncoding := textOf? headers "accept-encoding" }

end Request
end VariantCache.Http
