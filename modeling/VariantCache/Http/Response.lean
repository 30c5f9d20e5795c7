import VariantCache.Http.Header

/-!
# Responses
-/

namespace VariantCache.Http

/-- The outcomes of a request. -/
inductive Status where
  | ok
  | noContent
  | badRequest
  | notFound
  | methodNotAllowed
  | notAcceptable
  | internalError
  deriving DecidableEq

/-- The number of a status. -/
def Status.code : Status → Nat
  | ok => 200
  | noContent => 204
  | badRequest => 400
  | notFound => 404
  | methodNotAllowed => 405
  | notAcceptable => 406
  | internalError => 500

/-- The phrase that goes with the number. -/
def Status.reason : Status → String
  | ok => "OK"
  | noContent => "No Content"
  | badRequest => "Bad Request"
  | notFound => "Not Found"
  | methodNotAllowed => "Method Not Allowed"
  | notAcceptable => "Not Acceptable"
  | internalError => "Internal Server Error"

/-- A response. -/
structure Response where
  status : Status
  headers : Headers
  body : Bytes

namespace Response

/-- A response without headers and body. -/
def empty (status : Status) : Response := ⟨status, [], []⟩

/-- A response with a text. -/
def ofText (status : Status) (text : String) : Response :=
  ⟨status, [("content-type", Bytes.ofString "text/plain; charset=utf-8")], Bytes.ofString text⟩

end Response
end VariantCache.Http
