import VariantCache.Backend
import VariantCache.Engine.Response
import VariantCache.Http.Request
import VariantCache.Negotiation.Content
import VariantCache.Negotiation.Encoding

/-!
# The engine

A request is answered in the variant and the coding that it prefers: from the
cache when there is a fresh representation of the variant, and else by a producer,
whose result is stored for as long as it says.
-/

namespace VariantCache

open Http

/-! ### Producers -/

/-- What a producer makes of a variant. -/
structure Production where
  headers : List (String × String)
  body : Bytes
  /-- The coding that the body is in. -/
  coding : Coding
  groups : List String
  /-- How long the result is fresh. With no time at all it is not stored. -/
  lifetime : Duration

/-- A producer failed, with a message. -/
structure ProduceFailure where
  detail : String

/-- What the failure is called in messages. -/
def ProduceFailure.message (failure : ProduceFailure) : String := s!"producer failed: {failure.detail}"

/-- The representation that a production made at some date stands for. -/
def Production.represent (p : Production) (now : Instant) : Representation :=
  let details := (Details.untilDate (now.addSaturating p.lifetime)).addGroups p.groups
  let details := details.addHeaders
    (p.headers.map fun field => (Bytes.ofString field.1, Bytes.ofString field.2))
  (Representation.mk details .empty).insertBody p.coding p.body

/-! ### The engine -/

/-- How often something happened in an engine. -/
structure Counts where
  hits : Nat
  misses : Nat
  /-- Requests that refused every variant. -/
  noVariant : Nat
  /-- Requests that refused every coding. -/
  noCoding : Nat
  /-- Runs of a producer. -/
  productions : Nat

/-- An engine over a backend, or over none. -/
structure Engine where
  backend : Option Backend
  /-- The codings offered to clients. -/
  codings : List Coding
  shelf : Shelf
  counts : Counts

/-- The answer to a request, and the engine after it. -/
structure Served where
  response : Response
  engine : Engine
  /-- The key for which the producer ran, if it did. -/
  produced : Option CacheKey

namespace Engine

/-- An engine that offers every supported coding. -/
def ofBackend (backend : Option Backend) : Engine :=
  ⟨backend, Coding.supported, .empty, ⟨0, 0, 0, 0, 0⟩⟩

/-- Loads a representation from the backend. -/
def load (e : Engine) (now : Instant) (key : CacheKey) : Option Shared × Engine :=
  match e.backend with
  | none => (none, e)
  | some backend =>
    let (found, shelf, backend) := backend.load now key e.shelf
    (found, { e with backend := some backend, shelf })

/-- Stores a representation in the backend. -/
def store (e : Engine) (now : Instant) (key : CacheKey) (s : Shared) : Engine :=
  match e.backend with
  | none => e
  | some backend =>
    let (shelf, backend) := backend.store now key s e.shelf
    { e with backend := some backend, shelf }

/-- Removes the representation of a key. -/
def invalidate (e : Engine) (key : CacheKey) : Engine :=
  { e with backend := e.backend.map (·.delete key) }

/-- Removes the representations of a group. -/
def invalidateGroup (e : Engine) (now : Instant) (group : String) : Engine :=
  { e with backend := e.backend.map (·.deleteGroup now group) }

/-- Answers from the cache. A stored representation without a usable body counts as none. One
that has grown a body is stored again. -/
def serveCached (e : Engine) (now : Instant) (key : CacheKey) (coding : Coding) :
    Option Response × Engine :=
  match e.load now key with
  | (none, e) => (none, e)
  | (some s, e) =>
    match e.shelf.fetch s coding with
    | (none, shelf) => (none, { e with shelf })
    | (some answer, shelf) =>
      let e := { e with shelf }
      let e := if answer.isNew then e.store now key s else e
      let e := { e with counts := { e.counts with hits := e.counts.hits + 1 } }
      let maxAge := (s.details.timeToLiveAt now).seconds
      (some (respond key coding s.details.headers answer.body (some maxAge) .hit), e)

/-- Answers with what a producer has made, and stores it. -/
def serveProduced (e : Engine) (now : Instant) (key : CacheKey) (coding : Coding)
    (p : Production) : Response × Engine :=
  let (s, shelf) := e.shelf.add (p.represent now)
  match shelf.fetch s coding with
  | (none, shelf) => (respondError .internalError, { e with shelf })
  | (some answer, shelf) =>
    let e := { e with shelf }
    let isStored := e.backend.isSome && !p.lifetime.isZero
    let e := if isStored then e.store now key s else e
    let maxAge := if isStored then some p.lifetime.seconds else none
    (respond key coding s.details.headers answer.body maxAge .miss, e)

/-- Runs the producer of a variant, and answers with the result. -/
def produce (e : Engine) (now : Instant) (key : CacheKey) (coding : Coding)
    (result : Except ProduceFailure Production) : Served :=
  let counts := { e.counts with
    misses := e.counts.misses + 1, productions := e.counts.productions + 1 }
  let e := { e with counts }
  match result with
  | .error _ => ⟨respondError .internalError, e, some key⟩
  | .ok p =>
    let (response, e) := e.serveProduced now key coding p
    ⟨response, e, some key⟩

/-- The key of a variant for a request. -/
def keyOf {H : Type} (request : Request) (v : Variant H) : CacheKey :=
  .ofParts request.logicalKey v.contentType v.charset v.language

/-- Answers a request for a resource, where `run` is what the producer of a variant does. -/
def serve {H : Type} (e : Engine) (now : Instant) (resource : Resource H)
    (run : H → Request → CacheKey → Except ProduceFailure Production) (request : Request) : Served :=
  match Negotiation.chooseVariant? resource request.accept request.acceptLanguage with
  | none =>
    let counts := { e.counts with noVariant := e.counts.noVariant + 1 }
    ⟨respondError .notAcceptable, { e with counts }, none⟩
  | some v =>
    match Negotiation.chooseCoding? request.acceptEncoding e.codings with
    | none =>
      let counts := { e.counts with noCoding := e.counts.noCoding + 1 }
      ⟨respondError .notAcceptable, { e with counts }, none⟩
    | some coding =>
      let key := keyOf request v
      match e.serveCached now key coding with
      | (some response, e) => ⟨response, e, none⟩
      | (none, e) => e.produce now key coding (run v.handler request key)

end Engine
end VariantCache
