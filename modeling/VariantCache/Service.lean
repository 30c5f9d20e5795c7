import VariantCache.Engine.Basic
import VariantCache.Text.Percent

/-!
# The demonstration service

The service greets in two languages and two types, tells its status, and removes
the representations of a group on demand. Greeting and status are answered by the
engine.
-/

namespace VariantCache

open Http

namespace Service

/-! ### Resources -/

/-- The things that the service makes. -/
inductive Topic where
  | greeting
  | status
  deriving DecidableEq

/-- The variants of a topic. -/
def resource (topic : Topic) : Resource Topic :=
  match topic with
  | .greeting =>
    Resource.register [] ["text/html; charset=utf-8", "text/plain; charset=utf-8"] ["en", "fr"] topic
  | .status => Resource.register [] ["application/json"] [] topic

/-- How long a greeting is fresh. -/
def greetingLifetime : Duration := .ofSeconds 60

/-- How long a status is fresh. -/
def statusLifetime : Duration := .ofSeconds 5

/-- A greeting in the language and type of a variant. -/
def greeting (key : CacheKey) : Production :=
  let text := if key.language = "fr" then "Bonjour" else "Hello"
  let body :=
    if Text.sameName key.contentType "text/html" then s!"<!doctype html><p>{text}</p>\n"
    else s!"{text}\n"
  { headers := [("ETag", s!"\"{key.language}\"")]
    body := Bytes.ofString body
    coding := .identity
    groups := ["greetings"]
    lifetime := greetingLifetime }

/-- The status at a date. -/
def status (now : Instant) (path : String) : Production where
  headers := []
  body := Bytes.ofString <|
    s!"\x7b\"generated_at\":{now.seconds},\"path\":{Document.Json.quote path}\x7d"
  coding := .identity
  groups := ["status"]
  lifetime := statusLifetime

/-- Makes a variant of a topic. -/
def produce (now : Instant) (topic : Topic) (request : Request) (key : CacheKey) :
    Except ProduceFailure Production :=
  .ok <| match topic with
    | .greeting => greeting key
    | .status => status now request.path

/-! ### Routes -/

/-- What a path leads to. -/
inductive Route where
  | topic (topic : Topic)
  /-- Removal of a group, whose name is part of the path. -/
  | purge (group : Bytes)

/-- The slash between the parts of a path. -/
def slash : UInt8 := 0x2f

/-- What a path leads to, if it leads anywhere. -/
def route? (path : Bytes) : Option Route :=
  let purgePath := Bytes.ofString "/purge/"
  let group := path.drop purgePath.length
  if path = Bytes.ofString "/greeting" then some (.topic .greeting)
  else if path = Bytes.ofString "/status" then some (.topic .status)
  else if purgePath.isPrefixOf path && !group.isEmpty && !group.contains slash then
    some (.purge group)
  else none

/-- The methods that a route answers, as they are listed. -/
def Route.allowed : Route → String
  | topic _ => "GET,HEAD"
  | purge _ => "POST"

/-- The route answers the method. -/
def Route.allows (route : Route) (method : String) : Bool :=
  match route with
  | topic _ => method == "GET" || method == "HEAD"
  | purge _ => method == "POST"

/-- The response with the length of its body, which is left out when only the headers are asked
for. -/
def finish (method : String) (r : Response) : Response :=
  let length := Bytes.ofString (toString r.body.length)
  { r with
    headers := r.headers.append "content-length" length
    body := if method = "HEAD" then [] else r.body }

/-- Answers a request that a route allows. -/
def answer (engine : Engine) (now : Instant) (route : Route) (request : Request) :
    Response × Engine :=
  match route with
  | .topic topic =>
    let served := engine.serve now (resource topic) (produce now) request
    (served.response, served.engine)
  | .purge group =>
    match Bytes.toString? (Text.Percent.decode group) with
    | some name => (.empty .noContent, engine.invalidateGroup now name)
    | none => (.ofText .badRequest "Invalid URL: Invalid UTF-8 in `group`", engine)

/-- Answers a request. -/
def respond (engine : Engine) (now : Instant) (method : String) (target : Target)
    (request : Request) : Response × Engine :=
  match route? target.path with
  | none => (.empty .notFound, engine)
  | some route =>
    let (response, engine) :=
      if route.allows method then answer engine now route request
      else (⟨.methodNotAllowed, [("allow", Bytes.ofString route.allowed)], []⟩, engine)
    (finish method response, engine)

end Service
end VariantCache
