import VariantCache.Coding
import VariantCache.Time
import VariantCache.Number.Total

/-!
# Representations

A representation is one payload in any number of codings, with the headers to be
replayed with it, the groups it belongs to and the date until which it is fresh.
A coding that is asked for and not there yet is made from one that is, and kept.
-/

namespace VariantCache

/-- A header field as it was produced: name and value. -/
abbrev Field := Bytes × Bytes

/-! ### Transport headers -/

/-- The headers that belong to a single response and are never replayed. -/
def transportHeaders : List String :=
  ["cache-control", "connection", "content-encoding", "content-length", "date", "server",
    "transfer-encoding", "vary", "x-cache"]

/-- The name is that of a transport header, in any letter case. -/
def isTransportHeader (name : Bytes) : Bool :=
  transportHeaders.any fun header => Bytes.ofString header == name.map Text.lowerByte

/-! ### Groups -/

/-- Puts a group into a sorted list of groups, once. -/
def insertGroup (group : String) : List String → List String
  | [] => [group]
  | first :: rest =>
    if group < first then group :: first :: rest
    else if group = first then first :: rest
    else first :: insertGroup group rest

/-! ### Details -/

/-- What is known about a representation apart from its bodies; it never changes. -/
structure Details where
  /-- The groups it belongs to, sorted. -/
  groups : List String
  /-- The headers to be replayed, in order. -/
  headers : List Field
  /-- The last date at which it is fresh. -/
  expiration : Instant

namespace Details

/-- No groups and no headers. -/
def untilDate (expiration : Instant) : Details := ⟨[], [], expiration⟩

/-- Adds groups. The empty name is no group. -/
def addGroups (d : Details) (groups : List String) : Details :=
  { d with groups := (groups.filter (· != "")).foldl (fun all group => insertGroup group all) d.groups }

/-- Adds headers, except those of the transport. -/
def addHeaders (d : Details) (headers : List Field) : Details :=
  { d with headers := d.headers ++ headers.filter fun field => !isTransportHeader field.1 }

/-- The representation belongs to a group. -/
def inGroup (d : Details) (group : String) : Bool := d.groups.contains group

/-- The representation is no longer fresh. -/
def expiredAt (d : Details) (now : Instant) : Bool := d.expiration < now

/-- How long the representation stays fresh. -/
def timeToLiveAt (d : Details) (now : Instant) : Duration := now.durationUntil d.expiration

/-- The bytes that groups and headers take. -/
def size (d : Details) : Nat :=
  total (d.groups.map (·.utf8ByteSize)) + total (d.headers.map fun f => f.1.length + f.2.length)

end Details

/-! ### Bodies -/

/-- The bodies of a representation, by coding. -/
structure Bodies where
  /-- The body in a coding, if it is there. -/
  get? : Coding → Option Bytes

namespace Bodies

/-- No body in any coding. -/
def empty : Bodies := ⟨fun _ => none⟩

instance : Inhabited Bodies := ⟨empty⟩

/-- Puts in the body in a coding. -/
def insert (b : Bodies) (coding : Coding) (body : Bytes) : Bodies :=
  ⟨fun c => if c = coding then some body else b.get? c⟩

/-- The codings that are there. -/
def codings (b : Bodies) : List Coding := Coding.all.filter fun c => (b.get? c).isSome

/-- The bytes that the bodies take. -/
def size (b : Bodies) : Nat := total (Coding.all.map fun c => ((b.get? c).map List.length).getD 0)

/-- A body in a coding that is not there, made from the first source that can be converted. -/
def derive? (b : Bodies) (coding : Coding) : Option Bytes :=
  Coding.sourceOrder.findSome? fun source => do
    let stored ← b.get? source
    (source.convert coding stored).toOption

/-- A body that was asked for. -/
structure Answer where
  body : Bytes
  /-- The body was made by this request. -/
  isNew : Bool

/-- The body in a coding, and the bodies after that: one that had to be made is kept. -/
def fetch (b : Bodies) (coding : Coding) : Option Answer × Bodies :=
  match b.get? coding with
  | some body => (some ⟨body, false⟩, b)
  | none =>
    if coding.isReal then
      match b.derive? coding with
      | some body => (some ⟨body, true⟩, b.insert coding body)
      | none => (none, b)
    else (none, b)

end Bodies

/-! ### Representations -/

/-- A representation of its own, shared with nobody. -/
structure Representation where
  details : Details
  bodies : Bodies

namespace Representation

/-- No groups, headers or bodies. -/
def untilDate (expiration : Instant) : Representation := ⟨.untilDate expiration, .empty⟩

/-- Adds the body in a coding. -/
def insertBody (r : Representation) (coding : Coding) (body : Bytes) : Representation :=
  { r with bodies := r.bodies.insert coding body }

/-- The bytes that the representation takes. -/
def size (r : Representation) : Nat := r.details.size + r.bodies.size

end Representation
end VariantCache
