import VariantCache.Codec.Gzip
import VariantCache.Codec.Zlib
import VariantCache.Codec.Brotli.Stream
import VariantCache.Codec.Zstandard.Frame
import VariantCache.Sink
import VariantCache.Text.Ascii
import VariantCache.Text.Blank

/-!
# Content codings

The codings that a request may ask for and a body may be in, their tokens, and the
conversion of bodies between them. Encoding makes the same bytes on every run.
-/

namespace VariantCache

/-- A content coding. -/
inductive Coding where
  /-- No coding. -/
  | identity
  | brotli
  /-- The zlib format. -/
  | deflate
  | gzip
  | zstandard
  /-- The format of the old `compress` program, which is known by name only. -/
  | compress
  /-- Any other coding. -/
  | unsupported
  deriving DecidableEq, Repr

namespace Coding

/-- Every coding, in the order in which the codings of a representation are listed. -/
def all : List Coding := [identity, brotli, deflate, gzip, zstandard, compress, unsupported]

theorem mem_all (coding : Coding) : coding ∈ all := by cases coding <;> decide

/-- The codings that bodies can be converted to and from. -/
def supported : List Coding := [identity, brotli, deflate, gzip, zstandard]

/-- The order in which stored bodies are tried as the source of a conversion. -/
def sourceOrder : List Coding := [identity, zstandard, gzip, deflate, brotli]

/-- The token of a coding in a header, if it has one. -/
def token? : Coding → Option String
  | identity => some "identity"
  | brotli => some "br"
  | deflate => some "deflate"
  | gzip => some "gzip"
  | zstandard => some "zstd"
  | compress => some "compress"
  | unsupported => none

/-- The name of a coding in messages. -/
def name (coding : Coding) : String := coding.token?.getD "unsupported"

/-- The coding that a token names, in any letter case and with blanks around it. Two
codings have an older token too. -/
def ofToken (token : String) : Coding :=
  match Text.lower (Text.trim token) with
  | "identity" => identity
  | "br" => brotli
  | "deflate" => deflate
  | "gzip" | "x-gzip" => gzip
  | "zstd" => zstandard
  | "compress" | "x-compress" => compress
  | _ => unsupported

/-- Bodies can be made in the coding. -/
def isReal (coding : Coding) : Bool := coding != compress && coding != unsupported

/-! ### Conversion -/

/-- Why a body was not converted. -/
inductive Failure where
  /-- There is no codec for the coding. -/
  | notSupported (coding : Coding)
  /-- The body is malformed, or the sink did not take all of the result. -/
  | broken (coding : Coding)
  deriving DecidableEq

/-- What the failure is called in messages. -/
def Failure.message : Failure → String
  | notSupported coding => s!"content coding `{coding.name}` is not supported"
  | broken coding => s!"{coding.name} codec failed"

/-- The pieces in which a body in the coding is written. -/
def pieces? (coding : Coding) (plain : Bytes) : Option (List Bytes) :=
  match coding with
  | identity => some [plain]
  | brotli => some (Codec.Brotli.encode plain)
  | deflate => some (Codec.Zlib.encode plain)
  | gzip => some (Codec.Gzip.encode plain)
  | zstandard => some (Codec.Zstandard.encode plain)
  | compress | unsupported => none

/-- Writes pieces to a sink; the codec has failed when the sink does not take them all. -/
def deliver (coding : Coding) (pieces : List Bytes) (sink : Sink) : Except Failure Unit × Sink :=
  match sink.writeAll pieces with
  | (true, sink) => (.ok (), sink)
  | (false, sink) => (.error (.broken coding), sink)

/-- Writes the coded form of a plain body to a sink. -/
def encodeTo (coding : Coding) (plain : Bytes) (sink : Sink) : Except Failure Unit × Sink :=
  match coding.pieces? plain with
  | none => (.error (.notSupported coding), sink)
  | some pieces => coding.deliver pieces sink

/-- The coded form of a plain body. -/
def encode (coding : Coding) (plain : Bytes) : Except Failure Bytes :=
  let (result, sink) := coding.encodeTo plain .unlimited
  result.map fun _ => sink.written

/-- The plain form of a coded body. -/
def decode (coding : Coding) (body : Bytes) : Except Failure Bytes :=
  let run (decoder : Codec.BitDecoder Bytes) : Except Failure Bytes :=
    match decoder (.ofBytes body) with
    | some (plain, _) => .ok plain
    | none => .error (.broken coding)
  match coding with
  | identity => .ok body
  | brotli => run Codec.Brotli.decode
  | deflate => run Codec.Zlib.decode
  | gzip => run Codec.Gzip.decode
  | zstandard => run Codec.Zstandard.decode
  | compress | unsupported => .error (.notSupported coding)

/-- Writes the plain form of a coded body to a sink. -/
def decodeTo (coding : Coding) (body : Bytes) (sink : Sink) : Except Failure Unit × Sink :=
  match coding.decode body with
  | .ok plain => coding.deliver [plain] sink
  | .error failure => (.error failure, sink)

/-- A body in one coding, converted to another. -/
def convert (source target : Coding) (body : Bytes) : Except Failure Bytes := do
  if source = target then return body
  let plain ← source.decode body
  if target = identity then return plain
  target.encode plain

end Coding
end VariantCache
