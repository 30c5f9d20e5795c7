import VariantCache.Bytes

/-!
# Sinks

A sink takes the bytes of a coded body. It may have room for so many bytes only:
it takes what fits of a piece, and the write fails when not all of it did.
-/

namespace VariantCache

/-- Where bytes are written to. -/
structure Sink where
  /-- What was written. -/
  written : Bytes
  /-- How many more bytes are taken; any number when nothing is said. -/
  room : Option Nat

namespace Sink

/-- A sink that takes everything. -/
def unlimited : Sink := ⟨[], none⟩

/-- A sink that takes `room` bytes. -/
def limited (room : Nat) : Sink := ⟨[], some room⟩

/-- Writes a piece, and says whether all of it was taken. -/
def write (sink : Sink) (piece : Bytes) : Bool × Sink :=
  match sink.room with
  | none => (true, { sink with written := sink.written ++ piece })
  | some room =>
    (piece.length ≤ room, ⟨sink.written ++ piece.take room, some (room - piece.length)⟩)

/-- Writes pieces up to the first that is not taken whole. -/
def writeAll (sink : Sink) : List Bytes → Bool × Sink
  | [] => (true, sink)
  | piece :: rest =>
    match sink.write piece with
    | (true, sink) => writeAll sink rest
    | (false, sink) => (false, sink)

end Sink
end VariantCache
