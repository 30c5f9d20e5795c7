import VariantCache.Bytes

/-!
# Reading bits from a byte string

The compressed formats pack bits into bytes from the least significant bit up,
and go back to whole bytes here and there. A `BitSource` is what is left of such
a stream: the bits of the byte that was begun, then the bytes after it. A
`BitDecoder` reads a value off the front of a source or finds the stream
malformed; reading never looks ahead, so whatever follows a complete stream
does not matter to it.
-/

namespace VariantCache.Codec

/-- What is left of a stream of bits. -/
structure BitSource where
  /-- The bits of the current byte that were not read yet, at most eight. -/
  pending : List Bool
  /-- The bytes after the current one. -/
  bytes : Bytes

/-- Reads a value off a stream of bits, or finds the stream malformed. -/
abbrev BitDecoder := StateT BitSource Option

/-- The bits of a byte, least significant first. -/
def bitsOfByte (b : UInt8) : List Bool := (List.range 8).map b.toNat.testBit

namespace BitSource

/-- A source that stands at the start of a byte string. -/
def ofBytes (b : Bytes) : BitSource := ⟨[], b⟩

/-- How many bits are left, at most. -/
def size (s : BitSource) : Nat := s.pending.length + 8 * s.bytes.length

end BitSource

namespace BitDecoder

/-- The stream is malformed. -/
def malformed {α : Type} : BitDecoder α := fun _ => none

/-- The stream is malformed unless the condition holds. -/
def require (ok : Bool) : BitDecoder Unit := if ok then pure () else malformed

/-- The value, if there is one; the stream is malformed otherwise. -/
def ofOption {α : Type} (value : Option α) : BitDecoder α := fun s => value.map (·, s)

/-- The next bit. -/
def bit : BitDecoder Bool
  | ⟨b :: pending, bytes⟩ => some (b, ⟨pending, bytes⟩)
  | ⟨[], byte :: bytes⟩ => some (byte.toNat.testBit 0, ⟨(bitsOfByte byte).tail, bytes⟩)
  | ⟨[], []⟩ => none

/-- The next `n` bits as a number, its least significant bit first. -/
def bits : Nat → BitDecoder Nat
  | 0 => pure 0
  | n + 1 => do
    let low ← bit
    let high ← bits n
    return low.toNat + 2 * high

/-- Leaves out the rest of the byte that was begun. -/
def skipToByte : BitDecoder Unit := fun s => some ((), { s with pending := [] })

/-- Leaves out the rest of the byte that was begun, where it has to be zero. -/
def zerosToByte : BitDecoder Unit := fun s =>
  if s.pending.any id then none else some ((), { s with pending := [] })

/-- The next `n` whole bytes, at a byte boundary. -/
def bytes (n : Nat) : BitDecoder Bytes := fun s => do
  let (taken, rest) ← s.bytes.splitAt? n
  return (taken, ⟨[], rest⟩)

/-- A number of `n` whole bytes, least significant first. -/
def littleEndian (n : Nat) : BitDecoder Nat := return (← bytes n).toNat

/-- A number of `n` whole bytes, most significant first. -/
def bigEndian (n : Nat) : BitDecoder Nat := return Bytes.toNat (← bytes n).reverse

/-- How many bits are left, at most: no decoder that reads a bit each time can
be run more often than that. -/
def remaining : BitDecoder Nat := fun s => some (s.size, s)

/-- The values that a decoder reads when it is run `n` times. -/
def replicate {α : Type} (decoder : BitDecoder α) : Nat → BitDecoder (List α)
  | 0 => pure []
  | n + 1 => do
    let first ← decoder
    let rest ← replicate decoder n
    return first :: rest

end BitDecoder
end VariantCache.Codec
