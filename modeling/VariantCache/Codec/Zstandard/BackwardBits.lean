import VariantCache.Bytes

/-!
# Bit streams that are read backwards

The entropy-coded parts of the Zstandard format are written forwards and read from
their last bit back. The highest set bit of the last byte marks the start; the
bits below it follow, from the most significant one down, then those of the
bytes before. Reading is a plain list of bits here.
-/

namespace VariantCache.Codec.Zstandard

/-- The bits of a byte, most significant first. -/
def bitsDown (b : UInt8) : List Bool := (List.range 8).map fun i => b.toNat.testBit (7 - i)

/-- The bits of a stream in the order in which they are read, without the mark. A last
byte of zero has no mark, and an empty stream has none either. -/
def backwardBits? (data : Bytes) : Option (List Bool) :=
  match data.reverse with
  | [] => none
  | last :: before =>
    match (bitsDown last).dropWhile (! ·) with
    | [] => none
    | _ :: bits => some (bits ++ before.flatMap bitsDown)

/-- Reads from a list of bits. -/
abbrev BackwardDecoder := StateT (List Bool) Option

namespace BackwardDecoder

/-- The next `n` bits as a number, its most significant bit first, in front of which
`high` was read. -/
def bitsAfter (high : Nat) : Nat → BackwardDecoder Nat
  | 0 => pure high
  | n + 1 => fun s =>
    match s with
    | [] => none
    | b :: rest => bitsAfter (2 * high + b.toNat) n rest

/-- The next `n` bits as a number, its most significant bit first. -/
def bits (n : Nat) : BackwardDecoder Nat := bitsAfter 0 n

/-- The next bit. -/
def bit : BackwardDecoder Bool
  | [] => none
  | b :: rest => some (b, rest)

end BackwardDecoder

/-- The value read from a stream that is used up by it. -/
def readWhole? {α : Type} (decoder : BackwardDecoder α) (data : Bytes) : Option α := do
  let (value, rest) ← decoder (← backwardBits? data)
  if rest.isEmpty then some value else none

end VariantCache.Codec.Zstandard
