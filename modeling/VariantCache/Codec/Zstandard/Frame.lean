import VariantCache.Codec.Checksum
import VariantCache.Codec.Zstandard.Literals
import VariantCache.Codec.Zstandard.Sequences

/-!
# The Zstandard format

A stream is one frame after another, at least one of them. A frame holds blocks
that are stored, one repeated byte, or compressed, and may say how many bytes it
holds and close with a checksum of them. Frames of another kind are skipped.
The encoder writes one frame of stored blocks.
-/

namespace VariantCache.Codec.Zstandard

open BitDecoder

/-- The magic number of a frame. -/
def magic : Nat := 0xfd2fb528

/-- The magic number, less its low four bits, of a frame to be skipped. -/
def skippableMagic : Nat := 0x184d2a5

/-- The most bytes that a block makes. -/
def blockLimit : Nat := 131072

/-- The widest window that is accepted. -/
def windowLimit : Nat := 0x8000001

/-- What the header of a frame says. -/
structure Header where
  /-- How far back a frame may refer. -/
  window : Nat
  /-- The count of the bytes, if it is given. -/
  contentSize : Option Nat
  /-- Whether a checksum follows the blocks. -/
  hasChecksum : Bool

/-- Reads a header after the magic number. A frame that needs a dictionary is refused. -/
def readHeader : BitDecoder Header := do
  let dictionaryFlag ← bits 2
  let hasChecksum ← bit
  require !(← bit)
  let _ ← bit
  let single ← bit
  let sizeFlag ← bits 2
  let window ← if single then pure 0 else do
      let mantissa ← bits 3
      let exponent ← bits 5
      pure (Nat.pow 2 (10 + exponent) + Nat.pow 2 (7 + exponent) * mantissa)
  let dictionary ← littleEndian (if dictionaryFlag = 3 then 4 else dictionaryFlag)
  require (dictionary = 0)
  let contentSize ← match sizeFlag with
    | 0 => if single then pure (some (← littleEndian 1)) else pure none
    | 1 => pure (some (256 + (← littleEndian 2)))
    | 2 => pure (some (← littleEndian 4))
    | _ => pure (some (← littleEndian 8))
  let window := if single then contentSize.getD 0 else window
  require (window ≤ windowLimit)
  return ⟨window, contentSize, hasChecksum⟩

/-- What one block hands on to the next. -/
structure Carry where
  literals : Option PrefixCode
  tables : Option Tables
  recent : RecentOffsets
  out : Output

/-- The output of a compressed block after that of the blocks before. -/
def compressedBlock? (limit : Nat) (data : Bytes) (carry : Carry) : Option Carry := do
  let ((literals, code), s) ← readLiterals carry.literals limit (.ofBytes data)
  let (sequences, tables) ← readSection carry.tables s
  let (out, recent) ← runSequences literals sequences 0 carry.recent carry.out
  if carry.out.size + limit < out.size then none else some ⟨code, tables, recent, out⟩

/-- Reads a block after its header. -/
def blockBody (limit kind size : Nat) (carry : Carry) : BitDecoder Carry := do
  require (size ≤ limit)
  match kind with
  | 0 => return { carry with out := carry.out.write (← bytes size) }
  | 1 =>
    let repeated := List.replicate size ((← bytes 1).headD 0)
    return { carry with out := carry.out.write repeated }
  | 2 => ofOption (compressedBlock? limit (← bytes size) carry)
  | _ => malformed

/-- Reads blocks up to the one marked as the last. -/
def blocks (limit : Nat) : (fuel : Nat) → Carry → BitDecoder Output
  | 0, _ => malformed
  | fuel + 1, carry => do
    let last ← bit
    let kind ← bits 2
    let carry ← blockBody limit kind (← bits 21) carry
    if last then return carry.out else blocks limit fuel carry

/-- Reads what follows the magic number of a frame. -/
def frameBody : BitDecoder Bytes := do
  let header ← readHeader
  let start : Carry := ⟨none, none, .initial, #[]⟩
  let plain := (← blocks (min header.window blockLimit) (← remaining) start).toList
  require (header.contentSize.all (· == plain.length))
  if header.hasChecksum then
    require ((← littleEndian 4) == (Checksum.xxh64 plain).toNat % 4294967296)
  return plain

/-- Reads a frame. One to be skipped holds nothing. -/
def frame : BitDecoder Bytes := do
  let number ← littleEndian 4
  if number = magic then frameBody
  else
    require (number / 16 == skippableMagic)
    let _ ← bytes (← littleEndian 4)
    return []

/-- Reads frames up to the end of the stream. -/
def frames : (fuel : Nat) → BitDecoder Bytes
  | 0 => malformed
  | fuel + 1 => do
    let first ← frame
    let s ← get
    if s.bytes.isEmpty then return first else return first ++ (← frames fuel)

/-- Reads a stream of at least one frame. -/
def decode : BitDecoder Bytes := do frames (← remaining)

/-! ### Encoding -/

/-- The header that the encoder writes: a window as large as a block, and nothing else. -/
def header : Bytes := Bytes.littleEndian 4 magic ++ [0x00, 0x38]

/-- A stored block. -/
def storedBytes (last : Bool) (data : Bytes) : Bytes :=
  Bytes.littleEndian 3 (last.toNat + 8 * data.length) ++ data

/-- The stored blocks of a byte string; the empty string has one block. -/
def storedBlocks (data : Bytes) : List Bytes :=
  if data.length ≤ blockLimit then [storedBytes true data]
  else storedBytes false (data.take blockLimit) :: storedBlocks (data.drop blockLimit)
termination_by data.length
decreasing_by simp [blockLimit] at *; omega

/-- The pieces of a frame, in the order in which they are written. -/
def encode (data : Bytes) : List Bytes := header :: storedBlocks data

end VariantCache.Codec.Zstandard
