import VariantCache.Codec.Checksum
import VariantCache.Codec.Deflate

/-!
# The gzip format

A member is a header with optional fields, a deflate stream, the CRC-32 of the
plain bytes and their count modulo `2 ^ 32`. Only the first member of a stream
counts; whatever follows it is left alone.
-/

namespace VariantCache.Codec.Gzip

open BitDecoder

/-- The header that the encoder writes: no optional field, no time, no system. -/
def header : Bytes := [0x1f, 0x8b, 8, 0, 0, 0, 0, 0, 0, 0xff]

/-- The most bytes that a name or a comment in the header may have. -/
def fieldLimit : Nat := 65535

/-- Reads a field of the header that ends with a zero byte, and that byte. -/
def terminated : (fuel : Nat) → BitDecoder Bytes
  | 0 => malformed
  | fuel + 1 => do
    let b ← bytes 1
    if b = [0] then return b else return b ++ (← terminated fuel)

/-- Reads the fields of the header that its flags ask for, and gives their bytes. -/
def optionalFields (flags : Nat) : BitDecoder Bytes := do
  let extra ← if flags.testBit 2 then do
      let size ← bytes 2
      pure (size ++ (← bytes size.toNat))
    else pure []
  let name ← if flags.testBit 3 then terminated (fieldLimit + 1) else pure []
  let comment ← if flags.testBit 4 then terminated (fieldLimit + 1) else pure []
  return extra ++ name ++ comment

/-- Reads a header: two magic bytes, the method deflate, flags of which the upper three
are reserved, six bytes without meaning here, and the optional fields. The header may
close with the low half of its own CRC-32. -/
def readHeader : BitDecoder Unit := do
  let start ← bytes 10
  let flags := (start.getD 3 0).toNat
  require (start.take 3 == header.take 3 && flags < 32)
  let fields ← optionalFields flags
  if flags.testBit 1 then
    require ((← littleEndian 2) == (Checksum.crc32 (start ++ fields)).toNat % 65536)

/-- Reads the first member of a gzip stream. -/
def decode : BitDecoder Bytes := do
  readHeader
  let out ← Deflate.decode
  skipToByte
  let plain := out.toList
  require ((← littleEndian 4) == (Checksum.crc32 plain).toNat)
  require ((← littleEndian 4) == plain.length % 4294967296)
  return plain

/-- The pieces of a member, in the order in which they are written. -/
def encode (data : Bytes) : List Bytes :=
  header :: Deflate.encode data ++
    [Bytes.littleEndian 4 (Checksum.crc32 data).toNat, Bytes.littleEndian 4 data.length]

end VariantCache.Codec.Gzip
