import VariantCache.Codec.Checksum
import VariantCache.Codec.Deflate

/-!
# The zlib format

Two header bytes, a deflate stream, and the Adler-32 of the plain bytes with its
most significant byte first. What follows the checksum is not part of the stream.
-/

namespace VariantCache.Codec.Zlib

open BitDecoder

/-- A deflate stream with a 32 KiB window at the usual level. -/
def header : Bytes := [0x78, 0x9c]

/-- The header is a multiple of 31, names deflate with a window of at most 32 KiB, and
asks for no preset dictionary. -/
def headerIsValid (method flags : Nat) : Bool :=
  (method * 256 + flags) % 31 == 0 && method % 16 == 8 && method / 16 ≤ 7 && !flags.testBit 5

/-- Reads a zlib stream. -/
def decode : BitDecoder Bytes := do
  let method ← littleEndian 1
  let flags ← littleEndian 1
  require (headerIsValid method flags)
  let out ← Deflate.decode
  skipToByte
  let plain := out.toList
  require ((← bigEndian 4) == Checksum.adler32 plain)
  return plain

/-- The pieces of a zlib stream, in the order in which they are written. -/
def encode (data : Bytes) : List Bytes :=
  header :: Deflate.encode data ++ [Bytes.bigEndian 4 (Checksum.adler32 data)]

end VariantCache.Codec.Zlib
