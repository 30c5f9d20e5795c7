import VariantCache.Bytes

/-!
# Checksums of the compressed formats

CRC-32 closes a gzip member, Adler-32 closes a zlib stream, and the low half of
a 64-bit XXH64 hash may close a Zstandard frame.
-/

namespace VariantCache.Codec.Checksum

/-! ### CRC-32 -/

/-- One step of the division by the reflected polynomial `edb88320`. -/
def crcShift (crc : UInt32) : UInt32 :=
  if crc &&& 1 = 1 then (crc >>> 1) ^^^ 0xedb88320 else crc >>> 1

/-- The remainder after one more byte. -/
def crcByte (crc : UInt32) (b : UInt8) : UInt32 :=
  Nat.repeat crcShift 8 (crc ^^^ b.toUInt32)

/-- The CRC-32 of a byte string. -/
def crc32 (data : Bytes) : UInt32 := data.foldl crcByte 0xffffffff ^^^ 0xffffffff

/-! ### Adler-32 -/

/-- The largest prime below `2 ^ 16`. -/
def adlerModulus : Nat := 65521

/-- The two running sums after one more byte. -/
def adlerByte (sums : Nat × Nat) (b : UInt8) : Nat × Nat :=
  let low := (sums.1 + b.toNat) % adlerModulus
  (low, (sums.2 + low) % adlerModulus)

/-- The Adler-32 of a byte string. -/
def adler32 (data : Bytes) : Nat :=
  let sums := data.foldl adlerByte (1, 0)
  sums.2 * 65536 + sums.1

/-! ### XXH64 -/

/-- The factor at the end of a round. -/
def xxPrime1 : UInt64 := 0x9e3779b185ebca87

/-- The factor of a word that is mixed in. -/
def xxPrime2 : UInt64 := 0xc2b2ae3d27d4eb4f

/-- What is added after half a word, and the last factor of the hash. -/
def xxPrime3 : UInt64 := 0x165667b19e3779f9

/-- What is added after a whole word. -/
def xxPrime4 : UInt64 := 0x85ebca77c2b2ae63

/-- The factor of a single byte, and the start for data of less than a block. -/
def xxPrime5 : UInt64 := 0x27d4eb2f165667c5

/-- Rotation to the left. -/
def rotateLeft (x amount : UInt64) : UInt64 := (x <<< amount) ||| (x >>> (64 - amount))

/-- Mixes one word of input into an accumulator. -/
def xxRound (acc word : UInt64) : UInt64 := rotateLeft (acc + word * xxPrime2) 31 * xxPrime1

/-- Mixes an accumulator into the hash. -/
def xxMerge (hash acc : UInt64) : UInt64 := (hash ^^^ xxRound 0 acc) * xxPrime1 + xxPrime4

/-- The word of the next eight bytes. -/
def xxWord (b : Bytes) : UInt64 := UInt64.ofNat (Bytes.toNat (b.take 8))

/-- Consumes whole blocks of 32 bytes, and gives back what is left. -/
def xxBlocks : Nat → (UInt64 × UInt64 × UInt64 × UInt64) → Bytes →
    (UInt64 × UInt64 × UInt64 × UInt64) × Bytes
  | 0, accs, data => (accs, data)
  | blocks + 1, (a, b, c, d), data =>
    xxBlocks blocks
      (xxRound a (xxWord data), xxRound b (xxWord (data.drop 8)),
        xxRound c (xxWord (data.drop 16)), xxRound d (xxWord (data.drop 24)))
      (data.drop 32)

/-- Mixes the bytes after the last whole block: words, then a half word, then single bytes. -/
def xxTail (hash : UInt64) : Bytes → UInt64
  | b0 :: b1 :: b2 :: b3 :: b4 :: b5 :: b6 :: b7 :: rest =>
    let word := xxWord [b0, b1, b2, b3, b4, b5, b6, b7]
    xxTail (rotateLeft (hash ^^^ xxRound 0 word) 27 * xxPrime1 + xxPrime4) rest
  | b0 :: b1 :: b2 :: b3 :: rest =>
    let half := UInt64.ofNat (Bytes.toNat [b0, b1, b2, b3])
    xxTail (rotateLeft (hash ^^^ (half * xxPrime1)) 23 * xxPrime2 + xxPrime3) rest
  | b :: rest => xxTail (rotateLeft (hash ^^^ (b.toUInt64 * xxPrime5)) 11 * xxPrime1) rest
  | [] => hash

/-- The XXH64 hash of a byte string, with seed zero. -/
def xxh64 (data : Bytes) : UInt64 :=
  let size := data.length
  let (start, rest) :=
    if size < 32 then (xxPrime5, data)
    else
      let ((a, b, c, d), rest) :=
        xxBlocks (size / 32) (xxPrime1 + xxPrime2, xxPrime2, 0, 0 - xxPrime1) data
      let mixed := rotateLeft a 1 + rotateLeft b 7 + rotateLeft c 12 + rotateLeft d 18
      ([a, b, c, d].foldl xxMerge mixed, rest)
  let hash := xxTail (start + UInt64.ofNat size) rest
  let hash := (hash ^^^ (hash >>> 33)) * xxPrime2
  let hash := (hash ^^^ (hash >>> 29)) * xxPrime3
  hash ^^^ (hash >>> 32)

end VariantCache.Codec.Checksum
