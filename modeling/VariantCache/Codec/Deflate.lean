import VariantCache.Codec.PrefixCode
import VariantCache.Codec.Window

/-!
# The deflate format

A deflate stream is a sequence of blocks, the last of them marked. A block is
stored as it is, or it is a sequence of literals and back references in a pair of
prefix codes that are fixed or described at its start. The decoder accepts all
three; the encoder writes stored blocks, which every decoder reads and which make
the same bytes on every run.
-/

namespace VariantCache.Codec.Deflate

open BitDecoder

/-! ### Lengths and distances -/

/-- Base and count of extra bits for each symbol that stands for a length, from 257 on. -/
def lengthCodes : List (Nat × Nat) :=
  [(3, 0), (4, 0), (5, 0), (6, 0), (7, 0), (8, 0), (9, 0), (10, 0),
   (11, 1), (13, 1), (15, 1), (17, 1), (19, 2), (23, 2), (27, 2), (31, 2),
   (35, 3), (43, 3), (51, 3), (59, 3), (67, 4), (83, 4), (99, 4), (115, 4),
   (131, 5), (163, 5), (195, 5), (227, 5), (258, 0)]

/-- Base and count of extra bits for each distance symbol. -/
def distanceCodes : List (Nat × Nat) :=
  [(1, 0), (2, 0), (3, 0), (4, 0), (5, 1), (7, 1), (9, 2), (13, 2),
   (17, 3), (25, 3), (33, 4), (49, 4), (65, 5), (97, 5), (129, 6), (193, 6),
   (257, 7), (385, 7), (513, 8), (769, 8), (1025, 9), (1537, 9),
   (2049, 10), (3073, 10), (4097, 11), (6145, 11), (8193, 12), (12289, 12),
   (16385, 13), (24577, 13)]

/-- The number that a symbol stands for: its base, and as many extra bits as it asks for. -/
def extended (codes : List (Nat × Nat)) (symbol : Nat) : BitDecoder Nat := do
  let (base, extra) ← ofOption codes[symbol]?
  return base + (← bits extra)

/-! ### The two codes of a block -/

/-- The code of literals and lengths, and the code of distances. -/
structure Codes where
  literals : PrefixCode
  distances : PrefixCode

/-- Builds a code. One that leaves words over is allowed only with a single symbol, or none. -/
def codeOf? (lengths : List Nat) : Option PrefixCode := do
  let code ← PrefixCode.ofLengths? .shortFirst (PrefixCode.enumerate lengths)
  if code.isComplete || lengths.countP (· != 0) ≤ 1 then some code else none

/-- The lengths of the fixed codes. -/
def fixedLengths : List Nat × List Nat :=
  (List.replicate 144 8 ++ List.replicate 112 9 ++ List.replicate 24 7 ++ List.replicate 8 8,
   List.replicate 32 5)

/-- The fixed codes. -/
def fixedCodes? : Option Codes := do
  return ⟨← codeOf? fixedLengths.1, ← codeOf? fixedLengths.2⟩

/-- The order in which the lengths of the code-length code are written. -/
def codeLengthOrder : List Nat :=
  [16, 17, 18, 0, 8, 7, 9, 6, 10, 5, 11, 4, 12, 3, 13, 2, 14, 1, 15]

/-- Reads run-length coded lengths until `wanted` of them are there. They are kept
last first; a run must not go beyond the count. -/
def lengths (code : PrefixCode) (wanted : Nat) : (fuel : Nat) → List Nat → BitDecoder (List Nat)
  | 0, _ => malformed
  | fuel + 1, read => do
    if read.length = wanted then return read.reverse
    let symbol ← code.read
    let run ← if symbol < 16 then pure [symbol]
      else if symbol = 16 then
        let previous ← ofOption read.head?
        pure (List.replicate (3 + (← bits 2)) previous)
      else if symbol = 17 then pure (List.replicate (3 + (← bits 3)) 0)
      else pure (List.replicate (11 + (← bits 7)) 0)
    require (read.length + run.length ≤ wanted)
    lengths code wanted fuel (run ++ read)

/-- Reads the description of the codes of a block. -/
def describedCodes : BitDecoder Codes := do
  let literalCount := 257 + (← bits 5)
  let distanceCount := 1 + (← bits 5)
  let codeLengthCount := 4 + (← bits 4)
  require (literalCount ≤ 286 && distanceCount ≤ 30)
  let written ← replicate (bits 3) codeLengthCount
  let codeLengths := (List.range 19).map fun symbol =>
    (written[codeLengthOrder.idxOf symbol]?).getD 0
  let code ← ofOption (codeOf? codeLengths)
  let wanted := literalCount + distanceCount
  let all ← lengths code wanted (wanted + 1) []
  let literals ← ofOption (codeOf? (all.take literalCount))
  let distances ← ofOption (codeOf? (all.drop literalCount))
  return ⟨literals, distances⟩

/-! ### Blocks -/

/-- The symbol that ends a block. -/
def endOfBlock : Nat := 256

/-- Reads the literals and references of a block up to its end. -/
def symbols (codes : Codes) : (fuel : Nat) → Output → BitDecoder Output
  | 0, _ => malformed
  | fuel + 1, out => do
    let symbol ← codes.literals.read
    if symbol < endOfBlock then symbols codes fuel (out.push (UInt8.ofNat symbol))
    else if symbol = endOfBlock then return out
    else
      let length ← extended lengthCodes (symbol - 257)
      let distance ← extended distanceCodes (← codes.distances.read)
      symbols codes fuel (← ofOption (out.copyBack? distance length))

/-- Reads a stored block: its length, the complement of its length, its bytes. -/
def storedBlock (out : Output) : BitDecoder Output := do
  skipToByte
  let length ← littleEndian 2
  let complement ← littleEndian 2
  require (length + complement = 65535)
  return out.write (← bytes length)

/-- Reads a block after its two header fields. -/
def blockBody (kind : Nat) (out : Output) : BitDecoder Output := do
  match kind with
  | 0 => storedBlock out
  | 1 => symbols (← ofOption fixedCodes?) (← remaining) out
  | 2 =>
    let codes ← describedCodes
    symbols codes (← remaining) out
  | _ => malformed

/-- Reads blocks up to the one marked as the last. -/
def blocks : (fuel : Nat) → Output → BitDecoder Output
  | 0, _ => malformed
  | fuel + 1, out => do
    let last ← bit
    let out ← blockBody (← bits 2) out
    if last then return out else blocks fuel out

/-- Reads a deflate stream; what follows it is left alone. -/
def decode : BitDecoder Output := do blocks (← remaining) #[]

/-! ### Encoding -/

/-- The most bytes that one stored block holds. -/
def blockLimit : Nat := 65535

/-- A stored block. -/
def storedBytes (last : Bool) (data : Bytes) : Bytes :=
  (if last then 1 else 0) :: Bytes.littleEndian 2 data.length ++
    Bytes.littleEndian 2 (65535 - data.length) ++ data

/-- The stored blocks of a byte string, one after the other; the empty string has one block. -/
def encode (data : Bytes) : List Bytes :=
  if data.length ≤ blockLimit then [storedBytes true data]
  else storedBytes false (data.take blockLimit) :: encode (data.drop blockLimit)
termination_by data.length
decreasing_by simp [blockLimit] at *; omega

end VariantCache.Codec.Deflate
