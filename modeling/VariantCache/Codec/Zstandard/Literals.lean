import VariantCache.Codec.PrefixCode
import VariantCache.Codec.Window
import VariantCache.Codec.Zstandard.Fse
import VariantCache.Number.Total

/-!
# The literals of a Zstandard block

Literals are stored, one byte repeated, or coded in a prefix code that is described
in the block or was described in an earlier one. The code is described by the
weights of its symbols: the length of a word is one more than the longest length
less the weight, and the weight of the last symbol makes the code complete.
-/

namespace VariantCache.Codec.Zstandard

open BitDecoder

/-- The longest code word. -/
def longestWord : Nat := 12

/-- The most states of the table that codes the weights, as a power of two. -/
def weightLog : Nat := 6

/-- The weights written as half bytes, the high half first. -/
def halfBytes (data : Bytes) : List Nat := data.flatMap fun b => [b.toNat / 16, b.toNat % 16]

/-- Reads the weights of a code, all but the last. -/
def readWeights : BitDecoder (List Nat) := do
  let size ← littleEndian 1
  if 128 ≤ size then
    let count := size - 127
    return (halfBytes (← bytes ((count + 1) / 2))).take count
  else
    let data ← bytes size
    let (table, rest) ← ofOption (readTable weightLog 255 (.ofBytes data))
    let stream ← ofOption (backwardBits? rest.bytes)
    let (now, stream) ← ofOption (table.start stream)
    let (other, stream) ← ofOption (table.start stream)
    ofOption (table.alternate 254 now other stream)

/-- What a symbol of some weight takes of the words of the longest length. -/
def weightShare (weight : Nat) : Nat := if weight = 0 then 0 else Nat.pow 2 (weight - 1)

/-- The code that the weights describe. The sum of the shares, with that of the last
symbol, is a power of two; there are at least two longest words, and an even number. -/
def codeOfWeights? (weights : List Nat) : Option PrefixCode :=
  let sum := total (weights.map weightShare)
  let longest := Nat.log2 sum + 1
  let left := Nat.pow 2 longest - sum
  let lastWeight := Nat.log2 left + 1
  let all := weights ++ [lastWeight]
  let longWords := all.count 1
  if sum = 0 ∨ longestWord < longest ∨ weights.any (longestWord < ·) ∨ left ≠ Nat.pow 2 (Nat.log2 left) ∨
      longWords < 2 ∨ longWords % 2 = 1 ∨ 256 < all.length then none
  else
    PrefixCode.ofLengths? .longFirst
      (PrefixCode.enumerate (all.map fun w => if w = 0 then 0 else longest + 1 - w))

/-- Reads one symbol from a stream that is read backwards. -/
def readBackward : PrefixCode → BackwardDecoder Nat
  | .unused => fun _ => none
  | .symbol value => pure value
  | .branch zero one => do if ← BackwardDecoder.bit then readBackward one else readBackward zero

/-- Reads `count` symbols as bytes. -/
def readSymbols (code : PrefixCode) : (count : Nat) → Output → BackwardDecoder Output
  | 0, out => pure out
  | count + 1, out => fun s => do
    let (symbol, rest) ← readBackward code s
    readSymbols code count (out.push (UInt8.ofNat symbol)) rest

/-- The sizes of the four parts of literals that are coded in four streams. -/
def quarters (size : Nat) : List Nat :=
  let part := (size + 3) / 4
  [part, part, part, size - 3 * part]

/-- The literals of one stream or of four, which use up their bytes. -/
def codedLiterals? (code : PrefixCode) (four : Bool) (size : Nat) (data : Bytes) : Option Output :=
  if four then do
    let (jump, data) ← data.splitAt? 6
    let (s1, data) ← data.splitAt? (Bytes.toNat (jump.take 2))
    let (s2, data) ← data.splitAt? (Bytes.toNat ((jump.drop 2).take 2))
    let (s3, s4) ← data.splitAt? (Bytes.toNat (jump.drop 4))
    if size < 6 ∨ size < 3 * ((size + 3) / 4) then none
    ([s1, s2, s3, s4].zip (quarters size)).foldlM
      (fun out part => readWhole? (readSymbols code part.2 out) part.1) #[]
  else readWhole? (readSymbols code size #[]) data

/-- How the literals of a block are written. -/
inductive LiteralKind where
  /-- As they are. -/
  | stored
  /-- As one byte that is repeated. -/
  | repeated
  /-- In a code that is described before them. -/
  | described
  /-- In the last code that was described. -/
  | again

/-- The kind written as a number of two bits. -/
def LiteralKind.ofNat : Nat → LiteralKind
  | 0 => stored
  | 1 => repeated
  | 2 => described
  | _ => again

/-- Reads coded literals after the kind and the format of their sizes. -/
def readCoded (known : Option PrefixCode) (limit format : Nat) :
    BitDecoder (Output × Option PrefixCode) := do
  let width := match format with
    | 2 => 14
    | 3 => 18
    | _ => 10
  let size ← bits width
  let packed ← bits width
  require (size ≤ limit)
  let start := BitSource.ofBytes (← bytes packed)
  let (code, rest) ← match known with
    | some code => pure (code, start)
    | none => do
      let (weights, rest) ← ofOption (readWeights start)
      let code ← ofOption (codeOfWeights? weights)
      pure (code, rest)
  let out ← ofOption (codedLiterals? code (format != 0) size rest.bytes)
  return (out, some code)

/-- Reads the literals of a block of at most `limit` bytes, where `last` is the last code
that was described. Gives the code to keep for later blocks too. -/
def readLiterals (last : Option PrefixCode) (limit : Nat) :
    BitDecoder (Output × Option PrefixCode) := do
  let kind := LiteralKind.ofNat (← bits 2)
  let format ← bits 2
  match kind with
  | .stored | .repeated =>
    let size ← match format with
      | 1 => bits 12
      | 3 => bits 20
      | _ => pure (format / 2 + 2 * (← bits 4))
    require (size ≤ limit)
    match kind with
    | .stored => return ((← bytes size).toArray, last)
    | _ => return ((List.replicate size ((← bytes 1).headD 0)).toArray, last)
  | .described => readCoded none limit format
  | .again =>
    let code ← ofOption last
    readCoded (some code) limit format

end VariantCache.Codec.Zstandard
