import VariantCache.Codec.Window
import VariantCache.Codec.Zstandard.Fse

/-!
# The sequences of a Zstandard block

A sequence takes some literals and then copies earlier output. Its three numbers
are coded by three tables that are read in turn from one stream; a table is
predefined, a single symbol, described in the block, or the one of an earlier block.
The three last offsets have short names.
-/

namespace VariantCache.Codec.Zstandard

open BitDecoder

/-! ### Codes of the three numbers -/

/-- One of the three numbers of a sequence: how its codes stand for values, and its
predefined table. -/
structure Field where
  /-- Base and count of extra bits of each code. -/
  codes : List (Nat × Nat)
  /-- The most states of a described table, as a power of two. -/
  maxLog : Nat
  /-- The predefined table. -/
  log : Nat
  shares : List Share

/-- Shares written as numbers, where minus one stands for a rare symbol. -/
def sharesOf (counts : List Int) : List Share :=
  counts.map fun n => if n < 0 then .rare else .states n.toNat

/-- Codes whose ranges follow each other. -/
def rangesFrom (first : Nat) : List Nat → List (Nat × Nat)
  | [] => []
  | extra :: rest => (first, extra) :: rangesFrom (first + Nat.pow 2 extra) rest

/-- The count of literals. -/
def literalLength : Field where
  codes := rangesFrom 0 (List.replicate 16 0 ++ [1, 1, 1, 1, 2, 2, 3, 3, 4]) ++
    (List.range 11).map fun i => (Nat.pow 2 (6 + i), 6 + i)
  maxLog := 9
  log := 6
  shares := sharesOf [4, 3, 2, 2, 2, 2, 2, 2, 2, 2, 2, 2, 2, 1, 1, 1, 2, 2, 2, 2, 2, 2, 2, 2, 2,
    3, 2, 1, 1, 1, 1, 1, -1, -1, -1, -1]

/-- The count of copied bytes. -/
def matchLength : Field where
  codes := rangesFrom 3 (List.replicate 32 0 ++ [1, 1, 1, 1, 2, 2, 3, 3, 4, 4, 5]) ++
    (List.range 10).map fun i => (Nat.pow 2 (7 + i) + 3, 7 + i)
  maxLog := 9
  log := 6
  shares := sharesOf ([1, 4, 3, 2, 2, 2, 2, 2, 2] ++ List.replicate 37 1 ++ List.replicate 7 (-1))

/-- The offset, where the three least values name recent offsets. -/
def offset : Field where
  codes := (List.range 32).map fun i => (Nat.pow 2 i, i)
  maxLog := 8
  log := 5
  shares := sharesOf ([1, 1, 1, 1, 1, 1, 2, 2, 2] ++ List.replicate 15 1 ++ List.replicate 5 (-1))

/-- Reads the table of a field after its kind, where `last` is the one of an earlier block. -/
def readFieldTable (field : Field) (last : Option FseTable) (kind : Nat) : BitDecoder FseTable := do
  match kind with
  | 0 => return .ofShares field.log field.shares
  | 1 =>
    let symbol ← littleEndian 1
    require (symbol < field.codes.length)
    return .single symbol
  | 2 => readTable field.maxLog (field.codes.length - 1)
  | _ => ofOption last

/-- The tables of the three fields. -/
structure Tables where
  literalLength : FseTable
  offset : FseTable
  matchLength : FseTable

/-! ### Recent offsets -/

/-- The last three offsets, the last one first. -/
structure RecentOffsets where
  first : Nat
  second : Nat
  third : Nat

/-- The recent offsets at the start of a frame. -/
def RecentOffsets.initial : RecentOffsets := ⟨1, 4, 8⟩

/-- The offset that a value stands for, and the recent offsets after it. Values up to three
name recent offsets, and each the next one when the sequence takes no literals. -/
def RecentOffsets.use (recent : RecentOffsets) (value : Nat) (noLiterals : Bool) :
    Nat × RecentOffsets :=
  if 3 < value then (value - 3, ⟨value - 3, recent.first, recent.second⟩)
  else
    match value + noLiterals.toNat with
    | 0 | 1 => (recent.first, recent)
    | 2 => (recent.second, ⟨recent.second, recent.first, recent.third⟩)
    | 3 => (recent.third, ⟨recent.third, recent.first, recent.second⟩)
    | _ => (recent.first - 1, ⟨recent.first - 1, recent.first, recent.second⟩)

/-! ### Running sequences -/

/-- The value of a code, with its extra bits. -/
def fieldValue (field : Field) (state : FseState) : BackwardDecoder Nat := fun s => do
  let (base, extra) ← field.codes[state.symbol]?
  let (more, rest) ← BackwardDecoder.bits extra s
  return (base + more, rest)

/-- The current states of the three tables. -/
structure SequenceStates where
  literalLength : FseState
  offset : FseState
  matchLength : FseState

/-- The numbers of a sequence. -/
structure Sequence where
  literals : Nat
  offsetValue : Nat
  copied : Nat

/-- Reads `count` sequences; each but the last is followed by the bits of the next states. -/
def readSequences (tables : Tables) :
    (count : Nat) → SequenceStates → BackwardDecoder (List Sequence)
  | 0, _ => pure []
  | count + 1, states => do
    let offsetValue ← fieldValue offset states.offset
    let copied ← fieldValue matchLength states.matchLength
    let literals ← fieldValue literalLength states.literalLength
    let sequence : Sequence := ⟨literals, offsetValue, copied⟩
    if count = 0 then return [sequence]
    let nextLiteral ← tables.literalLength.step states.literalLength
    let nextMatch ← tables.matchLength.step states.matchLength
    let nextOffset ← tables.offset.step states.offset
    let rest ← readSequences tables count ⟨nextLiteral, nextOffset, nextMatch⟩
    return sequence :: rest

/-- Reads the first states and then the sequences of a stream. -/
def readStream (tables : Tables) (count : Nat) : BackwardDecoder (List Sequence) := do
  let firstLiteral ← tables.literalLength.start
  let firstOffset ← tables.offset.start
  let firstMatch ← tables.matchLength.start
  readSequences tables count ⟨firstLiteral, firstOffset, firstMatch⟩

/-- Reads how many sequences a block has. -/
def sequenceCount : BitDecoder Nat := do
  let first ← littleEndian 1
  if first < 128 then return first
  else if first < 255 then return (first - 128) * 256 + (← littleEndian 1)
  else return 32512 + (← littleEndian 2)

/-- Reads the sequences of a block, which fill the rest of it. -/
def readSection (last : Option Tables) (s : BitSource) : Option (List Sequence × Option Tables) := do
  let (count, s) ← sequenceCount s
  if count = 0 then
    if s.bytes.isEmpty then return ([], last) else none
  let (kinds, s) ← littleEndian 1 s
  if kinds % 4 ≠ 0 then none
  let (l, s) ← readFieldTable literalLength (last.map (·.literalLength)) (kinds / 64) s
  let (o, s) ← readFieldTable offset (last.map (·.offset)) (kinds / 16 % 4) s
  let (m, s) ← readFieldTable matchLength (last.map (·.matchLength)) (kinds / 4 % 4) s
  let tables : Tables := ⟨l, o, m⟩
  return (← readWhole? (readStream tables count) s.bytes, some tables)

/-- Writes literals from the place `taken` on. -/
def writeLiterals (literals : Output) (taken count : Nat) (out : Output) : Output :=
  out ++ literals.extract taken (taken + count)

/-- Runs the sequences of a block, and writes the literals that are left. -/
def runSequences (literals : Output) : List Sequence → (taken : Nat) → RecentOffsets → Output →
    Option (Output × RecentOffsets)
  | [], taken, recent, out =>
    some (writeLiterals literals taken (literals.size - taken) out, recent)
  | sequence :: rest, taken, recent, out => do
    let (distance, recent) := recent.use sequence.offsetValue (sequence.literals == 0)
    if literals.size < taken + sequence.literals then none
    let out := writeLiterals literals taken sequence.literals out
    let out ← out.copyBack? distance sequence.copied
    runSequences literals rest (taken + sequence.literals) recent out

end VariantCache.Codec.Zstandard
