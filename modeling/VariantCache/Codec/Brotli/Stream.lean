import VariantCache.Codec.Window
import VariantCache.Codec.Brotli.Codes

/-!
# The Brotli format

A stream names its window and holds meta-blocks, the last of them marked. A
meta-block is skipped, stored, or compressed: then each command of it inserts
literals and copies earlier bytes, and the codes in use change with the block
types of literals, commands and distances. A reference beyond the window would
name a word of the format's built-in dictionary; no word list is kept here, so
such a stream counts as malformed. The encoder writes stored meta-blocks.
-/

namespace VariantCache.Codec.Brotli

open BitDecoder

/-! ### Block types -/

/-- The codes of the block switches of one category. -/
structure SwitchCodes where
  types : PrefixCode
  counts : PrefixCode

/-- The block type of one category, and how long it lasts. -/
structure BlockState where
  /-- How many types there are. -/
  types : Nat
  /-- The codes of a switch, when there is more than one type. -/
  codes : Option SwitchCodes
  current : Nat
  previous : Nat
  /-- How many more elements belong to the current block. -/
  left : Nat

/-- Reads the block types of a category and the length of its first block. -/
def BlockState.start : BitDecoder BlockState := do
  let types ← typeCount
  if types = 1 then return ⟨1, none, 0, 1, 16777216⟩
  let typeCode ← prefixCode (types + 2)
  let countCode ← prefixCode 26
  let left ← extended blockLengths (← countCode.read)
  return ⟨types, some ⟨typeCode, countCode⟩, 0, 1, left⟩

/-- Goes on to the next element of a category, with a switch where a block ends. -/
def BlockState.next (state : BlockState) : BitDecoder BlockState := do
  if state.left ≠ 0 then return { state with left := state.left - 1 }
  let codes ← ofOption state.codes
  let symbol ← codes.types.read
  let chosen := match symbol with
    | 0 => state.previous
    | 1 => state.current + 1
    | n + 2 => n
  let chosen := if state.types ≤ chosen then chosen - state.types else chosen
  let left ← extended blockLengths (← codes.counts.read)
  return { state with current := chosen, previous := state.current, left := left - 1 }

/-! ### Compressed meta-blocks -/

/-- What the header of a compressed meta-block sets up. -/
structure Setup where
  /-- How many low bits of a distance are written as they are. -/
  postfixBits : Nat
  /-- How many distances have a symbol of their own. -/
  direct : Nat
  modes : Array ContextMode
  literalMap : Array Nat
  distanceMap : Array Nat
  literals : Array PrefixCode
  commands : Array PrefixCode
  distances : Array PrefixCode

/-- The three categories with their block types. -/
structure Blocks where
  literals : BlockState
  commands : BlockState
  distances : BlockState

/-- The last four distances, the last one first. -/
structure Recent where
  d1 : Nat
  d2 : Nat
  d3 : Nat
  d4 : Nat

/-- The distances before the first command of a stream. -/
def Recent.initial : Recent := ⟨4, 11, 15, 16⟩

/-- Remembers a distance. -/
def Recent.push (recent : Recent) (distance : Nat) : Recent :=
  ⟨distance, recent.d1, recent.d2, recent.d3⟩

/-- The distances near recent ones that have a symbol of their own; zero is no distance. -/
def Recent.near (recent : Recent) : Nat → Nat
  | 0 => recent.d1
  | 1 => recent.d2
  | 2 => recent.d3
  | 3 => recent.d4
  | 4 => recent.d1 - 1
  | 5 => recent.d1 + 1
  | 6 => recent.d1 - 2
  | 7 => recent.d1 + 2
  | 8 => recent.d1 - 3
  | 9 => recent.d1 + 3
  | 10 => recent.d2 - 1
  | 11 => recent.d2 + 1
  | 12 => recent.d2 - 2
  | 13 => recent.d2 + 2
  | 14 => recent.d2 - 3
  | _ => recent.d2 + 3

/-- Reads the header of a compressed meta-block. -/
def readSetup : BitDecoder (Setup × Blocks) := do
  let literalBlocks ← BlockState.start
  let commandBlocks ← BlockState.start
  let distanceBlocks ← BlockState.start
  let postfixBits ← bits 2
  let direct := (← bits 4) <<< postfixBits
  let modes ← replicate (bits 2) literalBlocks.types
  let (literalCodes, literalMap) ← contextMap (64 * literalBlocks.types)
  let (distanceCodes, distanceMap) ← contextMap (4 * distanceBlocks.types)
  let literals ← replicate (prefixCode 256) literalCodes
  let commands ← replicate (prefixCode 704) commandBlocks.types
  let distances ← replicate (prefixCode (16 + direct + 48 <<< postfixBits)) distanceCodes
  return (⟨postfixBits, direct, (modes.map ContextMode.ofNat).toArray, literalMap, distanceMap,
      literals.toArray, commands.toArray, distances.toArray⟩,
    ⟨literalBlocks, commandBlocks, distanceBlocks⟩)

/-- Reads the literals that a command inserts. -/
def insert (setup : Setup) : (count : Nat) → BlockState → Output → BitDecoder (BlockState × Output)
  | 0, state, out => return (state, out)
  | count + 1, state, out => do
    let state ← state.next
    let mode ← ofOption setup.modes[state.current]?
    let context := mode.context (out.recent 1) (out.recent 2)
    let which ← ofOption setup.literalMap[64 * state.current + context]?
    let code ← ofOption setup.literals[which]?
    insert setup count state (out.push (UInt8.ofNat (← code.read)))

/-- The distance that a symbol stands for. -/
def distanceOf (setup : Setup) (recent : Recent) (symbol : Nat) : BitDecoder Nat := do
  if symbol < 16 then return recent.near symbol
  else if symbol < 16 + setup.direct then return symbol - 15
  else
    let code := symbol - setup.direct - 16
    let high := code >>> setup.postfixBits
    let low := code % Nat.pow 2 setup.postfixBits
    let extra := 1 + code >>> (setup.postfixBits + 1)
    let offset := ((2 + high % 2) <<< extra) - 4
    return ((offset + (← bits extra)) <<< setup.postfixBits) + low + setup.direct + 1

/-- Reads the distance of a command that copies `length` bytes, unless it says by
itself that the last distance is used again. Says whether the distance is new. -/
def readDistance (setup : Setup) (state : BlockState) (recent : Recent) (again : Bool)
    (length : Nat) : BitDecoder (BlockState × Nat × Bool) := do
  if again then return (state, recent.d1, false)
  let state ← state.next
  let which ← ofOption setup.distanceMap[4 * state.current + min (length - 2) 3]?
  let code ← ofOption setup.distances[which]?
  let symbol ← code.read
  return (state, ← distanceOf setup recent symbol, symbol != 0)

/-- Runs commands until the meta-block has its `left` bytes. Each command makes at
least one, so `left` bounds the number of commands too. -/
def commands (setup : Setup) (window : Nat) :
    (fuel left : Nat) → Blocks → Recent → Output → BitDecoder (Recent × Output)
  | _, 0, _, recent, out => return (recent, out)
  | 0, _, _, _, _ => malformed
  | fuel + 1, left, state, recent, out => do
    let commandBlocks ← state.commands.next
    let code ← ofOption setup.commands[commandBlocks.current]?
    let command ← code.read
    let (firstInsert, firstCopy) ← ofOption commandGroups[command / 64]?
    let insertEntry ← ofOption insertLengths[firstInsert + command / 8 % 8]?
    let copyEntry ← ofOption copyLengths[firstCopy + command % 8]?
    let inserted := insertEntry.base + (← bits insertEntry.extra)
    let copied := copyEntry.base + (← bits copyEntry.extra)
    require (inserted ≤ left)
    let (literalBlocks, out) ← insert setup inserted state.literals out
    if inserted = left then return (recent, out)
    let (distanceBlocks, distance, isNew) ←
      readDistance setup state.distances recent (command < 128) copied
    require (copied ≤ left - inserted && distance ≤ window)
    let out ← ofOption (out.copyBack? distance copied)
    commands setup window fuel (left - inserted - copied)
      ⟨literalBlocks, commandBlocks, distanceBlocks⟩
      (if isNew then recent.push distance else recent) out

/-! ### Streams -/

/-- Reads the number of bits of the window. -/
def windowBits : BitDecoder Nat := do
  if !(← bit) then return 16
  let wide ← bits 3
  if wide ≠ 0 then return 17 + wide
  let narrow ← bits 3
  if narrow = 0 then return 17
  require (narrow ≠ 1)
  return 8 + narrow

/-- Reads the bytes of a meta-block that holds no data, after its kind. -/
def skipped : BitDecoder Unit := do
  require !(← bit)
  let width ← bits 2
  let length ← bits (8 * width)
  require (width ≤ 1 || length / Nat.pow 256 (width - 1) ≠ 0)
  zerosToByte
  let _ ← bytes (if width = 0 then 0 else length + 1)

/-- Reads the meta-blocks of a stream. -/
def metaBlocks (window : Nat) : (fuel : Nat) → Recent → Output → BitDecoder Output
  | 0, _, _ => malformed
  | fuel + 1, recent, out => do
    let last ← bit
    let empty ← if last then bit else pure false
    if empty then
      zerosToByte
      return out
    let nibbles := 4 + (← bits 2)
    let (recent, out) ← if nibbles = 7 then do
        skipped
        pure (recent, out)
      else do
        let length := 1 + (← bits (4 * nibbles))
        require (nibbles = 4 || length > Nat.pow 16 (nibbles - 1))
        let stored ← if last then pure false else bit
        if stored then
          zerosToByte
          pure (recent, out.write (← bytes length))
        else
          let (setup, state) ← readSetup
          commands setup window length length state recent out
    if last then
      zerosToByte
      return out
    metaBlocks window fuel recent out

/-- Reads a Brotli stream; what follows it is left alone. -/
def decode : BitDecoder Bytes := do
  let window := Nat.pow 2 (← windowBits) - 16
  return (← metaBlocks window (← remaining) Recent.initial #[]).toList

/-! ### Encoding -/

/-- The most bytes that one stored meta-block holds here. -/
def blockLimit : Nat := 65536

/-- The header of a stored meta-block as a number of twenty bits: not the last one, four
nibbles, one less than its length, stored. -/
def storedHeader (length : Nat) : Nat := (length - 1) * 8 + 0x80000

/-- The stored meta-blocks of a byte string, each with its header filled up to three bytes. -/
def storedBlocks (data : Bytes) : List Bytes :=
  if data.isEmpty then []
  else
    (Bytes.littleEndian 3 (storedHeader (min blockLimit data.length)) ++ data.take blockLimit) ::
      storedBlocks (data.drop blockLimit)
termination_by data.length
decreasing_by
  rename_i h
  have : data.length ≠ 0 := by simpa using h
  rw [List.length_drop, blockLimit]
  omega

/-- The pieces of a stream in the order in which they are written: a window of 22 bits,
a first meta-block without data so that the blocks after it begin at a byte, the
stored blocks, and a last empty meta-block. -/
def encode (data : Bytes) : List Bytes :=
  [0x6b, 0x00] :: storedBlocks data ++ [[0x03]]

end VariantCache.Codec.Brotli
