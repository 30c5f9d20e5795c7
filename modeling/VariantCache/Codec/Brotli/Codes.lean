import VariantCache.Codec.PrefixCode
import VariantCache.Codec.Brotli.Tables

/-!
# Prefix codes and context maps of the Brotli format

A code is described simply, by up to four symbols, or by run-length coded code
lengths that are themselves in a code of a fixed alphabet. A context map is
run-length coded too, and may be passed through a move-to-front list.
-/

namespace VariantCache.Codec.Brotli

open BitDecoder

/-- The number that an entry of a table of ranges stands for. -/
def extended (table : List Extended) (symbol : Nat) : BitDecoder Nat := do
  let entry ← ofOption table[symbol]?
  return entry.base + (← bits entry.extra)

/-- The number of bits that hold every number below `count`. -/
def widthOf (count : Nat) : Nat := if count ≤ 1 then 0 else Nat.log2 (count - 1) + 1

/-! ### Simple codes -/

/-- A code of one to four symbols, which are written out. -/
def simpleCode (alphabet : Nat) : BitDecoder PrefixCode := do
  let count := 1 + (← bits 2)
  let symbols ← replicate (bits (widthOf alphabet)) count
  require (symbols.all (· < alphabet) && symbols.Nodup)
  match symbols with
  | [only] => return .symbol only
  | _ =>
    let deep ← if count = 4 then bit else pure false
    let lengths := match count with
      | 2 => [1, 1]
      | 3 => [1, 2, 2]
      | _ => if deep then [1, 2, 3, 3] else [2, 2, 2, 2]
    let used := (symbols.zip lengths).mergeSort fun a b => a.1 ≤ b.1
    ofOption (PrefixCode.ofLengths? .shortFirst used)

/-! ### Described codes -/

/-- The fixed code in which the lengths of the code-length code are written. -/
def codeLengthLength : PrefixCode :=
  .branch (.branch (.symbol 0) (.symbol 3))
    (.branch (.symbol 4) (.branch (.symbol 2) (.branch (.symbol 1) (.symbol 5))))

/-- Reads the lengths of the code-length code, in their order, until the words of the
code are all given away. -/
def codeLengthLengths : List Nat → (space : Nat) → BitDecoder (List (Nat × Nat))
  | [], _ => return []
  | symbol :: rest, space => do
    if space = 0 then return []
    let length ← codeLengthLength.read
    let taken := if length = 0 then 0 else 32 >>> length
    let more ← codeLengthLengths rest (space - taken)
    require (taken ≤ space)
    return (symbol, length) :: more

/-- The code of the code lengths. One symbol alone has the empty word. -/
def codeLengthCode (skipped : Nat) : BitDecoder PrefixCode := do
  let lengths ← codeLengthLengths (codeLengthOrder.drop skipped) 32
  let used := (lengths.filter (·.2 != 0)).mergeSort fun a b => a.1 ≤ b.1
  match used with
  | [(only, _)] => return .symbol only
  | _ =>
    let code ← ofOption (PrefixCode.ofLengths? .shortFirst used)
    require code.isComplete
    return code

/-- The lengths read so far, and what a repetition goes back to. -/
structure LengthRun where
  /-- Symbols with a code word, and its length, last first. -/
  words : List (Nat × Nat)
  /-- The next symbol. -/
  next : Nat
  /-- What is left of `2 ^ 15` words of fifteen bits. -/
  space : Nat
  /-- The last length that was not zero. -/
  previous : Nat
  /-- The length that the last repetition repeated. -/
  repeated : Nat
  /-- How often the repetitions just before this point repeated it. -/
  times : Nat

/-- Gives the next `count` symbols a length. -/
def LengthRun.give? (run : LengthRun) (length count alphabet : Nat) : Option LengthRun :=
  let taken := if length = 0 then 0 else count * 32768 >>> length
  if run.next + count ≤ alphabet ∧ taken ≤ run.space then
    let new := if length = 0 then [] else (List.range count).reverse.map fun i => (run.next + i, length)
    some { run with
      words := new ++ run.words, next := run.next + count, space := run.space - taken }
  else none

/-- Reads one symbol of the run-length coded lengths: a length, a repetition of the last
length that was not zero (16), or a repetition of zero (17). A repetition right
after one of the same length extends its count by another digit. -/
def LengthRun.step (run : LengthRun) (code : PrefixCode) (alphabet : Nat) : BitDecoder LengthRun := do
  let symbol ← code.read
  if symbol < 16 then
    let run ← ofOption (run.give? symbol 1 alphabet)
    return { run with times := 0, previous := if symbol = 0 then run.previous else symbol }
  else
    let extra := if symbol = 16 then 2 else 3
    let length := if symbol = 16 then run.previous else 0
    let before := if run.repeated = length then run.times else 0
    let digit ← bits extra
    let times := (if before = 0 then 0 else (before - 2) * Nat.pow 2 extra) + digit + 3
    let run ← ofOption (run.give? length (times - before) alphabet)
    return { run with times := times, repeated := length }

/-- Reads lengths until every word is given away. Each step gives a length to a symbol. -/
def LengthRun.finish (code : PrefixCode) (alphabet : Nat) :
    (fuel : Nat) → LengthRun → BitDecoder (List (Nat × Nat))
  | 0, _ => malformed
  | fuel + 1, run => do
    if run.space = 0 then return run.words.reverse
    if alphabet ≤ run.next then malformed
    finish code alphabet fuel (← run.step code alphabet)

/-- Reads the description of a code over the symbols below `alphabet`. -/
def prefixCode (alphabet : Nat) : BitDecoder PrefixCode := do
  let skipped ← bits 2
  if skipped = 1 then simpleCode alphabet
  else
    let code ← codeLengthCode skipped
    let words ← LengthRun.finish code alphabet (alphabet + 1) ⟨[], 0, 32768, 8, 0, 0⟩
    ofOption (PrefixCode.ofLengths? .shortFirst words)

/-! ### Context maps -/

/-- A count from 1 to 256. -/
def typeCount : BitDecoder Nat := do
  if ← bit then
    let width ← bits 3
    return Nat.pow 2 width + 1 + (← bits width)
  else return 1

/-- Reads the entries of a context map, last first, until `size` of them are there. -/
def contextEntries (code : PrefixCode) (longest size : Nat) :
    (fuel : Nat) → List Nat → BitDecoder (List Nat)
  | 0, _ => malformed
  | fuel + 1, read => do
    if read.length = size then return read.reverse
    let symbol ← code.read
    if symbol = 0 then contextEntries code longest size fuel (0 :: read)
    else if symbol ≤ longest then
      let run := Nat.pow 2 symbol + (← bits symbol)
      require (read.length + run ≤ size)
      contextEntries code longest size fuel (List.replicate run 0 ++ read)
    else contextEntries code longest size fuel ((symbol - longest) :: read)

/-- Replaces each index into the list of recently used values by its value. -/
def moveToFront : List Nat → List Nat → List Nat
  | _, [] => []
  | recent, index :: rest =>
    let value := recent.getD index 0
    value :: moveToFront (value :: recent.eraseIdx index) rest

/-- Reads the number of codes and the map that gives one to each of `size` contexts. -/
def contextMap (size : Nat) : BitDecoder (Nat × Array Nat) := do
  let count ← typeCount
  if count = 1 then return (1, Array.replicate size 0)
  let longest ← if ← bit then pure (1 + (← bits 4)) else pure 0
  let code ← prefixCode (count + longest)
  let entries ← contextEntries code longest size (size + 1) []
  let entries := if ← bit then moveToFront (List.range 256) entries else entries
  return (count, entries.toArray)

end VariantCache.Codec.Brotli
