import VariantCache.Codec.BitSource
import VariantCache.Codec.Zstandard.BackwardBits

/-!
# Finite state entropy tables

A table has `2 ^ log` states. Each state stands for a symbol and says how many bits
to read for the next state and what to add to them. The table follows from the
count of states of each symbol: the states of a symbol are spread by a fixed
stride, and a symbol of less than one state's weight gets one of the last states.
-/

namespace VariantCache.Codec.Zstandard

/-- What a state of a table stands for. -/
structure FseState where
  symbol : Nat
  /-- How many bits the next state takes. -/
  width : Nat
  /-- What is added to them. -/
  base : Nat

/-- A table of `2 ^ log` states. -/
structure FseTable where
  log : Nat
  states : Array FseState

/-- The share of a symbol. -/
inductive Share where
  /-- The symbol has this many states. -/
  | states (count : Nat)
  /-- The symbol has less than one state's weight, and gets one state. -/
  | rare

/-- How many states a symbol has. -/
def Share.count : Share → Nat
  | states count => count
  | rare => 1

namespace FseTable

/-- The rare symbols, in order. -/
def rareSymbols (shares : List Share) : List Nat :=
  (shares.zipIdx.filter fun entry => entry.1 matches .rare).map (·.2)

/-- The other symbols, each as often as it has states, in order. -/
def commonSymbols (shares : List Share) : List Nat :=
  shares.zipIdx.flatMap fun entry =>
    match entry.1 with
    | .states count => List.replicate count entry.2
    | .rare => []

/-- The places that the common symbols are spread over, in the order in which they are
filled: by the stride from zero on, without the last places, which are taken. -/
def spreadPlaces (size free : Nat) : List Nat :=
  let stride := size / 2 + size / 8 + 3
  ((List.range size).map fun i => i * stride % size).filter (· < free)

/-- The symbol of each state. -/
def spread (log : Nat) (shares : List Share) : Array Nat :=
  let size := Nat.pow 2 log
  let rare := rareSymbols shares
  let free := size - rare.length
  let start := Array.replicate size 0
  let withRare := rare.zipIdx.foldl (fun t entry => t.setIfInBounds (size - 1 - entry.2) entry.1) start
  ((spreadPlaces size free).zip (commonSymbols shares)).foldl
    (fun t entry => t.setIfInBounds entry.1 entry.2) withRare

/-- Numbers the states of each symbol from its count on, and derives what each reads. -/
def fill (log : Nat) : List Nat → (next : Array Nat) → List FseState
  | [], _ => []
  | symbol :: rest, next =>
    let number := next.getD symbol 1
    let width := log - Nat.log2 number
    ⟨symbol, width, (number <<< width) - Nat.pow 2 log⟩ ::
      fill log rest (next.setIfInBounds symbol (number + 1))

/-- The table of the given shares. -/
def ofShares (log : Nat) (shares : List Share) : FseTable :=
  ⟨log, (fill log (spread log shares).toList (shares.map Share.count).toArray).toArray⟩

/-- The table of a single symbol, which takes no bits. -/
def single (symbol : Nat) : FseTable := ⟨0, #[⟨symbol, 0, 0⟩]⟩

end FseTable

/-! ### Reading a description -/

open BitDecoder in
/-- Reads counts of symbols without states, two bits at a time, as long as they are three. -/
def zeroShares : (fuel : Nat) → BitDecoder Nat
  | 0 => malformed
  | fuel + 1 => do
    let count ← bits 2
    if count = 3 then return 3 + (← zeroShares fuel) else return count

open BitDecoder in
/-- Reads the shares of the symbols, last first, until all `left` states are given away. The
width of a share depends on how many states are left; small values take a bit less. -/
def readShares : (fuel left : Nat) → List Share → BitDecoder (List Share)
  | _, 0, shares => return shares.reverse
  | 0, _, _ => malformed
  | fuel + 1, left, shares => do
    let width := Nat.log2 (left + 1)
    let short := Nat.pow 2 (width + 1) - 1 - (left + 1)
    let low ← bits width
    let value ← if low < short then pure low
      else pure (if ← bit then low + Nat.pow 2 width - short else low)
    match value with
    | 0 => readShares fuel (left - 1) (.rare :: shares)
    | 1 =>
      let zeros ← zeroShares 256
      readShares fuel left (List.replicate (zeros + 1) (.states 0) ++ shares)
    | n + 2 =>
      require (n + 1 ≤ left)
      readShares fuel (left - (n + 1)) (.states (n + 1) :: shares)

open BitDecoder in
/-- Reads the description of a table over the symbols up to `largest`. -/
def readTable (maxLog largest : Nat) : BitDecoder FseTable := do
  let log := 5 + (← bits 4)
  require (log ≤ maxLog)
  let shares ← readShares 512 (Nat.pow 2 log) []
  require (shares.length ≤ largest + 1)
  skipToByte
  return .ofShares log shares

/-! ### Decoding with a table -/

namespace FseTable

/-- Reads the first state. -/
def start (table : FseTable) : BackwardDecoder FseState := fun s => do
  let (index, rest) ← BackwardDecoder.bits table.log s
  return (← table.states[index]?, rest)

/-- Reads the state that follows a state. -/
def step (table : FseTable) (state : FseState) : BackwardDecoder FseState := fun s => do
  let (index, rest) ← BackwardDecoder.bits state.width s
  return (← table.states[state.base + index]?, rest)

/-- Symbols that two states decode in turn, until the bits do not suffice for the next
state; then the other state has the last symbol. -/
def alternate (table : FseTable) : (fuel : Nat) → (now other : FseState) → List Bool →
    Option (List Nat)
  | 0, _, _, _ => none
  | fuel + 1, now, other, bits =>
    match table.step now bits with
    | none => some [now.symbol, other.symbol]
    | some (next, rest) => do
      let more ← alternate table fuel other next rest
      return now.symbol :: more

end FseTable
end VariantCache.Codec.Zstandard
