import VariantCache.Bytes

/-!
# Constant tables of the Brotli format

The bases and extra bits of the length codes, the alphabet of code lengths, and
the tables that sort a pair of preceding bytes into a literal context.
-/

namespace VariantCache.Codec.Brotli

/-- A number is written as a code that gives a base, and then some extra bits. -/
structure Extended where
  base : Nat
  extra : Nat

/-- Consecutive ranges: each starts where the one before ends, and has `2 ^ extra` numbers. -/
def consecutive (first : Nat) : List Nat → List Extended
  | [] => []
  | extra :: rest => ⟨first, extra⟩ :: consecutive (first + Nat.pow 2 extra) rest

/-- The counts of literals that a command inserts. -/
def insertLengths : List Extended :=
  consecutive 0 [0, 0, 0, 0, 0, 0, 1, 1, 2, 2, 3, 3, 4, 4, 5, 5, 6, 7, 8, 9, 10, 12, 14, 24]

/-- The counts of bytes that a command copies. -/
def copyLengths : List Extended :=
  consecutive 2 [0, 0, 0, 0, 0, 0, 0, 0, 1, 1, 2, 2, 3, 3, 4, 4, 5, 5, 6, 7, 8, 9, 10, 24]

/-- The counts of elements in a block of one type. -/
def blockLengths : List Extended :=
  consecutive 1 [2, 2, 2, 2, 3, 3, 3, 3, 4, 4, 4, 4, 5, 5, 5, 5, 6, 6, 7, 8, 9, 10, 11, 12, 13, 24]

/-- The first of eight insert codes and the first of eight copy codes for each group of 64 commands. -/
def commandGroups : List (Nat × Nat) :=
  [(0, 0), (0, 8), (0, 0), (0, 8), (8, 0), (8, 8), (0, 16), (16, 0), (8, 16), (16, 8), (16, 16)]

/-- The order in which the lengths of the code-length code are written. -/
def codeLengthOrder : List Nat := [1, 2, 3, 4, 0, 5, 17, 6, 16, 7, 8, 9, 10, 11, 12, 13, 14, 15]

/-! ### Literal contexts -/

/-- Sorts the byte before a literal, in the mode for UTF-8 text, among ASCII bytes. -/
def textContextTable : Array Nat := #[
  0, 0, 0, 0, 0, 0, 0, 0, 0, 4, 4, 0, 0, 4, 0, 0,
  0, 0, 0, 0, 0, 0, 0, 0, 0, 0, 0, 0, 0, 0, 0, 0,
  8, 12, 16, 12, 12, 20, 12, 16, 24, 28, 12, 12, 32, 12, 36, 12,
  44, 44, 44, 44, 44, 44, 44, 44, 44, 44, 32, 32, 24, 40, 28, 12,
  12, 48, 52, 52, 52, 48, 52, 52, 52, 48, 52, 52, 52, 52, 52, 48,
  52, 52, 52, 52, 52, 48, 52, 52, 52, 52, 52, 24, 12, 28, 12, 12,
  12, 56, 60, 60, 60, 56, 60, 60, 60, 56, 60, 60, 60, 60, 60, 56,
  60, 60, 60, 60, 60, 56, 60, 60, 60, 60, 60, 24, 12, 28, 12, 0]

/-- What the byte before a literal adds to its context for text. -/
def textContextLast (b : Nat) : Nat :=
  if b < 128 then textContextTable.getD b 0
  else if b < 192 then b % 2
  else 2 + b % 2

/-- What the byte before that adds to the context for text. -/
def textContextSecond (b : Nat) : Nat :=
  if b ≤ 32 then 0
  else if b < 48 then 1
  else if b < 58 then 2
  else if b < 65 then 1
  else if b < 91 then 2
  else if b < 97 then 1
  else if b < 123 then 3
  else if b < 127 then 1
  else if b < 192 then 0
  else 2

/-- Sorts a byte by its size as a signed number. -/
def signedContext (b : Nat) : Nat :=
  if b = 0 then 0
  else if b < 16 then 1
  else if b < 64 then 2
  else if b < 128 then 3
  else if b < 192 then 4
  else if b < 240 then 5
  else if b < 255 then 6
  else 7

/-- How a literal block type sorts the two bytes before a literal into 64 contexts. -/
inductive ContextMode where
  /-- By the low six bits of the last byte. -/
  | lowBits
  /-- By the high six bits of the last byte. -/
  | highBits
  /-- By the classes of the two bytes as UTF-8 text. -/
  | text
  /-- By the sizes of the two bytes as signed numbers. -/
  | signed

/-- The mode written as a number of two bits. -/
def ContextMode.ofNat : Nat → ContextMode
  | 0 => lowBits
  | 1 => highBits
  | 2 => text
  | _ => signed

/-- The context of a literal after the bytes `second`, `last`. -/
def ContextMode.context (mode : ContextMode) (last second : Nat) : Nat :=
  match mode with
  | lowBits => last % 64
  | highBits => last / 4
  | text => textContextLast last ||| textContextSecond second
  | signed => signedContext last * 8 + signedContext second

end VariantCache.Codec.Brotli
