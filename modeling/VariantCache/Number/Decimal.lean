import VariantCache.Text.Ascii

/-!
# Decimal numbers as text

A decimal number has an optional sign, digits with an optional point among or
around them, and an optional exponent. The names of infinity and of no number at
all are read too, in any letter case.
-/

namespace VariantCache

/-- What a decimal text stands for. -/
inductive Decimal where
  /-- Not a number. -/
  | notANumber
  | infinite (negative : Bool)
  /-- `digits * 10 ^ exponent`, with a sign. -/
  | finite (negative : Bool) (digits : Nat) (exponent : Int)
  deriving DecidableEq

namespace Decimal

/-- The number that decimal digits spell. -/
def ofDigits (digits : List Char) : Nat :=
  digits.foldl (fun n c => 10 * n + (c.toNat - '0'.toNat)) 0

/-- Takes the sign off a text, and says whether it is a minus. -/
def sign : List Char → Bool × List Char
  | '-' :: rest => (true, rest)
  | '+' :: rest => (false, rest)
  | cs => (false, cs)

/-- Reads the rest of a text as an exponent: nothing, or a mark, a sign and digits. -/
def exponent? : List Char → Option Int
  | [] => some 0
  | mark :: rest =>
    let (negative, digits) := sign rest
    if (mark = 'e' ∨ mark = 'E') ∧ !digits.isEmpty ∧ digits.all Char.isDigit then
      let size : Int := ofDigits digits
      some (if negative then -size else size)
    else none

/-- Reads digits with an optional point and exponent. -/
def finite? (negative : Bool) (cs : List Char) : Option Decimal :=
  let whole := cs.takeWhile Char.isDigit
  let rest := cs.dropWhile Char.isDigit
  let (fraction, rest) := match rest with
    | '.' :: rest => (rest.takeWhile Char.isDigit, rest.dropWhile Char.isDigit)
    | _ => ([], rest)
  if whole.isEmpty && fraction.isEmpty then none
  else (exponent? rest).map fun e => .finite negative (ofDigits (whole ++ fraction)) (e - fraction.length)

/-- Reads a decimal number. -/
def parse? (cs : List Char) : Option Decimal :=
  let (negative, rest) := sign cs
  let name := String.ofList (Text.lowered rest)
  if name = "inf" ∨ name = "infinity" then some (.infinite negative)
  else if name = "nan" then some .notANumber
  else finite? negative rest

end Decimal
end VariantCache
