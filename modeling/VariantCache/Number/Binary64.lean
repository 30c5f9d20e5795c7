import VariantCache.Number.BinaryFormat
import VariantCache.Number.Decimal
import VariantCache.Number.Shortest

/-!
# Numbers of 64 bits

A binary64 number is read from a decimal text as the number nearest to it, and is
written with the fewest digits that read back as the same number, without an
exponent.
-/

namespace VariantCache

/-- A binary64 number. -/
inductive Binary64 where
  /-- Not a number. -/
  | notANumber
  | infinite (negative : Bool)
  /-- The number whose absolute value has the given bit pattern. -/
  | finite (negative : Bool) (pattern : Nat)
  deriving DecidableEq

namespace Binary64

/-- The number nearest to a decimal one. -/
def ofDecimal : Decimal → Binary64
  | .notANumber => notANumber
  | .infinite negative => infinite negative
  | .finite negative digits exponent =>
    let pattern := BinaryFormat.binary64.nearestDecimal digits exponent
    if pattern = BinaryFormat.binary64.infinity then infinite negative else finite negative pattern

/-- The number is zero, of either sign. -/
def isZero : Binary64 → Bool
  | finite _ pattern => pattern == 0
  | notANumber | infinite _ => false

/-- The nearest whole number that is neither negative nor above the limit; a half goes up. -/
def roundWithin (limit : Nat) : Binary64 → Nat
  | notANumber => 0
  | infinite negative => if negative then 0 else limit
  | finite negative pattern =>
    let (units, exponent) := BinaryFormat.binary64.unitsOf pattern
    let halves := units * Nat.pow 2 (exponent + 1).toNat / Nat.pow 2 (-1 - exponent).toNat
    if negative then 0 else min limit ((halves + 1) / 2)

/-- The numbers that read as the one with the given pattern, which is not zero. The
interval is smaller below a power of two. -/
def interval (pattern : Nat) : Shortest.Interval :=
  let step := Nat.pow 2 BinaryFormat.binary64.fractionBits
  let (units, exponent) := BinaryFormat.binary64.unitsOf pattern
  let below := if pattern % step = 0 && step < pattern then 1 else 2
  let scale := Nat.pow 2 (exponent - 2).toNat
  { value := 4 * units * scale
    lower := (4 * units - below) * scale
    upper := (4 * units + 2) * scale
    den := Nat.pow 2 (2 - exponent).toNat
    closed := units % 2 == 0 }

/-- The text of a number. -/
def text : Binary64 → String
  | notANumber => "NaN"
  | infinite negative => if negative then "-inf" else "inf"
  | finite negative pattern =>
    let digits :=
      if pattern = 0 then ['0']
      else
        let (digits, exponent) := Shortest.find (interval pattern)
        Shortest.positional digits exponent
    String.ofList (if negative then '-' :: digits else digits)

end Binary64
end VariantCache
