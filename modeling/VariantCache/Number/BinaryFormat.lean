/-!
# Binary floating-point numbers

A positive number of a binary format is a count of units. The unit is the same for
all numbers from one power of two to the next, and is the least one below the
least power. The bit pattern of a number is its count plus a fixed step for every
power of two above the least one, so the patterns have the order of the numbers
and a carry into the next power of two needs no case of its own.
-/

namespace VariantCache

/-- A format of binary numbers. -/
structure BinaryFormat where
  /-- The digits after the first one. -/
  fractionBits : Nat
  /-- The exponent of the least power of two that has all its digits. -/
  leastExponent : Int
  /-- How many powers of two have all their digits. -/
  exponents : Nat
  /-- Numbers from ten to this power on are too large, and the inverse is less than half a unit. -/
  decimalRange : Nat

namespace BinaryFormat

/-- The format of 32 bits. -/
def binary32 : BinaryFormat := ⟨23, -126, 254, 60⟩

/-- The format of 64 bits. -/
def binary64 : BinaryFormat := ⟨52, -1022, 2046, 400⟩

/-- The quotient rounded to the nearest whole number, a half to the even one. -/
def roundDiv (num den : Nat) : Nat :=
  let q := num / den
  let twice := 2 * (num % den)
  if twice < den ∨ (twice = den ∧ q % 2 = 0) then q else q + 1

/-- The greatest `e` with `2 ^ e * den ≤ num`, for positive numbers. -/
def binaryExponent (num den : Nat) : Int :=
  let e : Int := (Nat.log2 num : Int) - (Nat.log2 den : Int)
  let atLeast : Bool := if 0 ≤ e then den * Nat.pow 2 e.toNat ≤ num else den ≤ num * Nat.pow 2 (-e).toNat
  if atLeast then e else e - 1

variable (format : BinaryFormat)

/-- The pattern of infinity, which every larger number rounds to. -/
def infinity : Nat := (format.exponents + 1) * Nat.pow 2 format.fractionBits

/-- The pattern of the number nearest to `num / den`. -/
def nearest (num den : Nat) : Nat :=
  if num = 0 then 0
  else
    let e := max (binaryExponent num den) format.leastExponent
    let digits : Int := format.fractionBits
    let units := roundDiv (num * Nat.pow 2 (digits - e).toNat) (den * Nat.pow 2 (e - digits).toNat)
    min format.infinity ((e - format.leastExponent).toNat * Nat.pow 2 format.fractionBits + units)

/-- The pattern of the number nearest to `digits * 10 ^ exponent`. Exponents far out of
range are decided without their powers. -/
def nearestDecimal (digits : Nat) (exponent : Int) : Nat :=
  if digits = 0 then 0
  else if (format.decimalRange : Int) < exponent then format.infinity
  else if exponent < -((format.decimalRange : Int) + (Nat.log2 digits : Int)) then 0
  else format.nearest (digits * Nat.pow 10 exponent.toNat) (Nat.pow 10 (-exponent).toNat)

/-- The count of units that a pattern stands for, and the exponent of the unit. -/
def unitsOf (pattern : Nat) : Nat × Int :=
  let step := Nat.pow 2 format.fractionBits
  let above := pattern / step - 1
  (pattern - above * step, format.leastExponent - format.fractionBits + above)

end BinaryFormat
end VariantCache
