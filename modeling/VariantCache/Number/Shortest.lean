/-!
# The fewest digits that read back

Of the decimal numbers in an interval around a value, the one with the fewest
digits stands for the value; of two with as many digits, the one nearer to it.
The value and the ends of the interval are fractions with one denominator. On each
decimal grid only the two neighbours of the value can be in the interval when any
point of the grid is, so no other points are tried.
-/

namespace VariantCache.Shortest

/-- An interval around a value, all over one denominator. -/
structure Interval where
  value : Nat
  lower : Nat
  upper : Nat
  den : Nat
  /-- The ends belong to the interval. -/
  closed : Bool

/-- How many digits a number has. -/
def digitCount (n : Nat) : Nat := (Nat.toDigits 10 n).length

/-- An exponent such that the value is at most ten to it, and the least such or one more. -/
def magnitude (i : Interval) : Int :=
  if i.den ≤ i.value then digitCount (i.value / i.den)
  else 1 - (digitCount (i.den / i.value) : Int)

/-- The point of the grid with the given exponent that is nearest to the value, if it is in
the interval. -/
def onGrid? (i : Interval) (exponent : Int) : Option Nat :=
  let scale := Nat.pow 10 (-exponent).toNat
  let step := Nat.pow 10 exponent.toNat * i.den
  let holds (n : Nat) : Bool :=
    if i.closed then i.lower * scale ≤ n * step && n * step ≤ i.upper * scale
    else i.lower * scale < n * step && n * step < i.upper * scale
  let below := i.value * scale / step
  let gap := i.value * scale - below * step
  let nearerBelow : Bool := 2 * gap ≤ step
  if holds below && (nearerBelow || !holds (below + 1)) then some below
  else if holds (below + 1) then some (below + 1)
  else none

/-- The most digits that are tried. -/
def maxDigits : Nat := 17

/-- The digits and the exponent of the shortest decimal number in the interval. -/
def find (i : Interval) : Nat × Int :=
  let tries := (List.range maxDigits).findSome? fun k =>
    let exponent := magnitude i - (k + 1 : Nat)
    (onGrid? i exponent).map fun n =>
      if n = Nat.pow 10 (k + 1) then (1, exponent + (k + 1 : Nat)) else (n, exponent)
  tries.getD (0, 0)

/-- The number `digits * 10 ^ exponent` without an exponent. -/
def positional (digits : Nat) (exponent : Int) : List Char :=
  let text := Nat.toDigits 10 digits
  if 0 ≤ exponent then text ++ List.replicate exponent.toNat '0'
  else
    let places := (-exponent).toNat
    let text := List.replicate (places + 1 - text.length) '0' ++ text
    text.take (text.length - places) ++ '.' :: text.drop (text.length - places)

end VariantCache.Shortest
