import VariantCache.Bytes

/-!
# Output that refers back to itself

The formats of the Lempel-Ziv family write either new bytes or a reference to
bytes that were written some distance before. A reference may reach into its own
output, which repeats the bytes it has just written.
-/

namespace VariantCache.Codec

/-- The bytes written so far. -/
abbrev Output := Array UInt8

namespace Output

/-- Writes `length` bytes again that stand `distance` before the end, where
`distance` is at least one and not more than what was written. -/
def copyBack (out : Output) (distance : Nat) : (length : Nat) → Output
  | 0 => out
  | length + 1 => copyBack (out.push (out.getD (out.size - distance) 0)) distance length

/-- As `copyBack`; nothing when the distance reaches before the start. -/
def copyBack? (out : Output) (distance length : Nat) : Option Output :=
  if 0 < distance ∧ distance ≤ out.size then some (out.copyBack distance length) else none

/-- Writes new bytes. -/
def write (out : Output) (new : Bytes) : Output := new.foldl Array.push out

/-- The byte `back` places before the end, zero before the start. -/
def recent (out : Output) (back : Nat) : Nat :=
  if back ≤ out.size then (out.getD (out.size - back) 0).toNat else 0

end Output
end VariantCache.Codec
