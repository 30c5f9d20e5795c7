import VariantCache.Number.BinaryFormat
import VariantCache.Number.Decimal

/-!
# Weights of preferences

A weight is a binary32 number from zero to one. Negative zero counts as zero, but
keeps its own bit pattern.
-/

namespace VariantCache

/-- The bit pattern of one. -/
def Weight.onePattern : Nat := 0x3f800000

/-- The bit pattern of negative zero. -/
def Weight.negativeZero : Nat := 0x80000000

/-- A binary32 number from zero to one. -/
structure Weight where
  /-- The bit pattern. -/
  bits : Nat
  bits_valid : bits ≤ Weight.onePattern ∨ bits = Weight.negativeZero

namespace Weight

/-- The weight of an element that states none. -/
def one : Weight := ⟨onePattern, Or.inl (Nat.le_refl _)⟩

/-- A number with the order of the weights. -/
def rank (w : Weight) : Nat := if w.bits = negativeZero then 0 else w.bits

/-- The weight refuses what it stands beside. -/
def isZero (w : Weight) : Bool := w.rank == 0

/-- A weight with the given bit pattern, if it is one. -/
def ofBits? (bits : Nat) : Option Weight :=
  if h : bits ≤ onePattern ∨ bits = negativeZero then some ⟨bits, h⟩ else none

/-- The weight that is nearest to a decimal number, if that lies between zero and one. -/
def ofDecimal? : Decimal → Option Weight
  | .finite false digits exponent => ofBits? (BinaryFormat.binary32.nearestDecimal digits exponent)
  | .finite true digits exponent =>
    ofBits? (negativeZero + BinaryFormat.binary32.nearestDecimal digits exponent)
  | .infinite _ | .notANumber => none

/-- Reads a weight. -/
def parse? (cs : List Char) : Option Weight := (Decimal.parse? cs).bind ofDecimal?

theorem rank_le_one (w : Weight) : w.rank ≤ onePattern := by
  unfold rank
  split
  · exact Nat.zero_le _
  · rcases w.bits_valid with h | h
    · exact h
    · contradiction

end Weight
end VariantCache
