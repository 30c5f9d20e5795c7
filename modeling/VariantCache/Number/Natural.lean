import VariantCache.Number.Decimal

/-!
# Natural numbers as text
-/

namespace VariantCache.Natural

/-- The largest number of 64 bits. -/
def max64 : Nat := 0xffffffffffffffff

/-- The largest number of 16 bits. -/
def max16 : Nat := 0xffff

/-- The number, if it is within a limit. -/
def within? (limit n : Nat) : Option Nat := if n ≤ limit then some n else none

/-- Reads digits, at least one, as a number within a limit. -/
def ofDigits? (limit : Nat) (digits : List Char) : Option Nat :=
  if digits.isEmpty || !digits.all Char.isDigit then none
  else within? limit (Decimal.ofDigits digits)

/-- Reads a number within a limit: digits, with a plus in front or not. -/
def parse? (limit : Nat) (text : String) : Option Nat :=
  match text.toList with
  | '+' :: digits => ofDigits? limit digits
  | digits => ofDigits? limit digits

theorem le_of_within? {limit n m : Nat} (h : within? limit n = some m) : m = n ∧ m ≤ limit := by
  unfold within? at h
  split at h
  · next hn => cases h; exact ⟨rfl, hn⟩
  · cases h

end VariantCache.Natural
