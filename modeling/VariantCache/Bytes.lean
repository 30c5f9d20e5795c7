/-!
# Byte strings

A body, a header value and a compressed stream are all lists of bytes. Numbers
inside the compressed formats are written in a fixed count of bytes, either
least or most significant byte first; both directions of each are here.
-/

namespace VariantCache

/-- A byte string. -/
abbrev Bytes := List UInt8

namespace Bytes

/-- The UTF-8 bytes of a text. -/
def ofString (s : String) : Bytes := s.toUTF8.toList

/-- The text that a byte string spells in UTF-8, if it does. -/
def toString? (b : Bytes) : Option String := String.fromUTF8? ⟨b.toArray⟩

/-- The `count` low bytes of `n`, least significant first. -/
def littleEndian : (count n : Nat) → Bytes
  | 0, _ => []
  | count + 1, n => UInt8.ofNat n :: littleEndian count (n / 256)

/-- The `count` low bytes of `n`, most significant first. -/
def bigEndian (count n : Nat) : Bytes := (littleEndian count n).reverse

/-- The number that a byte string spells, least significant byte first. -/
def toNat : Bytes → Nat
  | [] => 0
  | b :: rest => b.toNat + 256 * toNat rest

@[simp] theorem length_littleEndian (count n : Nat) : (littleEndian count n).length = count := by
  induction count generalizing n with
  | zero => rfl
  | succ count ih => simp [littleEndian, ih]

@[simp] theorem length_bigEndian (count n : Nat) : (bigEndian count n).length = count := by
  simp [bigEndian]

/-- Reading back what was written keeps the number modulo its room. -/
theorem toNat_littleEndian (count n : Nat) :
    toNat (littleEndian count n) = n % Nat.pow 256 count := by
  induction count generalizing n with
  | zero => simp [littleEndian, toNat, Nat.mod_one]
  | succ count ih =>
    have h : (UInt8.ofNat n).toNat = n % 256 := by simp [UInt8.toNat_ofNat']
    rw [littleEndian, toNat, ih, h, show Nat.pow 256 (count + 1) = 256 * Nat.pow 256 count from
      Nat.mul_comm _ _, Nat.mod_mul]

/-- The first `n` bytes and those after them; nothing when there are fewer than `n`. -/
def splitAt? (n : Nat) (b : Bytes) : Option (Bytes × Bytes) :=
  if n ≤ b.length then some (b.take n, b.drop n) else none

/-- Bytes split off exactly are what stood in front. -/
theorem splitAt?_append {front rest : Bytes} {n : Nat} (width : front.length = n) :
    splitAt? n (front ++ rest) = some (front, rest) := by
  subst width
  simp [splitAt?]

end Bytes
end VariantCache
