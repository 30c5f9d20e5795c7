import VariantCache.Bytes
import VariantCache.Document.Json

/-!
# Bytes written by number

In a path a byte may be written as a percent sign with two hexadecimal digits. A
percent sign without them stands for itself.
-/

namespace VariantCache.Text.Percent

/-- The percent sign. -/
def sign : UInt8 := 0x25

/-- The number that a digit stands for. -/
def digit? (b : UInt8) : Option Nat := Document.Json.hexDigit? (Char.ofNat b.toNat)

/-- The bytes that a text stands for. -/
def decode : Bytes → Bytes
  | a :: b :: c :: rest =>
    if a = sign then
      match digit? b, digit? c with
      | some high, some low => UInt8.ofNat (16 * high + low) :: decode rest
      | _, _ => a :: decode (b :: c :: rest)
    else a :: decode (b :: c :: rest)
  | short => short

end VariantCache.Text.Percent
