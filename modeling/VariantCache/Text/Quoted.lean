import VariantCache.Text.Printed

/-!
# Texts in quotes

A text in a description stands between double quotes. A quote and a backslash get
a backslash in front, some control characters have short names, and every other
character that shows nothing of its own is written by its number.
-/

namespace VariantCache.Text.Quoted

/-- A number in hexadecimal digits. -/
def hexadecimal (n : Nat) : List Char := Nat.toDigits 16 n

/-- How a character is written between quotes. -/
def escape (c : Char) : List Char :=
  if c = '"' then ['\\', '"']
  else if c = '\\' then ['\\', '\\']
  else if c = '\n' then ['\\', 'n']
  else if c = '\r' then ['\\', 'r']
  else if c = '\t' then ['\\', 't']
  else if c = '\x00' then ['\\', '0']
  else if !isPrinted c then ['\\', 'u', '\x7b'] ++ hexadecimal c.toNat ++ ['\x7d']
  else [c]

/-- A text between quotes. -/
def quote (s : String) : String := String.ofList (['"'] ++ s.toList.flatMap escape ++ ['"'])

end VariantCache.Text.Quoted
