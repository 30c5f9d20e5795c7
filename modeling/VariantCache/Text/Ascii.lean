/-!
# Letter case

Names in headers are compared without regard to the case of ASCII letters; every
other character stands for itself.
-/

namespace VariantCache.Text

/-- The characters with ASCII letters in lower case. -/
def lowered (cs : List Char) : List Char := cs.map Char.toLower

/-- The text with ASCII letters in lower case. -/
def lower (s : String) : String := String.ofList (lowered s.toList)

/-- The texts are equal but for the case of ASCII letters. -/
def sameName (a b : String) : Bool := lowered a.toList == lowered b.toList

/-- The byte with an ASCII letter in lower case. -/
def lowerByte (b : UInt8) : UInt8 := if 65 ≤ b ∧ b ≤ 90 then b + 32 else b

end VariantCache.Text
