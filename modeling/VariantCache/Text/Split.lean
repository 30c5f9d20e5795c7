/-!
# Cutting a text at a character
-/

namespace VariantCache.Text

/-- The parts of a text between the occurrences of a character. There is one more part
than there are occurrences. -/
def splitAt (separator : Char) : List Char → List (List Char)
  | [] => [[]]
  | c :: rest =>
    if c = separator then [] :: splitAt separator rest
    else
      match splitAt separator rest with
      | [] => [[c]]
      | part :: parts => (c :: part) :: parts

/-- The parts before and after the first occurrence of a character, if it occurs. -/
def cut? (separator : Char) : List Char → Option (List Char × List Char)
  | [] => none
  | c :: rest =>
    if c = separator then some ([], rest)
    else (cut? separator rest).map fun parts => (c :: parts.1, parts.2)

theorem splitAt_ne_nil (separator : Char) (cs : List Char) : splitAt separator cs ≠ [] := by
  cases cs with
  | nil => simp [splitAt]
  | cons c rest =>
    simp only [splitAt]
    split
    · simp
    · split <;> simp

/-- Cutting the two sides of a separator separately gives the same parts. -/
theorem splitAt_append (separator : Char) (a b : List Char) :
    splitAt separator (a ++ separator :: b) = splitAt separator a ++ splitAt separator b := by
  induction a with
  | nil => simp [splitAt]
  | cons c rest ih =>
    simp only [List.cons_append, splitAt, ih]
    split
    · simp
    · cases h : splitAt separator rest with
      | nil => exact absurd h (splitAt_ne_nil separator rest)
      | cons part parts => simp

end VariantCache.Text
