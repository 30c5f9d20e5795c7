import Mathlib
import VariantCache.CacheKey
import VariantCache.Text.Split

/-!
# Lower case and trimming

Each of the two is done once and for all (`lowered_lowered`, `trimmed_trimmed`), and they
commute (`trimmed_lowered`): no letter is blank. So the fold of a part of a key is lower case
alone where a text is trimmed (`CacheKey.fold_of_trimmed`), and leaves a part that was folded
before as it is (`CacheKey.fold_fold`). Cutting a text at a character that is no letter
commutes with lower case too (`splitAt_lowered`).
-/

namespace VariantCache.Text

/-! ### Lower case -/

/-- An upper case letter stands thirty-two places before the lower case one; any other character
is itself. -/
theorem toLower_cases (c : Char) :
    c.toLower = c ∧ ¬ (65 ≤ c.toNat ∧ c.toNat ≤ 90) ∨
      c.toLower.toNat = c.toNat + 32 ∧ 65 ≤ c.toNat ∧ c.toNat ≤ 90 := by
  unfold Char.toLower
  split
  · next upper =>
    have bounds : 65 ≤ c.toNat ∧ c.toNat ≤ 90 := upper
    have sum : (c.val + ('a'.val - 'A'.val)).toNat = (c.toNat + 32) % 4294967296 :=
      UInt32.toNat_add c.val 32
    refine Or.inr ⟨?_, bounds⟩
    show (c.val + ('a'.val - 'A'.val)).toNat = c.toNat + 32
    omega
  · next other => exact Or.inl ⟨rfl, other⟩

theorem lowered_lowered (cs : List Char) : lowered (lowered cs) = lowered cs := by
  simp [lowered]

theorem lower_lower (s : String) : lower (lower s) = lower s := by
  simp [lower, lowered_lowered]

theorem lower_eq_empty_iff {s : String} : lower s = "" ↔ s = "" := by
  rw [lower, String.ofList_eq_empty_iff, lowered, List.map_eq_nil_iff, String.toList_eq_nil_iff]

theorem isBlank_of_letter {c : Char} (low : 65 ≤ c.toNat) (high : c.toNat ≤ 122) :
    isBlank c = false := by
  simp only [isBlank, Bool.or_eq_false_iff, Bool.and_eq_false_iff, decide_eq_false_iff_not,
    beq_eq_false_iff_ne]
  omega

/-- No letter is blank in either case. -/
theorem isBlank_toLower (c : Char) : isBlank c.toLower = isBlank c := by
  rcases toLower_cases c with ⟨same, -⟩ | ⟨shifted, bounds⟩
  · rw [same]
  · rw [isBlank_of_letter bounds.1 (by omega), isBlank_of_letter (by omega) (by omega)]

/-! ### Trimming -/

theorem trimmed_eq (cs : List Char) : trimmed cs = (cs.dropWhile isBlank).rdropWhile isBlank := rfl

theorem trimmed_trimmed (cs : List Char) : trimmed (trimmed cs) = trimmed cs := by
  simp only [trimmed_eq]
  generalize h : cs.dropWhile isBlank = front
  -- What is left is a part of `front` at its start, and so does not start with a blank either.
  have trimmedFront : (front.rdropWhile isBlank).dropWhile isBlank = front.rdropWhile isBlank := by
    obtain ⟨rest, split⟩ := List.rdropWhile_prefix isBlank front
    cases kept : front.rdropWhile isBlank with
    | nil => rfl
    | cons c tail =>
      have starts : front = c :: (tail ++ rest) := by rw [← split, kept, List.cons_append]
      have notBlank : ¬ isBlank c := by
        intro blank
        have again : front.dropWhile isBlank = front := by rw [← h, List.dropWhile_idempotent]
        rw [starts, List.dropWhile_cons_of_pos blank] at again
        have shorter := congrArg List.length again
        have le := List.length_dropWhile_le isBlank (tail ++ rest)
        rw [List.length_cons] at shorter
        omega
      rw [List.dropWhile_cons_of_neg notBlank]
  rw [trimmedFront, List.rdropWhile_idempotent]

theorem trimmed_lowered (cs : List Char) : trimmed (lowered cs) = lowered (trimmed cs) := by
  have blanks : isBlank ∘ Char.toLower = isBlank := funext isBlank_toLower
  simp only [trimmed, lowered, List.dropWhile_map, ← List.map_reverse, blanks]

theorem trim_trim (s : String) : trim (trim s) = trim s := by
  simp [trim, trimmed_trimmed]

theorem trim_lower (s : String) : trim (lower s) = lower (trim s) := by
  simp [trim, lower, trimmed_lowered]

/-! ### Cutting -/

/-- A character that is no letter cuts a text in lower case where it cuts the text. -/
theorem splitAt_lowered {separator : Char} (h : ∀ c : Char, c.toLower = separator ↔ c = separator)
    (cs : List Char) :
    splitAt separator (lowered cs) = (splitAt separator cs).map lowered := by
  induction cs with
  | nil => rfl
  | cons c rest ih =>
    simp only [lowered, List.map_cons, splitAt, h c]
    by_cases cut : c = separator
    · rw [if_pos cut, if_pos cut, List.map_cons, ← ih]
      rfl
    · rw [if_neg cut, if_neg cut, show rest.map Char.toLower = lowered rest from rfl, ih]
      cases splitAt separator rest <;> rfl

/-- A character before the letters is not the lower case of any other. -/
theorem toLower_eq_iff {d : Char} (h : d.toNat < 65) (c : Char) : c.toLower = d ↔ c = d := by
  rcases toLower_cases c with ⟨same, -⟩ | ⟨shifted, bounds⟩
  · rw [same]
  · constructor
    · intro lowerCase
      rw [lowerCase] at shifted
      omega
    · rintro rfl
      omega

theorem toLower_eq_hyphen_iff (c : Char) : c.toLower = '-' ↔ c = '-' :=
  toLower_eq_iff (by decide) c

end VariantCache.Text

namespace VariantCache.CacheKey

/-- Of a text that is trimmed the fold forgets the letter case, and nothing else. -/
theorem fold_of_trimmed {s : String} (h : Text.trim s = s) : fold s = Text.lower s := by
  rw [fold, h]

theorem fold_fold (s : String) : fold (fold s) = fold s := by
  simp only [fold, Text.trim_lower, Text.trim_trim, Text.lower_lower]

end VariantCache.CacheKey
