import VariantCache.Proofs.Number.Grammar
import VariantCache.Proofs.Number.Nearest
import VariantCache.Weight

/-!
# Weights as numbers

A weight stands for a number from zero to one (`Weight.value`), and the order of the weights is that
of the numbers (`Weight.value_le_value_iff`). A text states a weight when it spells a number that is
rounded to one from zero to one (`Weight.Stated`, `Weight.isSome_parse?_iff`); infinity and what is
no number are none. The weight stands for the number that is nearest to the one spelled
(`Weight.StatedAs`, `Weight.parse?_eq_some_iff`).
-/

namespace VariantCache

open BinaryFormat

/-! ### The number of a weight -/

namespace Weight

/-- The number that a weight stands for. -/
def value (w : Weight) : ℚ := binary32.value w.rank

theorem value_le_value_iff {v w : Weight} : v.value ≤ w.value ↔ v.rank ≤ w.rank :=
  binary32.strictMono_value.le_iff_le

theorem value_lt_value_iff {v w : Weight} : v.value < w.value ↔ v.rank < w.rank :=
  binary32.strictMono_value.lt_iff_lt

theorem value_inj {v w : Weight} : v.value = w.value ↔ v.rank = w.rank :=
  binary32.strictMono_value.injective.eq_iff

theorem value_nonneg (w : Weight) : 0 ≤ w.value := BinaryFormat.value_nonneg _

theorem value_onePattern : binary32.value onePattern = 1 := by
  norm_num [BinaryFormat.value, unitsOf, binary32, onePattern]

theorem value_le_one (w : Weight) : w.value ≤ 1 := by
  rw [← value_onePattern]
  exact binary32.strictMono_value.monotone w.rank_le_one

theorem isZero_iff {w : Weight} : w.isZero = true ↔ w.value = 0 := by
  have zero : binary32.value 0 = 0 := by norm_num [BinaryFormat.value, unitsOf]
  rw [isZero, beq_iff_eq, value, ← zero, binary32.strictMono_value.injective.eq_iff]

theorem eq_of_bits_eq {v w : Weight} (h : v.bits = w.bits) : v = w := by
  cases v
  cases w
  cases h
  rfl

/-- Only one weight stands for one. -/
theorem value_eq_one_iff {w : Weight} : w.value = 1 ↔ w = one := by
  rw [← value_onePattern, value, binary32.strictMono_value.injective.eq_iff]
  constructor
  · intro same
    unfold rank at same
    split at same
    · cases same
    · exact eq_of_bits_eq same
  · rintro rfl
    rfl

end Weight

/-! ### Texts of weights -/

namespace Weight

/-- The text spells a number that is rounded to one from zero to one: the number lies between the
two, or beyond one of them by at most half of the distance to the next number of the format. -/
def Stated (text : List Char) : Prop :=
  ∃ negative size, Decimal.Spells text negative size ∧
    size ≤ if negative then (1 / 2) ^ 150 else 1 + (1 / 2) ^ 24

/-- The weight stands for the number that is nearest to the one that the text spells, and is the
negative zero when that has a minus. -/
def StatedAs (text : List Char) (w : Weight) : Prop :=
  ∃ negative size, Decimal.Spells text negative size ∧ binary32.IsNearest size w.rank ∧
    (w.bits = negativeZero ↔ negative = true)

theorem nearestDecimal_le_infinity (format : BinaryFormat) (digits : Nat) (exponent : Int) :
    format.nearestDecimal digits exponent ≤ format.infinity := by
  unfold nearestDecimal
  split
  · exact Nat.zero_le _
  · split
    · exact Nat.le_refl _
    · split
      · exact Nat.zero_le _
      · unfold nearest
        split
        · exact Nat.zero_le _
        · exact Nat.min_le_left _ _

/-- A number is rounded to one at most when it exceeds one by half a unit at most. -/
theorem nearestDecimal_le_one_iff (digits : Nat) (exponent : Int) :
    binary32.nearestDecimal digits exponent ≤ onePattern ↔
      (digits : ℚ) * 10 ^ exponent ≤ 1 + (1 / 2) ^ 24 := by
  have middle : binary32.middle onePattern = 1 + (1 / 2) ^ 24 := by
    norm_num [BinaryFormat.middle, BinaryFormat.value, unitsOf, binary32, onePattern]
  rw [nearestDecimal_le_iff ranged_binary32 digits exponent (by decide), atMost_iff_of_even rfl, middle]

/-- A number is rounded to zero when it is half of the least number at most. -/
theorem nearestDecimal_eq_zero_iff (digits : Nat) (exponent : Int) :
    binary32.nearestDecimal digits exponent = 0 ↔
      (digits : ℚ) * 10 ^ exponent ≤ (1 / 2) ^ 150 := by
  have middle : binary32.middle 0 = (1 / 2) ^ 150 := by
    norm_num [BinaryFormat.middle, BinaryFormat.value, unitsOf, binary32]
  rw [← Nat.le_zero, nearestDecimal_le_iff ranged_binary32 digits exponent (by decide),
    atMost_iff_of_even rfl, middle]

theorem ofBits?_eq_some_iff {bits : Nat} {w : Weight} : ofBits? bits = some w ↔ w.bits = bits := by
  unfold ofBits?
  split
  · rw [Option.some.injEq]
    exact ⟨fun same => same ▸ rfl, fun same => eq_of_bits_eq same.symm⟩
  · next invalid =>
    exact iff_of_false (Option.some_ne_none w).symm fun same => invalid (same ▸ w.bits_valid)

/-- The pattern of a number is that of the weight, with the sign of the number. -/
theorem ofDecimal?_finite_eq_some_iff {negative : Bool} {digits : Nat} {exponent : Int} {w : Weight} :
    ofDecimal? (.finite negative digits exponent) = some w ↔
      binary32.nearestDecimal digits exponent = w.rank ∧
        (w.bits = negativeZero ↔ negative = true) := by
  have bounded := nearestDecimal_le_infinity binary32 digits exponent
  have small : onePattern < negativeZero ∧ binary32.infinity < negativeZero := by decide
  have valid := w.bits_valid
  cases negative with
  | false =>
    simp only [ofDecimal?, ofBits?_eq_some_iff, rank, Bool.false_eq_true, iff_false]
    split <;> omega
  | true =>
    simp only [ofDecimal?, ofBits?_eq_some_iff, rank, iff_true]
    split <;> omega

/-- What is read as a weight is a number. -/
theorem exists_finite_of_parse? {text : List Char} {w : Weight} (read : parse? text = some w) :
    ∃ negative digits exponent, Decimal.parse? text = some (.finite negative digits exponent) ∧
      ofDecimal? (.finite negative digits exponent) = some w := by
  obtain ⟨d, decimal, weighed⟩ := Option.bind_eq_some_iff.1 read
  cases d with
  | notANumber | infinite => cases weighed
  | finite negative digits exponent => exact ⟨negative, digits, exponent, decimal, weighed⟩

/-- **A text is read as the weight that it states.** -/
theorem parse?_eq_some_iff {text : List Char} {w : Weight} :
    parse? text = some w ↔ StatedAs text w := by
  have finite : w.rank < binary32.infinity := w.rank_le_one.trans_lt (by decide)
  constructor
  · intro read
    obtain ⟨negative, digits, exponent, decimal, weighed⟩ := exists_finite_of_parse? read
    obtain ⟨nearest, sign⟩ := ofDecimal?_finite_eq_some_iff.1 weighed
    rw [nearestDecimal_eq_iff ranged_binary32 digits exponent finite] at nearest
    exact ⟨negative, _, Decimal.spells_iff.2 ⟨digits, exponent, decimal, rfl⟩, nearest, sign⟩
  · rintro ⟨negative, size, spells, nearest, sign⟩
    obtain ⟨digits, exponent, decimal, rfl⟩ := Decimal.spells_iff.1 spells
    rw [← nearestDecimal_eq_iff ranged_binary32 digits exponent finite] at nearest
    rw [parse?, decimal, Option.bind_some, ofDecimal?_finite_eq_some_iff]
    exact ⟨nearest, sign⟩

theorem isSome_ofBits?_iff (bits : Nat) :
    (ofBits? bits).isSome = true ↔ bits ≤ onePattern ∨ bits = negativeZero := by
  unfold ofBits?
  split
  · next h => exact iff_of_true rfl h
  · next h => exact iff_of_false Bool.false_ne_true h

/-- A number is rounded to a weight when it is beyond zero or one by so much at most. -/
theorem isSome_ofDecimal?_finite_iff (negative : Bool) (digits : Nat) (exponent : Int) :
    (ofDecimal? (.finite negative digits exponent)).isSome = true ↔
      (digits : ℚ) * 10 ^ exponent ≤ if negative then (1 / 2) ^ 150 else 1 + (1 / 2) ^ 24 := by
  have bounded := nearestDecimal_le_infinity binary32 digits exponent
  have small : onePattern < negativeZero ∧ binary32.infinity < negativeZero := by decide
  cases negative with
  | false =>
    have notNegative : binary32.nearestDecimal digits exponent ≠ negativeZero := by omega
    simp only [ofDecimal?, isSome_ofBits?_iff, notNegative, or_false, nearestDecimal_le_one_iff,
      Bool.false_eq_true, ↓reduceIte]
  | true =>
    have negated : negativeZero + binary32.nearestDecimal digits exponent ≤ onePattern ∨
        negativeZero + binary32.nearestDecimal digits exponent = negativeZero ↔
          binary32.nearestDecimal digits exponent = 0 := by omega
    simp only [ofDecimal?, isSome_ofBits?_iff, negated, nearestDecimal_eq_zero_iff, ↓reduceIte]

/-- **A text is read as a weight when it states one.** -/
theorem isSome_parse?_iff (text : List Char) : (parse? text).isSome = true ↔ Stated text := by
  constructor
  · intro isSome
    obtain ⟨w, read⟩ := Option.isSome_iff_exists.1 isSome
    obtain ⟨negative, digits, exponent, decimal, weighed⟩ := exists_finite_of_parse? read
    have bounded := (isSome_ofDecimal?_finite_iff negative digits exponent).1
      (Option.isSome_of_eq_some weighed)
    exact ⟨negative, _, Decimal.spells_iff.2 ⟨digits, exponent, decimal, rfl⟩, bounded⟩
  · rintro ⟨negative, size, spells, bounded⟩
    obtain ⟨digits, exponent, decimal, rfl⟩ := Decimal.spells_iff.1 spells
    rwa [parse?, decimal, Option.bind_some, isSome_ofDecimal?_finite_iff]

end Weight
end VariantCache
