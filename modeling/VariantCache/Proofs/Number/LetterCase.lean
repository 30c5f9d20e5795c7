import VariantCache.Weight
import VariantCache.Proofs.Text.Folding

/-!
# Numbers in either letter case

A decimal number is read alike in whatever letter case its exponent mark and its names are
written (`Decimal.parse?_lowered`), and so is a weight (`Weight.parse?_lowered`).
-/

namespace VariantCache

open Text

namespace Decimal

/-! ### Digits -/

theorem isDigit_toLower (c : Char) : c.toLower.isDigit = c.isDigit := by
  rcases toLower_cases c with ⟨same, -⟩ | ⟨shifted, bounds⟩
  · rw [same]
  · have notDigit {d : Char} (h : 57 < d.toNat) : d.isDigit = false := by
      rw [Bool.eq_false_iff]
      intro digit
      simp only [Char.isDigit, Bool.and_eq_true, decide_eq_true_eq] at digit
      exact absurd digit.2 (Nat.not_le.2 h)
    rw [notDigit (d := c) (by omega), notDigit (by omega)]

theorem isDigit_comp_toLower : Char.isDigit ∘ Char.toLower = Char.isDigit := funext isDigit_toLower

theorem toLower_of_isDigit {c : Char} (h : c.isDigit) : c.toLower = c := by
  rcases toLower_cases c with ⟨same, -⟩ | ⟨-, bounds⟩
  · exact same
  · have digit : c.toNat ≤ 57 := by
      simp only [Char.isDigit, Bool.and_eq_true, decide_eq_true_eq] at h
      exact h.2
    omega

/-- Digits have no case. -/
theorem lowered_of_digits {cs : List Char} (h : ∀ c ∈ cs, c.isDigit) : lowered cs = cs := by
  conv_rhs => rw [← List.map_id cs]
  exact List.map_congr_left fun c hc => toLower_of_isDigit (h c hc)

theorem all_isDigit_lowered (cs : List Char) :
    (lowered cs).all Char.isDigit = cs.all Char.isDigit := by
  rw [lowered, List.all_map, isDigit_comp_toLower]

theorem takeWhile_isDigit_lowered (cs : List Char) :
    (lowered cs).takeWhile Char.isDigit = cs.takeWhile Char.isDigit := by
  rw [lowered, List.takeWhile_map, isDigit_comp_toLower]
  exact lowered_of_digits fun c hc => List.mem_takeWhile_imp hc

theorem dropWhile_isDigit_lowered (cs : List Char) :
    (lowered cs).dropWhile Char.isDigit = lowered (cs.dropWhile Char.isDigit) := by
  rw [lowered, List.dropWhile_map, isDigit_comp_toLower]
  rfl

/-! ### Marks -/

theorem sign_lowered (cs : List Char) :
    sign (lowered cs) = ((sign cs).1, lowered (sign cs).2) := by
  cases cs with
  | nil => rfl
  | cons c rest =>
    by_cases minus : c = '-'
    · subst minus
      rfl
    · by_cases plus : c = '+'
      · subst plus
        rfl
      · have minus' : c.toLower ≠ '-' := mt (toLower_eq_iff (by decide) c).1 minus
        have plus' : c.toLower ≠ '+' := mt (toLower_eq_iff (by decide) c).1 plus
        simp [sign, lowered, minus, plus, minus', plus']

/-- Both letters mark an exponent. -/
theorem isExponentMark_toLower (c : Char) :
    (c.toLower = 'e' ∨ c.toLower = 'E') ↔ (c = 'e' ∨ c = 'E') := by
  rcases toLower_cases c with ⟨same, -⟩ | ⟨shifted, bounds⟩
  · rw [same]
  · have small : 'e'.toNat = 101 := rfl
    have large : 'E'.toNat = 69 := rfl
    constructor
    · rintro (h | h)
      · rw [h, small] at shifted
        exact Or.inr (Char.toNat_inj.1 (by omega))
      · rw [h, large] at shifted
        omega
    · rintro (rfl | rfl)
      · omega
      · exact Or.inl rfl

theorem exponent?_lowered (cs : List Char) : exponent? (lowered cs) = exponent? cs := by
  cases cs with
  | nil => rfl
  | cons mark rest =>
    have digits : (lowered (sign rest).2).isEmpty = (sign rest).2.isEmpty := List.isEmpty_map
    simp only [exponent?, lowered, List.map_cons]
    rw [show rest.map Char.toLower = lowered rest from rfl]
    simp only [sign_lowered, isExponentMark_toLower, digits, all_isDigit_lowered]
    split
    · next h =>
      rw [lowered_of_digits fun c hc => List.all_eq_true.1 h.2.2 c hc]
    · rfl

/-! ### Numbers -/

theorem finite?_lowered (negative : Bool) (cs : List Char) :
    finite? negative (lowered cs) = finite? negative cs := by
  simp only [finite?, takeWhile_isDigit_lowered, dropWhile_isDigit_lowered]
  cases h : cs.dropWhile Char.isDigit with
  | nil => rfl
  | cons c rest =>
    by_cases point : c = '.'
    · subst point
      simp only [lowered, List.map_cons, show '.'.toLower = '.' from rfl]
      rw [show rest.map Char.toLower = lowered rest from rfl, takeWhile_isDigit_lowered,
        dropWhile_isDigit_lowered, exponent?_lowered]
    · have point' : c.toLower ≠ '.' := mt (toLower_eq_iff (by decide) c).1 point
      have same := exponent?_lowered (c :: rest)
      simp only [lowered, List.map_cons] at same ⊢
      simp [point, point', same]

/-- A number is read alike in either letter case. -/
theorem parse?_lowered (cs : List Char) : parse? (lowered cs) = parse? cs := by
  simp only [parse?, sign_lowered, lowered_lowered, finite?_lowered]

end Decimal

theorem Weight.parse?_lowered (cs : List Char) : parse? (lowered cs) = parse? cs := by
  rw [parse?, Decimal.parse?_lowered, parse?]

end VariantCache
