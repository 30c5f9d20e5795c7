import Mathlib
import VariantCache.Proofs.Number.LetterCase

/-!
# The grammar of decimal numbers

A text spells a number when it is a sign or none, digits with a point among or around them or
without one, and an exponent or none (`Spells`). The digits before the point count ones, tens and so
on, those after it tenths and so on, and the exponent moves the point. Such a text is read as the
sign and the number that it spells, and no other text is read as a number (`spells_iff`); the names
of infinity and of no number begin neither with a digit nor with a point.
-/

namespace VariantCache.Decimal

open Text

/-! ### The grammar -/

/-- The text is made of digits. -/
def AreDigits (text : List Char) : Prop := ∀ c ∈ text, c.isDigit

/-- The number that digits spell: the last one counts ones, the one before it tens. -/
def numberOf (digits : List Char) : ℕ :=
  Nat.ofDigits 10 (digits.reverse.map fun c => c.toNat - '0'.toNat)

/-- The text is a sign or empty, and it is the minus or not. -/
inductive IsSign : List Char → Bool → Prop
  /-- Without a sign a number is not negative. -/
  | none : IsSign [] false
  /-- The plus changes nothing. -/
  | plus : IsSign ['+'] false
  /-- The minus makes a number negative. -/
  | minus : IsSign ['-'] true

/-- The text is a point with the given digits after it, or both are empty. -/
inductive IsFraction : List Char → List Char → Prop
  /-- Without a point there are no digits after it. -/
  | none : IsFraction [] []
  /-- There may be no digits after a point either. -/
  | point {digits : List Char} : AreDigits digits → IsFraction ('.' :: digits) digits

/-- The text gives the exponent. -/
inductive IsExponent : List Char → ℤ → Prop
  /-- Without a text the exponent is zero. -/
  | none : IsExponent [] 0
  /-- A mark, a sign or none, and digits, at least one. -/
  | marked {mark : Char} {signText digits : List Char} {negative : Bool} :
      mark = 'e' ∨ mark = 'E' → IsSign signText negative → AreDigits digits → digits ≠ [] →
      IsExponent (mark :: (signText ++ digits))
        (if negative then -numberOf digits else numberOf digits)

/-- The text has the given digits before and after the point, and the given exponent. -/
inductive IsUnsigned : List Char → List Char → List Char → ℤ → Prop
  /-- Digits, a point with more of them or no point, and an exponent. There is a digit before the
  point or after it. -/
  | intro {whole point fraction mark : List Char} {exponent : ℤ} :
      AreDigits whole → IsFraction point fraction → whole ++ fraction ≠ [] →
      IsExponent mark exponent → IsUnsigned (whole ++ (point ++ mark)) whole fraction exponent

/-- The text spells a number of the given size, with a minus or without. -/
inductive Spells : List Char → Bool → ℚ → Prop
  /-- A sign or none, and a number. Digits after the point count tenths, hundredths and so on. -/
  | intro {signText rest whole fraction : List Char} {negative : Bool} {exponent : ℤ} :
      IsSign signText negative → IsUnsigned rest whole fraction exponent →
      Spells (signText ++ rest) negative
        ((numberOf whole + numberOf fraction / 10 ^ fraction.length) * 10 ^ exponent)

variable {text rest signText whole point fraction mark digits : List Char} {negative : Bool}
  {exponent : ℤ} {size : ℚ}

/-! ### Digits -/

theorem numberOf_concat (digits : List Char) (c : Char) :
    numberOf (digits ++ [c]) = 10 * numberOf digits + (c.toNat - '0'.toNat) := by
  rw [numberOf, List.reverse_append, List.reverse_singleton, List.singleton_append, List.map_cons,
    Nat.ofDigits_cons, Nat.add_comm, numberOf]

theorem ofDigits_eq (digits : List Char) : ofDigits digits = numberOf digits := by
  induction digits using List.reverseRecOn with
  | nil => rfl
  | append_singleton digits c ih =>
    rw [numberOf_concat, ← ih, ofDigits, List.foldl_append, List.foldl_cons, List.foldl_nil, ofDigits]

theorem numberOf_append (digits more : List Char) :
    numberOf (digits ++ more) = numberOf digits * 10 ^ more.length + numberOf more := by
  rw [numberOf, List.reverse_append, List.map_append, Nat.ofDigits_append, List.length_map,
    List.length_reverse, Nat.add_comm, Nat.mul_comm, numberOf, numberOf]

/-- Digits after the point count as digits before it, with a smaller exponent. -/
theorem size_eq (whole fraction : List Char) (exponent : ℤ) :
    ((numberOf whole : ℚ) + numberOf fraction / 10 ^ fraction.length) * 10 ^ exponent =
      ofDigits (whole ++ fraction) * 10 ^ (exponent - fraction.length) := by
  have nonzero : (10 : ℚ) ^ fraction.length ≠ 0 := by positivity
  rw [ofDigits_eq, numberOf_append, zpow_sub₀ (by norm_num), zpow_natCast]
  push_cast
  field_simp

/-- The text does not begin with a digit. -/
def Stops (text : List Char) : Prop := ∀ c ∈ text.head?, c.isDigit = false

theorem takeWhile_digits (inside : AreDigits digits) (stop : Stops rest) :
    (digits ++ rest).takeWhile Char.isDigit = digits := by
  rw [List.takeWhile_append_of_pos inside]
  cases rest with
  | nil => exact List.append_nil digits
  | cons c rest => rw [List.takeWhile_cons_of_neg (by simp [stop c rfl]), List.append_nil]

theorem dropWhile_digits (inside : AreDigits digits) (stop : Stops rest) :
    (digits ++ rest).dropWhile Char.isDigit = rest := by
  rw [List.dropWhile_append_of_pos inside]
  cases rest with
  | nil => rfl
  | cons c rest => exact List.dropWhile_cons_of_neg (by simp [stop c rfl])

theorem areDigits_takeWhile (text : List Char) : AreDigits (text.takeWhile Char.isDigit) :=
  fun _ => List.mem_takeWhile_imp

/-! ### Signs -/

/-- The text does not begin with a sign. -/
def Bare (text : List Char) : Prop := ∀ c ∈ text.head?, c ≠ '-' ∧ c ≠ '+'

theorem sign_append (h : IsSign signText negative) (bare : Bare rest) :
    sign (signText ++ rest) = (negative, rest) := by
  cases h with
  | plus | minus => rfl
  | none =>
    cases rest with
    | nil => rfl
    | cons c rest =>
      obtain ⟨notMinus, notPlus⟩ := bare c rfl
      simp [sign, notMinus, notPlus]

theorem exists_isSign (text : List Char) :
    ∃ signText, IsSign signText (sign text).1 ∧ text = signText ++ (sign text).2 := by
  unfold sign
  split
  · exact ⟨_, .minus, rfl⟩
  · exact ⟨_, .plus, rfl⟩
  · exact ⟨_, .none, rfl⟩

theorem ne_sign_of_isDigit {c : Char} (digit : c.isDigit) : c ≠ '-' ∧ c ≠ '+' := by
  constructor <;> (rintro rfl; cases digit)

theorem AreDigits.bare (h : AreDigits digits) : Bare digits :=
  fun c first => ne_sign_of_isDigit (h c (List.mem_of_mem_head? first))

/-! ### Exponents -/

theorem IsExponent.stops (h : IsExponent mark exponent) : Stops mark := by
  cases h with
  | none => exact fun _ first => by cases first
  | marked isMark =>
    intro c first
    cases first
    rcases isMark with rfl | rfl <;> rfl

theorem exponent?_eq_some_iff : exponent? text = some exponent ↔ IsExponent text exponent := by
  constructor
  · intro read
    cases text with
    | nil =>
      cases read
      exact .none
    | cons c rest =>
      simp only [exponent?] at read
      split at read
      · next h =>
        obtain ⟨isMark, nonempty, digits⟩ := h
        obtain ⟨signText, isSign, parts⟩ := exists_isSign rest
        obtain rfl := Option.some.inj read
        rw [ofDigits_eq]
        conv_lhs => rw [parts]
        exact .marked isMark isSign (List.all_eq_true.1 digits) (by simpa using nonempty)
      · cases read
  · rintro (_ | ⟨isMark, isSign, digits, nonempty⟩)
    · rfl
    · simp only [exponent?, sign_append isSign digits.bare, ofDigits_eq]
      rw [if_pos ⟨isMark, by simpa using nonempty, List.all_eq_true.2 digits⟩]

/-! ### Unsigned numbers -/

theorem stops_point (isFraction : IsFraction point fraction) (isExponent : IsExponent mark exponent) :
    Stops (point ++ mark) := by
  cases isFraction with
  | none => exact isExponent.stops
  | point => exact fun _ first => by cases first; rfl

/-- A text is taken apart into its digits, those after the point if there is one, and the rest. -/
theorem exists_parts (negative : Bool) (text : List Char) :
    ∃ whole point fraction mark, text = whole ++ (point ++ mark) ∧ AreDigits whole ∧
      IsFraction point fraction ∧
      finite? negative text =
        if whole.isEmpty && fraction.isEmpty then none
        else (exponent? mark).map fun e =>
          .finite negative (ofDigits (whole ++ fraction)) (e - fraction.length) := by
  have parts : text = text.takeWhile Char.isDigit ++ text.dropWhile Char.isDigit :=
    List.takeWhile_append_dropWhile.symm
  unfold finite?
  cases after : text.dropWhile Char.isDigit with
  | nil =>
    rw [after] at parts
    exact ⟨_, [], [], [], parts, areDigits_takeWhile text, .none, rfl⟩
  | cons c rest =>
    rw [after] at parts
    by_cases isPoint : c = '.'
    · subst isPoint
      refine ⟨_, '.' :: rest.takeWhile Char.isDigit, _, rest.dropWhile Char.isDigit, ?_,
        areDigits_takeWhile text, .point (areDigits_takeWhile rest), rfl⟩
      rwa [List.cons_append, List.takeWhile_append_dropWhile]
    · refine ⟨_, [], [], c :: rest, parts, areDigits_takeWhile text, .none, ?_⟩
      simp [isPoint]

theorem finite?_parts (digits : AreDigits whole) (isFraction : IsFraction point fraction)
    (isExponent : IsExponent mark exponent) (nonempty : whole ++ fraction ≠ []) :
    finite? negative (whole ++ (point ++ mark)) =
      some (.finite negative (ofDigits (whole ++ fraction)) (exponent - fraction.length)) := by
  have stop := stops_point isFraction isExponent
  have some : (whole.isEmpty && fraction.isEmpty) = false := by
    rw [Bool.eq_false_iff]
    simpa using nonempty
  simp only [finite?, takeWhile_digits digits stop, dropWhile_digits digits stop]
  cases isFraction with
  | none =>
    have read := exponent?_eq_some_iff.2 isExponent
    have filled : whole ≠ [] := by simpa using nonempty
    cases isExponent with
    | none => simp [filled, read]
    | marked isMark => rcases isMark with rfl | rfl <;> simp [filled, read]
  | point inside =>
    simp only [List.cons_append, takeWhile_digits inside isExponent.stops,
      dropWhile_digits inside isExponent.stops, exponent?_eq_some_iff.2 isExponent, some,
      Bool.false_eq_true, ↓reduceIte, Option.map_some]

/-- **A text is read as an unsigned number when it is one.** -/
theorem finite?_eq_some_iff {d : Decimal} :
    finite? negative text = some d ↔
      ∃ whole fraction exponent, IsUnsigned text whole fraction exponent ∧
        d = .finite negative (ofDigits (whole ++ fraction)) (exponent - fraction.length) := by
  constructor
  · intro read
    obtain ⟨whole, point, fraction, mark, rfl, digits, isFraction, eq⟩ := exists_parts negative text
    rw [eq] at read
    split at read
    · cases read
    · next nonempty =>
      obtain ⟨exponent, isExponent, rfl⟩ := Option.map_eq_some_iff.1 read
      rw [exponent?_eq_some_iff] at isExponent
      exact ⟨_, _, _, .intro digits isFraction (by simpa using nonempty) isExponent, rfl⟩
  · rintro ⟨whole, fraction, exponent, ⟨digits, isFraction, nonempty, isExponent⟩, rfl⟩
    exact finite?_parts digits isFraction isExponent nonempty

/-- An unsigned number begins with a digit or a point. -/
theorem IsUnsigned.head (h : IsUnsigned text whole fraction exponent) :
    ∃ c rest, text = c :: rest ∧ (c.isDigit ∨ c = '.') := by
  obtain ⟨digits, isFraction, nonempty, -⟩ := h
  cases whole with
  | cons c whole => exact ⟨c, _, rfl, .inl (digits c List.mem_cons_self)⟩
  | nil =>
    cases isFraction with
    | none => exact absurd rfl nonempty
    | point => exact ⟨'.', _, rfl, .inr rfl⟩

theorem IsUnsigned.bare (h : IsUnsigned text whole fraction exponent) : Bare text := by
  obtain ⟨c, rest, rfl, digit | rfl⟩ := h.head
  · exact fun _ first => by cases first; exact ne_sign_of_isDigit digit
  · exact fun _ first => by cases first; decide

/-- An unsigned number is no name. -/
theorem IsUnsigned.not_name (h : IsUnsigned text whole fraction exponent) :
    ∀ name ∈ ["inf", "infinity", "nan"], String.ofList (lowered text) ≠ name := by
  obtain ⟨c, rest, rfl, first⟩ := h.head
  have unchanged : c.toLower = c := first.elim toLower_of_isDigit fun point => by subst point; rfl
  intro name isName same
  have letters := congrArg String.toList same
  rw [String.toList_ofList, lowered, List.map_cons, unchanged] at letters
  simp only [List.mem_cons, List.not_mem_nil, or_false] at isName
  rcases isName with rfl | rfl | rfl <;>
    obtain ⟨rfl, -⟩ := List.cons.inj letters <;> revert first <;> decide

/-- **A text is read as the number that it spells.** -/
theorem spells_iff :
    Spells text negative size ↔
      ∃ digits exponent, parse? text = some (.finite negative digits exponent) ∧
        size = digits * 10 ^ exponent := by
  constructor
  · rintro ⟨isSign, isUnsigned⟩
    refine ⟨_, _, ?_, size_eq _ _ _⟩
    have named := isUnsigned.not_name
    simp only [parse?, sign_append isSign isUnsigned.bare]
    rw [if_neg, if_neg, finite?_eq_some_iff]
    · exact ⟨_, _, _, isUnsigned, rfl⟩
    · exact named _ (by decide)
    · exact not_or.2 ⟨named _ (by decide), named _ (by decide)⟩
  · rintro ⟨digits, exponent, read, rfl⟩
    obtain ⟨signText, isSign, parts⟩ := exists_isSign text
    simp only [parse?] at read
    split at read
    · cases read
    · split at read
      · cases read
      · obtain ⟨whole, fraction, exponent', isUnsigned, same⟩ := finite?_eq_some_iff.1 read
        cases same
        have spelled := Spells.intro isSign isUnsigned
        rwa [← parts, size_eq] at spelled

end VariantCache.Decimal
