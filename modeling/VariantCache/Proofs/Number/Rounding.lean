import Mathlib
import VariantCache.Number.BinaryFormat

/-!
# Rounding to a binary format

A pattern of a binary format stands for a number (`value`), and greater patterns stand for greater
numbers (`strictMono_value`). The pattern that a fraction is rounded to is the nearest one: it is
at most some pattern exactly when the fraction is below the middle between that one and the next, or
in the middle and that one is even (`AtMost`, `nearest_le_iff`). The same holds of a decimal number
where the range of the decimal exponents suits the format (`Ranged`, `nearestDecimal_le_iff`).

Both proofs take a pattern apart into a count of units and the size of a unit (`value_units`). A
count that comes to the next power of two is the count of half as many units of that power, so a
carry needs no case.
-/

namespace VariantCache.BinaryFormat

/-! ### Whole numbers -/

/-- A power is a fraction of two with natural exponents. -/
theorem pow_toNat_div_pow_toNat {base : ℚ} (h : base ≠ 0) (exponent : ℤ) :
    base ^ exponent.toNat / base ^ (-exponent).toNat = base ^ exponent := by
  rw [← zpow_natCast, ← zpow_natCast, ← zpow_sub₀ h]
  congr 1
  omega

theorem roundDiv_cases (num den : Nat) :
    roundDiv num den = num / den ∧
        (2 * (num % den) < den ∨ 2 * (num % den) = den ∧ num / den % 2 = 0) ∨
      roundDiv num den = num / den + 1 ∧
        ¬(2 * (num % den) < den ∨ 2 * (num % den) = den ∧ num / den % 2 = 0) := by
  simp only [roundDiv]
  split
  · next h => exact .inl ⟨rfl, h⟩
  · next h => exact .inr ⟨rfl, h⟩

/-- A quotient is rounded to at most `n` when it is below the middle between `n` and the next
number, or in the middle and `n` is even. -/
theorem roundDiv_le_iff {num den : Nat} (hd : 0 < den) (n : Nat) :
    roundDiv num den ≤ n ↔
      (num : ℚ) / den < n + 1 / 2 ∨ (num : ℚ) / den = n + 1 / 2 ∧ n % 2 = 0 := by
  have hd' : (0 : ℚ) < den := Nat.cast_pos.2 hd
  have middle : ((n : ℚ) + 1 / 2) * den = ((2 * n + 1) * den : ℕ) / 2 := by
    push_cast
    ring
  have lt : (num : ℚ) / den < n + 1 / 2 ↔ 2 * num < (2 * n + 1) * den := by
    rw [div_lt_iff₀ hd', middle, lt_div_iff₀ two_pos, mul_comm]
    exact_mod_cast Iff.rfl
  have eq : (num : ℚ) / den = n + 1 / 2 ↔ 2 * num = (2 * n + 1) * den := by
    rw [div_eq_iff hd'.ne', middle, eq_div_iff two_ne_zero, mul_comm]
    exact_mod_cast Iff.rfl
  have twice : (2 * n + 1) * den = 2 * (den * n) + den := by ring
  rw [lt, eq, twice]
  have split := Nat.div_add_mod num den
  have rest := Nat.mod_lt num hd
  have rounded := roundDiv_cases num den
  rcases Nat.lt_trichotomy (num / den) n with below | here | above
  · have room : den * (num / den + 1) ≤ den * n := Nat.mul_le_mul_left den below
    rw [Nat.mul_succ] at room
    omega
  · subst here
    omega
  · have room : den * (n + 1) ≤ den * (num / den) := Nat.mul_le_mul_left den above
    rw [Nat.mul_succ] at room
    omega

/-- The greatest power of two that is at most a fraction. -/
theorem binaryExponent_spec {num den : Nat} (hn : 0 < num) (hd : 0 < den) :
    (2 : ℚ) ^ binaryExponent num den ≤ num / den ∧
      (num : ℚ) / den < 2 ^ (binaryExponent num den + 1) := by
  have hd' : (0 : ℚ) < den := Nat.cast_pos.2 hd
  obtain ⟨e, he⟩ : ∃ e : ℤ, e = (Nat.log2 num : ℤ) - (Nat.log2 den : ℤ) := ⟨_, rfl⟩
  have power (n : ℕ) : (2 : ℚ) ^ (n : ℤ) = (2 ^ n : ℕ) := by rw [zpow_natCast]; norm_cast
  -- The logarithms leave two exponents; which of them it is, the comparison decides.
  have above : (2 : ℚ) ^ (e - 1) * den < num := by
    have den_lt : (den : ℚ) < 2 ^ ((Nat.log2 den : ℤ) + 1) := by
      exact_mod_cast Nat.lt_log2_self
    have num_ge : (2 : ℚ) ^ (Nat.log2 num : ℤ) ≤ num := by
      rw [power]
      exact_mod_cast Nat.log2_self_le hn.ne'
    calc (2 : ℚ) ^ (e - 1) * den < 2 ^ (e - 1) * 2 ^ ((Nat.log2 den : ℤ) + 1) := by gcongr
      _ = 2 ^ (Nat.log2 num : ℤ) := by rw [← zpow_add₀ two_ne_zero, he]; congr 1; ring
      _ ≤ num := num_ge
  have below : (num : ℚ) < 2 ^ (e + 1) * den := by
    have den_ge : (2 : ℚ) ^ (Nat.log2 den : ℤ) ≤ den := by
      rw [power]
      exact_mod_cast Nat.log2_self_le hd.ne'
    have num_lt : (num : ℚ) < 2 ^ ((Nat.log2 num : ℤ) + 1) := by
      exact_mod_cast Nat.lt_log2_self
    calc (num : ℚ) < 2 ^ ((Nat.log2 num : ℤ) + 1) := num_lt
      _ = 2 ^ (e + 1) * 2 ^ (Nat.log2 den : ℤ) := by
        rw [← zpow_add₀ two_ne_zero, he]; congr 1; ring
      _ ≤ 2 ^ (e + 1) * den := by gcongr
  rw [le_div_iff₀ hd', div_lt_iff₀ hd']
  have compared : (if 0 ≤ e then decide (den * Nat.pow 2 e.toNat ≤ num)
      else decide (den ≤ num * Nat.pow 2 (-e).toNat)) = true ↔ (2 : ℚ) ^ e * den ≤ num := by
    split
    · next nonneg =>
      rw [decide_eq_true_eq, Nat.pow_eq, ← Int.toNat_of_nonneg nonneg, power, Int.toNat_natCast,
        mul_comm]
      exact_mod_cast Iff.rfl
    · next negative =>
      have inverse : (2 : ℚ) ^ e = ((2 ^ (-e).toNat : ℕ) : ℚ)⁻¹ := by
        rw [← power, Int.toNat_of_nonneg (by omega), zpow_neg, inv_inv]
      rw [decide_eq_true_eq, Nat.pow_eq, inverse, inv_mul_le_iff₀ (by positivity), mul_comm]
      exact_mod_cast Iff.rfl
  have unfolded : binaryExponent num den = if (2 : ℚ) ^ e * den ≤ num then e else e - 1 := by
    simp only [binaryExponent, ← he, compared]
  rw [unfolded]
  split
  · next le => exact ⟨le, below⟩
  · next lt => exact ⟨above.le, by rw [sub_add_cancel]; exact not_le.1 lt⟩

/-! ### Patterns and numbers -/

variable {format : BinaryFormat}

/-- The units from one power of two to the next. -/
def step (format : BinaryFormat) : Nat := 2 ^ format.fractionBits

/-- The number that a pattern stands for. -/
def value (format : BinaryFormat) (pattern : Nat) : ℚ :=
  (format.unitsOf pattern).1 * 2 ^ (format.unitsOf pattern).2

/-- The size of a unit above so many powers of two. -/
def unit (format : BinaryFormat) (above : Nat) : ℚ :=
  2 ^ (format.leastExponent - format.fractionBits + above)

theorem unit_pos (above : Nat) : 0 < format.unit above := zpow_pos two_pos _

theorem unit_succ (above : Nat) : format.unit (above + 1) = 2 * format.unit above := by
  rw [unit, unit, Nat.cast_succ, ← add_assoc, zpow_add_one₀ two_ne_zero, mul_comm]

theorem step_pos : 0 < format.step := Nat.two_pow_pos _

/-- A pattern is a count of units. Only below the least power of two are they less than a step. -/
theorem value_units {above units : Nat} (low : above = 0 ∨ format.step ≤ units)
    (high : units ≤ 2 * format.step) :
    format.value (above * format.step + units) = units * format.unit above := by
  have pos : 0 < format.step := step_pos
  have taken (n : Nat) (h : (above * format.step + units) / format.step - 1 = n) :
      format.value (above * format.step + units) =
        (above * format.step + units - n * format.step : ℕ) * format.unit n := by
    subst h
    rfl
  rcases Nat.lt_or_eq_of_le high with lt | rfl
  · have quotient : units / format.step < 2 := Nat.div_lt_of_lt_mul (by omega)
    rw [taken above, Nat.add_sub_cancel_left]
    rw [Nat.mul_comm, Nat.mul_add_div pos]
    rcases low with rfl | full
    · omega
    · have := Nat.div_pos full pos
      omega
  · have left : above * format.step + 2 * format.step - (above + 1) * format.step = format.step := by
      rw [Nat.add_mul above 1]
      omega
    rw [taken (above + 1), unit_succ, left]
    · push_cast
      ring
    · rw [← Nat.add_mul, Nat.mul_div_cancel _ pos]
      omega

/-- Every pattern is a count of units. -/
theorem exists_units (format : BinaryFormat) (pattern : Nat) :
    ∃ above units, pattern = above * format.step + units ∧
      (above = 0 ∨ format.step ≤ units) ∧ units < 2 * format.step := by
  have pos : 0 < format.step := step_pos
  have split := Nat.div_add_mod' pattern format.step
  have rest := Nat.mod_lt pattern pos
  cases quotient : pattern / format.step with
  | zero =>
    rw [quotient] at split
    exact ⟨0, pattern, by omega, .inl rfl, by omega⟩
  | succ above =>
    rw [quotient, Nat.succ_mul] at split
    exact ⟨above, format.step + pattern % format.step, by omega, .inr (by omega), by omega⟩

/-- Greater patterns stand for greater numbers. -/
theorem strictMono_value (format : BinaryFormat) : StrictMono format.value := by
  refine strictMono_nat_of_lt_succ fun pattern => ?_
  obtain ⟨above, units, rfl, low, high⟩ := format.exists_units pattern
  rw [value_units low high.le, add_assoc, value_units (low.imp_right Nat.le_succ_of_le) high]
  exact mul_lt_mul_of_pos_right (Nat.cast_lt.2 units.lt_succ_self) (unit_pos above)

/-! ### The nearest pattern -/

/-- The number in the middle between a pattern and the next one. -/
def middle (format : BinaryFormat) (pattern : Nat) : ℚ :=
  (format.value pattern + format.value (pattern + 1)) / 2

theorem lt_middle (pattern : Nat) : format.value pattern < format.middle pattern := by
  have lt := format.strictMono_value pattern.lt_succ_self
  unfold middle
  linarith

theorem middle_lt (pattern : Nat) : format.middle pattern < format.value (pattern + 1) := by
  have lt := format.strictMono_value pattern.lt_succ_self
  unfold middle
  linarith

/-- The number is rounded to a pattern at most: it is below the middle between that one and the next,
or in the middle and that one is even. -/
def AtMost (format : BinaryFormat) (x : ℚ) (pattern : Nat) : Prop :=
  x < format.middle pattern ∨ x = format.middle pattern ∧ pattern % 2 = 0

theorem AtMost.le_middle {x : ℚ} {pattern : Nat} (h : format.AtMost x pattern) :
    x ≤ format.middle pattern :=
  h.elim le_of_lt fun here => here.1.le

theorem atMost_iff_of_even {x : ℚ} {pattern : Nat} (even : pattern % 2 = 0) :
    format.AtMost x pattern ↔ x ≤ format.middle pattern := by
  rw [AtMost, le_iff_lt_or_eq]
  exact or_congr_right (and_iff_left even)

theorem value_nonneg (pattern : Nat) : 0 ≤ format.value pattern :=
  mul_nonneg (Nat.cast_nonneg _) (zpow_nonneg zero_le_two _)

/-- A positive fraction is counted in units that are neither too large nor too small, and the count
is rounded. -/
theorem exists_count (format : BinaryFormat) {num den : Nat} (hn : 0 < num) (hd : 0 < den) :
    ∃ above count size, 0 < size ∧
      format.nearest num den =
        min format.infinity (above * format.step + roundDiv count size) ∧
      (num : ℚ) / den = count / size * format.unit above ∧
      (above = 0 ∨ (format.step : ℚ) ≤ count / size) ∧ (count : ℚ) / size < 2 * format.step := by
  obtain ⟨lower, upper⟩ := binaryExponent_spec hn hd
  obtain ⟨e, he⟩ : ∃ e, e = max (binaryExponent num den) format.leastExponent := ⟨_, rfl⟩
  obtain ⟨digits, hdigits⟩ : ∃ digits : ℤ, digits = format.fractionBits := ⟨_, rfl⟩
  have unit_eq : format.unit (e - format.leastExponent).toNat = 2 ^ (e - digits) := by
    rw [unit, Int.toNat_of_nonneg (by omega), hdigits]
    congr 1
    ring
  have scaled : ((num * Nat.pow 2 (digits - e).toNat : ℕ) : ℚ) /
      (den * Nat.pow 2 (e - digits).toNat : ℕ) = num / den * 2 ^ (digits - e) := by
    rw [← pow_toNat_div_pow_toNat two_ne_zero, neg_sub, Nat.pow_eq, Nat.pow_eq]
    push_cast
    exact mul_div_mul_comm _ _ _ _
  have step_eq : (format.step : ℚ) = 2 ^ digits := by
    rw [hdigits, zpow_natCast, step]
    norm_cast
  refine ⟨(e - format.leastExponent).toNat, num * Nat.pow 2 (digits - e).toNat,
    den * Nat.pow 2 (e - digits).toNat, Nat.mul_pos hd (Nat.two_pow_pos _), ?_, ?_, ?_, ?_⟩
  · simp only [nearest, if_neg hn.ne', ← he, ← hdigits]
    rfl
  · rw [scaled, unit_eq, mul_assoc, ← zpow_add₀ two_ne_zero]
    simp
  · rw [scaled, step_eq]
    rcases le_total (binaryExponent num den) format.leastExponent with least | above
    · exact .inl (by omega)
    · rw [max_eq_left above] at he
      refine .inr ?_
      calc (2 : ℚ) ^ digits = 2 ^ e * 2 ^ (digits - e) := by
            rw [← zpow_add₀ two_ne_zero, add_sub_cancel]
        _ ≤ num / den * 2 ^ (digits - e) := by rw [he]; gcongr
  · rw [scaled, step_eq]
    calc (num : ℚ) / den * 2 ^ (digits - e) < 2 ^ (e + 1) * 2 ^ (digits - e) := by
          gcongr
          exact upper.trans_le (zpow_le_zpow_right₀ one_le_two (by omega))
      _ = 2 * 2 ^ digits := by
          rw [← zpow_add₀ two_ne_zero, ← zpow_one_add₀ two_ne_zero]
          congr 1
          ring

section Count

variable {above count size pattern : Nat}

/-- A full count of units is beyond the patterns below the first one with units of that size. -/
theorem beyond_of_lt (hs : 0 < size) (full : (format.step : ℚ) ≤ count / size)
    (less : pattern < above * format.step + format.step) :
    pattern < above * format.step + roundDiv count size ∧
      format.middle pattern < count / size * format.unit above := by
  have many : format.step ≤ roundDiv count size := by
    by_contra few
    have few : roundDiv count size ≤ format.step - 1 := by omega
    rw [roundDiv_le_iff hs, Nat.cast_sub step_pos, Nat.cast_one] at few
    rcases few with few | ⟨few, -⟩ <;> linarith
  have next : format.value (pattern + 1) ≤ format.step * format.unit above := by
    rw [← value_units (.inr le_rfl) (by omega)]
    exact format.strictMono_value.monotone less
  have beyond : format.middle pattern < count / size * format.unit above :=
    (middle_lt pattern).trans_le
      (next.trans (mul_le_mul_of_nonneg_right full (format.unit_pos above).le))
  exact ⟨by omega, beyond⟩

/-- A count of units is before the patterns from the first one on that has greater units. -/
theorem before_of_le (hs : 0 < size) (high : (count : ℚ) / size < 2 * format.step)
    (more : above * format.step + 2 * format.step ≤ pattern) :
    above * format.step + roundDiv count size ≤ pattern ∧
      count / size * format.unit above < format.middle pattern := by
  have few : roundDiv count size ≤ 2 * format.step :=
    (roundDiv_le_iff hs _).2 (.inl (by push_cast; linarith))
  have next : 2 * format.step * format.unit above ≤ format.value pattern := by
    have := format.strictMono_value.monotone more
    rwa [value_units (.inr (by omega)) le_rfl, Nat.cast_mul, Nat.cast_two] at this
  have before : count / size * format.unit above < format.middle pattern :=
    ((mul_lt_mul_of_pos_right high (format.unit_pos above)).trans_le next).trans (lt_middle pattern)
  exact ⟨by omega, before⟩

/-- Among the patterns with units of its size a count is rounded as a number is. -/
theorem roundDiv_le_iff_middle (some : 0 < format.fractionBits) (hs : 0 < size) {units : Nat}
    (low : above = 0 ∨ format.step ≤ units) (high : units < 2 * format.step) :
    roundDiv count size ≤ units ↔
      format.AtMost (count / size * format.unit above) (above * format.step + units) := by
  have middle_eq : format.middle (above * format.step + units) =
      (units + 1 / 2) * format.unit above := by
    rw [middle, value_units low high.le, add_assoc,
      value_units (low.imp_right Nat.le_succ_of_le) high]
    push_cast
    ring
  have parity : (above * format.step + units) % 2 = units % 2 := by
    obtain ⟨half, two⟩ : 2 ∣ format.step := dvd_pow_self 2 some.ne'
    rw [two, mul_left_comm]
    omega
  have pos := format.unit_pos above
  rw [roundDiv_le_iff hs, AtMost, middle_eq, parity, mul_lt_mul_iff_left₀ pos,
    mul_left_inj' pos.ne']

end Count

/-- **A fraction is rounded to the nearest pattern.** It is rounded to at most some pattern exactly
when it is below the middle between that one and the next, or in the middle and that one is even. -/
theorem nearest_le_iff (some : 0 < format.fractionBits) {num den : Nat} (hd : 0 < den)
    {pattern : Nat} (finite : pattern < format.infinity) :
    format.nearest num den ≤ pattern ↔ format.AtMost (num / den) pattern := by
  rcases Nat.eq_zero_or_pos num with rfl | hn
  · rw [nearest, if_pos rfl, Nat.cast_zero, zero_div]
    exact iff_of_true (Nat.zero_le _) (.inl ((value_nonneg pattern).trans_lt (lt_middle pattern)))
  obtain ⟨above, count, size, hs, rounded, fraction, low, high⟩ := format.exists_count hn hd
  have atMost : format.nearest num den ≤ pattern ↔
      above * format.step + roundDiv count size ≤ pattern := by
    rw [rounded]
    omega
  rw [atMost, fraction]
  -- The pattern has smaller units than the fraction, or greater ones, or units of the same size.
  by_cases less : above ≠ 0 ∧ pattern < above * format.step + format.step
  · obtain ⟨lt, beyond⟩ := beyond_of_lt hs (low.resolve_left less.1) less.2
    exact iff_of_false lt.not_ge fun atMost => beyond.not_ge atMost.le_middle
  by_cases more : above * format.step + 2 * format.step ≤ pattern
  · obtain ⟨le, before⟩ := before_of_le hs high more
    exact iff_of_true le (.inl before)
  obtain ⟨units, rfl⟩ : ∃ units, pattern = above * format.step + units := by
    refine Nat.exists_eq_add_of_le ?_
    rcases Nat.eq_zero_or_pos above with rfl | many
    · exact (Nat.zero_mul _).trans_le (Nat.zero_le _)
    · omega
  rw [Nat.add_le_add_iff_left]
  exact roundDiv_le_iff_middle some hs (by omega) (by omega)

/-! ### Decimal numbers -/

/-- Exponents beyond the decimal range of the format are out of its own range. -/
structure Ranged (format : BinaryFormat) : Prop where
  fraction : 0 < format.fractionBits
  large : format.value format.infinity ≤ 10 ^ format.decimalRange
  small : ((10 : ℚ) ^ format.decimalRange)⁻¹ ≤ format.middle 0

theorem middle_zero_le (pattern : Nat) : format.middle 0 ≤ format.middle pattern := by
  have first := format.strictMono_value.monotone pattern.zero_le
  have second := format.strictMono_value.monotone (Nat.le_add_left (0 + 1) pattern)
  unfold middle
  linarith

namespace Ranged

variable {digits pattern : Nat} {exponent : Int}

theorem middle_lt_decimal (h : format.Ranged) (finite : pattern < format.infinity)
    (nonzero : digits ≠ 0) (large : (format.decimalRange : ℤ) ≤ exponent) :
    format.middle pattern < digits * 10 ^ exponent := by
  have one_le : (1 : ℚ) ≤ digits := Nat.one_le_cast.2 (Nat.pos_of_ne_zero nonzero)
  calc format.middle pattern < format.value (pattern + 1) := middle_lt pattern
    _ ≤ format.value format.infinity := format.strictMono_value.monotone finite
    _ ≤ 10 ^ (format.decimalRange : ℤ) := by rw [zpow_natCast]; exact h.large
    _ ≤ 10 ^ exponent := zpow_le_zpow_right₀ (by norm_num) large
    _ ≤ digits * 10 ^ exponent := le_mul_of_one_le_left (by positivity) one_le

theorem decimal_lt_middle (h : format.Ranged) (pattern : Nat)
    (small : (Nat.log2 digits : ℤ) + 1 + exponent ≤ -format.decimalRange) :
    (digits : ℚ) * 10 ^ exponent < format.middle pattern := by
  have digits_lt : (digits : ℚ) < 10 ^ ((Nat.log2 digits : ℤ) + 1) := by
    have lt : digits < 10 ^ (Nat.log2 digits + 1) :=
      Nat.lt_log2_self.trans_le (Nat.pow_le_pow_left (by norm_num) _)
    exact_mod_cast lt
  calc (digits : ℚ) * 10 ^ exponent
      < 10 ^ ((Nat.log2 digits : ℤ) + 1) * 10 ^ exponent := by gcongr
    _ = 10 ^ ((Nat.log2 digits : ℤ) + 1 + exponent) := (zpow_add₀ (by norm_num) _ _).symm
    _ ≤ 10 ^ (-format.decimalRange : ℤ) := zpow_le_zpow_right₀ (by norm_num) small
    _ = ((10 : ℚ) ^ format.decimalRange)⁻¹ := by rw [zpow_neg, zpow_natCast]
    _ ≤ format.middle 0 := h.small
    _ ≤ format.middle pattern := middle_zero_le pattern

end Ranged

/-- A decimal number is a fraction of whole numbers. -/
theorem decimal_eq_div (digits : Nat) (exponent : Int) :
    ((digits * Nat.pow 10 exponent.toNat : ℕ) : ℚ) / (Nat.pow 10 (-exponent).toNat : ℕ) =
      digits * 10 ^ exponent := by
  rw [← pow_toNat_div_pow_toNat (by norm_num), Nat.pow_eq, Nat.pow_eq]
  push_cast
  exact mul_div_assoc _ _ _

/-- **A decimal number is rounded to the nearest pattern.** -/
theorem nearestDecimal_le_iff (h : format.Ranged) (digits : Nat) (exponent : Int) {pattern : Nat}
    (finite : pattern < format.infinity) :
    format.nearestDecimal digits exponent ≤ pattern ↔
      format.AtMost (digits * 10 ^ exponent) pattern := by
  unfold nearestDecimal
  split
  · next zero =>
    rw [zero, Nat.cast_zero, zero_mul]
    exact iff_of_true (Nat.zero_le _) (.inl ((value_nonneg pattern).trans_lt (lt_middle pattern)))
  next nonzero =>
  split
  · next large =>
    have beyond := h.middle_lt_decimal finite nonzero large.le
    exact iff_of_false (by omega) fun atMost => beyond.not_ge atMost.le_middle
  · split
    · next small => exact iff_of_true (Nat.zero_le _) (.inl (h.decimal_lt_middle pattern (by omega)))
    · have pos : 0 < Nat.pow 10 (-exponent).toNat := Nat.pow_pos (by norm_num)
      rw [nearest_le_iff h.fraction pos finite, decimal_eq_div]

theorem ranged_binary32 : binary32.Ranged where
  fraction := by decide
  large := by
    norm_num [value, unitsOf, infinity, binary32]
  small := by
    norm_num [middle, value, unitsOf, binary32]

end VariantCache.BinaryFormat
