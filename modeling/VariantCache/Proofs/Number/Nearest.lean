import VariantCache.Proofs.Number.Rounding

/-!
# The nearest number of a binary format

A pattern is nearest to a number when no other one stands for a number that is as near, except that
of two patterns on both sides of the number the even one is taken (`IsNearest`). That is what a
decimal number is rounded to (`nearestDecimal_eq_iff`). The rounding is described by the middles
between the patterns, so distances are first turned into middles (`isNearest_iff`).
-/

namespace VariantCache.BinaryFormat

variable {format : BinaryFormat} {x : ℚ} {pattern other : Nat}

/-! ### Distances and middles -/

section Distance

variable {a b : ℚ} (lt : a < b)

include lt

theorem nearer_lower_iff : |x - a| < |x - b| ↔ x < (a + b) / 2 := by
  have gap : 0 < b - a := sub_pos.2 lt
  have squares : (x - b) ^ 2 - (x - a) ^ 2 = (b - a) * (a + b - 2 * x) := by ring
  rw [← sq_lt_sq, ← sub_pos, squares, mul_pos_iff_of_pos_left gap, sub_pos, lt_div_iff₀' two_pos]

theorem nearer_upper_iff : |x - b| < |x - a| ↔ (a + b) / 2 < x := by
  have gap : 0 < b - a := sub_pos.2 lt
  have squares : (x - a) ^ 2 - (x - b) ^ 2 = (b - a) * (2 * x - (a + b)) := by ring
  rw [← sq_lt_sq, ← sub_pos, squares, mul_pos_iff_of_pos_left gap, sub_pos, div_lt_iff₀' two_pos]

theorem as_near_iff : |x - a| = |x - b| ↔ x = (a + b) / 2 := by
  rw [← not_iff_not, ← ne_eq, ← ne_eq, ne_iff_lt_or_gt, ne_iff_lt_or_gt, nearer_lower_iff lt,
    nearer_upper_iff lt]

end Distance

/-! ### Middles in order -/

theorem strictMono_middle (format : BinaryFormat) : StrictMono format.middle :=
  strictMono_nat_of_lt_succ fun pattern => (middle_lt pattern).trans (lt_middle (pattern + 1))

theorem AtMost.of_lt (h : format.AtMost x pattern) (lt : pattern < other) : format.AtMost x other :=
  .inl (h.le_middle.trans_lt (format.strictMono_middle lt))

theorem middle_le_of_not_atMost (h : ¬format.AtMost x pattern) : format.middle pattern ≤ x :=
  not_lt.1 fun below => h (.inl below)

/-- The middle between a pattern and one after the next is beyond the middle to the next. -/
theorem middle_lt_half (lt : pattern + 1 < other) :
    format.middle pattern < (format.value pattern + format.value other) / 2 := by
  have next := format.strictMono_value lt
  unfold middle
  linarith

/-- The middle between a pattern and one before the last is below the middle to the last. -/
theorem half_lt_middle (lt : other < pattern) :
    (format.value other + format.value (pattern + 1)) / 2 < format.middle pattern := by
  have next := format.strictMono_value lt
  unfold middle
  linarith

/-! ### The nearest pattern -/

/-- The pattern stands for the number that is nearest to the given one, or is the even one of two
that are as near. Patterns from infinity on stand for the numbers of a format with more powers. -/
def IsNearest (format : BinaryFormat) (x : ℚ) (pattern : Nat) : Prop :=
  ∀ other, other ≠ pattern → |x - format.value pattern| < |x - format.value other| ∨
    |x - format.value pattern| = |x - format.value other| ∧ pattern % 2 = 0

/-- No greater pattern is nearer. -/
theorem AtMost.nearer (h : format.AtMost x pattern) (lt : pattern < other) :
    |x - format.value pattern| < |x - format.value other| ∨
      |x - format.value pattern| = |x - format.value other| ∧ pattern % 2 = 0 := by
  have values := format.strictMono_value lt
  rw [nearer_lower_iff values, as_near_iff values]
  rcases Nat.lt_or_eq_of_le (Nat.succ_le_of_lt lt) with beyond | rfl
  · exact .inl (h.le_middle.trans_lt (middle_lt_half beyond))
  · exact h

/-- No smaller pattern is nearer. -/
theorem nearer_of_not_atMost (h : ¬format.AtMost x pattern) (le : other ≤ pattern) :
    |x - format.value (pattern + 1)| < |x - format.value other| ∨
      |x - format.value (pattern + 1)| = |x - format.value other| ∧ (pattern + 1) % 2 = 0 := by
  have values := format.strictMono_value (Nat.lt_succ_of_le le)
  rw [nearer_upper_iff values, eq_comm (a := |x - format.value (pattern + 1)|), as_near_iff values]
  rcases Nat.lt_or_eq_of_le le with before | rfl
  · exact .inl ((half_lt_middle before).trans_le (middle_le_of_not_atMost h))
  · rcases lt_or_eq_of_le (middle_le_of_not_atMost h) with above | here
    · exact .inl above
    · have odd : ¬other % 2 = 0 := fun even => h (.inr ⟨here.symm, even⟩)
      exact .inr ⟨here.symm, by omega⟩

/-- A number is nearest to the least pattern that it is rounded to at most. -/
theorem isNearest_iff :
    format.IsNearest x pattern ↔
      format.AtMost x pattern ∧ ∀ smaller < pattern, ¬format.AtMost x smaller := by
  constructor
  · intro nearest
    have next := nearest (pattern + 1) pattern.succ_ne_self
    have values := format.strictMono_value pattern.lt_succ_self
    rw [nearer_lower_iff values, as_near_iff values] at next
    refine ⟨next, fun smaller lt atMost => ?_⟩
    obtain ⟨previous, rfl⟩ := Nat.exists_eq_add_one_of_ne_zero (Nat.ne_zero_of_lt lt)
    have before : format.AtMost x previous :=
      (Nat.lt_or_eq_of_le (Nat.le_of_lt_succ lt)).elim atMost.of_lt fun same => same ▸ atMost
    have back := nearest previous previous.succ_ne_self.symm
    rcases before.nearer previous.lt_succ_self with nearer | ⟨same, even⟩
    · exact back.elim nearer.not_gt fun same => nearer.ne' same.1
    · -- As near as the one before, which is even as well.
      exact back.elim (fun nearer => nearer.ne' same) fun same => by omega
  · rintro ⟨atMost, least⟩ other different
    rcases Nat.lt_or_gt_of_ne different with smaller | greater
    · obtain ⟨previous, rfl⟩ := Nat.exists_eq_add_one_of_ne_zero (Nat.ne_zero_of_lt smaller)
      exact nearer_of_not_atMost (least previous previous.lt_succ_self) (Nat.le_of_lt_succ smaller)
    · exact atMost.nearer greater

/-- **A decimal number is rounded to the pattern that is nearest to it.** -/
theorem nearestDecimal_eq_iff (h : format.Ranged) (digits : Nat) (exponent : Int)
    (finite : pattern < format.infinity) :
    format.nearestDecimal digits exponent = pattern ↔
      format.IsNearest (digits * 10 ^ exponent) pattern := by
  have atMost {other : Nat} (le : other ≤ pattern) :
      format.AtMost (digits * 10 ^ exponent) other ↔ format.nearestDecimal digits exponent ≤ other :=
    (nearestDecimal_le_iff h digits exponent (le.trans_lt finite)).symm
  rw [isNearest_iff, atMost le_rfl]
  constructor
  · rintro rfl
    exact ⟨le_rfl, fun smaller lt rounded => lt.not_ge ((atMost lt.le).1 rounded)⟩
  · rintro ⟨le, least⟩
    refine le.antisymm (not_lt.1 fun lt => ?_)
    exact least _ lt ((atMost lt.le).2 le_rfl)

end VariantCache.BinaryFormat
