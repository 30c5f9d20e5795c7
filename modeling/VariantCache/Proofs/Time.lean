import Mathlib.Tactic.Common
import VariantCache.Time

/-!
# How long a date lasts

All of these are statements on nanoseconds. A date that a lifetime leads to is the sum of
both, but never later than the latest date (`toNanos_addSaturating`). The time from one
date to another is their difference, or nothing when there is none
(`toNanos_durationUntil`), and its seconds are the whole ones in it
(`seconds_durationUntil`). So the time that is left of a lifetime gets less and less, and
is at no time more than the lifetime (`seconds_durationUntil_le_lifetime`).
-/

namespace VariantCache

namespace Duration

/-- The seconds of a duration are the whole ones in it. -/
theorem seconds_eq (d : Duration) : d.seconds = d.toNanos / nanosPerSecond := by
  have lt := d.nanos_lt
  simp only [toNanos, nanosPerSecond] at lt ⊢
  omega

/-- A longer duration does not have fewer seconds. -/
theorem seconds_le_seconds {d longer : Duration} (le : d.toNanos ≤ longer.toNanos) :
    d.seconds ≤ longer.seconds := by
  rw [seconds_eq, seconds_eq]
  exact Nat.div_le_div_right le

end Duration

namespace Instant

variable {t date later : Instant}

/-- A lifetime leads to the sum, but never beyond the latest date. -/
theorem toNanos_addSaturating (t : Instant) (d : Duration) :
    (t.addSaturating d).toNanos = min (t.toNanos + d.toNanos) latest.toNanos := by
  have bound := t.nanos_lt
  have bound' := d.nanos_lt
  simp only [nanosPerSecond] at bound bound'
  unfold addSaturating add?
  by_cases fits :
      t.seconds + d.seconds + ((t.nanos + d.nanos) / nanosPerSecond : Nat) ≤ latest.seconds
  · rw [if_pos fits]
    simp only [Option.getD_some, toNanos, Duration.toNanos, latest, nanosPerSecond] at fits ⊢
    omega
  · rw [if_neg fits]
    simp only [Option.getD_none, toNanos, Duration.toNanos, latest, nanosPerSecond] at fits ⊢
    omega

/-- The time from one date to another is the difference, if the other is later. -/
theorem toNanos_durationUntil (t later : Instant) :
    ((t.durationUntil later).toNanos : Int) = max 0 (later.toNanos - t.toNanos) := by
  have bound := t.nanos_lt
  have bound' := later.nanos_lt
  unfold durationUntil
  simp only [nanosPerSecond] at bound bound' ⊢
  split
  · split
    · simp only [toNanos, Duration.toNanos, nanosPerSecond]
      omega
    · simp only [toNanos, Duration.toNanos, Duration.zero, Duration.ofSeconds, nanosPerSecond]
      omega
  · split
    · simp only [toNanos, Duration.toNanos, nanosPerSecond]
      omega
    · simp only [toNanos, Duration.toNanos, Duration.zero, Duration.ofSeconds, nanosPerSecond]
      omega

/-- Its seconds are the whole ones in the difference. -/
theorem seconds_durationUntil (le : t ≤ later) :
    ((t.durationUntil later).seconds : Int) = (later.toNanos - t.toNanos) / nanosPerSecond := by
  have difference := toNanos_durationUntil t later
  have ordered : t.toNanos ≤ later.toNanos := le
  rw [Duration.seconds_eq, Int.natCast_ediv, difference, Int.max_eq_right (by omega)]

/-- As time goes on, less is left. -/
theorem seconds_durationUntil_le (le : t ≤ date) (later : Instant) :
    (date.durationUntil later).seconds ≤ (t.durationUntil later).seconds := by
  have ordered : t.toNanos ≤ date.toNanos := le
  refine Duration.seconds_le_seconds (Int.ofNat_le.1 ?_)
  show (((date.durationUntil later).toNanos : Nat) : Int) ≤ ((t.durationUntil later).toNanos : Nat)
  rw [toNanos_durationUntil, toNanos_durationUntil]
  omega

/-- No more is left of a lifetime than the lifetime. -/
theorem seconds_durationUntil_le_lifetime (le : t ≤ date) (d : Duration) :
    (date.durationUntil (t.addSaturating d)).seconds ≤ d.seconds := by
  have ordered : t.toNanos ≤ date.toNanos := le
  refine Duration.seconds_le_seconds (Int.ofNat_le.1 ?_)
  show (((date.durationUntil (t.addSaturating d)).toNanos : Nat) : Int) ≤ (d.toNanos : Nat)
  rw [toNanos_durationUntil, toNanos_addSaturating]
  omega

end Instant
end VariantCache
