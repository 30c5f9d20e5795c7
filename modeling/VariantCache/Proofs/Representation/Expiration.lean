import VariantCache.Proofs.Time
import VariantCache.Representation.Basic

/-!
# When a representation expires

The date at which a lifetime ends and the time that is left until a date of expiration are exact to
the nanosecond and saturate: the one at the latest date (`Instant.toNanos_addSaturating`), the other
at no time (`Instant.toNanos_durationUntil`). Nothing overflows on the way. Between two
dates of the calendar the signed time is a span, that is, its seconds fit in a signed word of 64
bits (`Instant.isSpan_sub`); a lifetime that is no span leads beyond the latest date from
wherever it starts (`Instant.addSaturating_of_not_isSpan`). **`Details.expiration_exact`** says
all of it of a representation.
-/

namespace VariantCache

/-- A signed time in nanoseconds is a span when its whole seconds fit in a signed word of 64 bits. -/
def IsSpan (nanos : Int) : Prop :=
  -9223372036854775808 * nanosPerSecond ≤ nanos ∧ nanos < 9223372036854775808 * nanosPerSecond

namespace Duration

theorem isZero_iff (d : Duration) : d.isZero = true ↔ d.toNanos = 0 := by
  simp only [isZero, Bool.and_eq_true, beq_iff_eq, toNanos, nanosPerSecond]
  omega

end Duration

namespace Instant

variable {t later : Instant} {d longer : Duration}

/-- The first date of the year -9999. -/
def earliest : Instant := ofSeconds (-377705116800)

/-- The date is in one of the years from -9999 to 9999. -/
def InCalendar (t : Instant) : Prop := earliest ≤ t ∧ t ≤ latest

/-- The dates of the calendar in nanoseconds. -/
theorem InCalendar.bounds (h : t.InCalendar) :
    -377705116800000000000 ≤ t.toNanos ∧ t.toNanos ≤ 253402300799999999999 :=
  h

/-- Dates with the same nanoseconds are the same. -/
theorem toNanos_inj : t.toNanos = later.toNanos ↔ t = later := by
  constructor
  · intro same
    by_contra ne
    have lt : t.toNanos < later.toNanos := lt_of_le_of_ne (Int.le_of_eq same) ne
    omega
  · exact congrArg toNanos

/-! ### The end of a lifetime -/

/-- A later start or a longer lifetime does not lead to an earlier date. -/
theorem addSaturating_mono (le : t ≤ later) (le' : d.toNanos ≤ longer.toNanos) :
    t.addSaturating d ≤ later.addSaturating longer := by
  have ordered : t.toNanos ≤ later.toNanos := le
  show (t.addSaturating d).toNanos ≤ (later.addSaturating longer).toNanos
  rw [toNanos_addSaturating, toNanos_addSaturating]
  omega

/-- A lifetime leads from a date of the calendar to one. -/
theorem InCalendar.addSaturating (h : t.InCalendar) (d : Duration) :
    (t.addSaturating d).InCalendar := by
  obtain ⟨low, high⟩ := h
  have low' : earliest.toNanos ≤ t.toNanos := low
  have high' : t.toNanos ≤ latest.toNanos := high
  constructor
  · show earliest.toNanos ≤ (t.addSaturating d).toNanos
    rw [toNanos_addSaturating]
    omega
  · show (t.addSaturating d).toNanos ≤ latest.toNanos
    rw [toNanos_addSaturating]
    exact Int.min_le_right _ _

/-- A lifetime that is no span leads beyond the calendar. -/
theorem addSaturating_of_not_isSpan (h : t.InCalendar) (tooLong : ¬ IsSpan d.toNanos) :
    t.addSaturating d = latest := by
  obtain ⟨low, -⟩ := h.bounds
  have last : latest.toNanos = 253402300799999999999 := rfl
  simp only [IsSpan, nanosPerSecond] at tooLong
  rw [← toNanos_inj, toNanos_addSaturating, last]
  omega

/-! ### The time between two dates -/

/-- The signed time between two dates of the calendar is a span. -/
theorem isSpan_sub (h : t.InCalendar) (h' : later.InCalendar) :
    IsSpan (later.toNanos - t.toNanos) := by
  obtain ⟨low, high⟩ := h.bounds
  obtain ⟨low', high'⟩ := h'.bounds
  simp only [IsSpan, nanosPerSecond]
  omega

theorem toNanos_durationUntil_eq_zero_iff : (t.durationUntil later).toNanos = 0 ↔ later ≤ t := by
  have left := toNanos_durationUntil t later
  show _ ↔ later.toNanos ≤ t.toNanos
  omega

/-- As time goes on, less is left, to the nanosecond. -/
theorem toNanos_durationUntil_le {date : Instant} (le : t ≤ date) (later : Instant) :
    (date.durationUntil later).toNanos ≤ (t.durationUntil later).toNanos := by
  have ordered : t.toNanos ≤ date.toNanos := le
  have left := toNanos_durationUntil t later
  have left' := toNanos_durationUntil date later
  omega

/-- At its start all of a lifetime is left, as far as it goes. -/
theorem toNanos_durationUntil_addSaturating (h : t ≤ latest) (d : Duration) :
    ((t.durationUntil (t.addSaturating d)).toNanos : Int) =
      min (d.toNanos : Int) (latest.toNanos - t.toNanos) := by
  have ordered : t.toNanos ≤ latest.toNanos := h
  rw [toNanos_durationUntil, toNanos_addSaturating]
  omega

end Instant

namespace Details

open Instant

/-- **Expiration is exact and saturates.** A lifetime ends at the sum of its start and itself or at
the latest date, whichever comes first, and no earlier for a later start or a longer lifetime. A
representation has expired after its date of expiration and not at it; what is left until then is
the difference of the dates, or no time from that date on, and gets no more as time goes on. When
the lifetime starts, what is left is the lifetime, or the rest of the calendar. None of this
overflows: a lifetime that is no span ends at the latest date, as it should, and any other
lifetime ends in the calendar; and the signed time between two dates of the calendar is a span. -/
theorem expiration_exact (now : Instant) (ttl : Duration) (d : Details) (t : Instant) :
    ((now.addSaturating ttl).toNanos = min (now.toNanos + ttl.toNanos) latest.toNanos ∧
      ∀ later longer, now ≤ later → ttl.toNanos ≤ longer.toNanos →
        now.addSaturating ttl ≤ later.addSaturating longer) ∧
    ((d.expiredAt t = true ↔ d.expiration < t) ∧
      ((d.timeToLiveAt t).toNanos : Int) = max 0 (d.expiration.toNanos - t.toNanos) ∧
      ((d.timeToLiveAt t).isZero = true ↔ d.expiration ≤ t) ∧
      ∀ later, t ≤ later → (d.timeToLiveAt later).toNanos ≤ (d.timeToLiveAt t).toNanos) ∧
    (now ≤ latest → d.expiration = now.addSaturating ttl →
      ((d.timeToLiveAt now).toNanos : Int) = min (ttl.toNanos : Int) (latest.toNanos - now.toNanos)) ∧
    (now.InCalendar → (now.addSaturating ttl).InCalendar ∧
      (¬ IsSpan ttl.toNanos → now.addSaturating ttl = latest)) ∧
    (t.InCalendar → d.expiration.InCalendar → IsSpan (d.expiration.toNanos - t.toNanos)) := by
  refine ⟨⟨toNanos_addSaturating now ttl, fun later longer => addSaturating_mono⟩,
    ⟨?_, toNanos_durationUntil t d.expiration, ?_, ?_⟩, ?_, ?_, isSpan_sub⟩
  · exact decide_eq_true_iff
  · rw [Duration.isZero_iff]
    exact toNanos_durationUntil_eq_zero_iff
  · intro later le
    exact toNanos_durationUntil_le le d.expiration
  · intro inTime expires
    rw [timeToLiveAt, expires]
    exact toNanos_durationUntil_addSaturating inTime ttl
  · intro dated
    exact ⟨dated.addSaturating ttl, addSaturating_of_not_isSpan dated⟩

/-- The longest lifetime with seconds of 64 bits leads from the first date to the last one. -/
example : earliest.addSaturating ⟨2 ^ 64 - 1, 999999999, by decide⟩ = latest := by decide

end Details
end VariantCache
