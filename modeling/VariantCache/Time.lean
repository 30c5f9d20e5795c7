/-!
# Dates and durations

A date is a count of whole seconds since the start of 1970, which may be negative,
and nanoseconds after that second. A duration is a count of seconds and
nanoseconds too. Dates are bounded by the end of the year 9999: adding a duration
that leads beyond it gives no date.
-/

namespace VariantCache

/-- The nanoseconds of a second. -/
def nanosPerSecond : Nat := 1000000000

/-- A length of time. -/
structure Duration where
  seconds : Nat
  nanos : Nat
  nanos_lt : nanos < nanosPerSecond
  deriving DecidableEq

namespace Duration

/-- The whole duration in nanoseconds. -/
def toNanos (d : Duration) : Nat := d.seconds * nanosPerSecond + d.nanos

/-- The duration of so many nanoseconds. -/
def ofNanos (n : Nat) : Duration :=
  ⟨n / nanosPerSecond, n % nanosPerSecond, Nat.mod_lt _ (by decide)⟩

/-- The duration of so many milliseconds. -/
def ofMillis (n : Nat) : Duration := ofNanos (n * 1000000)

/-- The duration of so many seconds. -/
def ofSeconds (n : Nat) : Duration := ⟨n, 0, by decide⟩

/-- No time at all. -/
def zero : Duration := ofSeconds 0

/-- The duration is no time at all. -/
def isZero (d : Duration) : Bool := d.seconds == 0 && d.nanos == 0

@[simp] theorem toNanos_ofNanos (n : Nat) : (ofNanos n).toNanos = n := by
  simp only [toNanos, ofNanos, Nat.mul_comm (n / nanosPerSecond)]
  exact Nat.div_add_mod n nanosPerSecond

end Duration

/-- A date. -/
structure Instant where
  /-- Whole seconds since the start of 1970. -/
  seconds : Int
  nanos : Nat
  nanos_lt : nanos < nanosPerSecond
  deriving DecidableEq

namespace Instant

/-- The date in nanoseconds since the start of 1970. -/
def toNanos (t : Instant) : Int := t.seconds * nanosPerSecond + t.nanos

/-- Dates are ordered as they follow each other. -/
instance : LE Instant := ⟨fun a b => a.toNanos ≤ b.toNanos⟩

instance : LT Instant := ⟨fun a b => a.toNanos < b.toNanos⟩

instance (a b : Instant) : Decidable (a ≤ b) := inferInstanceAs (Decidable (a.toNanos ≤ b.toNanos))

instance (a b : Instant) : Decidable (a < b) := inferInstanceAs (Decidable (a.toNanos < b.toNanos))

theorem le_refl (a : Instant) : a ≤ a := Int.le_refl _

theorem le_trans {a b c : Instant} (h : a ≤ b) (h' : b ≤ c) : a ≤ c := Int.le_trans h h'

theorem le_of_lt {a b : Instant} (h : a < b) : a ≤ b := Int.le_of_lt h

theorem lt_of_le_of_lt {a b c : Instant} (h : a ≤ b) (h' : b < c) : a < c := Int.lt_of_le_of_lt h h'

/-- The nanoseconds of two dates with one count of them are the same, so the dates are. -/
theorem lt_of_le_of_ne {a b : Instant} (h : a ≤ b) (ne : a ≠ b) : a < b := by
  refine Int.not_le.1 fun back => ne ?_
  have same : a.toNanos = b.toNanos := Int.le_antisymm h back
  obtain ⟨seconds, nanos, lt⟩ := a
  obtain ⟨seconds', nanos', lt'⟩ := b
  simp only [toNanos, nanosPerSecond] at same lt lt'
  obtain rfl : seconds = seconds' := by omega
  obtain rfl : nanos = nanos' := by omega
  rfl

theorem not_lt {a b : Instant} : ¬ a < b ↔ b ≤ a := Int.not_lt

/-- The later of two dates. -/
def later (a b : Instant) : Instant := if a ≤ b then b else a

theorem le_later (a b : Instant) : a ≤ a.later b := by
  unfold later
  split
  · assumption
  · exact le_refl a

/-- The date so many whole seconds after the start of 1970. -/
def ofSeconds (seconds : Int) : Instant := ⟨seconds, 0, by decide⟩

/-- The last nanosecond of the year 9999. -/
def latest : Instant := ⟨253402300799, 999999999, by decide⟩

/-- The date a duration after another, unless that is beyond the latest one. -/
def add? (t : Instant) (d : Duration) : Option Instant :=
  let nanos := t.nanos + d.nanos
  let seconds := t.seconds + d.seconds + (nanos / nanosPerSecond : Nat)
  if seconds ≤ latest.seconds then
    some ⟨seconds, nanos % nanosPerSecond, Nat.mod_lt _ (by decide)⟩
  else none

/-- The date a duration after another, or the latest one. -/
def addSaturating (t : Instant) (d : Duration) : Instant := (t.add? d).getD latest

/-- How long it is from one date to another; no time when the other is not later. -/
def durationUntil (t later : Instant) : Duration :=
  if h : t.nanos ≤ later.nanos then
    if t.seconds ≤ later.seconds then
      ⟨(later.seconds - t.seconds).toNat, later.nanos - t.nanos,
        Nat.lt_of_le_of_lt (Nat.sub_le _ _) later.nanos_lt⟩
    else .zero
  else if t.seconds < later.seconds then
    ⟨(later.seconds - t.seconds - 1).toNat, nanosPerSecond - (t.nanos - later.nanos), by
      simp only [nanosPerSecond]; omega⟩
  else .zero

end Instant
end VariantCache
