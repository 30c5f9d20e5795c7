import VariantCache.Time

/-!
# Background workers of a store

A store has one worker that sweeps it at regular times. The first sweep comes one
period after the worker began to run; a sweep that comes late puts off the next one.
-/

namespace VariantCache.Store

/-- What a worker is doing. -/
inductive Activity where
  | stopped
  /-- It was started and did not run yet. -/
  | started
  /-- It runs, and sweeps next at the given date. -/
  | running (next : Instant)

/-- The worker of a store. -/
structure Worker where
  /-- The time between two sweeps. -/
  period : Duration
  activity : Activity

namespace Worker

/-- A worker that was not started. -/
def idle (period : Duration) : Worker := ⟨period, .stopped⟩

/-- The worker was started and not stopped since. -/
def isActive (w : Worker) : Bool :=
  match w.activity with
  | .stopped => false
  | .started | .running _ => true

/-- The worker after it was started. -/
def start (w : Worker) : Worker := { w with activity := .started }

/-- The worker after it was stopped. -/
def stop (w : Worker) : Worker := { w with activity := .stopped }

/-- The worker once it has begun to run. -/
def wake (w : Worker) (now : Instant) : Worker :=
  match w.activity with
  | .started => { w with activity := .running (now.addSaturating w.period) }
  | .stopped | .running _ => w

/-- Lets the worker run until a date; says whether it sweeps in that time. -/
def runUntil (w : Worker) (now : Instant) : Bool × Worker :=
  match w.activity with
  | .running next =>
    if next ≤ now then (true, { w with activity := .running (now.addSaturating w.period) })
    else (false, w)
  | .stopped | .started => (false, w)

@[simp] theorem period_wake (w : Worker) (now : Instant) : (w.wake now).period = w.period := by
  unfold wake
  split <;> rfl

@[simp] theorem period_runUntil (w : Worker) (now : Instant) :
    (w.runUntil now).2.period = w.period := by
  unfold runUntil
  split
  · split <;> rfl
  · rfl
  · rfl

end Worker
end VariantCache.Store
