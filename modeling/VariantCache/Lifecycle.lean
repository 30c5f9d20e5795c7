/-!
# Starting and stopping workers together

Workers are started in order. When one refuses, those that this start has started
are stopped again, the last one first, and no others. Stopping goes through all
workers from the last to the first.
-/

namespace VariantCache

/-- A worker of a system with states of type `S`, which may refuse to start with an error
of type `E`. -/
structure Startable (S E : Type) where
  name : String
  start : S → Except E Unit × S
  stop : S → S

/-- Workers that are started and stopped together. -/
abbrev Lifecycle (S E : Type) := List (Startable S E)

namespace Lifecycle

variable {S E : Type}

/-- Stops workers in the order of the list. -/
def stopAll (workers : List (Startable S E)) (state : S) : S :=
  workers.foldl (fun state w => w.stop state) state

/-- Starts workers after those in `started`, which stand there last first. -/
def startAfter (started : List (Startable S E)) :
    List (Startable S E) → S → Except E Unit × S
  | [], state => (.ok (), state)
  | w :: rest, state =>
    match w.start state with
    | (.ok (), state) => startAfter (w :: started) rest state
    | (.error e, state) => (.error e, stopAll started state)

/-- Starts every worker, or none. -/
def start (workers : Lifecycle S E) (state : S) : Except E Unit × S := startAfter [] workers state

/-- Stops every worker. -/
def stop (workers : Lifecycle S E) (state : S) : S := stopAll workers.reverse state

end Lifecycle
end VariantCache
