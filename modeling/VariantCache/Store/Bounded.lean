import VariantCache.Shelf
import VariantCache.Store.Groups
import VariantCache.Store.Worker
import VariantCache.Number.Total

/-!
# The bounded store

A bounded store has room for representations of a total size. Stores wait in a
queue of limited length until the store's writer applies them, and are dropped
when the queue is full. An entry is found until its representation expires; one
that is larger than the whole store is evicted by the next sweep.
-/

namespace VariantCache.Store

/-- The limits of a bounded store. -/
structure Limits where
  /-- The total size of the entries. -/
  maxSize : Nat
  /-- How many stores may wait. -/
  writeBuffer : Nat

/-- The largest weight that an entry can have. -/
def heaviest : Nat := 0xffffffff

/-- The weight of a representation: its size, unless that is more than a weight can be. -/
def weightOf (shelf : Shelf) (s : Shared) : Nat := min (shelf.sizeOf s) heaviest

/-- An entry of a bounded store. -/
structure Held where
  shared : Shared
  /-- The weight of the representation when it was stored. -/
  weight : Nat

/-- A table of representations of limited size, with its index of groups. -/
structure BoundedStore where
  limits : Limits
  entries : Table CacheKey Held
  groups : GroupIndex
  /-- The stores that were not applied yet, first come first. -/
  queue : List (CacheKey × Shared)
  /-- How many stores were dropped. -/
  dropped : Nat
  /-- How many entries were evicted for their size. -/
  evictions : Nat
  worker : Worker

namespace BoundedStore

/-- The name of the worker. -/
def workerName : String := "bounded-writer"

/-- A store without entries. -/
def empty (limits : Limits) (period : Duration) : BoundedStore :=
  ⟨limits, .empty, .empty, [], 0, 0, .idle period⟩

/-- The representation of a key that has not expired. -/
def get? (b : BoundedStore) (now : Instant) (key : CacheKey) : Option Shared :=
  ((b.entries.get? key).map (·.shared)).filter fun s => now < s.details.expiration

/-- Which keys are stored in which groups, and until when they are fresh. -/
def members (b : BoundedStore) (now : Instant) : Membership := fun group key =>
  ((b.get? now key).filter (·.details.inGroup group)).map (·.details.expiration)

/-- Queues a store, unless the queue is full. -/
def store (b : BoundedStore) (key : CacheKey) (s : Shared) : BoundedStore :=
  if b.queue.length < b.limits.writeBuffer then { b with queue := b.queue ++ [(key, s)] }
  else { b with dropped := b.dropped + 1 }

/-- Applies a store: the entry is put in, and entered into its groups. -/
def apply (b : BoundedStore) (shelf : Shelf) (now : Instant) (entry : CacheKey × Shared) :
    BoundedStore :=
  let (key, s) := entry
  let b := { b with entries := b.entries.insert key ⟨s, weightOf shelf s⟩ }
  { b with
    groups := b.groups.addAll s.details.groups key s.details.expiration now (b.members now) }

/-- Applies the stores that wait, in order. -/
def drain (b : BoundedStore) (shelf : Shelf) (now : Instant) : BoundedStore :=
  b.queue.foldl (fun b entry => b.apply shelf now entry) { b with queue := [] }

/-- Removes the representation of a key. -/
def delete (b : BoundedStore) (key : CacheKey) : BoundedStore :=
  { b with entries := b.entries.erase key }

/-- Removes the fresh members of a group. -/
def deleteGroup (b : BoundedStore) (now : Instant) (group : String) : BoundedStore :=
  let (keys, groups) := b.groups.take group now (b.members now)
  { b with entries := b.entries.eraseAll keys, groups }

/-- Evicts the entries that are larger than the whole store. -/
def settle (b : BoundedStore) : BoundedStore :=
  let entries := b.entries.filter fun _ held => held.weight ≤ b.limits.maxSize
  { b with entries, evictions := b.evictions + (b.entries.size - entries.size) }

/-- Settles the entries and prunes all groups. -/
def sweep (b : BoundedStore) (now : Instant) : BoundedStore :=
  let b := b.settle
  { b with groups := b.groups.pruneAll now (b.members now) }

/-- The number of entries and their total size. -/
def usage (b : BoundedStore) : Nat × Nat :=
  (b.entries.size, total (b.entries.entries.map fun entry => entry.2.weight))

/-- Lets the writer, if it is active, apply the stores that wait. -/
def wait (b : BoundedStore) (shelf : Shelf) (now : Instant) : BoundedStore :=
  if b.worker.isActive then { b.drain shelf now with worker := b.worker.wake now } else b

/-- Lets the worker run until a date. -/
def runUntil (b : BoundedStore) (shelf : Shelf) (now : Instant) : BoundedStore :=
  let (sweeps, worker) := b.worker.runUntil now
  let b := { b with worker }
  if sweeps then (b.drain shelf now).sweep now else b

/-- Stops the worker. An active writer applies what waits, and sweeps, before it ends. -/
def stop (b : BoundedStore) (shelf : Shelf) (now : Instant) : BoundedStore :=
  if b.worker.isActive then
    { (b.drain shelf now).sweep now with worker := b.worker.stop }
  else b

end BoundedStore
end VariantCache.Store
