import VariantCache.Shelf
import VariantCache.Store.Groups
import VariantCache.Store.Worker

/-!
# The map store

A map store keeps every entry until it expires. An expired entry is evicted when
it is asked for, or by the next sweep. Stores take effect at once.
-/

namespace VariantCache.Store

/-- An unbounded table of representations with its index of groups. -/
structure MapStore where
  entries : Table CacheKey Shared
  groups : GroupIndex
  /-- How many expired entries were removed. -/
  evictions : Nat
  worker : Worker

namespace MapStore

/-- The name of the worker. -/
def workerName : String := "map-pruner"

/-- A store without entries. -/
def empty (period : Duration) : MapStore := ⟨.empty, .empty, 0, .idle period⟩

/-- Which keys are stored in which groups, and until when they are fresh. -/
def members (m : MapStore) : Membership := fun group key =>
  ((m.entries.get? key).filter (·.details.inGroup group)).map (·.details.expiration)

/-- The fresh representation of a key. An expired one is evicted. -/
def load (m : MapStore) (now : Instant) (key : CacheKey) : Option Shared × MapStore :=
  match m.entries.get? key with
  | none => (none, m)
  | some s =>
    if s.details.expiredAt now then
      (none, { m with entries := m.entries.erase key, evictions := m.evictions + 1 })
    else (some s, m)

/-- Stores a representation, and enters it into its groups. -/
def store (m : MapStore) (now : Instant) (key : CacheKey) (s : Shared) : MapStore :=
  let m := { m with entries := m.entries.insert key s }
  { m with groups := m.groups.addAll s.details.groups key s.details.expiration now m.members }

/-- Removes the representation of a key. -/
def delete (m : MapStore) (key : CacheKey) : MapStore :=
  { m with entries := m.entries.erase key }

/-- Removes the fresh members of a group. -/
def deleteGroup (m : MapStore) (now : Instant) (group : String) : MapStore :=
  let (keys, groups) := m.groups.take group now m.members
  { m with entries := m.entries.eraseAll keys, groups }

/-- Evicts the expired entries and prunes all groups; says how many entries were evicted. -/
def sweep (m : MapStore) (now : Instant) : Nat × MapStore :=
  let entries := m.entries.filter fun _ s => !s.details.expiredAt now
  let removed := m.entries.size - entries.size
  let m := { m with entries, evictions := m.evictions + removed }
  (removed, { m with groups := m.groups.pruneAll now m.members })

/-- Prunes a group, and gives it. -/
def group (m : MapStore) (now : Instant) (name : String) : Option Group × MapStore :=
  let groups := m.groups.prune name now m.members
  (groups.get? name, { m with groups })

/-- Lets the worker run until a date. -/
def runUntil (m : MapStore) (now : Instant) : MapStore :=
  let (sweeps, worker) := m.worker.runUntil now
  let m := { m with worker }
  if sweeps then (m.sweep now).2 else m

end MapStore
end VariantCache.Store
