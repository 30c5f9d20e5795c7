import VariantCache.Lifecycle
import VariantCache.Store.Leaf

/-!
# Backends

A backend is a single store, or tiers of backends with the fastest first. A load
goes through the tiers until one has the key, and leaves a copy in each faster
tier. A store puts the representation itself into the first tier and a copy into
each other one. Deletions reach every tier.
-/

namespace VariantCache

open Store

/-- A tree of stores. -/
inductive Backend where
  | leaf (store : Leaf)
  | tiered (tiers : List Backend)

namespace Backend

instance : Inhabited Backend := ⟨tiered []⟩

/-! ### Leaves -/

mutual

/-- The stores of a backend from left to right. -/
def leaves : Backend → List Leaf
  | leaf l => [l]
  | tiered tiers => leavesOf tiers

/-- The stores of some tiers from left to right. -/
def leavesOf : List Backend → List Leaf
  | [] => []
  | tier :: rest => leaves tier ++ leavesOf rest

end

mutual

/-- Changes every store, by its number from left to right; `first` is the number of the first one. -/
def mapLeaves (f : Nat → Leaf → Leaf) (first : Nat) : Backend → Backend
  | leaf l => leaf (f first l)
  | tiered tiers => tiered (mapTiers f first tiers)

/-- Changes every store of some tiers. -/
def mapTiers (f : Nat → Leaf → Leaf) (first : Nat) : List Backend → List Backend
  | [] => []
  | tier :: rest =>
    mapLeaves f first tier :: mapTiers f (first + (leaves tier).length) rest

end

/-- Changes every store in the same way. -/
def each (f : Leaf → Leaf) (b : Backend) : Backend := b.mapLeaves (fun _ => f) 0

/-- Changes one store. -/
def update (number : Nat) (f : Leaf → Leaf) (b : Backend) : Backend :=
  b.mapLeaves (fun n l => if n = number then f l else l) 0

/-! ### Operations -/

mutual

/-- Stores a representation. -/
def store (now : Instant) (key : CacheKey) (s : Shared) (shelf : Shelf) :
    Backend → Shelf × Backend
  | leaf l => (shelf, leaf (l.store now key s))
  | tiered [] => (shelf, tiered [])
  | tiered (first :: rest) =>
    let (shelf, rest) := storeCopies now key s shelf rest
    let (shelf, first) := store now key s shelf first
    (shelf, tiered (first :: rest))

/-- Stores a copy of a representation in each of some tiers. -/
def storeCopies (now : Instant) (key : CacheKey) (s : Shared) (shelf : Shelf) :
    List Backend → Shelf × List Backend
  | [] => (shelf, [])
  | tier :: rest =>
    let (copy, shelf) := shelf.copy s
    let (shelf, tier) := store now key copy shelf tier
    let (shelf, rest) := storeCopies now key s shelf rest
    (shelf, tier :: rest)

end

mutual

/-- The fresh representation of a key. -/
def load (now : Instant) (key : CacheKey) (shelf : Shelf) :
    Backend → Option Shared × Shelf × Backend
  | leaf l =>
    let (found, l) := l.load now key
    (found, shelf, leaf l)
  | tiered tiers =>
    let (found, shelf, tiers) := loadTiers now key shelf tiers
    (found, shelf, tiered tiers)

/-- The fresh representation of a key in the first of some tiers that has one. The tiers
before it get a copy. -/
def loadTiers (now : Instant) (key : CacheKey) (shelf : Shelf) :
    List Backend → Option Shared × Shelf × List Backend
  | [] => (none, shelf, [])
  | tier :: rest =>
    match load now key shelf tier with
    | (some s, shelf, tier) => (some s, shelf, tier :: rest)
    | (none, shelf, tier) =>
      match loadTiers now key shelf rest with
      | (none, shelf, rest) => (none, shelf, tier :: rest)
      | (some s, shelf, rest) =>
        let (copy, shelf) := shelf.copy s
        let (shelf, tier) := store now key copy shelf tier
        (some s, shelf, tier :: rest)

end

/-- Removes the representation of a key everywhere. -/
def delete (key : CacheKey) (b : Backend) : Backend := b.each (·.delete key)

/-- Removes the fresh members of a group everywhere. -/
def deleteGroup (now : Instant) (group : String) (b : Backend) : Backend :=
  b.each (·.deleteGroup now group)

/-! ### Workers -/

/-- The names of the workers. -/
def workerNames (b : Backend) : List String := b.leaves.map (·.workerName)

/-- A worker of the backend is active. -/
def isActive (b : Backend) : Bool := b.leaves.any (·.worker.isActive)

/-- Starts the worker of one store. -/
def startWorker (number : Nat) (b : Backend) : Except CacheError Unit × Backend :=
  match b.leaves[number]? with
  | none => (.ok (), b)
  | some l =>
    let (result, l) := l.startWorker
    (result, b.update number fun _ => l)

/-- The workers of the stores with the given numbers, as far as they are there. -/
def workers (shelf : Shelf) (now : Instant) (numbers : List Nat) : Lifecycle Backend CacheError :=
  numbers.map fun number =>
    ⟨toString number, startWorker number, update number (·.stopWorker shelf now)⟩

/-- The workers of a backend. -/
def lifecycle (shelf : Shelf) (now : Instant) (b : Backend) : Lifecycle Backend CacheError :=
  workers shelf now (List.range b.leaves.length)

/-- Starts every worker, or none. -/
def start (shelf : Shelf) (now : Instant) (b : Backend) : Except CacheError Unit × Backend :=
  (b.lifecycle shelf now).start b

/-- Stops every worker. -/
def stop (shelf : Shelf) (now : Instant) (b : Backend) : Backend := (b.lifecycle shelf now).stop b

/-- Lets the active workers begin to run, and writers apply the stores that wait. -/
def wait (shelf : Shelf) (now : Instant) (b : Backend) : Backend := b.each (·.wait shelf now)

/-- Lets the active workers run until a date. -/
def runUntil (shelf : Shelf) (now : Instant) (b : Backend) : Backend :=
  b.each (·.runUntil shelf now)

/-! ### Parts of a tree -/

mutual

/-- Does something with the part of a tree at a path of tier numbers, if there is one. -/
def zoom {α : Type} (f : Backend → α × Backend) : (path : List Nat) → Backend → Option (α × Backend)
  | [], b => some (f b)
  | _ :: _, leaf _ => none
  | number :: path, tiered tiers =>
    (zoomTiers f number path tiers).map fun result => (result.1, tiered result.2)

/-- Does something with the part of the tier with the given number. -/
def zoomTiers {α : Type} (f : Backend → α × Backend) (number : Nat) (path : List Nat) :
    List Backend → Option (α × List Backend)
  | [] => none
  | tier :: rest =>
    match number with
    | 0 => (zoom f path tier).map fun result => (result.1, result.2 :: rest)
    | number + 1 =>
      (zoomTiers f number path rest).map fun result => (result.1, tier :: result.2)

end

end Backend
end VariantCache
