import VariantCache.CacheError
import VariantCache.Store.Bounded
import VariantCache.Store.Map

/-!
# Single stores

A store is a map store or a bounded one. The operations of both are put under one
name each here.
-/

namespace VariantCache.Store

/-- A single store. -/
inductive Leaf where
  | map (store : MapStore)
  | bounded (store : BoundedStore)

namespace Leaf

/-- The fresh representation of a key. -/
def load (now : Instant) (key : CacheKey) : Leaf → Option Shared × Leaf
  | map m =>
    let (found, m) := m.load now key
    (found, map m)
  | bounded b => (b.get? now key, bounded b)

/-- Stores a representation, now or later. -/
def store (now : Instant) (key : CacheKey) (s : Shared) : Leaf → Leaf
  | map m => map (m.store now key s)
  | bounded b => bounded (b.store key s)

/-- Removes the representation of a key. -/
def delete (key : CacheKey) : Leaf → Leaf
  | map m => map (m.delete key)
  | bounded b => bounded (b.delete key)

/-- Removes the fresh members of a group. -/
def deleteGroup (now : Instant) (group : String) : Leaf → Leaf
  | map m => map (m.deleteGroup now group)
  | bounded b => bounded (b.deleteGroup now group)

/-- The worker of the store. -/
def worker : Leaf → Worker
  | map m => m.worker
  | bounded b => b.worker

/-- The name of the worker. -/
def workerName : Leaf → String
  | map _ => MapStore.workerName
  | bounded _ => BoundedStore.workerName

/-- The store with another worker. -/
def setWorker (worker : Worker) : Leaf → Leaf
  | map m => map { m with worker }
  | bounded b => bounded { b with worker }

/-- Starts the worker, unless it is active or has no period. -/
def startWorker (leaf : Leaf) : Except CacheError Unit × Leaf :=
  if leaf.worker.period.isZero then
    (.error (.invalidConfig "prune_frequency" .notPositive), leaf)
  else if leaf.worker.isActive then (.error (.alreadyStarted leaf.workerName), leaf)
  else (.ok (), leaf.setWorker leaf.worker.start)

/-- Stops the worker. -/
def stopWorker (shelf : Shelf) (now : Instant) : Leaf → Leaf
  | map m => map { m with worker := m.worker.stop }
  | bounded b => bounded (b.stop shelf now)

/-- Lets a worker that was started begin to run, and a writer apply the stores that wait. -/
def wait (shelf : Shelf) (now : Instant) : Leaf → Leaf
  | map m => map { m with worker := m.worker.wake now }
  | bounded b => bounded (b.wait shelf now)

/-- Lets the worker run until a date. -/
def runUntil (shelf : Shelf) (now : Instant) : Leaf → Leaf
  | map m => map (m.runUntil now)
  | bounded b => bounded (b.runUntil shelf now)

end Leaf
end VariantCache.Store
