import VariantCache.CacheError
import VariantCache.Store.Bounded

/-!
# Options of a bounded store
-/

namespace VariantCache.Store

/-- The time between two sweeps when nothing else is said. -/
def defaultPeriod : Duration := .ofSeconds 10

/-- How many stores may wait when nothing else is said. -/
def defaultWriteBuffer : Nat := 1024

/-- The longest queue that there can be. -/
def queueLimit : Nat := 0x1fffffffffffffff

/-- Why a store could not be built. -/
inductive BuildFailure where
  /-- A setting is invalid. -/
  | invalid (error : CacheError)
  /-- The settings are valid, but ask for a queue beyond the limit. -/
  | queueTooLong (length : Nat)
  deriving DecidableEq

/-- The failure as one of a table inside another. -/
def BuildFailure.within (table : String) : BuildFailure → BuildFailure
  | invalid error => invalid (error.within table)
  | queueTooLong length => queueTooLong length

/-- The options of a bounded store. -/
structure BoundedOptions where
  /-- The total size of the entries. -/
  maxSize : Nat
  /-- The size that an entry is expected to have. -/
  averageSize : Nat
  /-- How many stores may wait. -/
  writeBuffer : Nat
  /-- The time between two sweeps. -/
  period : Duration

namespace BoundedOptions

/-- Every option is positive, and the average size is not more than the total. The first
option that is wrong counts. -/
def validate (o : BoundedOptions) : Except CacheError Unit :=
  if o.maxSize = 0 then .error (.invalidConfig "max_size" .notPositive)
  else if o.averageSize = 0 then .error (.invalidConfig "average_size" .notPositive)
  else if o.maxSize < o.averageSize then .error (.invalidConfig "average_size" .exceedsMaxSize)
  else if o.writeBuffer = 0 then .error (.invalidConfig "write_buffer" .notPositive)
  else if o.period.isZero then .error (.invalidConfig "prune_frequency" .notPositive)
  else .ok ()

/-- A store with the options, if they are valid and the queue is possible. -/
def build (o : BoundedOptions) : Except BuildFailure BoundedStore := do
  o.validate.mapError .invalid
  if o.writeBuffer ≤ queueLimit then return .empty ⟨o.maxSize, o.writeBuffer⟩ o.period
  else throw (.queueTooLong o.writeBuffer)

end BoundedOptions
end VariantCache.Store
