/-!
# Errors of the cache

A setting of a cache may be invalid, and a worker may be started twice. A setting
is named by its path from the table that was read.
-/

namespace VariantCache

/-- What is wrong with a setting. -/
inductive Reason where
  /-- A count or a duration of zero. -/
  | notPositive
  /-- The average size of an entry is more than the size of the store. -/
  | exceedsMaxSize
  /-- A setting that bounded stores need is missing. -/
  | missing
  /-- Tiers without any tier. -/
  | noTiers
  /-- A tier that stores nothing. -/
  | emptyTier
  /-- The name of no kind of backend. -/
  | unknownKind (name : String)
  /-- Anything else. -/
  | other (text : String)
  deriving DecidableEq

/-- What the reason is called in messages. -/
def Reason.message : Reason → String
  | notPositive => "must be greater than zero"
  | exceedsMaxSize => "must not exceed max_size"
  | missing => "required for bounded caches"
  | noTiers => "tiered caches need at least one tier"
  | emptyTier => "a tier cannot be `none`"
  | unknownKind name => s!"unknown backend `{name}`; expected map, bounded, tiered or none"
  | other text => text

/-- An error of the cache. -/
inductive CacheError where
  | invalidConfig (key : String) (reason : Reason)
  | alreadyStarted (worker : String)
  deriving DecidableEq

namespace CacheError

/-- The error as one of a table inside another: the path of the setting gets longer. -/
def within (table : String) : CacheError → CacheError
  | invalidConfig key reason => invalidConfig (table ++ "." ++ key) reason
  | alreadyStarted worker => alreadyStarted worker

/-- What the error is called in messages. -/
def message : CacheError → String
  | invalidConfig key reason => s!"invalid cache configuration for `{key}`: {reason.message}"
  | alreadyStarted worker => s!"background worker `{worker}` was already started"

end CacheError
end VariantCache
