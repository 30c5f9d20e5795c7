import VariantCache.CacheKey
import VariantCache.Table
import VariantCache.Time

/-!
# The index of groups

A store finds the members of a group by an index from groups to keys. The index is
a hint that is kept up lazily: whenever a group is looked at, the keys that are no
longer stored, no longer fresh or no longer in the group are left out of it, and
a group without members is dropped.
-/

namespace VariantCache.Store

/-- The keys of a group, and the latest date at which one of them is fresh. -/
structure Group where
  keys : List CacheKey
  expiration : Instant

/-- The groups by name. -/
abbrev GroupIndex := Table String Group

/-- Says of a key until when it is fresh, if it is stored in a group. -/
abbrev Membership := String → CacheKey → Option Instant

namespace Group

/-- When a key of the group expires, if it is a fresh member. -/
def memberExpiration? (name : String) (now : Instant) (members : Membership) (key : CacheKey) :
    Option Instant :=
  (members name key).filter (now ≤ ·)

/-- The latest of some dates. -/
def latest? : List Instant → Option Instant
  | [] => none
  | first :: rest => some (rest.foldl Instant.later first)

/-- The group with its fresh members only; nothing when there are none. -/
def prune? (group : Group) (name : String) (now : Instant) (members : Membership) : Option Group :=
  let expiration? := memberExpiration? name now members
  (latest? (group.keys.filterMap expiration?)).map fun expiration =>
    ⟨group.keys.filter fun key => (expiration? key).isSome, expiration⟩

end Group

namespace GroupIndex

/-- Prunes one group. -/
def prune (index : GroupIndex) (name : String) (now : Instant) (members : Membership) : GroupIndex :=
  match index.get? name with
  | none => index
  | some group =>
    match group.prune? name now members with
    | some group => index.insert name group
    | none => index.erase name

/-- Prunes every group. -/
def pruneAll (index : GroupIndex) (now : Instant) (members : Membership) : GroupIndex :=
  index.filterMap fun name group => group.prune? name now members

/-- Adds a key to a group, once, and prunes the group. -/
def add (index : GroupIndex) (name : String) (key : CacheKey) (expiration : Instant)
    (now : Instant) (members : Membership) : GroupIndex :=
  let group := (index.get? name).getD ⟨[], expiration⟩
  let keys := if key ∈ group.keys then group.keys else group.keys ++ [key]
  prune (index.insert name { group with keys }) name now members

/-- Adds a key to several groups. -/
def addAll (index : GroupIndex) (names : List String) (key : CacheKey) (expiration : Instant)
    (now : Instant) (members : Membership) : GroupIndex :=
  names.foldl (fun index name => add index name key expiration now members) index

/-- The fresh members of a group, and the index without the group. -/
def take (index : GroupIndex) (name : String) (now : Instant) (members : Membership) :
    List CacheKey × GroupIndex :=
  let index := prune index name now members
  (((index.get? name).map (·.keys)).getD [], index.erase name)

end GroupIndex
end VariantCache.Store
