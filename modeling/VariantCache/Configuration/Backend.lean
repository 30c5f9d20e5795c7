import VariantCache.Backend
import VariantCache.Store.Options
import VariantCache.Text.Ascii
import VariantCache.Text.Blank

/-!
# Settings of a backend

A table of settings names the kind of a backend and gives its sizes; tiers are
tables of the same form. Valid settings describe a backend, which is then built
store by store. An error names the first setting that is wrong, in the order in
which the tables stand.
-/

namespace VariantCache.Configuration

open Store

/-! ### Kinds -/

/-- The kinds of backends. -/
inductive BackendKind where
  | map
  | bounded
  | tiered
  /-- Nothing is stored. -/
  | none
  deriving DecidableEq

namespace BackendKind

/-- The name of a kind. -/
def name : BackendKind → String
  | map => "map"
  | bounded => "bounded"
  | tiered => "tiered"
  | none => "none"

/-- Every kind. -/
def all : List BackendKind := [map, bounded, tiered, none]

/-- The kind with exactly the given name. -/
def ofName? (name : String) : Option BackendKind := all.find? (·.name == name)

/-- The kind that a text names, whatever its letter case and the blanks around it. -/
def parse (text : String) : Except CacheError BackendKind :=
  let name := Text.lower (Text.trim text)
  match ofName? name with
  | some kind => .ok kind
  | Option.none => .error (.invalidConfig "type" (.unknownKind name))

theorem ofName?_name (kind : BackendKind) : ofName? kind.name = some kind := by
  cases kind <;> decide

end BackendKind

/-! ### Tables -/

/-- The settings of a backend. -/
structure BackendSettings where
  kind : BackendKind
  /-- The total size of a bounded store. -/
  maxSize : Option Nat
  /-- The size that an entry of a bounded store is expected to have. -/
  averageSize : Option Nat
  /-- The seconds between two sweeps. -/
  pruneFrequency : Option Nat
  /-- How many stores may wait for a bounded store. -/
  writeBuffer : Option Nat
  /-- The tiers, with the fastest first. -/
  tiers : List BackendSettings

namespace BackendSettings

/-- Settings that say nothing but the kind. -/
def ofKind (kind : BackendKind) : BackendSettings := ⟨kind, none, none, none, none, []⟩

/-- The settings when nothing is said. -/
def standard : BackendSettings := ofKind .map

/-- The time between two sweeps. -/
def period (s : BackendSettings) : Duration :=
  match s.pruneFrequency with
  | some seconds => .ofSeconds seconds
  | none => defaultPeriod

/-- The options of a bounded store, which needs both sizes. -/
def boundedOptions (s : BackendSettings) : Except CacheError BoundedOptions :=
  match s.maxSize, s.averageSize with
  | none, _ => .error (.invalidConfig "max_size" .missing)
  | some _, none => .error (.invalidConfig "average_size" .missing)
  | some maxSize, some averageSize =>
    .ok ⟨maxSize, averageSize, s.writeBuffer.getD defaultWriteBuffer, s.period⟩

/-- The name of the table of a tier. -/
def tierName (number : Nat) : String := s!"tiers[{number}]"

mutual

/-- Checks a table and the tables of its tiers. Only tiered backends have tiers to check. -/
def validate : BackendSettings → Except CacheError Unit
  | s@⟨kind, _, _, pruneFrequency, _, tiers⟩ =>
    if pruneFrequency = some 0 then .error (.invalidConfig "prune_frequency" .notPositive)
    else
      match kind with
      | .map | .none => .ok ()
      | .bounded => s.boundedOptions.bind BoundedOptions.validate
      | .tiered =>
        if tiers.isEmpty then .error (.invalidConfig "tiers" .noTiers) else validateTiers 0 tiers

/-- Checks the tables of some tiers, of which the first has the given number. -/
def validateTiers (number : Nat) : List BackendSettings → Except CacheError Unit
  | [] => .ok ()
  | tier :: rest =>
    if tier.kind = .none then .error (.invalidConfig (tierName number ++ ".type") .emptyTier)
    else
      match validate tier with
      | .error e => .error (e.within (tierName number))
      | .ok () => validateTiers (number + 1) rest

end

mutual

/-- Builds the backend that a table describes. -/
def build : BackendSettings → Except BuildFailure Backend
  | s@⟨kind, _, _, _, _, tiers⟩ =>
    match kind with
    | .map => .ok (.leaf (.map (.empty s.period)))
    | .bounded =>
      match s.boundedOptions with
      | .error e => .error (.invalid e)
      | .ok options => options.build.map fun store => .leaf (.bounded store)
    | .tiered => (buildTiers 0 tiers).map .tiered
    | .none => .error (.invalid (.invalidConfig "type" .emptyTier))

/-- Builds the backends of some tiers, of which the first has the given number. -/
def buildTiers (number : Nat) : List BackendSettings → Except BuildFailure (List Backend)
  | [] => .ok []
  | tier :: rest =>
    match build tier with
    | .error e => .error (e.within (tierName number))
    | .ok backend => (buildTiers (number + 1) rest).map (backend :: ·)

end

/-- The name of the table that holds the settings of the backend. -/
def tableName : String := "cache"

/-- The backend that the whole table describes, once all of it is found valid. There is
none when nothing is to be stored. -/
def backend? (s : BackendSettings) : Except BuildFailure (Option Backend) :=
  match s.validate with
  | .error e => .error (.invalid (e.within tableName))
  | .ok () =>
    if s.kind = .none then .ok none
    else (s.build.mapError (·.within tableName)).map some

end BackendSettings
end VariantCache.Configuration
