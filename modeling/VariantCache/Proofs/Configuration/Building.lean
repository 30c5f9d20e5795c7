import VariantCache.Proofs.Configuration.Tables

/-!
# Checking and building

Checking and building go through the settings of a backend separately, and agree
(`validate_and_build_agree`). Settings that are found valid are built, unless a bounded store
asks for a queue beyond the limit (`failure?_build`); the stores of what is built are those
that the tables describe, in document order (`leaves_build`). Neither looks at tiers of a backend
that is not tiered (`validate_withoutIdle`, `build_withoutIdle`).
-/

namespace VariantCache.Configuration

open Store

namespace BackendSettings

/-! ### What is built -/

/-- The store that a table describes by itself. -/
def store? (t : BackendSettings) : Option Leaf :=
  match t.kind with
  | .map => some (.map (.empty t.period))
  | .bounded => t.boundedOptions.toOption.map fun o =>
    .bounded (.empty ⟨o.maxSize, o.writeBuffer⟩ o.period)
  | .tiered | .none => none

/-- The stores that settings describe, in document order. -/
def stores (s : BackendSettings) : List Leaf := s.tables.filterMap (·.2.store?)

theorem stores_eq (s : BackendSettings) :
    s.stores = s.store?.toList ++
      if s.kind = .tiered then (tablesOf 0 s.tiers).filterMap (·.2.store?) else [] := by
  have own : [(([] : Place), s)].filterMap (·.2.store?) = s.store?.toList := by
    cases h : s.store? <;> simp [h]
  rw [stores, tables_eq, List.filterMap_append, own, apply_ite (List.filterMap _), List.filterMap_nil]

theorem stores_tablesOf_cons (number : Nat) (tier : BackendSettings) (rest : List BackendSettings) :
    (tablesOf number (tier :: rest)).filterMap (·.2.store?) =
      tier.stores ++ (tablesOf (number + 1) rest).filterMap (·.2.store?) := by
  rw [tablesOf, List.filterMap_append, List.filterMap_map, stores]
  rfl

/-- Options that are valid give a store, if the queue is possible. -/
theorem build_options (o : BoundedOptions) :
    o.build = (o.validate.mapError .invalid).bind fun _ =>
      if o.writeBuffer ≤ queueLimit then .ok (.empty ⟨o.maxSize, o.writeBuffer⟩ o.period)
      else .error (.queueTooLong o.writeBuffer) := by
  unfold BoundedOptions.build
  cases o.validate <;> rfl

mutual

/-- **What is built holds the stores that the tables describe**, from left to right in document
order. -/
theorem leaves_build : ∀ (s : BackendSettings) {b : Backend}, s.build = .ok b → b.leaves = s.stores
  | ⟨kind, maxSize, averageSize, pruneFrequency, writeBuffer, tiers⟩, b, h => by
    unfold build at h
    rw [stores_eq]
    cases kind with
    | map =>
      cases h
      rfl
    | bounded =>
      simp only [store?, reduceCtorEq, if_false, List.append_nil] at h ⊢
      cases options : boundedOptions _ with
      | error e => rw [options] at h; cases h
      | ok o =>
        rw [options] at h
        simp only [build_options] at h
        cases valid : o.validate with
        | error e => rw [valid] at h; cases h
        | ok _ =>
          rw [valid] at h
          by_cases fits : o.writeBuffer ≤ queueLimit
          · simp only [fits, if_true] at h
            cases h
            rfl
          · simp only [fits, if_false] at h
            cases h
    | tiered =>
      cases built : buildTiers 0 tiers with
      | error e => simp only [built] at h; cases h
      | ok trees =>
        simp only [built] at h
        cases h
        exact leavesOf_buildTiers 0 tiers built
    | none => cases h

theorem leavesOf_buildTiers (number : Nat) :
    ∀ (tiers : List BackendSettings) {trees : List Backend}, buildTiers number tiers = .ok trees →
      Backend.leavesOf trees = (tablesOf number tiers).filterMap (·.2.store?)
  | [], trees, h => by cases h; rfl
  | tier :: rest, trees, h => by
    unfold buildTiers at h
    rw [stores_tablesOf_cons]
    cases first : tier.build with
    | error e => rw [first] at h; cases h
    | ok b =>
      cases others : buildTiers (number + 1) rest with
      | error e => simp only [first, others] at h; cases h
      | ok bs =>
        simp only [first, others] at h
        cases h
        rw [Backend.leavesOf, leaves_build tier first, leavesOf_buildTiers (number + 1) rest others]

end

/-! ### When building fails -/

/-- The failure to build something, if it failed. -/
def failure? {α : Type} : Except BuildFailure α → Option BuildFailure
  | .error e => some e
  | .ok _ => none

theorem failure?_map {α β : Type} (f : α → β) (built : Except BuildFailure α) :
    failure? (built.map f) = failure? built := by
  cases built <;> rfl

/-- The length of the queue that a bounded table asks for, where that is beyond the limit. -/
def longQueue? (t : BackendSettings) : Option Nat :=
  if t.kind = .bounded ∧ queueLimit < t.writeBuffer.getD defaultWriteBuffer then
    some (t.writeBuffer.getD defaultWriteBuffer)
  else none

/-- The first queue in document order that is too long. -/
def firstLongQueue? (s : BackendSettings) : Option Nat := s.tables.findSome? (·.2.longQueue?)

theorem firstLongQueue?_eq (s : BackendSettings) :
    s.firstLongQueue? = s.longQueue?.or
      (if s.kind = .tiered then (tablesOf 0 s.tiers).findSome? (·.2.longQueue?) else none) := by
  rw [firstLongQueue?, tables_eq, List.findSome?_append, List.findSome?_singleton,
    apply_ite (List.findSome? _), List.findSome?_nil]

theorem longQueue_tablesOf_cons (number : Nat) (tier : BackendSettings)
    (rest : List BackendSettings) :
    (tablesOf number (tier :: rest)).findSome? (·.2.longQueue?) =
      tier.firstLongQueue?.or ((tablesOf (number + 1) rest).findSome? (·.2.longQueue?)) := by
  rw [tablesOf, List.findSome?_append, List.findSome?_map, firstLongQueue?]
  rfl

/-- A bounded table that is found valid gives a store, or has a queue that is too long. -/
theorem failure?_build_bounded (s : BackendSettings) {o : BoundedOptions}
    (options : s.boundedOptions = .ok o) (valid : o.validate = .ok ()) :
    failure? o.build = if queueLimit < s.writeBuffer.getD defaultWriteBuffer then
      some (.queueTooLong (s.writeBuffer.getD defaultWriteBuffer)) else none := by
  have buffer : o.writeBuffer = s.writeBuffer.getD defaultWriteBuffer := by
    unfold boundedOptions at options
    split at options <;> cases options
    rfl
  rw [build_options, valid, ← buffer]
  simp only [← Nat.not_lt]
  by_cases long : queueLimit < o.writeBuffer
  · rw [if_pos long]
    simp only [Except.mapError, Except.bind, long, not_true, if_false]
    rfl
  · rw [if_neg long]
    simp only [Except.mapError, Except.bind, long, not_false_eq_true, if_true]
    rfl

mutual

/-- **Building settings that are valid fails where a queue is too long**, and not otherwise. -/
theorem failure?_build : ∀ s : BackendSettings, s.kind ≠ .none → s.validate = .ok () →
    failure? s.build = s.firstLongQueue?.map .queueTooLong
  | ⟨kind, maxSize, averageSize, pruneFrequency, writeBuffer, tiers⟩, stores, valid => by
    unfold validate at valid
    unfold build
    rw [firstLongQueue?_eq, longQueue?]
    split at valid
    · cases valid
    cases kind with
    | map => rfl
    | bounded =>
      simp only [true_and, reduceCtorEq, if_false, Option.or_none] at valid ⊢
      cases options : boundedOptions _ with
      | error e => rw [options] at valid; cases valid
      | ok o =>
        rw [options] at valid
        rw [failure?_map, failure?_build_bounded _ options valid, apply_ite (Option.map _)]
        rfl
    | tiered =>
      simp only [reduceCtorEq, false_and, if_false, if_true, Option.none_or] at valid ⊢
      rw [failure?_map]
      split at valid
      · cases valid
      · exact failure?_buildTiers 0 tiers valid
    | none => exact absurd rfl stores

theorem failure?_buildTiers (number : Nat) : ∀ tiers : List BackendSettings,
    validateTiers number tiers = .ok () →
      failure? (buildTiers number tiers) =
        ((tablesOf number tiers).findSome? (·.2.longQueue?)).map .queueTooLong
  | [], _ => rfl
  | tier :: rest, valid => by
    unfold validateTiers at valid
    split at valid
    · cases valid
    next stores =>
    split at valid
    · cases valid
    next first =>
    have tierFailure := failure?_build tier stores first
    have restFailure := failure?_buildTiers (number + 1) rest valid
    rw [buildTiers, longQueue_tablesOf_cons, Option.map_or, ← tierFailure, ← restFailure]
    cases built : tier.build with
    | error e =>
      rw [built, eq_comm, failure?, Option.map_eq_some_iff] at tierFailure
      obtain ⟨n, -, rfl⟩ := tierFailure
      rfl
    | ok b => rw [failure?_map]; rfl

end

/-! ### Idle tiers -/

mutual

/-- The settings without the tiers of backends that are not tiered. -/
def withoutIdle : BackendSettings → BackendSettings
  | ⟨kind, maxSize, averageSize, pruneFrequency, writeBuffer, tiers⟩ =>
    ⟨kind, maxSize, averageSize, pruneFrequency, writeBuffer,
      if kind = .tiered then withoutIdleOf tiers else []⟩

/-- Some tiers without idle ones in them. -/
def withoutIdleOf : List BackendSettings → List BackendSettings
  | [] => []
  | tier :: rest => withoutIdle tier :: withoutIdleOf rest

end

theorem kind_withoutIdle (s : BackendSettings) : s.withoutIdle.kind = s.kind := by
  cases s
  rw [withoutIdle]

theorem isEmpty_withoutIdleOf (tiers : List BackendSettings) :
    (withoutIdleOf tiers).isEmpty = tiers.isEmpty := by
  cases tiers with
  | nil => rw [withoutIdleOf]
  | cons tier rest => rw [withoutIdleOf]; rfl

mutual

/-- Checking does not look at idle tiers. -/
theorem validate_withoutIdle : ∀ s : BackendSettings, s.withoutIdle.validate = s.validate
  | ⟨kind, maxSize, averageSize, pruneFrequency, writeBuffer, tiers⟩ => by
    rw [withoutIdle]
    unfold validate
    cases kind with
    | map | bounded | none => rfl
    | tiered => simp only [if_true, isEmpty_withoutIdleOf, validateTiers_withoutIdleOf 0 tiers]

theorem validateTiers_withoutIdleOf (number : Nat) : ∀ tiers : List BackendSettings,
    validateTiers number (withoutIdleOf tiers) = validateTiers number tiers
  | [] => by rw [withoutIdleOf]
  | tier :: rest => by
    rw [withoutIdleOf, validateTiers, validateTiers, kind_withoutIdle, validate_withoutIdle tier,
      validateTiers_withoutIdleOf (number + 1) rest]

end

mutual

/-- Building does not look at idle tiers. -/
theorem build_withoutIdle : ∀ s : BackendSettings, s.withoutIdle.build = s.build
  | ⟨kind, maxSize, averageSize, pruneFrequency, writeBuffer, tiers⟩ => by
    rw [withoutIdle]
    unfold build
    cases kind with
    | map | bounded | none => rfl
    | tiered => simp only [if_true, buildTiers_withoutIdleOf 0 tiers]

theorem buildTiers_withoutIdleOf (number : Nat) : ∀ tiers : List BackendSettings,
    buildTiers number (withoutIdleOf tiers) = buildTiers number tiers
  | [] => by rw [withoutIdleOf]
  | tier :: rest => by
    rw [withoutIdleOf, buildTiers, buildTiers, build_withoutIdle tier,
      buildTiers_withoutIdleOf (number + 1) rest]

end

theorem backend?_withoutIdle (s : BackendSettings) : s.withoutIdle.backend? = s.backend? := by
  rw [backend?, validate_withoutIdle, kind_withoutIdle, build_withoutIdle, backend?]

/-! ### Workers -/

/-- The name of the worker that a backend of some kind has for itself. -/
def workerName? : BackendKind → Option String
  | .map => some "map-pruner"
  | .bounded => some "bounded-writer"
  | .tiered | .none => none

/-- In valid settings no table has a fault. -/
theorem faultless_of_validate {s : BackendSettings} (valid : s.validate = .ok ()) :
    ∀ t ∈ s.tables, t.2.fault? (!t.1.isEmpty) = none := by
  intro t ht
  rw [validate_eq] at valid
  cases fault : s.firstFault? with
  | some fault' => rw [fault] at valid; cases valid
  | none =>
    have none := List.findSome?_eq_none_iff.1 fault t ht
    rwa [faultAt, Option.map_eq_none_iff] at none

/-- A table without a fault has a time between two sweeps, and options if it is bounded. -/
theorem sound_of_faultless {t : BackendSettings} {isTier : Bool} (h : t.fault? isTier = none) :
    ¬ t.period.isZero ∧
      (t.kind = .bounded → ∃ o, t.boundedOptions = .ok o ∧ o.validate = .ok ()) := by
  have rules : t.broken? (rulesFor t.kind) = none := by
    cases isTier with
    | false => exact h
    | true =>
      rw [fault?_of_tier] at h
      split at h
      · cases h
      · exact h
  have sweeps : t.pruneFrequency ≠ some 0 := by
    intro zero
    simp only [rulesFor, broken?_cons, zero, decide_true, if_true, reduceCtorEq] at rules
  refine ⟨mt t.isZero_period.1 sweeps, fun bounded => ?_⟩
  have valid := check_bounded t sweeps
  rw [check, ← bounded, rules] at valid
  cases options : t.boundedOptions with
  | error e => rw [options] at valid; cases valid
  | ok o => rw [options] at valid; exact ⟨o, rfl, valid⟩

theorem workerName_store? {t : BackendSettings} {isTier : Bool} (h : t.fault? isTier = none) :
    t.store?.map Leaf.workerName = workerName? t.kind := by
  unfold store?
  cases kind : t.kind with
  | map | tiered | none => rfl
  | bounded =>
    obtain ⟨o, options, -⟩ := (sound_of_faultless h).2 kind
    rw [options]
    rfl

/-- The stores that valid settings describe have a worker each, of the kind of their table. -/
theorem workerNames_stores {s : BackendSettings} (valid : s.validate = .ok ()) :
    s.stores.map Leaf.workerName = s.tables.filterMap fun t => workerName? t.2.kind := by
  rw [stores, List.map_filterMap]
  exact List.filterMap_congr fun t ht => workerName_store? (faultless_of_validate valid t ht)

/-! ### Agreement -/

/-- The table of the cache is named before the path of a setting in it. -/
theorem within_tableName (key : String) (reason : Reason) :
    (CacheError.invalidConfig key reason).within tableName =
      .invalidConfig ("cache." ++ key) reason := by
  rw [CacheError.within, show tableName ++ "." = "cache." from by decide]

/-- Settings with a fault are refused by checking and by building. -/
theorem backend?_of_fault {s : BackendSettings} {place : Place} {setting : String} {reason : Reason}
    (fault : s.firstFault? = some (place, setting, reason)) :
    s.validate = .error (.invalidConfig (keyAt place setting) reason) ∧
      s.backend? = .error (.invalid (.invalidConfig ("cache." ++ keyAt place setting) reason)) := by
  have refused : s.validate = .error (.invalidConfig (keyAt place setting) reason) := by
    rw [validate_eq, fault]
    rfl
  refine ⟨refused, ?_⟩
  rw [backend?, refused, ← within_tableName]

/-- The backend of valid settings: none where nothing is stored, else what is built, unless a queue
is too long. -/
theorem backend?_of_valid {s : BackendSettings} (valid : s.validate = .ok ()) :
    (s.kind = .none ∧ s.firstLongQueue? = none ∧ s.backend? = .ok none) ∨
      (s.kind ≠ .none ∧ s.firstLongQueue? = none ∧
        ∃ b, s.build = .ok b ∧ s.backend? = .ok (some b)) ∨
      (s.kind ≠ .none ∧ ∃ n, s.firstLongQueue? = some n ∧
        s.backend? = .error (.queueTooLong n)) := by
  unfold backend?
  rw [valid]
  by_cases empty : s.kind = .none
  · refine Or.inl ⟨empty, ?_, if_pos empty⟩
    simp only [firstLongQueue?_eq, longQueue?, empty, reduceCtorEq, false_and, if_false, Option.or_none]
  have failure := failure?_build s empty valid
  simp only [empty, if_false, not_false_eq_true, true_and, false_and, false_or, ne_eq]
  cases built : s.build with
  | ok b =>
    rw [built, eq_comm, failure?, Option.map_eq_none_iff] at failure
    exact Or.inl ⟨failure, b, rfl, rfl⟩
  | error e =>
    rw [built, eq_comm, failure?, Option.map_eq_some_iff] at failure
    obtain ⟨n, long, rfl⟩ := failure
    exact Or.inr ⟨n, long, rfl⟩

/-- **Checking and building agree** on all settings. Both find the first fault in document order
and name it by its path, inside the table of the cache when the backend or the program's settings
are at fault; beyond that, only a queue that is too long keeps a backend from being built. What is
built has one worker for every store that the settings describe, and nothing is built exactly
for the kind that stores nothing. Idle tiers do not matter. -/
theorem validate_and_build_agree (s : BackendSettings) :
    (∀ e, s.validate = .error e ↔ ∃ place setting reason,
        s.firstFault? = some (place, setting, reason) ∧
          e = .invalidConfig (keyAt place setting) reason) ∧
      (∀ e, s.backend? = .error (.invalid e) ↔ ∃ key reason,
        s.validate = .error (.invalidConfig key reason) ∧
          e = .invalidConfig ("cache." ++ key) reason ∧
          LoadError.ofCache (.invalidConfig key reason) =
            .invalid ("cache." ++ key) (.cache reason)) ∧
      (∀ n, s.backend? = .error (.queueTooLong n) ↔
        s.validate = .ok () ∧ s.firstLongQueue? = some n) ∧
      (s.backend? = .ok none ↔ s.validate = .ok () ∧ s.kind = .none) ∧
      (∀ b, s.backend? = .ok (some b) → b.leaves = s.stores ∧
        b.workerNames = (s.tables.filterMap fun t => workerName? t.2.kind) ∧
        ∀ shelf now, (b.lifecycle shelf now).length = b.workerNames.length) ∧
      s.withoutIdle.validate = s.validate ∧ s.withoutIdle.backend? = s.backend? := by
  have loadError (key : String) (reason : Reason) :
      LoadError.ofCache (.invalidConfig key reason) = .invalid ("cache." ++ key) (.cache reason) := by
    rw [LoadError.ofCache, within_tableName]
  rw [validate_withoutIdle, backend?_withoutIdle]
  cases fault : s.firstFault? with
  | some found =>
    obtain ⟨place, setting, reason⟩ := found
    obtain ⟨refused, failed⟩ := backend?_of_fault fault
    simp [refused, failed, loadError, eq_comm]
  | none =>
    have valid : s.validate = .ok () := by rw [validate_eq, fault]; rfl
    rcases backend?_of_valid valid with
      ⟨empty, fits, none⟩ | ⟨stores, fits, b, built, some⟩ | ⟨stores, n, long, failed⟩
    · simp [valid, empty, fits, none]
    · have names : b.workerNames = s.tables.filterMap fun t => workerName? t.2.kind := by
        rw [Backend.workerNames, leaves_build s built, workerNames_stores valid]
      have workers (shelf : Shelf) (now : Instant) :
          (b.lifecycle shelf now).length = b.workerNames.length := by
        simp [Backend.lifecycle, Backend.workers, Backend.workerNames]
      simp [valid, stores, fits, some, leaves_build s built, names, workers]
    · simp [valid, stores, long, failed, eq_comm]

end BackendSettings
end VariantCache.Configuration
