import Mathlib
import VariantCache.Configuration.Basic

/-!
# Tables in document order

The settings of a backend are a tree of tables, and only tiered backends have tables below
them that count (`tables`). A table breaks rules of its own kind (`Rule`), and its fault is the
first rule that it breaks. Checking the settings finds the fault of the first table in document
order that has one, and names it by its path (`validate_eq`).
-/

namespace VariantCache.Configuration

namespace BackendSettings

/-! ### Tables and their places -/

/-- The numbers of the tiers that lead to a table, the outermost first. -/
abbrev Place := List Nat

mutual

/-- The tables of a backend in document order, each with its place. Tiers count only where the
backend is tiered. -/
def tables : BackendSettings → List (Place × BackendSettings)
  | s@⟨kind, _, _, _, _, tiers⟩ => ([], s) :: if kind = .tiered then tablesOf 0 tiers else []

/-- The tables of some tiers, of which the first has the given number. -/
def tablesOf (number : Nat) : List BackendSettings → List (Place × BackendSettings)
  | [] => []
  | tier :: rest => (tables tier).map (Prod.map (number :: ·) id) ++ tablesOf (number + 1) rest

end

/-- The path of a setting in the table at a place: every tier on the way has its number in
brackets. -/
def keyAt (place : Place) (setting : String) : String :=
  place.foldr (fun number key => "tiers[" ++ toString number ++ "]." ++ key) setting

theorem keyAt_cons (number : Nat) (place : Place) (setting : String) :
    keyAt (number :: place) setting = tierName number ++ "." ++ keyAt place setting := by
  have bracket : "]." = "]" ++ "." := rfl
  simp only [keyAt, List.foldr_cons, bracket, tierName, String.append_assoc]
  rfl

theorem tables_eq (s : BackendSettings) :
    s.tables = [([], s)] ++ if s.kind = .tiered then tablesOf 0 s.tiers else [] := by
  cases s
  rw [tables, List.singleton_append]

/-- Below the outermost table there are only tiers. -/
theorem place_ne_nil_of_mem_tablesOf {place : Place} {t : BackendSettings} {number : Nat}
    {tiers : List BackendSettings} (h : (place, t) ∈ tablesOf number tiers) : place ≠ [] := by
  induction tiers generalizing number with
  | nil => cases h
  | cons tier rest ih =>
    rw [tablesOf, List.mem_append] at h
    rcases h with first | others
    · obtain ⟨u, -, same⟩ := List.mem_map.1 first
      rw [← (Prod.mk.inj same).1]
      exact List.cons_ne_nil _ _
    · exact ih others

/-! ### Rules -/

/-- Something that a table must not be. -/
structure Rule where
  isBroken : BackendSettings → Bool
  /-- The setting that is wrong when the rule is broken. -/
  setting : String
  reason : Reason

/-- The rules for the table of a backend of some kind, in the order in which they are checked. -/
def rulesFor (kind : BackendKind) : List Rule :=
  ⟨fun t => t.pruneFrequency = some 0, "prune_frequency", .notPositive⟩ ::
    match kind with
    | .map | .none => []
    | .bounded => [
        ⟨fun t => t.maxSize = none, "max_size", .missing⟩,
        ⟨fun t => t.averageSize = none, "average_size", .missing⟩,
        ⟨fun t => t.maxSize = some 0, "max_size", .notPositive⟩,
        ⟨fun t => t.averageSize = some 0, "average_size", .notPositive⟩,
        ⟨fun t => t.maxSize.getD 0 < t.averageSize.getD 0, "average_size", .exceedsMaxSize⟩,
        ⟨fun t => t.writeBuffer = some 0, "write_buffer", .notPositive⟩]
    | .tiered => [⟨fun t => t.tiers.isEmpty, "tiers", .noTiers⟩]

/-- The rule for tiers: each of them stores something. -/
def tierRule : Rule := ⟨fun t => t.kind = .none, "type", .emptyTier⟩

/-- The first of some rules that a table breaks: the setting that is wrong, and why. -/
def broken? (t : BackendSettings) (rules : List Rule) : Option (String × Reason) :=
  (rules.find? (·.isBroken t)).map fun rule => (rule.setting, rule.reason)

/-- What is wrong with a table, whatever its tiers are. -/
def fault? (isTier : Bool) (t : BackendSettings) : Option (String × Reason) :=
  t.broken? ((if isTier then [tierRule] else []) ++ rulesFor t.kind)

/-- The fault of a table at a place. -/
def faultAt (table : Place × BackendSettings) : Option (Place × String × Reason) :=
  (table.2.fault? !table.1.isEmpty).map (table.1, ·)

/-- The fault of the first table in document order that has one. -/
def firstFault? (s : BackendSettings) : Option (Place × String × Reason) :=
  s.tables.findSome? faultAt

/-- What checking says of a fault, or when there is none. -/
def verdict : Option (Place × String × Reason) → Except CacheError Unit
  | none => .ok ()
  | some (place, setting, reason) => .error (.invalidConfig (keyAt place setting) reason)

theorem broken?_cons (t : BackendSettings) (rule : Rule) (rules : List Rule) :
    t.broken? (rule :: rules) =
      if rule.isBroken t then some (rule.setting, rule.reason) else t.broken? rules := by
  rw [broken?, List.find?_cons]
  cases rule.isBroken t <;> rfl

theorem fault?_of_tier (t : BackendSettings) :
    t.fault? true = if t.kind = .none then some ("type", .emptyTier) else t.fault? false := by
  simp only [fault?, if_true, List.singleton_append, broken?_cons, tierRule, decide_eq_true_eq,
    Bool.false_eq_true, if_false, List.nil_append]

/-! ### Checking one table -/

/-- What checking says of rules that the outermost table may break. -/
def check (t : BackendSettings) (rules : List Rule) : Except CacheError Unit :=
  verdict ((t.broken? rules).map ([], ·))

theorem check_nil (t : BackendSettings) : t.check [] = .ok () := rfl

theorem check_cons (t : BackendSettings) (rule : Rule) (rules : List Rule) :
    t.check (rule :: rules) =
      if rule.isBroken t then .error (.invalidConfig rule.setting rule.reason)
      else t.check rules := by
  rw [check, broken?_cons]
  split <;> rfl

theorem isZero_period (s : BackendSettings) : s.period.isZero ↔ s.pruneFrequency = some 0 := by
  cases h : s.pruneFrequency with
  | none => simp only [period, h]; decide
  | some n => simp [period, h, Duration.ofSeconds, Duration.isZero]

theorem writeBuffer_getD_eq_zero (s : BackendSettings) :
    s.writeBuffer.getD Store.defaultWriteBuffer = 0 ↔ s.writeBuffer = some 0 := by
  cases s.writeBuffer with
  | none => simp only [Option.getD_none, reduceCtorEq, iff_false]; decide
  | some n => simp

/-- The options of a bounded store are checked by the rules for its table. -/
theorem check_bounded (s : BackendSettings) (sweeps : s.pruneFrequency ≠ some 0) :
    s.boundedOptions.bind Store.BoundedOptions.validate = s.check (rulesFor .bounded) := by
  have period : ¬ s.period.isZero := mt s.isZero_period.1 sweeps
  simp only [rulesFor, check_cons, check_nil, decide_eq_true_eq, sweeps, if_false]
  unfold boundedOptions
  split
  · next missing => rw [if_pos missing]; rfl
  · next maxSize given missing =>
    rw [if_neg (by simp [given]), if_pos missing]
    rfl
  · next maxSize averageSize given given' =>
    simp only [Except.bind, Store.BoundedOptions.validate, given, given', reduceCtorEq, if_false,
      Option.some.injEq, Option.getD_some, writeBuffer_getD_eq_zero, period]

/-! ### Checking a tree of tables -/

/-- Of two lists of tables the first is checked first. -/
theorem verdict_or (first rest : Option (Place × String × Reason)) :
    verdict (first.or rest) = (verdict first).bind fun _ => verdict rest := by
  cases first <;> rfl

/-- A fault of a tier is one of the table around it, with a longer path. -/
theorem verdict_within (number : Nat) (fault : Option (Place × String × Reason)) :
    verdict (fault.map (Prod.map (number :: ·) id)) =
      (verdict fault).mapError (·.within (tierName number)) := by
  cases fault with
  | none => rfl
  | some fault =>
    obtain ⟨place, setting, reason⟩ := fault
    simp only [Option.map_some, Prod.map, id, verdict, keyAt_cons]
    rfl

theorem verdict_firstFault? (s : BackendSettings) :
    verdict s.firstFault? = (s.check (rulesFor s.kind)).bind fun _ =>
      verdict ((if s.kind = .tiered then tablesOf 0 s.tiers else []).findSome? faultAt) := by
  rw [firstFault?, tables_eq, List.findSome?_append, List.findSome?_singleton, verdict_or]
  rfl

/-- Tables below a tier have the faults that they have without the tables around it. -/
theorem findSome?_faultAt_map (number : Nat) (tables : List (Place × BackendSettings))
    (deeper : ∀ t ∈ tables, t.1 ≠ []) :
    (tables.map (Prod.map (number :: ·) id)).findSome? faultAt =
      (tables.findSome? faultAt).map (Prod.map (number :: ·) id) := by
  induction tables with
  | nil => rfl
  | cons t rest ih =>
    have inside : t.1.isEmpty = false :=
      List.isEmpty_eq_false_iff.2 (deeper t List.mem_cons_self)
    have head : faultAt (Prod.map (number :: ·) id t) =
        (faultAt t).map (Prod.map (number :: ·) id) := by
      simp only [faultAt, Prod.map, inside, List.isEmpty_cons, id, Option.map_map]
      rfl
    rw [List.map_cons, List.findSome?_cons, List.findSome?_cons, head,
      ih fun t ht => deeper t (List.mem_cons_of_mem _ ht)]
    cases faultAt t <;> rfl

/-- The first fault in a tier: it may be that the tier stores nothing. -/
theorem firstFault_of_tier (number : Nat) (tier : BackendSettings) :
    (tier.tables.map (Prod.map (number :: ·) id)).findSome? faultAt =
      if tier.kind = .none then some ([number], "type", .emptyTier)
      else tier.firstFault?.map (Prod.map (number :: ·) id) := by
  have below := findSome?_faultAt_map number (if tier.kind = .tiered then tablesOf 0 tier.tiers else [])
    fun t ht => by
      split at ht
      · exact place_ne_nil_of_mem_tablesOf ht
      · cases ht
  rw [firstFault?, tables_eq, List.map_append, List.findSome?_append, List.findSome?_append, below,
    Option.map_or, List.map_singleton, List.findSome?_singleton, List.findSome?_singleton]
  simp only [faultAt, Prod.map, List.isEmpty_cons, List.isEmpty_nil, Bool.not_false, Bool.not_true,
    id, fault?_of_tier]
  split
  · rfl
  · rw [Option.map_map]
    rfl

mutual

/-- **Checking finds the fault of the first table in document order that has one**, and names the
setting by its path. -/
theorem validate_eq : ∀ s : BackendSettings, s.validate = verdict s.firstFault?
  | ⟨kind, maxSize, averageSize, pruneFrequency, writeBuffer, tiers⟩ => by
    rw [verdict_firstFault?]
    unfold validate
    by_cases sweeps : pruneFrequency = some 0
    · simp only [rulesFor, check_cons, sweeps, decide_true, if_true]
      rfl
    rw [if_neg sweeps]
    cases kind with
    | map | none => simp only [rulesFor, check_cons, decide_eq_true_eq, sweeps]; rfl
    | bounded =>
      rw [check_bounded _ sweeps]
      simp only [reduceCtorEq, if_false, List.findSome?_nil]
      generalize check _ _ = result
      cases result <;> rfl
    | tiered =>
      simp only [rulesFor, check_cons, decide_eq_true_eq, sweeps, if_false, validateTiers_eq 0 tiers]
      cases tiers.isEmpty <;> rfl

/-- Checking tiers goes through their tables in document order. -/
theorem validateTiers_eq (number : Nat) :
    ∀ tiers : List BackendSettings,
      validateTiers number tiers = verdict ((tablesOf number tiers).findSome? faultAt)
  | [] => rfl
  | tier :: rest => by
    rw [validateTiers, tablesOf, List.findSome?_append, verdict_or, firstFault_of_tier,
      validate_eq tier, validateTiers_eq (number + 1) rest]
    split
    · have key : tierName number ++ ".type" = keyAt [number] "type" := by
        rw [keyAt_cons, String.append_assoc]
        rfl
      rw [key]
      rfl
    · rw [verdict_within]
      cases verdict tier.firstFault? <;> rfl

end

/-- A map, and behind it two tiers of which the second is a bounded store without room. -/
def withoutRoom : BackendSettings :=
  ⟨.tiered, none, none, none, none, [ofKind .map, ⟨.tiered, none, none, none, none,
    [ofKind .map, ⟨.bounded, some 0, some 1, none, none, []⟩]⟩]⟩

example : withoutRoom.firstFault? = some ([1, 1], "max_size", .notPositive) := by decide

example : keyAt [1, 1] "max_size" = "tiers[1].tiers[1].max_size" := by decide +kernel

end BackendSettings
end VariantCache.Configuration
