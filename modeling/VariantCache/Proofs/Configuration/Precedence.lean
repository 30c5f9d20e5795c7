import VariantCache.Proofs.Configuration.Checking
import VariantCache.Proofs.Configuration.Draft
import VariantCache.Proofs.Document.Layers

/-!
# Which layer decides a setting

A setting has a place in a document, a way of reading it, and perhaps an option on the command
line. It is decided by the last option for it, else by the highest layer that sets it, else by its
default (`Setting.resolve`). The settings that load are decided in this way, one by one, where the
layers give nothing but tables for the tables of settings (`Plain`; `settings_of_layers`).
Anything else in the place of a table discards what lower layers have set in it
(`load_overwrittenTable`), and a tier that is given by its number changes one of a lower layer
(`load_tierByNumber`).
-/

namespace VariantCache.Configuration

open Document CommandLine

/-! ### Settings -/

/-- The number that an option for the cache gives for a setting, if it does. -/
def CacheNumber.override? : CacheNumber → CacheOverride → Option Nat
  | maxSize, .maxSize n | averageSize, .averageSize n | pruneFrequency, .pruneFrequency n
  | writeBuffer, .writeBuffer n => some n
  | _, _ => none

/-- A setting: where it stands in a document, how it is read there, and what an option on the
command line says about it. -/
structure Setting (α : Type) where
  table : String
  name : String
  read : Value → Option α
  override? : Override → Option α

namespace Setting

/-- The host that the server listens on. -/
def host : Setting String where
  table := "server"
  name := "host"
  read := textOf?
  override?
    | .host host => some host
    | _ => none

/-- The port that the server listens on. -/
def port : Setting Nat where
  table := "server"
  name := "port"
  read := naturalOf? Natural.max16
  override?
    | .port port => some port
    | _ => none

/-- The seconds that a shutdown may take. -/
def gracefulShutdown : Setting Nat where
  table := "server"
  name := "graceful_shutdown_seconds"
  read := naturalOf? Natural.max64
  override?
    | .gracefulShutdown seconds => some seconds
    | _ => none

/-- How much is logged, as a text that names a level. -/
def level : Setting String where
  table := "logging"
  name := "level"
  read := textOf?
  override?
    | .level level => some level
    | _ => none

/-- The log is written as JSON. -/
def json : Setting Bool where
  table := "logging"
  name := "json"
  read := boolOf?
  override?
    | .json json => some json
    | _ => none

/-- The kind of the outermost backend. -/
def kind : Setting BackendKind where
  table := "cache"
  name := "type"
  read := kindOf?
  override?
    | .cache (.kind kind) => some kind
    | _ => none

/-- A number in the outermost table of the cache. -/
def number (f : CacheNumber) : Setting Nat where
  table := "cache"
  name := f.name
  read := naturalOf? Natural.max64
  override?
    | .cache override => f.override? override
    | _ => none

/-- The tiers of the outermost backend, which no option gives. -/
def tiers : Setting (List BackendSettings) where
  table := "cache"
  name := "tiers"
  read := BackendSettings.tiers? .lenient
  override? _ := none

variable {α : Type}

/-- What the setting is in a layer by itself. -/
def value (t : Setting α) (layer : Layer) : Value := ((merge [layer]).get t.table).get t.name

/-- What the last option for the setting says, or else the highest layer that sets it, if any does.
Nothing comes of a value that cannot be read. -/
def resolve (t : Setting α) (below : List Layer) (overrides : List Override) : Option (Option α) :=
  match (overrides.filterMap t.override?).getLast? with
  | some a => some (some a)
  | none => optional t.read (Value.highest (below.map t.value))

end Setting

/-! ### Plain layers -/

/-- The tables of settings. -/
def tableNames : List String := ["server", "logging", "cache"]

/-- The layers give the tables of settings as tables, and the tiers as a whole. -/
structure Plain (below : List Layer) : Prop where
  /-- There is no null in the layers. -/
  noNull : ∀ layer ∈ below, ∀ entry ∈ layer, ¬ entry.2.hasNull
  /-- Nothing but a table is given for a table of settings. -/
  tables : ∀ table ∈ tableNames, ∀ a ∈ assignmentsTo table below, a.isToNames
  /-- No tier is given by its number. -/
  tiers : ∀ a ∈ assignmentsIn "cache" "tiers" below, ¬ a.isToItem

instance (below : List Layer) : Decidable (Plain below) :=
  decidable_of_iff ((∀ layer ∈ below, ∀ entry ∈ layer, ¬ entry.2.hasNull) ∧
      (∀ table ∈ tableNames, ∀ a ∈ assignmentsTo table below, a.isToNames) ∧
      ∀ a ∈ assignmentsIn "cache" "tiers" below, ¬ a.isToItem)
    ⟨fun h => ⟨h.1, h.2.1, h.2.2⟩, fun h => ⟨h.noNull, h.tables, h.tiers⟩⟩

/-! ### One layer over others -/

namespace Setting

variable {α : Type} {t : Setting α} {toItems : Prop} {below : List Layer}

/-- What is read of a merged table is read of the topmost table, and lists are not read at all
where their items can be assigned to. -/
structure ReadsOwn (t : Setting α) (toItems : Prop) : Prop where
  empty : t.read (.table []) = none
  tables : ∀ {own merged : List (String × Value)} {a : α}, own ≠ [] →
    NamesWithin (.table own) (.table merged) → t.read (.table merged) = some a →
      t.read (.table own) = some a
  lists : toItems → ∀ items, t.read (.list items) = none

theorem ReadsOwn.ofScalar (tables : ∀ entries, t.read (.table entries) = none)
    (lists : ∀ items, t.read (.list items) = none) : t.ReadsOwn True where
  empty := tables []
  tables _ _ h := by rw [tables] at h; cases h
  lists _ := lists

/-- A table within one of a single entry has that name alone. -/
theorem exists_eq_singleton {own : List (String × Value)} {name : String} {v : Value}
    (nonempty : own ≠ []) (names : NamesWithin (.table own) (.table [(name, v)])) :
    ∃ w, own = [(name, w)] := by
  have only : ∀ entry ∈ own, entry.1 = name := fun entry h =>
    List.mem_singleton.1 (names.subset (List.mem_map_of_mem h))
  have nodup : (own.map (·.1)).Nodup := names.nodup
  cases own with
  | nil => exact absurd rfl nonempty
  | cons first rest =>
    obtain rfl : first.1 = name := only first List.mem_cons_self
    cases rest with
    | nil => exact ⟨first.2, rfl⟩
    | cons second rest =>
      have same : second.1 = first.1 := only second (by simp)
      simp [same] at nodup

/-- A kind that is named by a merged table of one entry is named by the topmost one. -/
theorem readsOwn_kind : kind.ReadsOwn True where
  empty := rfl
  lists _ _ := rfl
  tables := by
    intro own merged a nonempty names h
    match merged with
    | [] => cases h
    | [(name, v)] =>
      obtain ⟨w, rfl⟩ := exists_eq_singleton nonempty names
      exact h
    | _ :: _ :: _ => cases h

theorem readsOwn_tiers : tiers.ReadsOwn False where
  empty := by simp [tiers, BackendSettings.tiers?]
  tables _ _ h := by simp [tiers, BackendSettings.tiers?] at h
  lists h := h.elim

theorem ReadsOwn.of_follows (reads : t.ReadsOwn toItems) {below own merged : Value} {r : Option α}
    (h : Follows toItems below own merged) (read : optional t.read merged = some r) :
    optional t.read (if own.isGiven then own else below) = some r := by
  cases h with
  | unset => exact read
  | empty =>
    rw [if_neg (by simp [Value.isGiven])]
    cases below with
    | null =>
      have unread : optional t.read (.table []) = none := congrArg (Option.map some) reads.empty
      rw [show Value.null.orTable = .table [] from rfl, unread] at read
      cases read
    | _ => exact read
  | leaf h =>
    cases own with
    | null | table => cases h
    | _ => exact read
  | @tables own merged nonempty names =>
    obtain ⟨a, value, rfl⟩ := Option.map_eq_some_iff.1 read
    cases own with
    | nil => exact absurd rfl nonempty
    | cons entry rest =>
      exact congrArg (Option.map some) (reads.tables nonempty names value)
  | @lists own merged h =>
    have unread : optional t.read (.list merged) = none :=
      congrArg (Option.map some) (reads.lists h merged)
    rw [unread] at read
    cases read

end Setting

/-! ### Layers over each other -/

theorem mem_assignmentsTo_of_mem {table : String} {layer : Layer} {below : List Layer}
    (h : layer ∈ below) {a : Assignment} (ha : a ∈ assignmentsTo table [layer]) :
    a ∈ assignmentsTo table below := by
  obtain ⟨b, hb, inside⟩ := List.mem_flatMap.1 ha
  obtain ⟨entry, he, rfl⟩ := List.mem_map.1 hb
  rw [List.flatten_singleton] at he
  exact List.mem_flatMap.2
    ⟨_, List.mem_map.2 ⟨entry, List.mem_flatten.2 ⟨layer, h, he⟩, rfl⟩, inside⟩

theorem mem_assignmentsIn_of_mem {table name : String} {layer : Layer} {below : List Layer}
    (h : layer ∈ below) {a : Assignment} (ha : a ∈ assignmentsIn table name [layer]) :
    a ∈ assignmentsIn table name below := by
  obtain ⟨b, hb, inside⟩ := List.mem_flatMap.1 ha
  exact List.mem_flatMap.2 ⟨b, mem_assignmentsTo_of_mem h hb, inside⟩

namespace Setting

variable {α : Type} {t : Setting α} {toItems : Prop} {below : List Layer}

/-- **What is read of the merged layers is read of the highest one that sets the setting.** -/
theorem ReadsOwn.highest (reads : t.ReadsOwn toItems)
    (noNull : ∀ layer ∈ below, ∀ entry ∈ layer, ¬ entry.2.hasNull)
    (items : ∀ a ∈ assignmentsIn t.table t.name below, a.isToItem → toItems) {r : Option α}
    (read : optional t.read (settingOf t.table t.name below) = some r) :
    optional t.read (Value.highest (below.map fun layer => settingOf t.table t.name [layer])) =
      some r := by
  induction below using List.reverseRecOn with
  | nil => exact read
  | append_singleton below layer ih =>
    have here : layer ∈ below ++ [layer] := List.mem_append_right below (List.mem_singleton_self layer)
    have follows : Follows toItems (settingOf t.table t.name below)
        (settingOf t.table t.name [layer]) (settingOf t.table t.name (below ++ [layer])) :=
      follows_layer
        (fun a ha => noNull_of_mem_assignmentsIn
          (fun document hd => noNull document (List.mem_singleton.1 hd ▸ here)) ha)
        (fun a ha => items a (mem_assignmentsIn_of_mem here ha)) below
    have own := reads.of_follows follows read
    rw [List.map_append, List.map_singleton, Value.highest_concat]
    by_cases given : (settingOf t.table t.name [layer]).isGiven
    · rw [if_pos given] at own ⊢
      exact own
    · rw [if_neg given] at own ⊢
      refine ih (fun layer h => noNull layer (List.mem_append_left _ h)) (fun a ha => items a ?_) own
      rw [assignmentsIn_append]
      exact List.mem_append_left _ ha

end Setting

/-! ### Settings that are decided -/

namespace Setting

variable {α β : Type} {t : Setting α} {toItems : Prop} {below : List Layer}

theorem value_eq {layer : Layer} (h : ∀ a ∈ assignmentsTo t.table [layer], a.isToNames) :
    t.value layer = settingOf t.table t.name [layer] :=
  setting_merge h t.name

/-- A field of a draft holds a setting: options change the field as they say, and it is filled with
what is read. -/
structure Fills (t : Setting α) (toItems : Prop) (g : Draft → β) (fill : Option α → β) : Prop where
  table : t.table ∈ tableNames
  reads : t.ReadsOwn toItems
  overridden : ∀ d o, g (d.override o) =
    match t.override? o with
    | some a => fill (some a)
    | none => g d

namespace Fills

variable {g : Draft → β} {fill : Option α → β}

/-- Of some options the last one for a setting counts. -/
theorem foldl_override (h : t.Fills toItems g fill) (d : Draft) (overrides : List Override) :
    g (overrides.foldl Draft.override d) =
      match (overrides.filterMap t.override?).getLast? with
      | some a => fill (some a)
      | none => g d := by
  induction overrides using List.reverseRecOn with
  | nil => rfl
  | append_singleton overrides o ih =>
    rw [List.foldl_concat, h.overridden, List.filterMap_append]
    cases given : t.override? o with
    | none => simp [given, ih]
    | some a => simp [given]

/-- What a draft has in a field is decided by the options and the layers, if the draft is read from
the merged layers and the options are applied to it. -/
theorem resolve (h : t.Fills toItems g fill) (plain : Plain below)
    (items : ∀ a ∈ assignmentsIn t.table t.name below, a.isToItem → toItems) {d : Draft}
    (given : ∃ r, optional t.read (((merge below).get t.table).get t.name) = some r ∧ g d = fill r)
    (overrides : List Override) :
    ∃ r, t.resolve below overrides = some r ∧ g (overrides.foldl Draft.override d) = fill r := by
  unfold Setting.resolve
  rw [h.foldl_override]
  cases (overrides.filterMap t.override?).getLast? with
  | some a => exact ⟨some a, rfl, rfl⟩
  | none =>
    obtain ⟨r, read, filled⟩ := given
    rw [setting_merge (plain.tables t.table h.table)] at read
    have values : below.map t.value = below.map fun layer => settingOf t.table t.name [layer] :=
      List.map_congr_left fun layer member =>
        value_eq fun a ha => plain.tables t.table h.table a (mem_assignmentsTo_of_mem member ha)
    refine ⟨r, ?_, filled⟩
    simp only [values]
    exact h.reads.highest plain.noNull items read

/-- The same for a setting that may be left open. -/
theorem resolve_id {g : Draft → Option α} (h : t.Fills True g id) (plain : Plain below) {d : Draft}
    (given : optional t.read (((merge below).get t.table).get t.name) = some (g d))
    (overrides : List Override) :
    t.resolve below overrides = some (g (overrides.foldl Draft.override d)) := by
  obtain ⟨r, resolved, same⟩ := h.resolve plain (fun _ _ _ => trivial) ⟨_, given, rfl⟩ overrides
  rw [resolved, same]
  rfl

end Fills

theorem fills_host : host.Fills True (·.server.host) id where
  table := by decide
  reads := .ofScalar (fun _ => rfl) fun _ => rfl
  overridden d o := by cases o <;> rfl

theorem fills_port : port.Fills True (·.server.port) id where
  table := by decide
  reads := .ofScalar (fun _ => rfl) fun _ => rfl
  overridden d o := by cases o <;> rfl

theorem fills_gracefulShutdown :
    gracefulShutdown.Fills True (·.server.gracefulShutdown) id where
  table := by decide
  reads := .ofScalar (fun _ => rfl) fun _ => rfl
  overridden d o := by cases o <;> rfl

theorem fills_level : level.Fills True (·.logging.level) id where
  table := by decide
  reads := .ofScalar (fun _ => rfl) fun _ => rfl
  overridden d o := by cases o <;> rfl

theorem fills_json : json.Fills True (·.logging.json) id where
  table := by decide
  reads := .ofScalar (fun _ => rfl) fun _ => rfl
  overridden d o := by cases o <;> rfl

theorem fills_kind : kind.Fills True (·.cache.kind) (·.getD .map) where
  table := by decide
  reads := readsOwn_kind
  overridden d o := by
    cases o with
    | cache o => cases o <;> rfl
    | _ => rfl

theorem fills_number (f : CacheNumber) : (number f).Fills True (f.of ·.cache) id where
  table := fills_kind.table
  reads := .ofScalar (fun _ => rfl) fun _ => rfl
  overridden d o := by
    cases o with
    | cache o => cases f <;> cases o <;> rfl
    | _ => cases f <;> rfl

theorem fills_tiers : tiers.Fills False (·.cache.tiers) (·.getD []) where
  table := by decide
  reads := readsOwn_tiers
  overridden d o := by
    cases o with
    | cache o => cases o <;> rfl
    | _ => rfl

end Setting

theorem logging_of_check {draft : LoggingDraft} {logging : LoggingSettings}
    (h : Settings.checkLogging draft = .ok logging) :
    Level.parse? (draft.level.getD Level.info.name) = some logging.level ∧
      logging.format = if draft.json.getD false then .json else .compact := by
  unfold Settings.checkLogging at h
  split at h
  · cases h
  · next level parsed =>
    cases h
    exact ⟨parsed, rfl⟩

/-- Every one of the settings is decided by the options and the layers, and by its default where
these say nothing. -/
structure Settings.Reflects (below : List Layer) (overrides : List Override) (s : Settings) :
    Prop where
  address : ∃ host port, Setting.host.resolve below overrides = some host ∧
    Setting.port.resolve below overrides = some port ∧
    Net.Address.parse? s!"{host.getD defaultHost}:{port.getD defaultPort}" = some s.server.address
  gracefulShutdown : ∃ seconds, Setting.gracefulShutdown.resolve below overrides = some seconds ∧
    s.server.gracefulShutdown = .ofSeconds (seconds.getD defaultGracefulShutdown)
  level : ∃ level, Setting.level.resolve below overrides = some level ∧
    Level.parse? (level.getD Level.info.name) = some s.logging.level
  format : ∃ json, Setting.json.resolve below overrides = some json ∧
    s.logging.format = if json.getD false then .json else .compact
  kind : ∃ kind, Setting.kind.resolve below overrides = some kind ∧ s.cache.kind = kind.getD .map
  number : ∀ f, (Setting.number f).resolve below overrides = some (f.of s.cache)
  tiers : ∃ tiers, Setting.tiers.resolve below overrides = some tiers ∧
    s.cache.tiers = tiers.getD []

/-- The settings of a draft that is read from plain layers and passes its checks are decided. -/
theorem reflects_of_ofDraft {below : List Layer} {overrides : List Override} {d : Draft}
    {s : Settings} (plain : Plain below) (read : Draft.ofValue? (merge below) = some d)
    (h : Settings.ofDraft (overrides.foldl Draft.override d) = .ok s) :
    s.Reflects below overrides := by
  have told := Draft.readFrom_of_ofValue? read (isSection_merge below) fun table ht =>
    isSection_get_merge (plain.tables table ht)
  obtain ⟨server, logging, -, cache⟩ := parts_of_ofDraft h
  obtain ⟨address, shutdown, -, -⟩ := server_of_check server
  obtain ⟨level, format⟩ := logging_of_check logging
  constructor
  case address =>
    exact ⟨_, _, Setting.fills_host.resolve_id plain told.host overrides,
      Setting.fills_port.resolve_id plain told.port overrides, address⟩
  case gracefulShutdown =>
    exact ⟨_, Setting.fills_gracefulShutdown.resolve_id plain told.gracefulShutdown overrides,
      shutdown⟩
  case level => exact ⟨_, Setting.fills_level.resolve_id plain told.level overrides, level⟩
  case format => exact ⟨_, Setting.fills_json.resolve_id plain told.json overrides, format⟩
  case kind =>
    rw [cache]
    exact Setting.fills_kind.resolve plain (fun _ _ _ => trivial) told.kind overrides
  case number =>
    intro f
    rw [cache]
    exact (Setting.fills_number f).resolve_id plain (told.number f) overrides
  case tiers =>
    rw [cache]
    exact Setting.fills_tiers.resolve plain plain.tiers told.tiers overrides

/-! ### Settings beside each other -/

/-- The name of a table of settings is a path of one name. -/
theorem ofEntry_table {table : String} (h : table ∈ tableNames) (v : Value) :
    Assignment.ofEntry (table, v) = ⟨[.name table], v⟩ := by
  simp only [tableNames, List.mem_cons, List.not_mem_nil, or_false] at h
  have path : Path.parse? table = some ⟨table, []⟩ := by
    rcases h with rfl | rfl | rfl <;> decide +kernel
  rw [Assignment.ofEntry, path]
  rfl

/-- **A setting does not depend on others**: a layer that sets something else as well has the same
value for the setting. -/
theorem value_append_other {α : Type} (t : Setting α) {layer : Layer} {table name : String}
    (ht : table ∈ tableNames) (other : (table, name) ≠ (t.table, t.name))
    (h : ∀ a ∈ assignmentsTo t.table [layer], a.isToNames) (v : Value) :
    t.value (layer ++ [(table, .table [(name, v)])]) = t.value layer := by
  have added : assignmentsTo t.table [layer ++ [(table, .table [(name, v)])]] =
      assignmentsTo t.table [layer] ++
        if table = t.table then [⟨[], .table [(name, v)]⟩] else [] := by
    simp only [assignmentsTo, assignments, List.flatten_singleton, List.map_append,
      List.flatMap_append, List.map_singleton, List.flatMap_singleton, ofEntry_table ht]
    rfl
  have toNames : ∀ a ∈ assignmentsTo t.table [layer ++ [(table, .table [(name, v)])]],
      a.isToNames := by
    intro a ha
    rw [added, List.mem_append] at ha
    rcases ha with old | new
    · exact h a old
    · split at new
      · rw [List.mem_singleton.1 new]
        rfl
      · cases new
  have nothing : (if table = t.table then [⟨[], .table [(name, v)]⟩] else []).flatMap
      (Assignment.inside t.name) = [] := by
    split
    · next same =>
      have different : name ≠ t.name := fun same' => other (by rw [same, same'])
      simp [Assignment.inside, different]
    · rfl
  rw [Setting.value_eq toNames, Setting.value_eq h, settingOf, settingOf, assignmentsIn, added,
    List.flatMap_append, nothing, List.append_nil, assignmentsIn]

/-! ### Loading -/

variable {files : Files} {environment : List (String × String)} {invocation : Invocation}

/-- The layers are, from the bottom up, the default file, the local file, the file that is asked
for, if any, and the environment. -/
theorem eq_of_layers {configFile : Option String} {below : List Layer}
    (h : layers files environment configFile = .ok below) :
    ∃ standard here asked, fileLayer files "config/default" false = .ok standard ∧
      fileLayer files "repcache" false = .ok here ∧
      (configFile = none ∧ asked = [] ∨
        ∃ name, configFile = some name ∧ fileLayer files name true = .ok asked) ∧
      below = [standard, here, asked, environmentLayer environment] := by
  unfold layers at h
  cases standard : fileLayer files defaultFile false with
  | error e => rw [standard] at h; cases h
  | ok standard' =>
    cases here : fileLayer files localFile false with
    | error e => rw [standard, here] at h; cases h
    | ok here' =>
      rw [standard, here] at h
      cases configFile with
      | none =>
        cases h
        exact ⟨standard', here', [], standard, here, Or.inl ⟨rfl, rfl⟩, rfl⟩
      | some name =>
        cases asked : fileLayer files name true with
        | error e => simp only [asked] at h; cases h
        | ok asked' =>
          simp only [asked] at h
          cases h
          exact ⟨standard', here', asked', standard, here, Or.inr ⟨name, rfl, asked⟩, rfl⟩

/-- **Every setting is decided by itself, by the highest layer that sets it.** Where the layers are
plain, the settings that load are what options and layers say of each of them, and their defaults
where these say nothing; setting something else changes no setting; and values that cannot be read
or are not valid give an error. -/
theorem settings_of_layers {below : List Layer}
    (read : layers files environment invocation.configFile = .ok below) (plain : Plain below) :
    (∃ standard here asked, fileLayer files "config/default" false = .ok standard ∧
        fileLayer files "repcache" false = .ok here ∧
        (invocation.configFile = none ∧ asked = [] ∨
          ∃ name, invocation.configFile = some name ∧ fileLayer files name true = .ok asked) ∧
        below = [standard, here, asked, environmentLayer environment]) ∧
      (∀ s, load files environment invocation = .ok s → s.Reflects below invocation.overrides) ∧
      (∀ {α : Type} (t : Setting α), t.table ∈ tableNames → ∀ layer ∈ below,
        ∀ table ∈ tableNames, ∀ name v, (table, name) ≠ (t.table, t.name) →
          t.value (layer ++ [(table, .table [(name, v)])]) = t.value layer) ∧
      (draft? below invocation = none → load files environment invocation = .error .illTyped) ∧
      ∀ d e, draft? below invocation = some d → Settings.ofDraft d = .error e →
        load files environment invocation = .error e := by
  have loading := load_of_layers read
  refine ⟨eq_of_layers read, fun s h => ?_, fun t table layer member other ht name v different => ?_,
    fun unread => ?_, fun d e draft failed => ?_⟩
  · obtain ⟨below', d, read', draft, checked⟩ := draft_of_load h
    obtain rfl : below = below' := Except.ok.inj (read.symm.trans read')
    obtain ⟨d', read, rfl⟩ := Option.map_eq_some_iff.1 draft
    exact reflects_of_ofDraft plain read checked
  · exact value_append_other t ht different
      (fun a ha => plain.tables t.table table a (mem_assignmentsTo_of_mem member ha)) v
  · rw [loading, unread]
  · rw [loading, draft]
    exact failed

/-! ### Examples -/

/-- Files for three layers. -/
def layeredFiles : Files := [
  ("config/default.toml", "[server]\nhost = \"0.0.0.0\"\nport = 1\n\n[cache]\ntype = \"none\"\n"),
  ("repcache.toml", "[server]\nport = 2\n\n[logging]\nlevel = \"warn\"\n"),
  ("other.toml", "[server]\ngraceful_shutdown_seconds = 4\n")]

/-- A variable that sets the port. -/
def portVariable : List (String × String) := [("REPCACHE__SERVER__PORT", "3")]

/-- The invocation that asks for the third file and sets the kind of the cache. -/
def askOther : Invocation := ⟨some "other.toml", some ⟨.checkConfig, [.cache (.kind .map)]⟩⟩

/-- The host is set by the default file, the level by the local file, the time of a shutdown by the
file that is asked for, the port by the environment, and the kind on the command line. -/
theorem settings_of_layeredFiles : ∃ below s,
    layers layeredFiles portVariable askOther.configFile = .ok below ∧
      load layeredFiles portVariable askOther = .ok s ∧ s.Reflects below askOther.overrides ∧
      s.server.address.port = 3 ∧ s.server.gracefulShutdown.seconds = 4 ∧
      s.logging.level = .warn ∧ s.cache.kind = .map := by
  obtain ⟨below, read, plain⟩ :
      ∃ below, layers layeredFiles portVariable askOther.configFile = .ok below ∧ Plain below := by
    decide +kernel
  obtain ⟨s, loaded, facts⟩ : ∃ s, load layeredFiles portVariable askOther = .ok s ∧
      s.server.address.port = 3 ∧ s.server.gracefulShutdown.seconds = 4 ∧
        s.logging.level = .warn ∧ s.cache.kind = .map := by
    decide +kernel
  exact ⟨below, s, read, loaded, (settings_of_layers read plain).2.1 s loaded, facts⟩

/-- Files for three layers, of which the second has a number in the place of a table. -/
def overwrittenTable : Files := [
  ("config/default.toml", "[server]\ngraceful_shutdown_seconds = 5\n"),
  ("repcache.toml", "server = 7\n"),
  ("other.toml", "[server]\nport = 80\n")]

/-- **Where a layer gives no table for a table of settings, settings are lost**: only the default
file sets the time of a shutdown, and yet the time is the default. -/
theorem load_overwrittenTable : ∃ below s,
    layers overwrittenTable [] askOther.configFile = .ok below ∧
      (∀ layer ∈ below, ∀ entry ∈ layer, ¬ entry.2.hasNull) ∧
      load overwrittenTable [] askOther = .ok s ∧
      Setting.gracefulShutdown.resolve below askOther.overrides = some (some 5) ∧
      s.server.gracefulShutdown.seconds = 30 ∧ ¬ s.Reflects below askOther.overrides := by
  obtain ⟨below, read, noNull, resolved⟩ :
      ∃ below, layers overwrittenTable [] askOther.configFile = .ok below ∧
        (∀ layer ∈ below, ∀ entry ∈ layer, ¬ entry.2.hasNull) ∧
          Setting.gracefulShutdown.resolve below askOther.overrides = some (some 5) := by
    decide +kernel
  obtain ⟨s, loaded, shutdown⟩ :
      ∃ s, load overwrittenTable [] askOther = .ok s ∧ s.server.gracefulShutdown.seconds = 30 := by
    decide +kernel
  refine ⟨below, s, read, noNull, loaded, resolved, shutdown, fun reflects => ?_⟩
  obtain ⟨seconds, resolved', same⟩ := reflects.gracefulShutdown
  obtain rfl := Option.some.inj (resolved.symm.trans resolved')
  rw [same] at shutdown
  cases shutdown

/-- A file with two tiers, and one that sets the period of the first tier by its number. -/
def tierByNumber : Files := [
  ("config/default.toml", "[cache]\ntype = \"tiered\"\n\n[[cache.tiers]]\ntype = \"map\"\n" ++
    "prune_frequency = 30\n\n[[cache.tiers]]\ntype = \"map\"\n"),
  ("repcache.toml", "\"cache.tiers[0].prune_frequency\" = 5\n")]

/-- **A tier that is given by its number changes the tiers of a lower layer** and does not replace
them: the layer that gives it has one tier, and two are loaded. -/
theorem load_tierByNumber : ∃ below s,
    layers tierByNumber [] none = .ok below ∧
      (∀ layer ∈ below, ∀ entry ∈ layer, ¬ entry.2.hasNull) ∧
      load tierByNumber [] ⟨none, none⟩ = .ok s ∧
      (∃ tiers, Setting.tiers.resolve below [] = some (some tiers) ∧ tiers.length = 1) ∧
      s.cache.tiers.length = 2 := by
  obtain ⟨below, read, noNull, lengths⟩ : ∃ below, layers tierByNumber [] none = .ok below ∧
      (∀ layer ∈ below, ∀ entry ∈ layer, ¬ entry.2.hasNull) ∧
        ((Setting.tiers.resolve below []).map (·.map List.length)) = some (some 1) := by
    decide +kernel
  obtain ⟨s, loaded, two⟩ :
      ∃ s, load tierByNumber [] ⟨none, none⟩ = .ok s ∧ s.cache.tiers.length = 2 := by
    decide +kernel
  obtain ⟨resolved, given, lengths⟩ := Option.map_eq_some_iff.1 lengths
  obtain ⟨tiers, rfl, one⟩ := Option.map_eq_some_iff.1 lengths
  exact ⟨below, s, read, noNull, loaded, ⟨tiers, given, one⟩, two⟩

end VariantCache.Configuration
