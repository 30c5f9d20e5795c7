import VariantCache.Configuration.Draft
import VariantCache.Proofs.Document.Overlay

/-!
# Drafts and the values they are read from

A draft is read section by section and entry by entry. What it says about a setting is what the
value of the setting's name says, where the sections are tables with one value for each name
(`Draft.readFrom_of_ofValue?`). The table of the cache is read in the order of its entries; that
does not matter as no two have one name (`BackendSettings.field_of_ofEntries?`).
-/

namespace VariantCache.Configuration

open Document

/-! ### The table of the cache -/

/-- The settings of the cache that are numbers. -/
inductive CacheNumber where
  | maxSize
  | averageSize
  | pruneFrequency
  | writeBuffer
  deriving DecidableEq

namespace CacheNumber

/-- The name of the setting. -/
def name : CacheNumber → String
  | maxSize => "max_size"
  | averageSize => "average_size"
  | pruneFrequency => "prune_frequency"
  | writeBuffer => "write_buffer"

/-- What the setting is, if it is given. -/
def of (s : BackendSettings) : CacheNumber → Option Nat
  | maxSize => s.maxSize
  | averageSize => s.averageSize
  | pruneFrequency => s.pruneFrequency
  | writeBuffer => s.writeBuffer

/-- The settings with another number. -/
def set (s : BackendSettings) (n : Option Nat) : CacheNumber → BackendSettings
  | maxSize => { s with maxSize := n }
  | averageSize => { s with averageSize := n }
  | pruneFrequency => { s with pruneFrequency := n }
  | writeBuffer => { s with writeBuffer := n }

theorem name_inj {f g : CacheNumber} (h : f.name = g.name) : f = g := by
  cases f <;> cases g <;> first | rfl | exact absurd h (by decide)

theorem name_mem_names (f : CacheNumber) : f.name ∈ BackendSettings.names := by
  cases f <;> decide

theorem name_ne (f : CacheNumber) : f.name ≠ "type" ∧ f.name ≠ "tiers" := by
  cases f <;> decide

theorem of_set_self (f : CacheNumber) (s : BackendSettings) (n : Option Nat) :
    f.of (f.set s n) = n := by
  cases f <;> rfl

theorem of_set_of_ne {f g : CacheNumber} (h : g ≠ f) (s : BackendSettings) (n : Option Nat) :
    f.of (g.set s n) = f.of s := by
  cases f <;> cases g <;> first | rfl | exact absurd rfl h

theorem kind_set (f : CacheNumber) (s : BackendSettings) (n : Option Nat) :
    (f.set s n).kind = s.kind := by
  cases f <;> rfl

theorem tiers_set (f : CacheNumber) (s : BackendSettings) (n : Option Nat) :
    (f.set s n).tiers = s.tiers := by
  cases f <;> rfl

end CacheNumber

namespace BackendSettings

/-- The settings after one entry of a table is read. -/
def readEntry (s : BackendSettings) (entry : String × Value) : Option BackendSettings :=
  if entry.1 = "tiers" then (tiers? .lenient entry.2).map ({ s with tiers := · })
  else s.setScalar? .lenient entry.1 entry.2

theorem ofEntries?_eq (s : BackendSettings) (entries : List (String × Value)) :
    ofEntries? .lenient s entries = entries.foldlM readEntry s := by
  induction entries generalizing s with
  | nil => rw [ofEntries?]; rfl
  | cons entry rest ih =>
    obtain ⟨name, v⟩ := entry
    rw [ofEntries?, List.foldlM_cons, readEntry]
    split
    · cases tiers? .lenient v with
      | none => rfl
      | some tiers => exact ih _
    · cases s.setScalar? .lenient name v with
      | none => rfl
      | some t => exact ih t

/-- What reading an entry does: it changes the setting of its name, or nothing. -/
inductive EntryRead (s : BackendSettings) : String × Value → BackendSettings → Prop where
  | kind {v : Value} {kind : BackendKind} (h : kindOf? v = some kind) :
    EntryRead s ("type", v) { s with kind }
  | number (f : CacheNumber) {v : Value} {n : Option Nat}
    (h : optional (naturalOf? Natural.max64) v = some n) : EntryRead s (f.name, v) (f.set s n)
  | tiers {v : Value} {tiers : List BackendSettings} (h : tiers? .lenient v = some tiers) :
    EntryRead s ("tiers", v) { s with tiers }
  | other {name : String} {v : Value} (h : name ∉ names) : EntryRead s (name, v) s

theorem entryRead_of_readEntry {s t : BackendSettings} {entry : String × Value}
    (h : s.readEntry entry = some t) : EntryRead s entry t := by
  obtain ⟨name, v⟩ := entry
  unfold readEntry at h
  split at h
  · next tiers =>
    obtain rfl : name = "tiers" := tiers
    obtain ⟨read, value, rfl⟩ := Option.map_eq_some_iff.1 h
    exact .tiers value
  next noTiers =>
  unfold setScalar? at h
  simp only at h
  split at h
  · obtain ⟨read, value, rfl⟩ := Option.map_eq_some_iff.1 h
    exact .kind value
  · obtain ⟨read, value, rfl⟩ := Option.map_eq_some_iff.1 h
    exact .number .maxSize value
  · obtain ⟨read, value, rfl⟩ := Option.map_eq_some_iff.1 h
    exact .number .averageSize value
  · obtain ⟨read, value, rfl⟩ := Option.map_eq_some_iff.1 h
    exact .number .pruneFrequency value
  · obtain ⟨read, value, rfl⟩ := Option.map_eq_some_iff.1 h
    exact .number .writeBuffer value
  · next h₁ h₂ h₃ h₄ h₅ =>
    obtain rfl := Option.some.inj h
    exact .other (by simp_all [names])

variable {β : Type} {name : String} {read : Value → Option β} {field : BackendSettings → β}

/-- A field that is read from the entries of one name, and by no others, is what the value of that
name says, if there is one. -/
theorem field_of_ofEntries?
    (own : ∀ {s t entry}, entry.1 = name → EntryRead s entry t → read entry.2 = some (field t))
    (others : ∀ {s t entry}, entry.1 ≠ name → EntryRead s entry t → field t = field s)
    {s t : BackendSettings} {entries : List (String × Value)} (nodup : (entries.map (·.1)).Nodup)
    (h : entries.foldlM readEntry s = some t) :
    match Value.lookup? entries name with
    | none => field t = field s
    | some v => read v = some (field t) := by
  induction entries generalizing s with
  | nil =>
    obtain rfl := Option.some.inj h
    rfl
  | cons entry rest ih =>
    rw [List.foldlM_cons, Option.bind_eq_bind, Option.bind_eq_some_iff] at h
    obtain ⟨next, first, h⟩ := h
    rw [List.map_cons, List.nodup_cons] at nodup
    have after := ih nodup.2 h
    by_cases same : entry.1 = name
    · have none : Value.lookup? rest name = none := by
        rw [Value.lookup?, Option.map_eq_none_iff, List.find?_eq_none]
        intro other member equal
        rw [same] at nodup
        exact nodup.1 (List.mem_map.2 ⟨other, member, eq_of_beq equal⟩)
      have found : Value.lookup? (entry :: rest) name = some entry.2 := by
        rw [Value.lookup?, List.find?_cons_of_pos (by simp [same])]
        rfl
      rw [none] at after
      rw [found]
      simp only at after ⊢
      rw [after]
      exact own same (entryRead_of_readEntry first)
    · have skipped : Value.lookup? (entry :: rest) name = Value.lookup? rest name := by
        rw [Value.lookup?, List.find?_cons_of_neg (by simp [same]), Value.lookup?]
      rw [skipped, ← others same (entryRead_of_readEntry first)]
      exact after

end BackendSettings

/-! ### Values of names -/

section Names

variable {α : Type} {entries : List (String × Value)} {name : String} {read : Value → Option α}

/-- A setting that may be missing is read from the value of its name. -/
theorem setting?_eq (entries : List (String × Value)) (name : String) (read : Value → Option α) :
    setting? (Value.lookup? entries) name read = optional read ((Value.table entries).get name) := by
  unfold setting? Value.get Value.entries
  cases Value.lookup? entries name <;> rfl

/-- What is read by name, or else left at a default, is what the value of the name says. -/
theorem optional_of_lookup? {x default : α} (nothing : read .null = none)
    (h : match Value.lookup? entries name with
      | none => x = default
      | some v => read v = some x) :
    ∃ r, optional read ((Value.table entries).get name) = some r ∧ x = r.getD default := by
  unfold Value.get Value.entries
  cases found : Value.lookup? entries name with
  | none =>
    rw [found] at h
    exact ⟨none, rfl, h⟩
  | some v =>
    rw [found] at h
    simp only at h
    refine ⟨some x, ?_, rfl⟩
    cases v with
    | null => rw [nothing] at h; cases h
    | _ => exact congrArg (Option.map some) h

/-- What is read by name and may be nothing is what the value of the name says. -/
theorem optional_of_lookup?_none {x : Option α}
    (h : match Value.lookup? entries name with
      | none => x = none
      | some v => optional read v = some x) :
    optional read ((Value.table entries).get name) = some x := by
  unfold Value.get Value.entries
  cases found : Value.lookup? entries name with
  | none =>
    rw [found] at h
    exact congrArg some h.symm
  | some v =>
    rw [found] at h
    exact h

/-- How a section comes about: it is missing and has its default, or it is read from a table with
one value for each name. -/
inductive SectionRead (read : Value → Option α) (default : α) : Value → α → Prop where
  | missing : SectionRead read default .null default
  | table {inner : List (String × Value)} {x : α} (nodup : (inner.map (·.1)).Nodup)
    (h : read (.table inner) = some x) : SectionRead read default (.table inner) x

theorem sectionRead_of_section? {x default : α} (nothing : read .null = none)
    (h : section? (Value.lookup? entries) name default read = some x)
    (isSection : ((Value.table entries).get name).IsSection) :
    SectionRead read default ((Value.table entries).get name) x := by
  unfold section? at h
  unfold Value.get Value.entries at *
  cases found : Value.lookup? entries name with
  | none =>
    rw [found] at h
    obtain rfl := Option.some.inj h
    exact .missing
  | some v =>
    rw [found] at h isSection
    simp only [Option.getD_some] at h isSection ⊢
    cases isSection with
    | null => rw [nothing] at h; cases h
    | table nodup => exact .table nodup h

end Names

/-! ### Drafts -/

/-- What a draft says of every setting is what the value of the setting says, by its table and its
name. -/
structure Draft.ReadFrom (valueOf : String → String → Value) (d : Draft) : Prop where
  host : optional textOf? (valueOf "server" "host") = some d.server.host
  port : optional (naturalOf? Natural.max16) (valueOf "server" "port") = some d.server.port
  gracefulShutdown : optional (naturalOf? Natural.max64)
    (valueOf "server" "graceful_shutdown_seconds") = some d.server.gracefulShutdown
  level : optional textOf? (valueOf "logging" "level") = some d.logging.level
  json : optional boolOf? (valueOf "logging" "json") = some d.logging.json
  kind : ∃ kind, optional kindOf? (valueOf "cache" "type") = some kind ∧
    d.cache.kind = kind.getD .map
  number : ∀ f : CacheNumber,
    optional (naturalOf? Natural.max64) (valueOf "cache" f.name) = some (f.of d.cache)
  tiers : ∃ tiers, optional (BackendSettings.tiers? .lenient) (valueOf "cache" "tiers") =
    some tiers ∧ d.cache.tiers = tiers.getD []

theorem server_readFrom {v : Value} {d : ServerDraft}
    (h : SectionRead ServerDraft.ofValue? .empty v d) :
    optional textOf? (v.get "host") = some d.host ∧
      optional (naturalOf? Natural.max16) (v.get "port") = some d.port ∧
      optional (naturalOf? Natural.max64) (v.get "graceful_shutdown_seconds") =
        some d.gracefulShutdown := by
  cases h with
  | missing => exact ⟨rfl, rfl, rfl⟩
  | table _ read =>
    simp only [ServerDraft.ofValue?, fields?, Option.bind_eq_bind, Option.bind_some, setting?_eq,
      Option.bind_eq_some_iff, Option.pure_def, Option.some.injEq] at read
    obtain ⟨host, hostRead, port, portRead, shutdown, shutdownRead, rfl⟩ := read
    exact ⟨hostRead, portRead, shutdownRead⟩

theorem logging_readFrom {v : Value} {d : LoggingDraft}
    (h : SectionRead LoggingDraft.ofValue? .empty v d) :
    optional textOf? (v.get "level") = some d.level ∧
      optional boolOf? (v.get "json") = some d.json := by
  cases h with
  | missing => exact ⟨rfl, rfl⟩
  | table _ read =>
    simp only [LoggingDraft.ofValue?, fields?, Option.bind_eq_bind, Option.bind_some, setting?_eq,
      Option.bind_eq_some_iff, Option.pure_def, Option.some.injEq] at read
    obtain ⟨level, levelRead, json, jsonRead, rfl⟩ := read
    exact ⟨levelRead, jsonRead⟩

namespace BackendSettings

variable {entries : List (String × Value)} {s : BackendSettings}

theorem foldlM_of_ofValue? (h : ofValue? .lenient (.table entries) = some s) :
    entries.foldlM readEntry standard = some s := by
  rwa [ofValue?, ofEntries?_eq] at h

theorem kind_readFrom (nodup : (entries.map (·.1)).Nodup)
    (h : ofValue? .lenient (.table entries) = some s) :
    ∃ kind, optional kindOf? ((Value.table entries).get "type") = some kind ∧
      s.kind = kind.getD .map := by
  refine optional_of_lookup? rfl (field_of_ofEntries? ?_ ?_ nodup (foldlM_of_ofValue? h))
  · intro s t entry same read
    cases read with
    | kind h => exact h
    | number f => exact absurd same f.name_ne.1
    | tiers h => simp at same
    | other h => cases same; exact absurd (by decide) h
  · intro s t entry different read
    cases read with
    | kind h => exact absurd rfl different
    | number f => exact f.kind_set s _
    | tiers | other => rfl

theorem number_readFrom (f : CacheNumber) (nodup : (entries.map (·.1)).Nodup)
    (h : ofValue? .lenient (.table entries) = some s) :
    optional (naturalOf? Natural.max64) ((Value.table entries).get f.name) = some (f.of s) := by
  have standard : f.of standard = none := by cases f <;> rfl
  have field := @field_of_ofEntries? _ f.name (optional (naturalOf? Natural.max64)) f.of ?_ ?_ _ _ _
    nodup (foldlM_of_ofValue? h)
  · rw [standard] at field
    exact optional_of_lookup?_none field
  · intro s t entry same read
    cases read with
    | kind h => exact absurd same.symm f.name_ne.1
    | number g h =>
      obtain rfl := CacheNumber.name_inj same
      rw [CacheNumber.of_set_self]
      exact h
    | tiers h => exact absurd same.symm f.name_ne.2
    | other h => cases same; exact absurd f.name_mem_names h
  · intro s t entry different read
    cases read with
    | number g h =>
      have other : g ≠ f := fun same => different (congrArg CacheNumber.name same)
      exact CacheNumber.of_set_of_ne other s _
    | kind | tiers | other => cases f <;> rfl

theorem tiers_readFrom (nodup : (entries.map (·.1)).Nodup)
    (h : ofValue? .lenient (.table entries) = some s) :
    ∃ tiers, optional (tiers? .lenient) ((Value.table entries).get "tiers") = some tiers ∧
      s.tiers = tiers.getD [] := by
  refine optional_of_lookup? (by simp [tiers?])
    (field_of_ofEntries? ?_ ?_ nodup (foldlM_of_ofValue? h))
  · intro s t entry same read
    cases read with
    | kind h => simp at same
    | number f => exact absurd same f.name_ne.2
    | tiers h => exact h
    | other h => cases same; exact absurd (by decide) h
  · intro s t entry different read
    cases read with
    | tiers h => exact absurd rfl different
    | number f => exact f.tiers_set s _
    | kind | other => rfl

end BackendSettings

theorem cache_readFrom {v : Value} {s : BackendSettings}
    (h : SectionRead (BackendSettings.ofValue? .lenient) .standard v s) :
    (∃ kind, optional kindOf? (v.get "type") = some kind ∧ s.kind = kind.getD .map) ∧
      (∀ f : CacheNumber, optional (naturalOf? Natural.max64) (v.get f.name) = some (f.of s)) ∧
      ∃ tiers, optional (BackendSettings.tiers? .lenient) (v.get "tiers") = some tiers ∧
        s.tiers = tiers.getD [] := by
  cases h with
  | missing => exact ⟨⟨none, rfl, rfl⟩, fun f => by cases f <;> rfl, none, rfl, rfl⟩
  | table nodup read =>
    exact ⟨BackendSettings.kind_readFrom nodup read,
      fun f => BackendSettings.number_readFrom f nodup read,
      BackendSettings.tiers_readFrom nodup read⟩

/-- **A draft says what the values of the settings say**, where the sections are tables. -/
theorem Draft.readFrom_of_ofValue? {v : Value} {d : Draft} (h : Draft.ofValue? v = some d)
    (document : v.IsSection)
    (sections : ∀ table ∈ ["server", "logging", "cache"], (v.get table).IsSection) :
    d.ReadFrom fun table name => (v.get table).get name := by
  cases document with
  | null => cases h
  | @table entries nodup =>
  simp only [Draft.ofValue?, fields?, Option.bind_eq_bind, Option.bind_some,
    Option.bind_eq_some_iff, Option.pure_def, Option.some.injEq] at h
  obtain ⟨server, serverRead, logging, loggingRead, cache, cacheRead, rfl⟩ := h
  obtain ⟨host, port, shutdown⟩ :=
    server_readFrom (sectionRead_of_section? rfl serverRead (sections "server" (by simp)))
  obtain ⟨level, json⟩ :=
    logging_readFrom (sectionRead_of_section? rfl loggingRead (sections "logging" (by simp)))
  have unreadable : BackendSettings.ofValue? .lenient .null = none := by
    simp [BackendSettings.ofValue?]
  obtain ⟨kind, number, tiers⟩ :=
    cache_readFrom (sectionRead_of_section? unreadable cacheRead (sections "cache" (by simp)))
  exact ⟨host, port, shutdown, level, json, kind, number, tiers⟩

end VariantCache.Configuration
