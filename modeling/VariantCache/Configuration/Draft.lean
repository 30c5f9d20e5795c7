import VariantCache.Configuration.Conversion

/-!
# Settings as they are given

A draft holds what was said about each setting, or that nothing was said. It is
read from a document, and settings of a command line replace those in it.
-/

namespace VariantCache.Configuration

open Document

/-- What was said about the server. -/
structure ServerDraft where
  host : Option String
  port : Option Nat
  /-- The seconds that a shutdown may take. -/
  gracefulShutdown : Option Nat

/-- What was said about the log. -/
structure LoggingDraft where
  level : Option String
  /-- Whether the log is written in JSON. -/
  json : Option Bool

/-- What was said about each setting. -/
structure Draft where
  server : ServerDraft
  logging : LoggingDraft
  cache : BackendSettings

/-! ### Reading a document -/

/-- The values of a table by name. A list gives values to the names in their order. -/
def fields? (names : List String) : Value → Option (String → Option Value)
  | .table entries => some (Value.lookup? entries)
  | .list items => some (Value.lookup? (names.zip items))
  | _ => none

/-- A setting that may be missing. -/
def setting? {α : Type} (field : String → Option Value) (name : String) (read : Value → Option α) :
    Option (Option α) :=
  match field name with
  | none => some none
  | some v => optional read v

/-- A table that may be missing. -/
def section? {α : Type} (field : String → Option Value) (name : String) (missing : α)
    (read : Value → Option α) : Option α :=
  match field name with
  | none => some missing
  | some v => read v

namespace ServerDraft

/-- Nothing was said. -/
def empty : ServerDraft := ⟨none, none, none⟩

/-- Reads the table of the server. -/
def ofValue? (v : Value) : Option ServerDraft := do
  let field ← fields? ["host", "port", "graceful_shutdown_seconds"] v
  let host ← setting? field "host" textOf?
  let port ← setting? field "port" (naturalOf? Natural.max16)
  let gracefulShutdown ← setting? field "graceful_shutdown_seconds" (naturalOf? Natural.max64)
  return { host, port, gracefulShutdown }

end ServerDraft

namespace LoggingDraft

/-- Nothing was said. -/
def empty : LoggingDraft := ⟨none, none⟩

/-- Reads the table of the log. -/
def ofValue? (v : Value) : Option LoggingDraft := do
  let field ← fields? ["level", "json"] v
  let level ← setting? field "level" textOf?
  let json ← setting? field "json" boolOf?
  return { level, json }

end LoggingDraft

namespace Draft

/-- Reads a document. -/
def ofValue? (v : Value) : Option Draft := do
  let field ← fields? ["server", "logging", BackendSettings.tableName] v
  let server ← section? field "server" .empty ServerDraft.ofValue?
  let logging ← section? field "logging" .empty LoggingDraft.ofValue?
  let cache ← section? field BackendSettings.tableName .standard
    (BackendSettings.ofValue? .lenient)
  return { server, logging, cache }

end Draft

/-! ### Overrides -/

/-- A setting of the cache on a command line. -/
inductive CacheOverride where
  | kind (kind : BackendKind)
  | maxSize (bytes : Nat)
  | averageSize (bytes : Nat)
  | pruneFrequency (seconds : Nat)
  | writeBuffer (count : Nat)

/-- A setting on a command line. -/
inductive Override where
  | cache (override : CacheOverride)
  | host (host : String)
  | port (port : Nat)
  | gracefulShutdown (seconds : Nat)
  | level (level : String)
  | json (json : Bool)

/-- The settings of the cache after one of them is replaced. -/
def BackendSettings.override (s : BackendSettings) : CacheOverride → BackendSettings
  | .kind kind => { s with kind }
  | .maxSize bytes => { s with maxSize := bytes }
  | .averageSize bytes => { s with averageSize := bytes }
  | .pruneFrequency seconds => { s with pruneFrequency := seconds }
  | .writeBuffer count => { s with writeBuffer := count }

/-- The draft after a setting is replaced. -/
def Draft.override (d : Draft) : Override → Draft
  | .cache override => { d with cache := d.cache.override override }
  | .host host => { d with server := { d.server with host } }
  | .port port => { d with server := { d.server with port } }
  | .gracefulShutdown seconds => { d with server := { d.server with gracefulShutdown := seconds } }
  | .level level => { d with logging := { d.logging with level } }
  | .json json => { d with logging := { d.logging with json } }

end VariantCache.Configuration
