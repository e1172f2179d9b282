import SymbolAtlas.Config.Basic
import SymbolAtlas.Config.Setting

/-!
# Configurations as settings

The configuration that settings give, and the TOML table that a configuration is saved as. Unknown
keys are passed over. Numbers are saved as whole numbers of 64 bits with a sign, so a greater one
cannot be saved, and what is not set is left out.
-/

namespace SymbolAtlas.Config

open Setting

def cacheOfSetting? (s : Setting) : Option CacheSection := do
  let d : CacheSection := {}
  match ← slots? ["max_entries", "eviction_ratio", "default_ttl_secs", "cleanup_interval_secs",
      "disk_dir"] s with
  | [maxEntries, evictionRatio, defaultTtl, cleanupInterval, folder] =>
    return {
      maxEntries := ← orDefault d.maxEntries asNat64? maxEntries
      evictionRatio := ← orDefault d.evictionRatio asFloat? evictionRatio
      defaultTtlSeconds := ← orDefault d.defaultTtlSeconds asNat64? defaultTtl
      cleanupIntervalSeconds := ← orDefault d.cleanupIntervalSeconds asNat64? cleanupInterval
      folder := ← orDefault d.folder (asOptional? asText?) folder }
  | _ => none

def searchOfSetting? (s : Setting) : Option SearchSection := do
  let d : SearchSection := {}
  match ← slots? ["max_results", "case_sensitive", "sort", "prefix", "fuzzy", "regex",
      "min_score"] s with
  | [maxResults, caseSensitive, sort, byPrefix, fuzzy, byPattern, minScore] =>
    return {
      maxResults := ← orDefault d.maxResults asNat64? maxResults
      caseSensitive := ← orDefault d.caseSensitive asBool? caseSensitive
      sort := ← orDefault d.sort asText? sort
      byPrefix := ← orDefault d.byPrefix asBool? byPrefix
      fuzzy := ← orDefault d.fuzzy asBool? fuzzy
      byPattern := ← orDefault d.byPattern asBool? byPattern
      minScore := ← orDefault d.minScore (fun s => s.asFloat?.map Decimal.narrow) minScore }
  | _ => none

def updaterOfSetting? (s : Setting) : Option UpdaterSection := do
  let d : UpdaterSection := {}
  match ← slots? ["debounce_ms", "shutdown_grace_secs", "scan_for_new_files",
      "watch_debounce_ms"] s with
  | [debounce, grace, scan, watchDebounce] =>
    return {
      debounceMillis := ← orDefault d.debounceMillis asNat64? debounce
      graceSeconds := ← orDefault d.graceSeconds asNat64? grace
      scan := ← orDefault d.scan asBool? scan
      watchDebounceMillis := ← orDefault d.watchDebounceMillis asNat64? watchDebounce }
  | _ => none

def collectorOfSetting? (s : Setting) : Option CollectorSection := do
  let d : CollectorSection := {}
  match ← slots? ["extensions", "parallelism", "respect_gitignore"] s with
  | [extensions, parallelism, versionControl] =>
    return {
      extensions := ← orDefault d.extensions asTexts? extensions
      parallelism := ← orDefault d.parallelism (asOptional? asNat64?) parallelism
      versionControl := ← orDefault d.versionControl asBool? versionControl }
  | _ => none

def loggingOfSetting? (s : Setting) : Option LoggingSection := do
  let d : LoggingSection := {}
  match ← slots? ["level"] s with
  | [level] => return { level := ← orDefault d.level asText? level }
  | _ => none

/-- The configuration that settings give, if every value is of a kind that fits. -/
def ofSetting? (s : Setting) : Option Config := do
  let d : Config := {}
  match ← slots? ["cache", "search", "updater", "collector", "logging"] s with
  | [cache, search, updater, collector, logging] =>
    return {
      cache := ← orDefault d.cache cacheOfSetting? cache
      search := ← orDefault d.search searchOfSetting? search
      updater := ← orDefault d.updater updaterOfSetting? updater
      collector := ← orDefault d.collector collectorOfSetting? collector
      logging := ← orDefault d.logging loggingOfSetting? logging }
  | _ => none

/-! ## Saving -/

/-- A number as it is saved. -/
def natToToml? (n : Nat) : Option Toml := if n < Nat.pow 2 63 then some (.integer n) else none

/-- A field of a saved table. -/
def field (key : String) (value : Toml) : List (String × Toml) := [(key, value)]

/-- A field that is left out if it is not set. -/
def fieldIfSet (key : String) : Option Toml → List (String × Toml)
  | none => []
  | some value => [(key, value)]

def CacheSection.toToml? (c : CacheSection) : Option Toml := do
  return .table (
    field "max_entries" (← natToToml? c.maxEntries) ++
    field "eviction_ratio" (.float c.evictionRatio) ++
    field "default_ttl_secs" (← natToToml? c.defaultTtlSeconds) ++
    field "cleanup_interval_secs" (← natToToml? c.cleanupIntervalSeconds) ++
    fieldIfSet "disk_dir" (c.folder.map .text))

def SearchSection.toToml? (s : SearchSection) : Option Toml := do
  return .table (
    field "max_results" (← natToToml? s.maxResults) ++
    field "case_sensitive" (.boolean s.caseSensitive) ++
    field "sort" (.text s.sort) ++
    field "prefix" (.boolean s.byPrefix) ++
    field "fuzzy" (.boolean s.fuzzy) ++
    field "regex" (.boolean s.byPattern) ++
    field "min_score" (.float (Decimal.widen s.minScore)))

def UpdaterSection.toToml? (u : UpdaterSection) : Option Toml := do
  return .table (
    field "debounce_ms" (← natToToml? u.debounceMillis) ++
    field "shutdown_grace_secs" (← natToToml? u.graceSeconds) ++
    field "scan_for_new_files" (.boolean u.scan) ++
    field "watch_debounce_ms" (← natToToml? u.watchDebounceMillis))

def CollectorSection.toToml? (c : CollectorSection) : Option Toml := do
  let parallelism ← c.parallelism.mapM natToToml?
  return .table (
    field "extensions" (.list (c.extensions.map .text)) ++
    fieldIfSet "parallelism" parallelism ++
    field "respect_gitignore" (.boolean c.versionControl))

def LoggingSection.toToml (l : LoggingSection) : Toml := .table (field "level" (.text l.level))

/-- The fields of the table that a configuration is saved as; nothing if a number is too great. -/
def toToml? (c : Config) : Option (List (String × Toml)) := do
  return field "cache" (← c.cache.toToml?) ++ field "search" (← c.search.toToml?) ++
    field "updater" (← c.updater.toToml?) ++ field "collector" (← c.collector.toToml?) ++
    field "logging" c.logging.toToml

end SymbolAtlas.Config
