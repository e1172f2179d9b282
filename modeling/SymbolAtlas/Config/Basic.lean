import SymbolAtlas.Cache.Basic
import SymbolAtlas.Environment
import SymbolAtlas.Search.Options
import SymbolAtlas.Update.Updater
import SymbolAtlas.Watch.Watcher

/-!
# Configurations

What a user can set, in five sections, with what counts where nothing is said; and what the parts
of the program are set to by it.
-/

namespace SymbolAtlas

structure Config.CacheSection where
  maxEntries : Nat := 1000
  evictionRatio : Float := 0.2
  defaultTtlSeconds : Nat := 3600
  cleanupIntervalSeconds : Nat := 60
  /-- The folder of the durable tier, which may refer to variables. Without it the cache is kept in
  memory. -/
  folder : Option String := none
deriving BEq, Inhabited

structure Config.SearchSection where
  maxResults : Nat := 100
  caseSensitive : Bool := false
  sort : String := "relevance"
  byPrefix : Bool := true
  fuzzy : Bool := true
  byPattern : Bool := true
  minScore : Float32 := 0
deriving BEq, Inhabited

structure Config.UpdaterSection where
  debounceMillis : Nat := 500
  graceSeconds : Nat := 5
  scan : Bool := false
  /-- How long a file must be quiet before the watcher forwards its changes. -/
  watchDebounceMillis : Nat := 200
deriving BEq, Inhabited

structure Config.CollectorSection where
  extensions : List String := ["json"]
  /-- How many files are parsed at a time; left to the program if not set. -/
  parallelism : Option Nat := none
  /-- Whether the ignore files of version control count. -/
  versionControl : Bool := true
deriving BEq, Inhabited

structure Config.LoggingSection where
  level : String := "info"
deriving BEq, Inhabited

structure Config where
  cache : Config.CacheSection := {}
  search : Config.SearchSection := {}
  updater : Config.UpdaterSection := {}
  collector : Config.CollectorSection := {}
  logging : Config.LoggingSection := {}
deriving BEq, Inhabited

namespace Config

/-- The folder of the durable tier with its references expanded. -/
def CacheSection.directory (c : CacheSection) (e : Environment) : Option Path :=
  c.folder.map e.expand

def cacheSettings (c : Config) (e : Environment) : Cache.Settings where
  maxEntries := c.cache.maxEntries
  evictionRatio := c.cache.evictionRatio
  defaultTtl := 1000 * c.cache.defaultTtlSeconds
  cleanupInterval := 1000 * c.cache.cleanupIntervalSeconds
  directory := c.cache.directory e

def updaterSettings (c : Config) : Updater.Settings where
  debounce := c.updater.debounceMillis
  grace := 1000 * c.updater.graceSeconds
  scan := c.updater.scan

def watcherSettings (c : Config) : Watcher.Settings where
  debounce := c.updater.watchDebounceMillis
  extensions := c.collector.extensions

def searchOptions (c : Config) : Except UnknownSortKey (SearchOptions Float32) :=
  (SortKey.ofText c.search.sort).map fun sort => {
    maxResults := c.search.maxResults
    caseSensitive := c.search.caseSensitive
    sort
    byPrefix := c.search.byPrefix
    fuzzy := c.search.fuzzy
    byPattern := c.search.byPattern
    minScore := c.search.minScore }

end Config

end SymbolAtlas
