import SymbolAtlas.Cache.Record
import SymbolAtlas.Collection

/-!
# The cache

A cache holds values in memory, and collections of symbols on disk as well, so that they outlive
it. A collection found on disk only is taken into memory for as long as it still counts there.
What goes wrong on disk is passed over: the cache then works from memory alone.
-/

namespace SymbolAtlas

structure Cache.Settings where
  maxEntries : Nat := 1000
  /-- The part of the entries that go at once when there are too many. -/
  evictionRatio : Float := 0.2
  /-- How long a value counts where nothing is said about it. -/
  defaultTtl : Nat := 3600000
  /-- How often entries that no longer count are dropped; never if zero. -/
  cleanupInterval : Nat := 60000
  /-- The directory of the durable tier, if there is to be one. -/
  directory : Option Path := none

/-- The bound on the memory tier. The batch is rounded up, and to a whole number of 64 bits. -/
def Cache.Settings.bound (s : Settings) : Bound where
  maxEntries := s.maxEntries
  batch := (s.maxEntries.toUInt64.toFloat * s.evictionRatio).ceil.toUInt64.toNat

/-- The state of the background cleanup. -/
inductive Cache.Cleanup where
  | off
  /-- It begins as soon as time passes. -/
  | waiting
  | since (start : Nat)
deriving Repr, DecidableEq

/-- A value in memory: a collection of symbols, or a value of the callers' own. -/
inductive Cache.Item (V : Type) where
  | collection (c : Collection)
  | value (v : V)

structure Cache (V : Type) where
  settings : Cache.Settings := {}
  memory : Cache.Memory (Cache.Item V) := {}
  hits : Nat := 0
  misses : Nat := 0
  /-- The directory, whether the cache makes use of it or not. -/
  disk : Cache.Disk := {}
  /-- Whether the durable tier is in use. -/
  durable : Bool := false
  cleanup : Cache.Cleanup := .off

namespace Cache

structure Stats where
  hits : Nat
  misses : Nat
  evictions : Nat
  expirations : Nat
  /-- The part of the lookups that were hits. -/
  hitRate : Float
  entries : Nat
  durable : Bool

/-- The end of a value's life is too far away for the clock. -/
inductive ClockOverflow where
  | clockOverflow
deriving Repr, DecidableEq

/-- The moments that the clock can tell: its seconds are whole numbers of 64 bits with a sign. -/
def clockLimit : Nat := Nat.pow 2 63 * 1000

/-- The last moment of a value that counts for a while from now on. -/
def expiry (now ttl : Nat) : Except ClockOverflow Nat :=
  if now + ttl < clockLimit then .ok (now + ttl) else .error .clockOverflow

variable {V α ε : Type}

/-- A new cache on a directory, which is not used unless it is there or can be created. -/
def new (settings : Settings) (disk : Disk) : Cache V :=
  let cleanup := if settings.cleanupInterval = 0 then Cleanup.off else .waiting
  match settings.directory, disk.create? with
  | some _, some disk => { settings, disk, cleanup, durable := true }
  | _, _ => { settings, disk, cleanup }

/-- A new cache on a directory, unless it is to be used and cannot be. -/
def open? (settings : Settings) (disk : Disk) : Option (Cache V) :=
  if settings.directory.isSome && disk.create?.isNone then none else some (new settings disk)

def size (c : Cache V) : Nat := c.memory.size

def isEmpty (c : Cache V) : Bool := c.memory.entries.isEmpty

def stats (c : Cache V) : Stats where
  hits := c.hits
  misses := c.misses
  evictions := c.memory.evictions
  expirations := c.memory.expirations
  hitRate :=
    if c.hits + c.misses = 0 then 0
    else c.hits.toUInt64.toFloat / (c.hits + c.misses).toUInt64.toFloat
  entries := c.size
  durable := c.durable

/-- Counts a lookup as a hit or a miss. -/
def count (c : Cache V) (found : Option α) : Cache V :=
  if found.isSome then { c with hits := c.hits + 1 } else { c with misses := c.misses + 1 }

/-- Does something with the directory if the durable tier is in use. -/
def onDisk (c : Cache V) (f : Disk → Disk) : Cache V :=
  if c.durable then { c with disk := f c.disk } else c

/-! ## Values -/

/-- Stores an item in memory for a while. -/
def keep (c : Cache V) (now : Nat) (key : String) (item : Item V) (ttl : Nat)
    (version : Option String) : Except ClockOverflow (Cache V) :=
  if c.settings.maxEntries = 0 then .ok c
  else
    match expiry now ttl with
    | .error e => .error e
    | .ok expires =>
      let entry : Entry (Item V) := { key, value := item, expires, version }
      .ok { c with memory := c.memory.store c.settings.bound entry }

def insert (c : Cache V) (now : Nat) (key : String) (v : V) (ttl : Option Nat)
    (version : Option String) : Except ClockOverflow (Cache V) :=
  c.keep now key (.value v) (ttl.getD c.settings.defaultTtl) version

/-- What an item is to a caller who asks for values of one type. -/
def Item.asked (read : V → Option α) : Item V → Option α
  | .collection _ => none
  | .value v => read v

/-- The value under a key in memory. A value of another type than the one asked for is a miss. -/
def get (c : Cache V) (read : V → Option α) (now : Nat) (key : String)
    (version : Option String) : Option α × Cache V :=
  let (item, memory) := c.memory.lookup now key version
  let found := item.bind (Item.asked read)
  (found, { c with memory }.count found)

/-- The value under a key, or else the one that is loaded, which is stored unless loading fails.
Tells too whether it was loaded. -/
def getOrTry (c : Cache V) (read : V → Option α) (write : α → V) (now : Nat) (key : String)
    (load : Except ε α) (ttl : Option Nat) (version : Option String) :
    Except ClockOverflow ((Except ε α × Bool) × Cache V) :=
  match c.get read now key version with
  | (some a, c) => .ok ((.ok a, false), c)
  | (none, c) =>
    match load with
    | .error e => .ok ((.error e, true), c)
    | .ok a => (c.insert now key (write a) ttl version).map fun c => ((.ok a, true), c)

/-- The value under a key, or else the given one, which is stored. Tells too whether it was. -/
def getOrCompute (c : Cache V) (read : V → Option α) (write : α → V) (now : Nat) (key : String)
    (a : α) (ttl : Option Nat) (version : Option String) :
    Except ClockOverflow ((α × Bool) × Cache V) :=
  match c.get read now key version with
  | (some a, c) => .ok ((a, false), c)
  | (none, c) => (c.insert now key (write a) ttl version).map fun c => ((a, true), c)

/-- Removes what is under a key, on disk too. -/
def invalidate (c : Cache V) (key : String) : Cache V :=
  { c with memory := c.memory.erase key }.onDisk (·.removeRecord key)

/-! ## Collections -/

/-- The key of the collection of a solution. -/
def collectionKey (solution : String) : String := "symbols:" ++ solution

def putCollection (c : Cache V) (now : Nat) (solution : String) (collected : Collection)
    (version : Option String) : Except ClockOverflow (Cache V) :=
  let key := collectionKey solution
  let ttl := c.settings.defaultTtl
  (c.keep now key (.collection collected) ttl version).map fun c =>
    c.onDisk fun d => d.writeRecord
      { key, inserted := now, expires := Record.expiry now ttl, version
        value := (collected.toJson.tidy?).getD .null }

/-- The collection that a record holds, if it still counts and the version tags agree. -/
def Record.collection? (r : Record) (now : Nat) (version : Option String) : Option Collection :=
  if r.isExpired now || !versionsAgree r.version version then none
  else Collection.ofJson? r.value

/-- The collection of a solution on disk. It is taken into memory, and a record that no longer
counts is removed. -/
def promote (c : Cache V) (now : Nat) (solution : String) (version : Option String) :
    Option Collection × Cache V :=
  if !c.durable then (none, c)
  else
    let key := collectionKey solution
    match c.disk.record? key with
    | (none, disk) => (none, { c with disk })
    | (some r, disk) =>
      let disk := if r.isExpired now then disk.removeRecord key else disk
      match r.collection? now version with
      | none => (none, { c with disk })
      | some collected => (some collected,
          { c with
            disk
            memory := c.memory.store c.settings.bound
              { key, value := .collection collected, expires := r.expires, version := r.version } })

/-- The collection of a solution, from memory or else from disk. -/
def getCollection (c : Cache V) (now : Nat) (solution : String) (version : Option String) :
    Option Collection × Cache V :=
  match c.memory.lookup now (collectionKey solution) version with
  | (some (.collection collected), memory) =>
    (some collected, { c with memory, hits := c.hits + 1 })
  | (_, memory) =>
    let (found, c) := { c with memory }.promote now solution version
    (found, c.count found)

/-! ## Upkeep -/

/-- Drops the entries in memory that no longer count, and tells how many. -/
def purge (c : Cache V) (now : Nat) : Nat × Cache V :=
  let (purged, memory) := c.memory.purge now
  (purged, { c with memory })

/-- Removes everything, on disk too. -/
def clear (c : Cache V) : Cache V := { c with memory := c.memory.clear }.onDisk Disk.clear

/-- Ends the cleanup and the use of the durable tier. -/
def close (c : Cache V) : Cache V := { c with durable := false, cleanup := .off }

/-- Lets time pass. The cleanup runs at whole intervals after it began. -/
def elapse (c : Cache V) (start stop : Nat) : Cache V :=
  let run (began : Nat) : Cache V :=
    let last := began + (stop - 1 - began) / c.settings.cleanupInterval * c.settings.cleanupInterval
    { (c.purge last).2 with cleanup := .since began }
  match c.cleanup with
  | .off => c
  | .waiting => run start
  | .since began => run began

end Cache

end SymbolAtlas
