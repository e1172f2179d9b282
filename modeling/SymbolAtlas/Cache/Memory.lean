/-!
# The memory tier

Entries under keys, each with a moment until which it counts and an optional version tag. The
entries stand in the order in which they were stored, and when there are too many the oldest go.
Time is counted in whole milliseconds.
-/

namespace SymbolAtlas.Cache

/-- Two version tags agree unless both are given and differ. -/
def versionsAgree (stored requested : Option String) : Bool :=
  match stored, requested with
  | some s, some r => s == r
  | _, _ => true

theorem versionsAgree_iff {stored requested : Option String} :
    versionsAgree stored requested = true ↔ ∀ s ∈ stored, ∀ r ∈ requested, s = r := by
  cases stored <;> cases requested <;> simp [versionsAgree]

structure Entry (V : Type) where
  key : String
  value : V
  /-- The last moment at which the entry counts. -/
  expires : Nat
  version : Option String := none
deriving Repr

def Entry.isExpired {V : Type} (e : Entry V) (now : Nat) : Bool := e.expires < now

/-- How many entries there may be, and how many of the oldest go at once. -/
structure Bound where
  maxEntries : Nat
  batch : Nat
deriving Repr, DecidableEq

/-- How many entries go to make room for one more. -/
def Bound.victims (b : Bound) (held : Nat) : Nat :=
  max (max b.batch (held + 1 - b.maxEntries)) 1

structure Memory (V : Type) where
  /-- The oldest entry stands first. No two have the same key. -/
  entries : List (Entry V) := []
  /-- How many entries had to make room. -/
  evictions : Nat := 0
  /-- How many entries were found to count no longer. -/
  expirations : Nat := 0
deriving Repr

namespace Memory

variable {V : Type}

def size (m : Memory V) : Nat := m.entries.length

def find? (m : Memory V) (key : String) : Option (Entry V) := m.entries.find? (·.key == key)

def erase (m : Memory V) (key : String) : Memory V :=
  { m with entries := m.entries.filter (·.key != key) }

def clear (m : Memory V) : Memory V := { m with entries := [] }

/-- The value under a key, if it still counts and the version tags agree. An entry that no longer
counts is dropped. -/
def lookup (m : Memory V) (now : Nat) (key : String) (version : Option String) :
    Option V × Memory V :=
  match m.find? key with
  | none => (none, m)
  | some e =>
    if e.isExpired now then (none, { m.erase key with expirations := m.expirations + 1 })
    else if versionsAgree e.version version then (some e.value, m)
    else (none, m)

/-- Drops the oldest entries. -/
def evict (m : Memory V) (count : Nat) : Memory V :=
  { m with
    entries := m.entries.drop count
    evictions := m.evictions + min count m.size }

/-- Makes room for an entry of a new key if there are as many entries as there may be. -/
def makeRoom (b : Bound) (m : Memory V) (key : String) : Memory V :=
  if (m.find? key).isNone ∧ b.maxEntries ≤ m.size then m.evict (b.victims m.size) else m

/-- Stores an entry as the newest one, in place of an older one of its key. Where no entry may be
held, none is stored. -/
def store (b : Bound) (m : Memory V) (e : Entry V) : Memory V :=
  if b.maxEntries = 0 then m
  else
    let m := (m.makeRoom b e.key).erase e.key
    { m with entries := m.entries ++ [e] }

/-- Drops all entries that no longer count, and tells how many. -/
def purge (m : Memory V) (now : Nat) : Nat × Memory V :=
  let left := m.entries.filter fun e => !e.isExpired now
  let purged := m.size - left.length
  (purged, { m with entries := left, expirations := m.expirations + purged })

end Memory

end SymbolAtlas.Cache
