import SymbolAtlas.Cache.Disk
import SymbolAtlas.Cache.Memory
import SymbolAtlas.Digest.Sha256
import SymbolAtlas.Json.Decode
import SymbolAtlas.Json.Reader
import SymbolAtlas.Json.Writer
import SymbolAtlas.Path

/-!
# Records of the durable tier

Each key has one file, named by the digest of the key. It holds a record: the key, the value as
JSON, when it was written and until when it counts, and its version tag. A record is written to a
temporary file first, which then takes the place of the old record.
-/

namespace SymbolAtlas

open Json

mutual

/-- The value without what a reader does not see: fields are ordered by name, and the last one of
a name counts. A number that is out of range is refused. -/
def Json.tidy? : Json → Option Json
  | .list items => (tidyItems? items).map .list
  | .record fields => (tidyFields? fields).map fun m => .record m.toList
  | .number n =>
    if n.toNat?.isSome || n.toInt?.isSome || n.toFloat?.isSome then some (.number n) else none
  | j => some j

def Json.tidyItems? : List Json → Option (List Json)
  | [] => some []
  | j :: rest => do return (← j.tidy?) :: (← tidyItems? rest)

/-- Fields that come later are in the map before those that come earlier. -/
def Json.tidyFields? : List (String × Json) → Option (Std.TreeMap String Json)
  | [] => some {}
  | (name, j) :: rest => do
    let j ← j.tidy?
    return (← tidyFields? rest).insertIfNew name j

end

namespace Cache

structure Record where
  key : String
  value : Json
  inserted : Nat
  /-- The last moment at which the record counts. -/
  expires : Nat
  version : Option String := none

namespace Record

/-- The latest moment that a record can name. -/
def latest : Nat := UInt64.size - 1

/-- Until when a record counts that is written now: its span is taken in 64 bits. -/
def expiry (now ttl : Nat) : Nat := min latest (now + ttl % UInt64.size)

def isExpired (r : Record) (now : Nat) : Bool := r.expires < now

def toJson (r : Record) : Json := .record <|
  [("key", .text r.key), ("value", r.value), ("inserted_at", nat r.inserted),
    ("expires_at", nat r.expires)] ++
  (match r.version with
    | none => []
    | some v => [("version", .text v)])

def ofJson? (j : Json) : Option Record := do
  match ← slots ["key", "value", "inserted_at", "expires_at", "version"] j with
  | [key, value, inserted, expires, version] =>
    return {
      key := ← required asText key
      value := ← required Json.tidy? value
      inserted := ← required asNat64 inserted
      expires := ← required asNat64 expires
      version := ← optional asText version }
  | _ => none

/-- The name that the files of a key share, apart from their extensions. -/
def stem (key : String) : String := Sha256.hex key

def fileName (key : String) : String := stem key ++ ".json"

def temporaryName (key : String) : String := stem key ++ ".tmp"

/-- Whether a file is taken for a record or a temporary file. -/
def isOwn (name : String) : Bool :=
  match Path.extensionOf? name with
  | some extension => extension == "json" || extension == "tmp"
  | none => false

end Record

namespace Disk

/-- Writes a record in place of the one of its key. -/
def writeRecord (d : Disk) (r : Record) : Disk :=
  match d.write (Record.temporaryName r.key) r.toJson.compact with
  | (false, d) => d
  | (true, d) => (d.rename (Record.temporaryName r.key) (Record.fileName r.key)).2

/-- The record of a key, if it can be read. -/
def record? (d : Disk) (key : String) : Option Record × Disk :=
  match d.read (Record.fileName key) with
  | (.text s, d) => ((Json.parse s).bind Record.ofJson?, d)
  | (_, d) => (none, d)

def removeRecord (d : Disk) (key : String) : Disk := (d.remove (Record.fileName key)).2

/-- Removes all records and temporary files, in the order in which they are listed. -/
def clear (d : Disk) : Disk :=
  match d.list? with
  | (none, d) => d
  | (some names, d) => d.removeEach (names.filter Record.isOwn)

end Disk

end Cache

end SymbolAtlas
