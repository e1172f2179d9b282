import SymbolAtlas.Config.Setting

/-!
# Locations of settings

A setting may be given by its location in the tables: keys with dots between them, and places in
lists between brackets. A key that cannot be read as a location is a key of its own. Letter case
does not count in keys.
-/

namespace SymbolAtlas.Setting

inductive Step where
  | key (name : String)
  | index (i : Int)
deriving Repr, DecidableEq

/-- The characters of keys in locations. -/
def isKeyChar (c : Char) : Bool := c.isAlphanum || c = ' ' || c = '_' || c = '-'

/-- Reads the steps after the first key. -/
def readSteps : Nat → List Char → Option (List Step)
  | 0, _ => none
  | _ + 1, [] => some []
  | fuel + 1, '.' :: rest =>
    let name := rest.takeWhile isKeyChar
    if name.isEmpty then none
    else (readSteps fuel (rest.dropWhile isKeyChar)).map (.key (String.ofList name) :: ·)
  | fuel + 1, '[' :: rest =>
    let (negative, digits) := match (rest.takeWhile (· ≠ ']')).filter (· ≠ ' ') with
      | '-' :: digits => (true, digits)
      | digits => (false, digits)
    match Decimal.readNat? digits, rest.dropWhile (· ≠ ']') with
    | some n, _ :: rest =>
      (readSteps fuel rest).map (.index (if negative then -n else n) :: ·)
    | _, _ => none
  | _ + 1, _ => none

/-- The first key of a location and the steps after it. -/
def location (s : String) : String × List Step :=
  let cs := s.toList
  let first := cs.takeWhile isKeyChar
  match readSteps (cs.length + 1) (cs.dropWhile isKeyChar) with
  | some steps => if first.isEmpty then (s, []) else (String.ofList first, steps)
  | none => (s, [])

/-! ## Putting settings into tables -/

abbrev Table := List (String × Setting)

/-- Puts a setting under a key, in the place of what was there. -/
def insert (key : String) (s : Setting) : Table → Table
  | [] => [(key, s)]
  | (k, old) :: rest => if k = key then (k, s) :: rest else (k, old) :: insert key s rest

/-- The table that a setting is; an empty one for any other setting. -/
def fieldsOf : Option Setting → Table
  | some (.table fields) => fields
  | _ => []

/-- The list that a setting is; an empty one for any other setting. -/
def itemsOf : Option Setting → List Setting
  | some (.list items) => items
  | _ => []

mutual

/-- A setting in the place of an older one. Tables are merged key by key, and an empty table
changes nothing. -/
def supersede (old : Option Setting) : Setting → Setting
  | .table [] => old.getD (.table [])
  | .table fields => .table (merge (fieldsOf old) fields)
  | s => s

/-- A table with the settings of another table put over its own. -/
def merge (old : Table) : Table → Table
  | [] => old
  | (key, s) :: rest =>
    let key := Text.lowercase key
    merge (insert key (supersede (old.lookup key) s) old) rest

end

/-- The place in a list that an index means. A negative index counts from the end. -/
def placeOf (length : Nat) (i : Int) : Nat := if 0 ≤ i then i.toNat else length - i.natAbs

/-- A list with an item changed, made longer if it is too short. -/
def setItem (items : List Setting) (place : Nat) (s : Setting) : List Setting :=
  (items ++ List.replicate (place + 1 - items.length) Setting.absent).set place s

/-- The settings at a place after some steps of a location have been taken from it. What is neither
table nor list where it has to be gives way. -/
def putAt (steps : List Step) (s : Setting) (old : Option Setting) : Setting :=
  match steps with
  | [] => supersede old s
  | .key name :: rest =>
    let key := Text.lowercase name
    let fields := fieldsOf old
    .table (insert key (putAt rest s (fields.lookup key)) fields)
  | .index i :: rest =>
    let items := itemsOf old
    let place := placeOf items.length i
    .list (setItem items place (if rest.isEmpty then s else putAt rest s items[place]?))

/-- Puts a setting at a location of a table. -/
def put (t : Table) (place : String) (s : Setting) : Table :=
  let (first, steps) := location place
  let key := Text.lowercase first
  insert key (putAt steps s (t.lookup key)) t

/-- A table with what one source says put over it. -/
def overlay (t : Table) (source : Table) : Table :=
  source.foldl (fun t (place, s) => put t place s) t

end SymbolAtlas.Setting
