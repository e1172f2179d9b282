import Std.Data.TreeMap

/-!
# The directory of the durable tier

A directory of text files. It may be missing, something else may stand in its place, and any
single access to it may fail.
-/

namespace SymbolAtlas.Cache

/-- What stands under a name in the directory. -/
inductive Node where
  | file (text : String)
  | folder
deriving Repr, DecidableEq, Inhabited

/-- What stands where the directory should be. -/
inductive Site where
  | absent
  /-- Something that is no directory. -/
  | blocked
  | directory (nodes : Std.TreeMap String Node)
deriving Inhabited

structure Disk where
  site : Site := .absent
  /-- Which of the coming accesses fail, in their order. Those after the last one succeed. -/
  faults : List Bool := []
deriving Inhabited

/-- What reading a file yields. -/
inductive Reading where
  | missing
  | failed
  | text (s : String)
deriving Repr, DecidableEq, Inhabited

namespace Disk

/-- Whether the next access fails, and the disk after it. -/
def access (d : Disk) : Bool × Disk :=
  match d.faults with
  | [] => (false, d)
  | fault :: faults => (fault, { d with faults })

/-- The disk with its directory created where it was missing; nothing if that fails. -/
def create? (d : Disk) : Option Disk :=
  match d.site with
  | .absent => some { d with site := .directory {} }
  | .blocked => none
  | .directory _ => some d

/-- Writes a file, and tells whether that succeeded. -/
def write (d : Disk) (name text : String) : Bool × Disk :=
  let (fails, d) := d.access
  match d.site with
  | .directory nodes =>
    if fails || nodes[name]? == some .folder then (false, d)
    else (true, { d with site := .directory (nodes.insert name (.file text)) })
  | _ => (false, d)

/-- Gives a file a new name, in place of a file of that name. -/
def rename (d : Disk) (name newName : String) : Bool × Disk :=
  let (fails, d) := d.access
  match d.site with
  | .directory nodes =>
    match nodes[name]? with
    | some (.file text) =>
      if fails || nodes[newName]? == some .folder then (false, d)
      else (true, { d with site := .directory ((nodes.erase name).insert newName (.file text)) })
    | _ => (false, d)
  | _ => (false, d)

def read (d : Disk) (name : String) : Reading × Disk :=
  let (fails, d) := d.access
  if fails then (.failed, d)
  else match d.site with
    | .absent => (.missing, d)
    | .blocked => (.failed, d)
    | .directory nodes => match nodes[name]? with
      | none => (.missing, d)
      | some .folder => (.failed, d)
      | some (.file text) => (.text text, d)

/-- Removes a file, and tells whether it is gone. -/
def remove (d : Disk) (name : String) : Bool × Disk :=
  let (fails, d) := d.access
  match d.site with
  | .directory nodes =>
    if fails || nodes[name]? == some .folder then (false, d)
    else (true, { d with site := .directory (nodes.erase name) })
  | .absent => (!fails, d)
  | .blocked => (false, d)

/-- The names in the directory, in their order; nothing if it cannot be listed. -/
def list? (d : Disk) : Option (List String) × Disk :=
  let (fails, d) := d.access
  match d.site with
  | .directory nodes => (if fails then none else some nodes.keys, d)
  | _ => (none, d)

/-- Removes files one after the other, up to the first that cannot be removed. -/
def removeEach (d : Disk) : List String → Disk
  | [] => d
  | name :: rest =>
    match d.remove name with
    | (true, d) => removeEach d rest
    | (false, d) => d

end Disk

end SymbolAtlas.Cache
