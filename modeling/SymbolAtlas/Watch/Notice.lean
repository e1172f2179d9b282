import SymbolAtlas.Extensions
import SymbolAtlas.Watch.Change

/-!
# Notices

What the operating system reports about files that are watched, and the changes that it means.
-/

namespace SymbolAtlas

/-- What a notice is about. -/
inductive Notice.Kind where
  | any
  | access
  | create
  | remove
  /-- The path is the old name. -/
  | renameFrom
  /-- The path is the new name. -/
  | renameTo
  /-- The paths are the old name and the new one. -/
  | renameBoth
  | renameAny
  | data
  | metadata
  | modifyAny
  | modifyOther
  | other
deriving Repr, DecidableEq, Inhabited

structure Notice where
  kind : Notice.Kind
  paths : List Path
deriving Repr, DecidableEq

/-- A change of one file. -/
structure FileChange where
  path : Path
  change : Change
deriving Repr, DecidableEq

namespace Notice

/-- The changes that a kind of notice means for its paths, one after the other. The last one holds
for all further paths. -/
def Kind.changes : Kind → List Change
  | .create => [.created]
  | .remove => [.deleted]
  | .renameFrom => [.deleted]
  | .renameTo => [.created]
  | .renameBoth => [.deleted, .created]
  | .data | .renameAny | .modifyAny | .modifyOther => [.contentChanged]
  | .any | .access | .metadata | .other => []

/-- The change of the path in a position. -/
def changeAt? (changes : List Change) (i : Nat) : Option Change :=
  (changes[i]?).orElse fun _ => changes.getLast?

/-- The changes of the paths that have one of the extensions. -/
def fileChanges (n : Notice) (extensions : List String) : List FileChange :=
  n.paths.zipIdx.filterMap fun (path, i) =>
    if Extensions.watch extensions path then
      (changeAt? n.kind.changes i).map fun change => { path, change }
    else none

end Notice

end SymbolAtlas
