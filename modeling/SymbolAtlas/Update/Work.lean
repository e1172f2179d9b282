import SymbolAtlas.Collect
import SymbolAtlas.Index.Update
import SymbolAtlas.Update.Tracking

/-!
# Re-indexing work

What has to be indexed again after some changes: the changed files of each project, and all files
of the projects that depend on one of these. The work is done project by project in the order of
their names, by parsing the files first and then putting the symbols into the index.
-/

namespace SymbolAtlas

/-- The files to index again for each project. -/
abbrev Work := Std.TreeMap String PathSet

/-- What was put into the index for one project of a task. -/
structure IndexUpdate where
  task : Nat
  project : String
  files : List Path
  delta : Delta
deriving Repr, DecidableEq

namespace Work

def add (w : Work) (project : String) (paths : PathSet) : Work :=
  w.alter project fun old => some (PathSet.addAll (old.getD {}) paths)

/-- The changed files of each project. A change of a file that belongs to no project is left
out. -/
def ofEvents (t : Tracking) (events : List FileEvent) : Work :=
  events.foldl (fun w e =>
    match e.project.orElse fun _ => t.projectOf? e.path with
    | some project => w.add project (PathSet.add {} e.path)
    | none => w) {}

/-- The projects that depend on some project directly. -/
def dependentsOf (dependents : ProjectGraph) (project : String) : List String :=
  ((dependents[project]?).getD {}).toList

/-- Adds all files of the projects that depend directly on one that is there. -/
def widen (w : Work) (t : Tracking) (dependents : ProjectGraph) : Work :=
  (w.keys.flatMap (dependentsOf dependents)).foldl (fun w p => w.add p (t.filesOf p)) w

/-- The files to index again after some changes. -/
def ofChanges (t : Tracking) (dependents : ProjectGraph) (events : List FileEvent) : Work :=
  (ofEvents t events).widen t dependents

/-- The work as a list: the projects in the order of their names, each with its files in the order
of their paths. -/
def slices (w : Work) : List (String × List Path) :=
  w.toList.map fun (project, paths) => (project, paths.toList)

end Work

/-- Indexes the files of one project again. -/
def Snapshot.reindexSlice (x : Snapshot) (s : Sources) (project : String) (files : List Path) :
    Snapshot × Delta :=
  x.replaceFiles files (s.collectFiles project files).symbols

end SymbolAtlas
