import SymbolAtlas.Collection
import SymbolAtlas.Sources

/-!
# Collecting symbols

The symbols of a whole solution, or of some files of a project. What goes wrong with one file or
one project is recorded and does not keep the others from being collected.
-/

namespace SymbolAtlas

/-- What came of some files: their symbols, and the errors of those that failed. -/
structure Outcome where
  symbols : List Symbol := []
  errors : List CollectionError := []
deriving Repr, DecidableEq

namespace Outcome

/-- One outcome after the other. -/
def append (a b : Outcome) : Outcome := ⟨a.symbols ++ b.symbols, a.errors ++ b.errors⟩

/-- What comes of parsing one file. -/
def ofFile (s : Sources) (project : String) (p : Path) : Outcome :=
  match s.parse p project with
  | .ok symbols => { symbols }
  | .error message => { errors := [{ project, file := some p, message }] }

/-- What comes of files one after the other. -/
def ofFiles (s : Sources) (project : String) (files : List Path) : Outcome :=
  files.foldr (fun p o => (ofFile s project p).append o) {}

end Outcome

namespace Sources

/-- Parses some files for a project. Those that are not there or not supported are passed over. -/
def collectFiles (s : Sources) (project : String) (files : List Path) : Outcome :=
  .ofFiles s project (files.filter fun p => s.isFile p && s.supports p)

/-- Parses all supported source files of a project. -/
def collectProject (s : Sources) (p : Project) : Outcome :=
  match s.list p with
  | .error message => { errors := [{ project := p.name, message }] }
  | .ok files => .ofFiles s p.name (files.filter s.supports)

end Sources

/-- Errors are ordered by project and then by file; those of a whole project come first. -/
def CollectionError.compare (a b : CollectionError) : Ordering :=
  (Ord.compare a.project b.project).then
    (Ord.compare (a.file.map Path.place) (b.file.map Path.place))

/-- Puts the outcomes of projects together, in the order in which the projects were finished. Of
projects with one name the last one counts, but for its errors. -/
def Collection.ofOutcomes (finished : List (String × Outcome)) : Collection where
  projects := finished.foldl (fun m (name, o) => m.insert name o.symbols) {}
  errors := (finished.flatMap (·.2.errors)).mergeSort fun a b => (a.compare b).isLE

/-- Collects all projects of a solution. -/
def Sources.collect (s : Sources) (solution : Solution) : Collection :=
  .ofOutcomes (solution.projects.map fun p => (p.name, s.collectProject p))

end SymbolAtlas
