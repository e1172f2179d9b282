import SymbolAtlas.Symbol.Coding

/-!
# Collections

What was collected for a solution: the symbols of every project, and what went wrong. A
collection is written as JSON with its projects in the order of their names.
-/

namespace SymbolAtlas

open Json

/-- A file that could not be read, or a project whose files could not be listed. -/
structure CollectionError where
  project : String
  /-- Nothing where the whole project failed. -/
  file : Option Path := none
  message : String
deriving Repr, DecidableEq

structure Collection where
  projects : Std.TreeMap String (List Symbol) := {}
  errors : List CollectionError := []

namespace CollectionError

def toJson (e : CollectionError) : Json := .record <|
  [("project", .text e.project)] ++ optionalField "file" Path.toJson e.file ++
  [("message", .text e.message)]

def ofJson? (j : Json) : Option CollectionError := do
  match ← slots ["project", "file", "message"] j with
  | [project, file, message] =>
    return {
      project := ← required asText project
      file := ← optional Path.ofJson? file
      message := ← required asText message }
  | _ => none

end CollectionError

namespace Collection

/-- The symbols of all projects, project by project in the order of their names. -/
def symbols (c : Collection) : List Symbol := c.projects.toList.flatMap (·.2)

def size (c : Collection) : Nat := c.symbols.length

def projectSymbols (c : Collection) (project : String) : List Symbol :=
  (c.projects[project]?).getD []

def toJson (c : Collection) : Json := .record
  [("projects", .record (c.projects.toList.map fun (name, symbols) =>
      (name, .list (symbols.map Symbol.toJson)))),
    ("errors", .list (c.errors.map CollectionError.toJson))]

/-- Of projects with one name the last one counts. -/
def projectsOfJson? : Json → Option (Std.TreeMap String (List Symbol))
  | .record fields => do
    let entries ← fields.mapM fun (name, j) => do
      return (name, ← asList Symbol.ofJson? j)
    return entries.foldl (fun m (name, symbols) => m.insert name symbols) {}
  | _ => none

def ofJson? (j : Json) : Option Collection := do
  match ← slots ["projects", "errors"] j with
  | [projects, errors] =>
    return {
      projects := ← defaulted {} projectsOfJson? projects
      errors := ← defaulted [] (asList CollectionError.ofJson?) errors }
  | _ => none

end Collection

end SymbolAtlas
