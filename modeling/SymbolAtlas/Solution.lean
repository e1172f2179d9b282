import Std.Data.TreeSet
import SymbolAtlas.Symbol.Coding

/-!
# Solutions

A solution is a list of projects. Each project has a folder for its sources and names the projects
that it depends on.
-/

namespace SymbolAtlas

open Json

structure Project where
  name : String
  /-- The folder of the sources. -/
  root : Path
  dependencies : Std.TreeSet String := {}

structure Solution where
  name : String
  projects : List Project

/-- For each project the projects that it depends on, or that depend on it. -/
abbrev ProjectGraph := Std.TreeMap String (Std.TreeSet String)

namespace Project

def toJson (p : Project) : Json := .record
  [("name", .text p.name), ("root", p.root.toJson),
    ("dependencies", .list (p.dependencies.toList.map .text))]

def ofJson? (j : Json) : Option Project := do
  match ← slots ["name", "root", "dependencies"] j with
  | [name, root, dependencies] =>
    return {
      name := ← required asText name
      root := ← required Path.ofJson? root
      dependencies := .ofList (← defaulted [] (asList asText) dependencies) }
  | _ => none

end Project

namespace Solution

def toJson (s : Solution) : Json := .record
  [("name", .text s.name), ("projects", .list (s.projects.map Project.toJson))]

def ofJson? (j : Json) : Option Solution := do
  match ← slots ["name", "projects"] j with
  | [name, projects] =>
    return {
      name := ← required asText name
      projects := ← required (asList Project.ofJson?) projects }
  | _ => none

/-- The first project of a name. -/
def project? (s : Solution) (name : String) : Option Project :=
  s.projects.find? (·.name == name)

/-- What each project depends on. Of projects with one name the last one counts. -/
def dependencies (s : Solution) : ProjectGraph :=
  s.projects.foldl (fun g p => g.insert p.name p.dependencies) {}

end Solution

/-- The graph with every edge turned round. -/
def ProjectGraph.reverse (g : ProjectGraph) : ProjectGraph :=
  g.toList.foldl (fun r (name, targets) =>
    targets.toList.foldl (fun r target =>
      r.alter target fun sources => some ((sources.getD {}).insert name)) r) {}

end SymbolAtlas
