import SymbolAtlas.CommandLine.Usage
import SymbolAtlas.Path

/-!
# Commands

What the program can be asked to do on its command line.
-/

namespace SymbolAtlas

/-- What a search command asks for, where it does not leave that to the configuration. -/
structure SearchRequest where
  query : String
  maxResults : Option Nat := none
  exact : Bool := false
  caseSensitive : Bool := false
  sort : Option String := none
  kinds : List String := []
  projects : List String := []
deriving Repr, DecidableEq

/-- The conditions of a lookup command. -/
structure LookupRequest where
  qualifiedName : Option String := none
  name : Option String := none
  start : Option String := none
  kind : Option String := none
  project : Option String := none
  file : Option Path := none
  pattern : Option String := none
deriving Repr, DecidableEq

inductive Command where
  /-- Collects a solution and writes what was collected to a snapshot. -/
  | collect (solution output : Path) (version : Option String)
  /-- Searches a snapshot. -/
  | search (snapshot : Path) (request : SearchRequest)
  /-- Looks symbols of a snapshot up by conditions. -/
  | lookup (snapshot : Path) (request : LookupRequest)
  /-- Counts what is in a snapshot. -/
  | stats (snapshot : Path)
  /-- Keeps the index of a solution current. -/
  | watch (solution : Path)
deriving Repr, DecidableEq

/-- A command with the configuration file that is named, if there is one. -/
structure Request where
  config : Option Path
  command : Command
deriving Repr, DecidableEq

namespace Command

open Usage

def configItem : Item :=
  { name := "config", takes := .path, placeholder := "CONFIG"
    about := "Configuration file (defaults to ./symdex.toml)" }

def pathItem (name placeholder : String) (about : String) : Item :=
  { name, takes := .path, needed := true, placeholder, about }

def textItem (name placeholder : String) (about : String) : Item := { name, placeholder, about }

def flagItem (name : String) : Item := { name, takes := .nothing }

def collectForm : Form where
  name := "collect"
  about := "Collect a solution and write its symbols as a JSON snapshot"
  items := [
    pathItem "solution" "SOLUTION" "Solution description (JSON)",
    { pathItem "output" "OUTPUT" "Snapshot output path" with letter := some 'o' },
    textItem "version" "VERSION" "Version tag used for the symbol cache"]

def searchForm : Form where
  name := "search"
  about := "Ranked search over a snapshot"
  operand := some "QUERY"
  items := [
    pathItem "snapshot" "SNAPSHOT" "",
    { name := "max-results", takes := .number, placeholder := "MAX_RESULTS" },
    flagItem "exact",
    flagItem "case-sensitive",
    textItem "sort" "SORT" "relevance, name, location, kind or project",
    { textItem "kind" "KINDS" "" with many := true },
    { textItem "project" "PROJECTS" "" with many := true }]

def lookupForm : Form where
  name := "lookup"
  about := "Structured index lookup over a snapshot"
  items := [
    pathItem "snapshot" "SNAPSHOT" "",
    textItem "fqn" "FQN" "",
    textItem "name" "NAME" "",
    textItem "prefix" "PREFIX" "",
    textItem "kind" "KIND" "",
    textItem "project" "PROJECT" "",
    { name := "file", takes := .path, placeholder := "FILE" },
    textItem "pattern" "PATTERN" "Case-insensitive regex over names"]

def statsForm : Form where
  name := "stats"
  about := "Print index statistics for a snapshot"
  items := [pathItem "snapshot" "SNAPSHOT" ""]

def watchForm : Form where
  name := "watch"
  about := "Index a solution and keep it current until interrupted"
  items := [pathItem "solution" "SOLUTION" ""]

def program : Program where
  name := "symdex"
  version := "0.1.0"
  about := "Symbol indexing and ranked search engine for multi-project source trees"
  items := [configItem]
  forms := [collectForm, searchForm, lookupForm, statsForm, watchForm]

/-- The path that an option gives. -/
def path (g : Given) (name : String) : Path := ⟨(g.value? name).getD ""⟩

/-- The command of a name with what was given for it. -/
def ofGiven? (name : String) (g : Given) : Option Command :=
  match name with
  | "collect" => some (.collect (path g "solution") (path g "output") (g.value? "version"))
  | "search" => some (.search (path g "snapshot") {
      query := g.operands.headD ""
      maxResults := (g.value? "max-results").bind Decimal.readNat64?
      exact := g.has "exact"
      caseSensitive := g.has "case-sensitive"
      sort := g.value? "sort"
      kinds := g.values "kind"
      projects := g.values "project" })
  | "lookup" => some (.lookup (path g "snapshot") {
      qualifiedName := g.value? "fqn"
      name := g.value? "name"
      start := g.value? "prefix"
      kind := g.value? "kind"
      project := g.value? "project"
      file := (g.value? "file").map Path.mk
      pattern := g.value? "pattern" })
  | "stats" => some (.stats (path g "snapshot"))
  | "watch" => some (.watch (path g "solution"))
  | _ => none

end Command

/-- The request that the arguments of a command line make. -/
def Request.ofArguments (arguments : List String) : Except Usage.Refusal Request := do
  let (name, g) ← Command.program.read (arguments.length + 1) {} arguments
  match Command.ofGiven? name g with
  | none => .error .unfit
  | some command => .ok { config := (g.value? "config").map Path.mk, command }

end SymbolAtlas
