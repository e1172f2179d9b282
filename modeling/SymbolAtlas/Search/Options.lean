import SymbolAtlas.Json.Decode
import SymbolAtlas.Search.Score
import SymbolAtlas.Symbol.Coding

/-!
# Search options

What a search looks at, which symbols it admits, and how it orders them.
-/

namespace SymbolAtlas

open Json

/-- What the hits of a search are ordered by. -/
inductive SortKey where
  | relevance
  | name
  | location
  | kind
  | project
deriving Repr, DecidableEq, Inhabited

namespace SortKey

def all : List SortKey := [.relevance, .name, .location, .kind, .project]

def label : SortKey → String
  | .relevance => "relevance"
  | .name => "name"
  | .location => "location"
  | .kind => "kind"
  | .project => "project"

def ofLabel? (s : String) : Option SortKey := all.find? (·.label == s)

end SortKey

/-- A text that names no sort key, without the blanks around it and in lowercase. -/
structure UnknownSortKey where
  text : String
deriving Repr, DecidableEq

def UnknownSortKey.message (e : UnknownSortKey) : String :=
  "unknown sort strategy: " ++ e.text

/-- The sort key that a text names: blanks around it and letter case in ASCII do not count. -/
def SortKey.ofText (s : String) : Except UnknownSortKey SortKey :=
  let wanted := Text.asciiLowercase (Text.trim s)
  match SortKey.ofLabel? wanted with
  | some k => .ok k
  | none => .error ⟨wanted⟩

structure SearchOptions (σ : Type) where
  caseSensitive : Bool := false
  /-- Only whole names count. -/
  exact : Bool := false
  maxResults : Nat := 100
  sort : SortKey := .relevance
  /-- The kinds that are admitted, in order; none means all. -/
  kinds : List Kind := []
  /-- The projects that are admitted, in order; none means all. -/
  projects : List String := []
  byPrefix : Bool := true
  fuzzy : Bool := true
  byPattern : Bool := true
  minScore : σ
deriving Repr, DecidableEq

namespace SearchOptions

variable {σ : Type}

/-- Whether the lists of kinds and projects admit a symbol. -/
def admits (o : SearchOptions σ) (s : Symbol) : Bool :=
  (o.kinds.isEmpty || o.kinds.contains s.kind) &&
    (o.projects.isEmpty || o.projects.contains s.project)

/-- The options where nothing is said. -/
def standard [Score σ] : SearchOptions σ := { minScore := Score.tenths 0 }

/-- The members of a list in their order, each once. -/
def asSet {α : Type} [Ord α] (xs : List α) : List α :=
  (xs.foldl (fun (m : Std.TreeMap α Unit) x => m.insert x ()) {}).keys

def ofJson? (j : Json) : Option (SearchOptions Float32) := do
  match ← slots ["case_sensitive", "exact_match", "max_results", "sort", "kinds", "projects",
      "prefix", "fuzzy", "regex", "min_score"] j with
  | [caseSensitive, exact, maxResults, sort, kinds, projects, byPrefix, fuzzy, byPattern,
      minScore] =>
    let d : SearchOptions Float32 := standard
    return {
      caseSensitive := ← defaulted d.caseSensitive asBool caseSensitive
      exact := ← defaulted d.exact asBool exact
      maxResults := ← defaulted d.maxResults asNat64 maxResults
      sort := ← defaulted d.sort (asNamed SortKey.ofLabel?) sort
      kinds := asSet (← defaulted d.kinds (asList Kind.ofJson?) kinds)
      projects := asSet (← defaulted d.projects (asList asText) projects)
      byPrefix := ← defaulted d.byPrefix asBool byPrefix
      fuzzy := ← defaulted d.fuzzy asBool fuzzy
      byPattern := ← defaulted d.byPattern asBool byPattern
      minScore := ← defaulted d.minScore asFloat32 minScore }
  | _ => none

end SearchOptions

end SymbolAtlas
