import SymbolAtlas.Index.Snapshot
import SymbolAtlas.Pattern.Parser

/-!
# Queries

A query names conditions on symbols. Its answer starts from the most selective lookup that a
condition allows and keeps what satisfies them all.
-/

namespace SymbolAtlas

open Json

structure Query where
  qualifiedName : Option String := none
  name : Option String := none
  /-- What the name starts with, letter case apart. -/
  start : Option String := none
  kind : Option Kind := none
  project : Option String := none
  file : Option Path := none
  namePattern : Option String := none
deriving Repr, DecidableEq

/-- A pattern for names that cannot be read. -/
structure InvalidPattern where
  pattern : String
  flaw : Pattern.Flaw
deriving Repr, DecidableEq

namespace Query

def isEmpty (q : Query) : Bool :=
  q.qualifiedName.isNone && q.name.isNone && q.start.isNone && q.kind.isNone &&
    q.project.isNone && q.file.isNone && q.namePattern.isNone

/-- A condition that is not set holds of everything. -/
def allows {α : Type} (condition : Option α) (test : α → Bool) : Bool :=
  match condition with
  | none => true
  | some a => test a

/-- Whether a symbol satisfies the conditions, where `test` stands for the pattern. -/
def accepts (q : Query) (test : String → Bool) (s : Symbol) : Bool :=
  allows q.qualifiedName (fun f => s.qualifiedName == some f) &&
  allows q.file s.file.same &&
  allows q.name (fun n => Text.lowercase s.name == Text.lowercase n) &&
  allows q.start (fun p => (Text.lowercaseLetters p).isPrefixOf (Text.lowercaseLetters s.name)) &&
  allows q.project (s.project == ·) &&
  allows q.kind (s.kind == ·) &&
  test s.name

/-- A query given as a list has all of its conditions. -/
def ofJson? (j : Json) : Option Query := do
  if let .list items := j then
    if items.length < 7 then none
  match ← slots ["fully_qualified_name", "name", "prefix", "kind", "project", "file",
      "name_pattern"] j with
  | [qualifiedName, name, start, kind, project, file, namePattern] =>
    return {
      qualifiedName := ← optional asText qualifiedName
      name := ← optional asText name
      start := ← optional asText start
      kind := ← optional Kind.ofJson? kind
      project := ← optional asText project
      file := ← optional Path.ofJson? file
      namePattern := ← optional asText namePattern }
  | _ => none

end Query

namespace Snapshot

/-- The symbols that an answer starts from. -/
def candidates (x : Snapshot) (q : Query) : List Symbol :=
  match q.qualifiedName, q.file, q.name, q.start, q.project, q.kind with
  | some f, _, _, _, _, _ => (x.qualified? f).toList
  | none, some file, _, _, _, _ => x.inFile file
  | none, none, some n, _, _, _ => x.named n
  | none, none, none, some p, _, _ => x.startingWith p
  | none, none, none, none, some project, _ => x.inProject project
  | none, none, none, none, none, some k => x.ofKind k
  | none, none, none, none, none, none => x.symbols

/-- The symbols that satisfy all conditions, where `test` stands for the pattern. -/
def select (x : Snapshot) (q : Query) (test : String → Bool) : List Symbol :=
  (x.candidates q).filter (q.accepts test)

/-- The answer to a query. A pattern that cannot be read has none. -/
def query (x : Snapshot) (q : Query) : Except InvalidPattern (List Symbol) :=
  match q.namePattern with
  | none => .ok (x.select q fun _ => true)
  | some written =>
    match Pattern.parse true written with
    | .error flaw => .error ⟨written, flaw⟩
    | .ok p => .ok (x.select q p.isMatch)

end Snapshot

end SymbolAtlas
