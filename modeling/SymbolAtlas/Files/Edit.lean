import SymbolAtlas.Files.Tree
import SymbolAtlas.Watch.Notice

/-!
# Edits

Changes of a file tree, and what is noticed of them.
-/

namespace SymbolAtlas

inductive Edit where
  | write (file : Address) (text : String) (modified : Nat)
  /-- Removes a node and everything below it. -/
  | remove (node : Address)
  | move (source target : Address)
deriving Repr, DecidableEq

/-- A notice by the addresses of its nodes. -/
structure Sighting where
  kind : Notice.Kind
  addresses : List Address
deriving Repr, DecidableEq

namespace FileTree

def edit (t : FileTree) (now : Nat) : Edit → FileTree
  | .write file text modified => t.write now file text modified
  | .remove node => t.remove now node
  | .move source target => t.move now source target

/-- What is noticed when a file is written: that it and its folders are there, if they are new, and
that it has content. -/
def sightWrite (t : FileTree) (file : Address) (text : String) : List Sighting :=
  let created := (Address.way file).filter fun a => (t.node? a).isNone
  created.map (⟨.create, [·]⟩) ++
    if created.contains file && text.isEmpty then [] else [⟨.data, [file]⟩]

/-- What is noticed of an edit, in order. A folder goes after everything below it. -/
def sightings (t : FileTree) : Edit → List Sighting
  | .write file text _ => t.sightWrite file text
  | .remove node =>
    (t.nodes.keys.filter fun a => node.isPrefixOf a).reverse.map (⟨.remove, [·]⟩)
  | .move source target =>
    [⟨.renameFrom, [source]⟩, ⟨.renameTo, [target]⟩, ⟨.renameBoth, [source, target]⟩]

/-! ## Differences -/

/-- The files of a tree, by their addresses. -/
def texts (t : FileTree) : List (Address × String × Nat) :=
  t.nodes.toList.filterMap fun (a, n) =>
    match n with
    | .file text modified => some (a, text, modified)
    | .folder _ => none

/-- The edits that make one tree out of another: files that are gone are removed first, then those
that are new or have changed are written. -/
def edits (t u : FileTree) : List Edit :=
  (t.texts.filterMap fun (a, _, _) => if (u.textAt? a).isNone then some (.remove a) else none) ++
  u.texts.filterMap fun (a, text, modified) =>
    if t.node? a = some (.file text modified) then none else some (.write a text modified)

end FileTree

end SymbolAtlas
