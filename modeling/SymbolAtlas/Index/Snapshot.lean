import Std.Data.TreeSet
import SymbolAtlas.Collection
import SymbolAtlas.Index.Groups
import SymbolAtlas.Text.Lowercase
import SymbolAtlas.Trie

/-!
# Snapshots

A snapshot of the index holds the symbols of a solution under several keys at once: name without
letter case, qualified name, kind, project, file, and the words of a trie. Several symbols can
share a qualified name, of which one owns it.
-/

namespace SymbolAtlas

structure Snapshot where
  /-- Grows with every change of the index. -/
  generation : Nat := 0
  byName : Groups String := {}
  /-- The owner of each qualified name. -/
  byQualifiedName : Std.TreeMap String Symbol := {}
  byKind : Groups Kind := {}
  byProject : Groups String := {}
  byFile : Groups Place := {}
  /-- How the path of each file was spelled when it came. -/
  spellings : Std.TreeMap Place Path := {}
  trie : Trie Symbol := {}

/-- What a snapshot holds, in numbers. -/
structure Snapshot.Stats where
  generation : Nat
  symbols : Nat
  files : Nat
  projects : Nat
  names : Nat
  trieNodes : Nat
deriving Repr, DecidableEq

/-- Puts a symbol in place of the first one of its identity, or else at the end. -/
def replaceOrAppend (s : Symbol) : List Symbol → List Symbol
  | [] => [s]
  | t :: rest => if t.identity = s.identity then s :: rest else t :: replaceOrAppend s rest

/-- Leaves one symbol of each identity: in the position of the first and with the content of the
last. -/
def distinct (symbols : List Symbol) : List Symbol :=
  let latest : Std.TreeMap Identity Symbol :=
    symbols.foldl (fun m s => m.insert s.identity s) {}
  let firsts := symbols.foldl (fun (acc : Std.TreeSet Identity × List Symbol) s =>
    if acc.1.contains s.identity then acc
    else (acc.1.insert s.identity, (latest[s.identity]?).getD s :: acc.2)) ({}, [])
  firsts.2.reverse

namespace Snapshot

/-- Adds a symbol under all of its keys. It becomes the owner of its qualified name. -/
def insert (x : Snapshot) (s : Symbol) : Snapshot where
  generation := x.generation
  byName := Groups.add x.byName (Text.lowercase s.name) s
  byQualifiedName := match s.qualifiedName with
    | some q => x.byQualifiedName.insert q s
    | none => x.byQualifiedName
  byKind := Groups.add x.byKind s.kind s
  byProject := Groups.add x.byProject s.project s
  byFile := Groups.add x.byFile s.file.place s
  spellings := x.spellings.insertIfNew s.file.place s.file
  trie := x.trie.insert (Text.lowercaseLetters s.name) s

/-- The snapshot of a list of symbols, each identity once. -/
def ofSymbols (generation : Nat) (symbols : List Symbol) : Snapshot :=
  (distinct symbols).foldl insert { generation }

/-- Takes a symbol that is to go out of the groups of its keys. `doomed` tells all that go. -/
def detach (doomed : Symbol → Bool) (x : Snapshot) (s : Symbol) : Snapshot :=
  let keep := fun t => !doomed t
  let byFile := Groups.retain x.byFile s.file.place keep
  { x with
    byName := Groups.retain x.byName (Text.lowercase s.name) keep
    byKind := Groups.retain x.byKind s.kind keep
    byProject := Groups.retain x.byProject s.project keep
    byFile
    spellings := if byFile.contains s.file.place then x.spellings
      else x.spellings.erase s.file.place
    trie := x.trie.remove (Text.lowercaseLetters s.name) doomed }

/-- Finds a new owner for the qualified name of a symbol that went: the last symbol left under
the same name, letter case apart, that carries the qualified name too. -/
def disown (doomed : Symbol → Bool) (x : Snapshot) (s : Symbol) : Snapshot :=
  match s.qualifiedName with
  | none => x
  | some q =>
    match x.byQualifiedName[q]? with
    | none => x
    | some owner =>
      if !doomed owner then x
      else
        let left := Groups.under x.byName (Text.lowercase s.name)
        match left.reverse.find? (·.qualifiedName == some q) with
        | some heir => { x with byQualifiedName := x.byQualifiedName.insert q heir }
        | none => { x with byQualifiedName := x.byQualifiedName.erase q }

/-- Removes symbols that the snapshot holds. -/
def removeAll (x : Snapshot) (symbols : List Symbol) : Snapshot :=
  let identities : Std.TreeSet Identity :=
    symbols.foldl (fun m s => m.insert s.identity) {}
  let doomed := fun (s : Symbol) => identities.contains s.identity
  symbols.foldl (disown doomed) (symbols.foldl (detach doomed) x)

/-! ## Looking up -/

/-- The symbols of a name, letter case apart. -/
def named (x : Snapshot) (name : String) : List Symbol :=
  Groups.under x.byName (Text.lowercase name)

/-- The owner of a qualified name. -/
def qualified? (x : Snapshot) (name : String) : Option Symbol := x.byQualifiedName[name]?

def ofKind (x : Snapshot) (k : Kind) : List Symbol := Groups.under x.byKind k

def inProject (x : Snapshot) (project : String) : List Symbol := Groups.under x.byProject project

def inFile (x : Snapshot) (file : Path) : List Symbol := Groups.under x.byFile file.place

/-- The symbols whose name starts with a text, letter case apart. No name starts with nothing. -/
def startingWith (x : Snapshot) (start : String) : List Symbol :=
  if start.isEmpty then [] else x.trie.extending (Text.lowercaseLetters start)

/-- The symbols of the given files, file by file. -/
def symbolsOf (x : Snapshot) (files : List Place) : List Symbol :=
  files.flatMap (Groups.under x.byFile)

/-- All symbols, file by file in the order of the paths. -/
def symbols (x : Snapshot) : List Symbol := x.symbolsOf x.byFile.keys

/-- The files that have symbols, in the order of their paths. -/
def files (x : Snapshot) : List Path := x.spellings.values

def isEmpty (x : Snapshot) : Bool := x.byFile.isEmpty

def size (x : Snapshot) : Nat := (x.byFile.values.map List.length).foldr (· + ·) 0

def stats (x : Snapshot) : Stats where
  generation := x.generation
  symbols := x.size
  files := x.byFile.size
  projects := x.byProject.size
  names := x.byName.size
  trieNodes := x.trie.nodeCount

end Snapshot

end SymbolAtlas
