import SymbolAtlas.Index.Snapshot

/-!
# Changing the index

The index is rebuilt from a collection, or the symbols of some files are replaced. Each change
raises the generation by one.
-/

namespace SymbolAtlas

/-- How many symbols a change added, removed and gave new content. -/
structure Delta where
  added : Nat
  removed : Nat
  updated : Nat
deriving Repr, DecidableEq

def Delta.isEmpty (d : Delta) : Bool := d.added == 0 && d.removed == 0 && d.updated == 0

namespace Snapshot

/-- The index of what was collected, in place of this one. -/
def rebuild (x : Snapshot) (c : Collection) : Snapshot := ofSymbols (x.generation + 1) c.symbols

/-- The index without symbols, in place of this one. -/
def clear (x : Snapshot) : Snapshot := { generation := x.generation + 1 }

/-- The symbols that make way for `incoming` when the given files are replaced: those of the
files, and for each incoming symbol of another file the one there of its identity. -/
def displaced (x : Snapshot) (files : List Path) (incoming : List Symbol) : List Symbol :=
  let places := files.map Path.place
  places.flatMap (Groups.under x.byFile) ++
    incoming.filterMap fun s =>
      if places.contains s.file.place then none
      else (x.inFile s.file).find? (·.identity == s.identity)

/-- The change that replacing `old` symbols by `incoming` ones makes. Both hold every identity
once, apart from repetitions among the old ones. -/
def deltaOf (old incoming : List Symbol) : Delta :=
  let before : Std.TreeSet Identity := old.foldl (fun m s => m.insert s.identity) {}
  let updated := incoming.countP fun s => before.contains s.identity
  { added := incoming.length - updated, removed := before.size - updated, updated }

/-- Puts symbols in place of those of some files. A symbol of another file replaces the one of
its identity there. -/
def replaceFiles (x : Snapshot) (files : List Path) (symbols : List Symbol) :
    Snapshot × Delta :=
  let incoming := distinct symbols
  let old := x.displaced files incoming
  let y := incoming.foldl insert (x.removeAll old)
  ({ y with generation := x.generation + 1 }, deltaOf old incoming)

def removeFiles (x : Snapshot) (files : List Path) : Snapshot × Delta := x.replaceFiles files []

end Snapshot

end SymbolAtlas
