import SymbolAtlas.Path

/-!
# Sets of paths

A set of paths that each lead to a place of its own. A path that is added under another spelling
is there already.
-/

namespace SymbolAtlas

theorem PathSet.leads_empty :
    ∀ (p : Place) (q : Path), ({} : Std.TreeMap Place Path)[p]? = some q → q.place = p := by
  simp

structure PathSet where
  /-- The paths under the places to which they lead. -/
  paths : Std.TreeMap Place Path := {}
  leads : ∀ (p : Place) q, paths[p]? = some q → q.place = p := by exact PathSet.leads_empty

namespace PathSet

/-- The path that leads to a place. -/
def at? (s : PathSet) (p : Place) : Option Path := s.paths[p]?

def contains (s : PathSet) (p : Place) : Bool := s.paths.contains p

/-- The paths in their order. -/
def toList (s : PathSet) : List Path := s.paths.values

/-- Adds a path, unless another spelling of it is there. -/
def add (s : PathSet) (p : Path) : PathSet where
  paths := s.paths.insertIfNew p.place p
  leads k q h := by
    rw [Std.TreeMap.getElem?_insertIfNew] at h
    split at h
    · next hk =>
      simp only [Std.LawfulEqCmp.compare_eq_iff_eq] at hk
      simp only [Option.some.injEq] at h
      rw [← h, hk.1]
    · exact s.leads k q h

/-- Takes out the path that leads to a place. -/
def erase (s : PathSet) (p : Place) : PathSet where
  paths := s.paths.erase p
  leads k q h := by
    rw [Std.TreeMap.getElem?_erase] at h
    split at h
    · simp at h
    · exact s.leads k q h

/-- Adds the paths of another set. -/
def addAll (s t : PathSet) : PathSet := t.toList.foldl add s

end PathSet

end SymbolAtlas
