import SymbolAtlas.Cache.Basic
import SymbolAtlas.Collect
import SymbolAtlas.Index.Update

/-!
# Workspaces

A workspace keeps the index of a solution. What was collected for the solution is taken from a
cache where that is possible.
-/

namespace SymbolAtlas

structure Workspace (V : Type) where
  cache : Cache V := {}
  index : Snapshot := {}

namespace Workspace

variable {V : Type}

/-- What was collected for a version of a solution, from the cache or else collected now. -/
def collected (w : Workspace V) (s : Sources) (now : Nat) (solution : Solution)
    (version : Option String) : Except Cache.ClockOverflow (Collection × Workspace V) :=
  match w.cache.getCollection now solution.name version with
  | (some c, cache) => .ok (c, { w with cache })
  | (none, cache) =>
    let c := s.collect solution
    (cache.putCollection now solution.name c version).map fun cache => (c, { w with cache })

/-- Rebuilds the index from what was collected for a version of a solution. -/
def load (w : Workspace V) (s : Sources) (now : Nat) (solution : Solution)
    (version : Option String) : Except Cache.ClockOverflow (Collection × Workspace V) :=
  (w.collected s now solution version).map fun (c, w) =>
    (c, { w with index := w.index.rebuild c })

end Workspace

end SymbolAtlas
