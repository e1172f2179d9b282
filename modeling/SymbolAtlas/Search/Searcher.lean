import SymbolAtlas.Search.Run

/-!
# Searching with remembered results

A searcher remembers the lists that it found for the present state of the index. It forgets them
all when the index has changed and when there are too many.
-/

namespace SymbolAtlas

/-- What a remembered list was found for. -/
structure SearchKey (σ : Type) where
  generation : Nat
  query : String
  options : SearchOptions σ
deriving DecidableEq

structure Searcher (σ : Type) where
  results : List (SearchKey σ × List (Hit σ)) := []
  /-- The generation of the index at the last search. -/
  generation : Nat := 0

namespace Searcher

variable {σ : Type}

/-- How many lists are remembered at most. -/
def limit : Nat := 1024

def size (r : Searcher σ) : Nat := r.results.length

def clear (r : Searcher σ) : Searcher σ := { r with results := [] }

variable [Score σ] [DecidableEq σ]

/-- The list that is remembered for a key. -/
def find? (r : Searcher σ) (key : SearchKey σ) : Option (List (Hit σ)) :=
  (r.results.find? fun entry => entry.1 = key).map (·.2)

/-- Remembers a list, after forgetting all others if there are too many. -/
def remember (r : Searcher σ) (key : SearchKey σ) (hits : List (Hit σ)) : Searcher σ :=
  { r with results := (key, hits) :: if limit ≤ r.results.length then [] else r.results }

/-- Searches a snapshot of the index. -/
def search (r : Searcher σ) (x : Snapshot) (query : String) (o : SearchOptions σ) :
    List (Hit σ) × Searcher σ :=
  let r := if r.generation = x.generation then r
    else { results := [], generation := x.generation }
  let key : SearchKey σ := ⟨x.generation, Text.trim query, o⟩
  match r.find? key with
  | some hits => (hits, r)
  | none =>
    let hits := Search.run x key.query o
    (hits, r.remember key hits)

end Searcher

end SymbolAtlas
