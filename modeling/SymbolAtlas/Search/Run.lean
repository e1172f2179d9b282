import SymbolAtlas.Index.Query
import SymbolAtlas.Search.Ranking

/-!
# Searching a snapshot

A search runs its strategies one after the other, gathers what they find, orders it and keeps the
first hits. In exact mode the qualified name and the name are looked up. Otherwise beginnings of
names, likeness and the query as a pattern are tried in this order, the later ones only while
there are fewer candidates than hits wanted.
-/

namespace SymbolAtlas

variable {σ : Type} [Score σ]

/-- What a search has gathered: the hits, the last one first, and their identities. -/
structure Candidates (σ : Type) where
  seen : Std.TreeSet Identity := {}
  hits : List (Hit σ) := []

namespace Candidates

/-- Takes a hit, unless it scores too little, is not admitted, or its symbol is there already. -/
def offer (o : SearchOptions σ) (c : Candidates σ) (h : Hit σ) : Candidates σ :=
  if Score.less h.score o.minScore || !o.admits h.symbol || c.seen.contains h.symbol.identity then c
  else { seen := c.seen.insert h.symbol.identity, hits := h :: c.hits }

/-- Offers the hits of a strategy, the best first. -/
def offerSorted (o : SearchOptions σ) (c : Candidates σ) (hits : List (Hit σ)) : Candidates σ :=
  (sortBy Hit.offered hits).foldl (offer o) c

def isFull (o : SearchOptions σ) (c : Candidates σ) : Bool := o.maxResults ≤ c.hits.length

end Candidates

namespace Search

/-- The hits of exact mode: the owner of the qualified name, then the symbols of the name. -/
def exactHits (x : Snapshot) (query : String) (o : SearchOptions σ) : List (Hit σ) :=
  (x.qualified? query).toList.map (⟨·, exactQualifiedScore, .exact⟩) ++
  ((x.named query).filter fun s => !o.caseSensitive || s.name == query).map
    (⟨·, exactNameScore, .exact⟩)

/-- The hits among the symbols whose names start with the query. -/
def prefixHits (x : Snapshot) (query : String) (o : SearchOptions σ) : List (Hit σ) :=
  (x.startingWith query).filterMap fun s =>
    (prefixScore? s query o.caseSensitive).map (⟨s, ·, .byPrefix⟩)

/-- The hits among the given symbols by likeness. -/
def fuzzyHits (symbols : List Symbol) (query : String) (o : SearchOptions σ) : List (Hit σ) :=
  symbols.filterMap fun s => (fuzzyScore? s query o.caseSensitive).map (⟨s, ·, .fuzzy⟩)

/-- The hits among the given symbols with the query as a pattern, if it is one. -/
def patternHits (symbols : List Symbol) (query : String) (o : SearchOptions σ) : List (Hit σ) :=
  match Pattern.parse (!o.caseSensitive) query with
  | .error _ => []
  | .ok p => (symbols.filter fun s => p.isMatch s.name).map (⟨·, patternScore, .byPattern⟩)

/-- What the strategies gather, where the symbols of the snapshot are looked through in the order
of `symbols`. -/
def gather (x : Snapshot) (symbols : List Symbol) (query : String) (o : SearchOptions σ) :
    Candidates σ :=
  if o.exact then (exactHits x query o).foldl (Candidates.offer o) {}
  else
    let c : Candidates σ := {}
    let c := if o.byPrefix then c.offerSorted o (prefixHits x query o) else c
    let c := if o.fuzzy && !c.isFull o then c.offerSorted o (fuzzyHits symbols query o) else c
    if o.byPattern && !c.isFull o then c.offerSorted o (patternHits symbols query o) else c

/-- The hits of a search that looks through the symbols in the given order. -/
def runOver (x : Snapshot) (symbols : List Symbol) (query : String) (o : SearchOptions σ) :
    List (Hit σ) :=
  if query.isEmpty || o.maxResults == 0 then []
  else (sortBy o.sort.order (gather x symbols query o).hits.reverse).take o.maxResults

/-- The hits of a search for a query without blanks around it. -/
def run (x : Snapshot) (query : String) (o : SearchOptions σ) : List (Hit σ) :=
  runOver x x.symbols query o

end Search

end SymbolAtlas
