import SymbolAtlas.Search.Options

/-!
# Ranking

The order of hits. Hits that the sort key does not tell apart are ordered by how long their names
are, then by name, qualified name and place, and last by score.
-/

namespace SymbolAtlas

/-- Which rule found a hit. -/
inductive Strategy where
  | exact
  | byPrefix
  | fuzzy
  | byPattern
deriving Repr, DecidableEq, Inhabited

def Strategy.name : Strategy → String
  | .exact => "exact"
  | .byPrefix => "prefix"
  | .fuzzy => "fuzzy"
  | .byPattern => "regex"

structure Hit (σ : Type) where
  symbol : Symbol
  score : σ
  strategy : Strategy
deriving Repr

/-- The order of symbols that nothing else tells apart. -/
def Symbol.tieBreak (a b : Symbol) : Ordering :=
  (compare a.name.length b.name.length).then <|
  (compare a.name b.name).then <|
  (compare a.qualifiedName b.qualifiedName).then <|
  (a.file.compare b.file).then (compare a.range b.range)

variable {σ : Type} [Score σ]

/-- The order of hits by their scores, the best first. -/
def Hit.byScore (a b : Hit σ) : Ordering := Score.order b.score a.score

/-- The order of hits under a sort key alone. -/
def SortKey.primary (key : SortKey) (a b : Hit σ) : Ordering :=
  let x := a.symbol
  let y := b.symbol
  match key with
  | .relevance => Hit.byScore a b
  | .name => compare (Text.lowercase x.name) (Text.lowercase y.name)
  | .location => (x.file.compare y.file).then (compare x.range y.range)
  | .kind => compare x.kind y.kind
  | .project => compare x.project y.project

/-- The order of the hits of a search. -/
def SortKey.order (key : SortKey) (a b : Hit σ) : Ordering :=
  ((key.primary a b).then (a.symbol.tieBreak b.symbol)).then (Hit.byScore a b)

/-- The order in which the hits of one strategy are offered. -/
def Hit.offered (a b : Hit σ) : Ordering :=
  (Hit.byScore a b).then (a.symbol.tieBreak b.symbol)

/-- Sorts by an order; what the order does not tell apart stays in place. -/
def sortBy {α : Type} (order : α → α → Ordering) (xs : List α) : List α :=
  xs.mergeSort fun a b => order a b != .gt

end SymbolAtlas
