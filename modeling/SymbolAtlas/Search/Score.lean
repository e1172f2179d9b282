import SymbolAtlas.Search.Distance
import SymbolAtlas.Symbol.Basic
import SymbolAtlas.Text.Lowercase

/-!
# Scores

How well a symbol fits a query. The rules only use a few operations on scores, so they can be
read over 32-bit floats, which is what the program computes with, as well as over exact numbers.
-/

namespace SymbolAtlas

/-- The operations that scoring needs. -/
class Score (σ : Type) where
  /-- A number of tenths. -/
  tenths : Nat → σ
  add : σ → σ → σ
  mul : σ → σ → σ
  /-- One less the quotient of two numbers. -/
  complement : Nat → Nat → σ
  less : σ → σ → Bool

namespace Score

variable {σ : Type} [Score σ]

/-- The order of two scores. Where neither is less, they count as equal. -/
def order (a b : σ) : Ordering := if less a b then .lt else if less b a then .gt else .eq

/-- The lesser of a score and one. -/
def atMostOne (a : σ) : σ := if less (tenths 10) a then tenths 10 else a

instance : Score Float32 where
  tenths n := Float32.ofScientific n true 1
  add a b := a + b
  mul a b := a * b
  complement m n := 1 - m.toUInt64.toFloat32 / n.toUInt64.toFloat32
  less a b := a < b

end Score

open Score Text

/-- A text as it is compared: as it stands, or in lowercase. -/
def foldCase (caseSensitive : Bool) (s : String) : List Char :=
  if caseSensitive then s.toList else lowercaseLetters s

/-- How alike two texts are: one less the share of characters that have to change. -/
def similarity {σ : Type} [Score σ] (a b : List Char) : σ :=
  let longest := max a.length b.length
  if longest = 0 then tenths 10 else complement (editDistance a b) longest

variable {σ : Type} [Score σ]

/-- The score of a symbol by what its name or its qualified name starts with: the whole name, a
beginning of the name, of the last segment, or of any segment. -/
def prefixScore? (s : Symbol) (query : String) (caseSensitive : Bool) : Option σ :=
  let query := foldCase caseSensitive query
  let name := foldCase caseSensitive s.name
  let segments := s.segments.map (foldCase caseSensitive)
  if name = query then some (tenths 10)
  else if query.isPrefixOf name then some (tenths 9)
  else if segments.getLast?.any query.isPrefixOf then some (tenths 8)
  else if segments.any query.isPrefixOf then some (tenths 7)
  else none

/-- The score of a symbol by where the query occurs and how alike it is to the name, if the score
is above the least that counts. -/
def fuzzyScore? (s : Symbol) (query : String) (caseSensitive : Bool) : Option σ :=
  let query := foldCase caseSensitive query
  let name := foldCase caseSensitive s.name
  let score : σ := tenths 0
  let score := if occursIn query name then add score (tenths 5) else score
  let score := match s.qualifiedName with
    | some q =>
      if occursIn query (foldCase caseSensitive q) then add score (tenths 3) else score
    | none => score
  let score := add score (mul (tenths 2) (similarity name query))
  if less (tenths 1) score then some (atMostOne score) else none

/-- The scores of the strategies that have no scale. -/
def exactQualifiedScore : σ := tenths 10

def exactNameScore : σ := tenths 9

def patternScore : σ := tenths 5

end SymbolAtlas
