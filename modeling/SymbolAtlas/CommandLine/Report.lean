import SymbolAtlas.Decimal.Fixed
import SymbolAtlas.Index.Snapshot
import SymbolAtlas.Json.Writer
import SymbolAtlas.Search.Ranking

/-!
# Printed lines

How symbols, hits and counts are printed.
-/

namespace SymbolAtlas.Report

/-- A text with blanks after it up to a width. -/
def padded (width : Nat) (s : String) : String := s.pushn ' ' (width - s.length)

/-- The line of a symbol: its kind, its qualified name or else its name, and where it starts. -/
def symbolLine (s : Symbol) : String :=
  padded 14 s.kind.name ++ " " ++ padded 40 (s.qualifiedName.getD s.name) ++ " " ++
    s.file.spelling ++ ":" ++ toString s.range.startLine

/-- The line of a hit: its score with two places, how it was found, and its symbol. -/
def hitLine (h : Hit Float32) : String :=
  Decimal.fixed 2 h.score ++ " " ++ padded 7 h.strategy.name ++ " " ++ symbolLine h.symbol

def statsJson (s : Snapshot.Stats) : Json := .record [
  ("generation", .nat s.generation), ("symbols", .nat s.symbols), ("files", .nat s.files),
  ("projects", .nat s.projects), ("names", .nat s.names), ("trie_nodes", .nat s.trieNodes)]

end SymbolAtlas.Report
