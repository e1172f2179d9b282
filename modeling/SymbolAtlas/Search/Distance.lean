/-!
# Edit distance

The least number of insertions, deletions and substitutions of single characters that turn one
text into another, computed row by row: the row of a part of the first text holds its distances
from all beginnings of the second.
-/

namespace SymbolAtlas

/-- The rest of the row that follows `above`, after the distance `left`. -/
def fillRow (c : Char) (left : Nat) : List Char → List Nat → List Nat
  | d :: ds, diagonal :: up :: above =>
    let here := min (min (diagonal + if c = d then 0 else 1) (up + 1)) (left + 1)
    here :: fillRow c here ds (up :: above)
  | _, _ => []

/-- The row that one more character of the first text leads to. -/
def nextRow (b : List Char) (above : List Nat) (c : Char) : List Nat :=
  match above with
  | [] => []
  | first :: _ => (first + 1) :: fillRow c (first + 1) b above

/-- The edit distance of two texts. -/
def editDistance (a b : List Char) : Nat :=
  ((a.foldl (nextRow b) (List.range (b.length + 1))).getLast?).getD 0

/-- Whether a word occurs in a text. -/
def occursIn (word : List Char) : List Char → Bool
  | [] => word.isEmpty
  | c :: rest => word.isPrefixOf (c :: rest) || occursIn word rest

end SymbolAtlas
