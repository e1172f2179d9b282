import SymbolAtlas.Text.CaseTable

/-!
# Sets of characters

A set of characters is a list of ranges of code points that is sorted, with no two ranges
touching. The operations are those of a character class: union, complement, intersection,
difference, and closure under simple case folding.
-/

namespace SymbolAtlas.Text

/-- A set of characters, as the ranges of their code points. -/
structure CharSet where
  ranges : List (Nat × Nat)
deriving Repr, DecidableEq

namespace CharSet

def contains (s : CharSet) (c : Char) : Bool := inRanges s.ranges c.toNat

def empty : CharSet := ⟨[]⟩

/-- Joins the ranges of a list sorted by its first points where they touch or overlap. -/
def join : List (Nat × Nat) → List (Nat × Nat)
  | [] => []
  | (a, b) :: rest =>
    match join rest with
    | [] => [(a, b)]
    | (c, d) :: more => if c ≤ b + 1 then (a, max b d) :: more else (a, b) :: (c, d) :: more

/-- The set that consists of the given ranges, in any order. -/
def ofRanges (rs : List (Nat × Nat)) : CharSet :=
  ⟨join (rs.filter (fun r => r.1 ≤ r.2)
    |>.mergeSort (fun x y => x.1 < y.1 || (x.1 == y.1 && x.2 ≤ y.2)))⟩

def singleton (c : Char) : CharSet := ⟨[(c.toNat, c.toNat)]⟩

def range (first last : Char) : CharSet := ofRanges [(first.toNat, last.toNat)]

def union (s t : CharSet) : CharSet := ofRanges (s.ranges ++ t.ranges)

/-- The gaps between sorted ranges, from `start` to `stop`. -/
def gaps (stop : Nat) : Nat → List (Nat × Nat) → List (Nat × Nat)
  | start, [] => if start ≤ stop then [(start, stop)] else []
  | start, (a, b) :: rest =>
    (if start < a then [(start, a - 1)] else []) ++ gaps stop (b + 1) rest

/-- Code points that are no characters: the surrogates. -/
def surrogates : Nat × Nat := (0xD800, 0xDFFF)

/-- All characters that are not in the set. -/
def complement (s : CharSet) : CharSet :=
  ⟨gaps 0x10FFFF 0 (ofRanges (surrogates :: s.ranges)).ranges⟩

/-- Every character. -/
def any : CharSet := complement empty

def inter (s t : CharSet) : CharSet := complement (union (complement s) (complement t))

def diff (s t : CharSet) : CharSet := inter s (complement t)

def symmDiff (s t : CharSet) : CharSet := union (diff s t) (diff t s)

/-- Every character that folds to another one, with that one. -/
def foldPairs : List (Nat × Nat) :=
  foldRuns.flatMap fun r =>
    (List.range ((r.last - r.first) / r.step + 1)).map fun i =>
      (r.first + i * r.step, r.target + i * r.step)

/-- The set with every character that has the same simple case folding as one of its own. -/
def foldCase (s : CharSet) : CharSet :=
  let touched := foldPairs.filter fun (c, f) => inRanges s.ranges c || inRanges s.ranges f
  let targets := (ofRanges (touched.map fun (_, f) => (f, f))).ranges
  let sources := foldPairs.filter fun (_, f) => inRanges targets f
  ofRanges (s.ranges ++ targets ++ sources.map fun (c, _) => (c, c))

/-- The value of a hexadecimal digit in capitals. -/
def hexDigit (c : Char) : Nat := if c.isDigit then c.toNat - 48 else c.toNat - 55

def hexNumber (cs : List Char) : Nat := cs.foldl (fun n c => 16 * n + hexDigit c) 0

/-- Reads one entry of a table: `41`, `41-5A` or `100-136/2`. -/
def ofEntry (entry : String) : List (Nat × Nat) :=
  let (span, step) := match entry.splitOn "/" with
    | [span, step] => (span, hexNumber step.toList)
    | _ => (entry, 1)
  match span.splitOn "-" with
  | [first, last] =>
    let a := hexNumber first.toList
    let b := hexNumber last.toList
    if step ≤ 1 then [(a, b)]
    else (List.range ((b - a) / step + 1)).map fun i => (a + i * step, a + i * step)
  | _ => let a := hexNumber span.toList; [(a, a)]

/-- Reads the rows of a table, with single spaces between the entries. -/
def ofTable (rows : List String) : CharSet :=
  ofRanges (rows.flatMap fun row => (row.splitOn " ").flatMap ofEntry)

end CharSet

end SymbolAtlas.Text
