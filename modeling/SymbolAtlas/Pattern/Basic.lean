import SymbolAtlas.Text.Category

/-!
# Patterns and what they match

A pattern says which stretches of a text it matches. Its meaning is a function on sets of
positions: from the positions where a match may start to those where it may end. A set of
positions is a number whose bit `i` stands for the position before the character `i`, so a text
of `n` characters has the positions `0` to `n`.
-/

namespace SymbolAtlas

open Text

/-- A condition on a position in a text, which takes no character. -/
inductive Look where
  | textStart
  | textEnd
  /-- The start of the text or after a line feed. -/
  | lineStart
  /-- The end of the text or before a line feed. -/
  | lineEnd
  /-- As `lineStart`, with a carriage return and the pair of both also ending a line. -/
  | anyLineStart
  | anyLineEnd
  | wordBoundary (ascii : Bool)
  | notWordBoundary (ascii : Bool)
  | wordStart (ascii : Bool)
  | wordEnd (ascii : Bool)
  | wordStartHalf (ascii : Bool)
  | wordEndHalf (ascii : Bool)
deriving Repr, DecidableEq

/-- A pattern over atoms: `step` takes one character and `look` takes none. -/
inductive Pattern (σ τ : Type) where
  | empty
  | step (s : σ)
  | look (l : τ)
  | seq (p q : Pattern σ τ)
  | alt (p q : Pattern σ τ)
  /-- At least `least` times, and at most `most` times if there is a bound. -/
  | times (p : Pattern σ τ) (least : Nat) (most : Option Nat)
deriving Repr

namespace Look

/-- The characters of words, in ASCII and in every script. -/
def asciiWord : CharSet := .ofRanges [(0x30, 0x39), (0x41, 0x5A), (0x5F, 0x5F), (0x61, 0x7A)]

def isWordChar (ascii : Bool) : Option Char → Bool
  | none => false
  | some c => if ascii then asciiWord.contains c else
    if c.toNat < 128 then asciiWord.contains c else Category.word.contains c

/-- Whether the condition holds between the characters `before` and `after`. -/
def holds (before after : Option Char) : Look → Bool
  | textStart => before.isNone
  | textEnd => after.isNone
  | lineStart => before.isNone || before == some '\n'
  | lineEnd => after.isNone || after == some '\n'
  | anyLineStart =>
    before.isNone || before == some '\n' || (before == some '\r' && after != some '\n')
  | anyLineEnd =>
    after.isNone || after == some '\r' || (after == some '\n' && before != some '\r')
  | wordBoundary ascii => isWordChar ascii before != isWordChar ascii after
  | notWordBoundary ascii => isWordChar ascii before == isWordChar ascii after
  | wordStart ascii => !isWordChar ascii before && isWordChar ascii after
  | wordEnd ascii => isWordChar ascii before && !isWordChar ascii after
  | wordStartHalf ascii => !isWordChar ascii before
  | wordEndHalf ascii => !isWordChar ascii after

end Look

/-- A set of positions in a text, one bit for each. -/
abbrev Positions := Nat

namespace Pattern

/-- The positions `i` of a list whose entries satisfy `test`. -/
def positionsWhere {α : Type} (test : α → Bool) : List α → Positions
  | [] => 0
  | a :: rest => 2 * positionsWhere test rest + if test a then 1 else 0

/-- The pairs of characters around every position of a text. -/
def surroundings (before : Option Char) : List Char → List (Option Char × Option Char)
  | [] => [(before, none)]
  | c :: rest => (before, some c) :: surroundings (some c) rest

/-- The pattern read against one text: every atom becomes the set of positions where it holds. -/
def resolve (text : List Char) : Pattern CharSet Look → Pattern Positions Positions
  | empty => empty
  | step s => step (positionsWhere s.contains text)
  | look l => look (positionsWhere (fun (b, a) => l.holds b a) (surroundings none text))
  | seq p q => seq (resolve text p) (resolve text q)
  | alt p q => alt (resolve text p) (resolve text q)
  | times p least most => times (resolve text p) least most

/-- Applies `f` at most `n` times and stops early where that changes nothing. -/
def settle (f : Positions → Positions) : Nat → Positions → Positions
  | 0, s => s
  | n + 1, s => if f s = s then s else settle f n (f s)

/-- The positions where a match may end that starts in `s`. A text with `bound - 1` characters
has `bound` positions, so more repetitions than that reach nothing new. -/
def ends (bound : Nat) : Pattern Positions Positions → Positions → Positions
  | empty, s => s
  | step m, s => (s &&& m) <<< 1
  | look m, s => s &&& m
  | seq p q, s => ends bound q (ends bound p s)
  | alt p q, s => ends bound p s ||| ends bound q s
  | times p least most, s =>
    let start := settle (ends bound p) (min least (bound + 1)) s
    let more := match most with
      | none => bound + 1
      | some m => min (m - least) (bound + 1)
    settle (fun t => t ||| ends bound p t) more start

/-- Whether some stretch of the text matches the pattern. -/
def isMatch (p : Pattern CharSet Look) (text : String) : Bool :=
  let cs := text.toList
  let bound := cs.length + 1
  ends bound (resolve cs p) (Nat.pow 2 bound - 1) != 0

/-- About how many bytes a matching table for the pattern takes: every copy of a repeated part
counts, and a character beyond ASCII takes several states. -/
def weight : Pattern CharSet Look → Nat
  | empty => 32
  | step s =>
    let (narrow, wide) := s.ranges.partition fun r => r.2 < 128
    32 + 8 * narrow.length + 60 * wide.length
  | look _ => 32
  | seq p q => weight p + weight q
  | alt p q => weight p + weight q + 40
  | times p least most =>
    match most with
    | none => weight p * max least 1 + 40
    | some m => weight p * m + 40 * (m - least)

end Pattern

end SymbolAtlas
