import SymbolAtlas.Pattern.Basic

/-!
# Globs

Globs describe paths. A question mark stands for one letter and a star for any number of them,
where letters are bytes and a slash is none; a double star between slashes, or at either end,
stands for any number of directories. Classes stand in brackets, a bracket that is never closed
is a letter, and alternatives stand in braces. A glob becomes a pattern over bytes.
-/

namespace SymbolAtlas.Glob

open Text

/-- A pattern over bytes, each of them standing as the character of its number. -/
abbrev BytePattern := Pattern CharSet Look

/-- The bytes of a text in UTF-8, as characters. -/
def bytes (s : String) : List Char := s.toUTF8.toList.map fun b => Char.ofNat b.toNat

def charBytes (c : Char) : List Char := bytes (String.singleton c)

def literal (c : Char) : BytePattern :=
  (charBytes c).foldr (fun b p => .seq (.step (CharSet.singleton b)) p) .empty

def slash : BytePattern := .step (CharSet.singleton '/')

/-- Any byte but a slash. -/
def letter : BytePattern := .step (CharSet.singleton '/').complement

def letters : BytePattern := .times letter 0 none

def anything : BytePattern := .times (.step CharSet.any) 0 none

/-- What a piece of a glob is, as far as a double star after it has to know. -/
inductive PieceKind where
  /-- Any directories at the start. -/
  | atStart
  /-- Anything at the end. -/
  | atEnd
  | plain
deriving Repr, DecidableEq

structure Piece where
  kind : PieceKind := .plain
  pattern : BytePattern

/-- Nothing, a slash, or anything up to a slash. -/
def startPiece : Piece := ⟨.atStart, .alt (.times slash 0 (some 1)) (.seq anything slash)⟩

def endPiece : Piece := ⟨.atEnd, .seq slash anything⟩

/-- A slash, or anything between two slashes. -/
def middlePiece : Piece := ⟨.plain, .alt slash (.seq slash (.seq anything slash))⟩

/-- The pieces, the last of which stands first, one after the other. -/
def sequence (pieces : List Piece) : BytePattern :=
  pieces.foldl (fun p piece => .seq piece.pattern p) .empty

/-- The ranges of bytes that a range of characters in a class comes to. -/
def byteRanges (first last : Char) : Option (List (Nat × Nat)) :=
  let single (b : Char) : Nat × Nat := (b.toNat, b.toNat)
  if first = last then some ((charBytes first).map single)
  else
    match (charBytes first).reverse, charBytes last with
    | a :: before, b :: after =>
      if b < a then none
      else some (before.map single ++ (a.toNat, b.toNat) :: after.map single)
    | _, _ => none

/-- A class as it is read: its ranges, the last of which stands first, and whether a range is
open. -/
structure ClassState where
  ranges : List (Char × Char) := []
  isOpen : Bool := false

/-- Ends the open range with a character. -/
def ClassState.extend (s : ClassState) (c : Char) : Option ClassState :=
  match s.ranges with
  | (a, _) :: rest => if c < a then none else some { ranges := (a, c) :: rest }
  | [] => none

inductive ClassReading where
  /-- The class is never closed. -/
  | unclosed
  | invalid
  | closed (ranges : List (Char × Char)) (rest : List Char)

/-- Reads a class up to its closing bracket. A bracket or a dash in front stands for itself, and so
does a dash at the end. -/
def readClass (first : Bool) (s : ClassState) : List Char → ClassReading
  | [] => .unclosed
  | c :: rest =>
    if c = ']' && !first then
      .closed (if s.isOpen then ('-', '-') :: s.ranges else s.ranges) rest
    else if c = '-' && !first && !s.isOpen then readClass false { s with isOpen := true } rest
    else if s.isOpen then
      match s.extend c with
      | some s => readClass false s rest
      | none => .invalid
    else readClass false { s with ranges := (c, c) :: s.ranges } rest

/-- The pattern of a class. -/
def classPattern (negated : Bool) (ranges : List (Char × Char)) : Option BytePattern := do
  let set := CharSet.ofRanges (← ranges.mapM fun (a, b) => byteRanges a b).flatten
  return .step (if negated then set.complement else set)

/-- What follows a double star that is a piece of its own. -/
inductive StarEnd where
  | atEnd
  | slash (rest : List Char)
  | other

/-- How a double star goes on. Within braces it may also end at a comma or a brace. -/
def starEnd (inBraces : Bool) : List Char → StarEnd
  | [] => .atEnd
  | c :: rest =>
    if c = '/' then .slash rest
    else if inBraces && (c = ',' || c = '}') then .atEnd
    else .other

/-- The pieces after a double star, which follows the pieces `done`. -/
def afterDoubleStar (inBraces : Bool) (prev : Option Char) (done : List Piece) (rest : List Char) :
    List Piece × List Char :=
  let twoStars := (⟨.plain, letters⟩ :: ⟨.plain, letters⟩ :: done, rest)
  match done with
  | [] =>
    match rest with
    | [] => ([startPiece], [])
    | c :: more => if c = '/' then ([startPiece], more) else twoStars
  | last :: before =>
    if prev ≠ some '/' then twoStars
    else
      let joined (piece : Piece) : Piece := if last.kind = .plain then piece else last
      match starEnd inBraces rest with
      | .atEnd => (joined endPiece :: before, rest)
      | .slash more => (joined middlePiece :: before, more)
      | .other => twoStars

/-- The alternatives of a group, less those that are empty. -/
def choice (alternatives : List (List Piece)) : BytePattern :=
  match alternatives.filter (!·.isEmpty) with
  | [] => .empty
  | first :: others => others.foldl (fun p q => .alt p (sequence q)) (sequence first)

mutual

/-- Reads pieces to the end or, within braces, to a comma or the closing brace. `literalBrackets`
says that brackets are letters. -/
def readPieces (fuel : Nat) (inBraces literalBrackets : Bool) (prev : Option Char)
    (done : List Piece) (cs : List Char) : Option (List Piece × List Char × Bool) :=
  match fuel, cs with
  | 0, _ => none
  | _ + 1, [] => some (done, [], literalBrackets)
  | fuel + 1, c :: rest =>
    let plain (p : BytePattern) (rest : List Char) :=
      readPieces fuel inBraces literalBrackets (some c) (⟨.plain, p⟩ :: done) rest
    if c = '?' then plain letter rest
    else if c = '*' then
      match rest with
      | '*' :: more =>
        let (pieces, rest) := afterDoubleStar inBraces prev done more
        let prev := if rest.length < more.length then some '/' else some '*'
        readPieces fuel inBraces literalBrackets prev pieces rest
      | _ => plain letters rest
    else if c = '[' && !literalBrackets then
      let (negated, inside) := match rest with
        | d :: more => if d = '!' || d = '^' then (true, more) else (false, rest)
        | [] => (false, [])
      match readClass true {} inside with
      | .invalid => none
      | .unclosed =>
        readPieces fuel inBraces true (some c) (⟨.plain, literal c⟩ :: done) rest
      | .closed ranges more =>
        match classPattern negated ranges with
        | none => none
        | some p =>
          readPieces fuel inBraces literalBrackets (some ']') (⟨.plain, p⟩ :: done) more
    else if c = '{' then
      match readAlternatives fuel literalBrackets rest with
      | none => none
      | some (alternatives, rest, literalBrackets) =>
        readPieces fuel inBraces literalBrackets (some '}')
          (⟨.plain, choice alternatives⟩ :: done) rest
    else if c = '}' then if inBraces then some (done, cs, literalBrackets) else none
    else if c = ',' && inBraces then some (done, cs, literalBrackets)
    else if c = '\\' then
      match rest with
      | [] => none
      | d :: more =>
        readPieces fuel inBraces literalBrackets (some d) (⟨.plain, literal d⟩ :: done) more
    else plain (literal c) rest

/-- Reads the alternatives of a group up to its closing brace. -/
def readAlternatives (fuel : Nat) (literalBrackets : Bool) (cs : List Char) :
    Option (List (List Piece) × List Char × Bool) :=
  match fuel with
  | 0 => none
  | fuel + 1 =>
    match readPieces fuel true literalBrackets none [] cs with
    | some (pieces, ',' :: rest, literalBrackets) =>
      (readAlternatives fuel literalBrackets rest).map fun (others, r) => (pieces :: others, r)
    | some (pieces, '}' :: rest, literalBrackets) => some ([pieces], rest, literalBrackets)
    | _ => none

end

/-- The pattern that a glob stands for. -/
def parse (glob : String) : Option BytePattern := do
  let cs := glob.toList
  let (pieces, _, _) ← readPieces (2 * cs.length + 2) false false none [] cs
  let body := match pieces with
    | [⟨.atStart, _⟩] => anything
    | pieces => sequence pieces
  return .seq (.look .textStart) (.seq body (.look .textEnd))

/-- Whether a path as a whole is described. -/
def isMatch (p : BytePattern) (path : String) : Bool := p.isMatch (String.ofList (bytes path))

end SymbolAtlas.Glob
