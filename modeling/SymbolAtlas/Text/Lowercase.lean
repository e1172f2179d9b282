import SymbolAtlas.Text.CaseTable

/-!
# Lowercase text

The full lowercase form of a text. One character can become two, and a capital sigma becomes the
final form `ς` exactly when a cased character stands before it and none after it, where
case-ignorable characters are looked through on both sides.
-/

namespace SymbolAtlas.Text

def isCased (c : Char) : Bool := inRanges casedRanges c.toNat

def isCaseIgnorable (c : Char) : Bool := inRanges caseIgnorableRanges c.toNat

/-- The lowercase form of a character by itself. Only the dotted capital I becomes two. -/
def lowercaseChar (c : Char) : List Char :=
  if c = 'İ' then ['i', Char.ofNat 0x307]
  else match CaseRun.find? lowercaseRuns c.toNat with
    | some n => [Char.ofNat n]
    | none => [c]

/-- Whether the first character that is not looked through has a case. -/
def startsCased : List Char → Bool
  | [] => false
  | c :: rest => if isCaseIgnorable c then startsCased rest else isCased c

/-- The lowercase form of a text that follows other text; `afterCased` says whether the last
character before it that is not looked through has a case. -/
def lowercaseAfter (afterCased : Bool) : List Char → List Char
  | [] => []
  | c :: rest =>
    (if c = 'Σ' then [if afterCased && !startsCased rest then 'ς' else 'σ']
      else lowercaseChar c) ++
    lowercaseAfter (if isCaseIgnorable c then afterCased else isCased c) rest

/-- The letters of the lowercase form of a text. -/
def lowercaseLetters (s : String) : List Char := lowercaseAfter false s.toList

def lowercase (s : String) : String := String.ofList (lowercaseLetters s)

/-- The lowercase form that leaves every character outside ASCII alone. -/
def asciiLowercase (s : String) : String := s.map Char.toLower

end SymbolAtlas.Text
