import SymbolAtlas.Json.Basic

/-!
# Writing JSON

The written forms of a value: compact, without any blank, and pretty, with every item on a line
of its own and two blanks for each level.
-/

namespace SymbolAtlas.Json

/-- A character between quotes. Quotes, backslashes and controls are escaped. -/
def escapeChar (c : Char) : List Char :=
  if c = '"' then ['\\', '"']
  else if c = '\\' then ['\\', '\\']
  else if c = '\n' then ['\\', 'n']
  else if c = '\r' then ['\\', 'r']
  else if c = '\t' then ['\\', 't']
  else if c.toNat = 8 then ['\\', 'b']
  else if c.toNat = 12 then ['\\', 'f']
  else if c.toNat < 0x20 then
    ['\\', 'u', '0', '0', Nat.digitChar (c.toNat / 16), Nat.digitChar (c.toNat % 16)]
  else [c]

def writeText (s : String) : List Char := '"' :: s.toList.flatMap escapeChar ++ ['"']

def writeNat (n : Nat) : List Char := Nat.toDigits 10 n

def writeNumber (n : Number) : List Char :=
  (if n.negative then ['-'] else []) ++ writeNat n.whole ++
  (if n.fraction.isEmpty then [] else '.' :: n.fraction.flatMap writeNat) ++
  (match n.exponent with
    | none => []
    | some e => 'e' :: (if e < 0 then ['-'] else []) ++ writeNat e.natAbs)

mutual

/-- The compact form of a value. -/
def write : Json → List Char
  | .null => "null".toList
  | .bool b => if b then "true".toList else "false".toList
  | .number n => writeNumber n
  | .text s => writeText s
  | .list items => '[' :: writeItems items ++ [']']
  | .record fields => '{' :: writeFields fields ++ ['}']

/-- The items of a list, between commas. -/
def writeItems : List Json → List Char
  | [] => []
  | [j] => write j
  | j :: rest => write j ++ ',' :: writeItems rest

/-- The fields of a record, between commas. -/
def writeFields : List (String × Json) → List Char
  | [] => []
  | [(name, j)] => writeText name ++ ':' :: write j
  | (name, j) :: rest => writeText name ++ ':' :: write j ++ ',' :: writeFields rest

end

/-- A new line with the blanks of its level. -/
def newLine (level : Nat) : List Char := '\n' :: List.replicate (2 * level) ' '

mutual

/-- The pretty form of a value at a level. -/
def writePretty (level : Nat) : Json → List Char
  | .list [] => ['[', ']']
  | .list items =>
    '[' :: prettyItems (level + 1) items ++ newLine level ++ [']']
  | .record [] => ['{', '}']
  | .record fields =>
    '{' :: prettyFields (level + 1) fields ++ newLine level ++ ['}']
  | j => write j

def prettyItems (level : Nat) : List Json → List Char
  | [] => []
  | [j] => newLine level ++ writePretty level j
  | j :: rest => newLine level ++ writePretty level j ++ ',' :: prettyItems level rest

def prettyFields (level : Nat) : List (String × Json) → List Char
  | [] => []
  | [(name, j)] => newLine level ++ writeText name ++ ':' :: ' ' :: writePretty level j
  | (name, j) :: rest =>
    newLine level ++ writeText name ++ ':' :: ' ' :: writePretty level j ++
      ',' :: prettyFields level rest

end

def compact (j : Json) : String := String.ofList (write j)

def pretty (j : Json) : String := String.ofList (writePretty 0 j)

end SymbolAtlas.Json
