import SymbolAtlas.Decimal.Shortest
import SymbolAtlas.Toml.Basic
import SymbolAtlas.Toml.Text

/-!
# Writing TOML

The document of a table: the values of the table first, then its tables, each under its header and
after an empty line. Lists of several items have every item on a line of its own.
-/

namespace SymbolAtlas.Toml

/-- Whether a float is a whole number. -/
def isWhole (f : Float) : Bool :=
  match Decimal.parts f with
  | .finite _ m => m.isWhole
  | _ => false

/-- The text of a float. A whole number has one place after its point, and what is no number has no
sign. -/
def writeFloat (f : Float) : List Char :=
  match Decimal.parts f with
  | .notANumber => "nan".toList
  | _ => (Decimal.text f).toList ++ if isWhole f then ['.', '0'] else []

def writeInteger (n : Int) : List Char :=
  (if n < 0 then ['-'] else []) ++ Nat.toDigits 10 n.natAbs

/-- A key between dots, in quotes if it needs them. -/
def writeKey (key : String) : List Char :=
  let cs := key.toList
  if !cs.isEmpty && cs.all fun c => c.isAlphanum || c = '_' || c = '-' then cs else writeText key

/-- Texts between commas. -/
def separated (separator : List Char) : List (List Char) → List Char
  | [] => []
  | [item] => item
  | item :: rest => item ++ separator ++ separated separator rest

mutual

/-- A value. -/
def writeValue : Toml → List Char
  | .text s => writeText s
  | .integer n => writeInteger n
  | .float f => writeFloat f
  | .boolean b => (if b then "true" else "false").toList
  | .moment spelling => spelling.toList
  | .list [] => ['[', ']']
  | .list [item] => '[' :: writeValue item ++ [']']
  | .list items => '[' :: writeItems items ++ ['\n', ']']
  | .table [] => ['{', '}']
  | .table fields => ['{', ' '] ++ writeFields fields ++ [' ', '}']

/-- Items, each on a line of its own with a comma after it. -/
def writeItems : List Toml → List Char
  | [] => []
  | item :: rest => "\n    ".toList ++ writeValue item ++ ',' :: writeItems rest

def writeFields : List (String × Toml) → List Char
  | [] => []
  | [(key, value)] => writeKey key ++ " = ".toList ++ writeValue value
  | (key, value) :: rest =>
    writeKey key ++ " = ".toList ++ writeValue value ++ ", ".toList ++ writeFields rest

end

mutual

/-- The lines of a table's own values, and the blocks of the tables in it. -/
def writeBlocks (path : List String) : List (String × Toml) → List Char × List (List Char)
  | [] => ([], [])
  | (key, .table fields) :: rest =>
    let (lines, blocks) := writeBlocks path rest
    (lines, writeTable (path ++ [key]) fields ++ blocks)
  | (key, value) :: rest =>
    let (lines, blocks) := writeBlocks path rest
    (writeKey key ++ " = ".toList ++ writeValue value ++ '\n' :: lines, blocks)

/-- The blocks of a table. One that holds nothing but tables needs no header. -/
def writeTable (path : List String) (fields : List (String × Toml)) : List (List Char) :=
  let (lines, blocks) := writeBlocks path fields
  let header := '[' :: separated ['.'] (path.map writeKey) ++ [']', '\n']
  if lines.isEmpty && !blocks.isEmpty then blocks else (header ++ lines) :: blocks

end

/-- The document of a table. -/
def document (fields : List (String × Toml)) : String :=
  let (lines, blocks) := writeBlocks [] fields
  let blocks := if lines.isEmpty then blocks else lines :: blocks
  String.ofList (separated ['\n'] blocks)

end SymbolAtlas.Toml
