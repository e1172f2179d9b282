import SymbolAtlas.Toml.Draft
import SymbolAtlas.Toml.Moment
import SymbolAtlas.Toml.Text

/-!
# Reading TOML

The table of a TOML document. Keys may not be repeated, numbers must be in range, and lists and
tables inside values may not be nested deeper than 79 levels.
-/

namespace SymbolAtlas.Toml

/-! ## Numbers -/

/-- A text without its underscores, each of which must stand between two digits of a base. -/
def dropUnderscores? (base : Nat) : List Char → Option (List Char)
  | [] => some []
  | [c] => if c = '_' then none else some [c]
  | c :: '_' :: d :: rest =>
    if (Text.digit? base c).isSome && (Text.digit? base d).isSome then
      (dropUnderscores? base (d :: rest)).map (c :: ·)
    else none
  | c :: rest => if c = '_' then none else (dropUnderscores? base rest).map (c :: ·)

/-- The value of digits with underscores in some base. -/
def readBased? (base : Nat) (cs : List Char) : Option Nat :=
  (dropUnderscores? base cs).bind (Text.readDigits? base)

/-- Decimal digits that do not start with a zero unless it is the only one. -/
def readWhole? (cs : List Char) : Option Nat :=
  match cs with
  | '0' :: _ :: _ => none
  | _ => readBased? 10 cs

/-- A whole number that fits 64 bits with a sign. -/
def fit? (n : Int) : Option Int := if -(Nat.pow 2 63) ≤ n ∧ n < Nat.pow 2 63 then some n else none

def readInteger? (cs : List Char) : Option Int :=
  match cs with
  | '0' :: 'x' :: rest => (readBased? 16 rest).bind fun n => fit? n
  | '0' :: 'o' :: rest => (readBased? 8 rest).bind fun n => fit? n
  | '0' :: 'b' :: rest => (readBased? 2 rest).bind fun n => fit? n
  | _ =>
    let (negative, rest) := Decimal.takeSign cs
    (readWhole? rest).bind fun n => fit? (if negative then -n else n)

/-- The exponent of a float; zero if there is none. -/
def readExponent? (cs : List Char) : Option Int :=
  match cs with
  | [] => some 0
  | c :: rest =>
    if c = 'e' || c = 'E' then
      let (negative, rest) := Decimal.takeSign rest
      (readBased? 10 rest).map fun n => if negative then -(n : Int) else n
    else none

/-- A float with a fraction or an exponent, or one of the words for infinity and for what is no
number. A number may be too small but not too great. -/
def readFloat? (cs : List Char) : Option Float :=
  let (negative, rest) := Decimal.takeSign cs
  let isDigit (c : Char) : Bool := c.isDigit || c = '_'
  if rest = "inf".toList || rest = "nan".toList then Decimal.readFloat? (String.ofList cs)
  else do
    let whole := rest.takeWhile isDigit
    let n ← readWhole? whole
    match rest.dropWhile isDigit with
    | [] => none
    | '.' :: rest =>
      let fraction := rest.takeWhile isDigit
      let digits ← dropUnderscores? 10 fraction
      let f ← readBased? 10 fraction
      let e ← readExponent? (rest.dropWhile isDigit)
      inRange (Decimal.nearest negative (n * Nat.pow 10 digits.length + f) (e - digits.length))
    | rest => inRange (Decimal.nearest negative n (← readExponent? rest))
where
  /-- Only the positive infinity is out of range. -/
  inRange (f : Float) : Option Float := if f.isInf && 0 < f then none else some f

/-- The characters that numbers, dates, times and words are made of. -/
def isTokenChar (c : Char) : Bool := c.isAlphanum || "+-_.:".toList.contains c

/-- Reads a value that is neither text, list nor table. A date may be followed by a blank and a
time. -/
def readToken (cs : List Char) : Option (Toml × List Char) :=
  let token := cs.takeWhile isTokenChar
  let rest := cs.dropWhile isTokenChar
  let alone (token : List Char) : Option Toml :=
    if token = "true".toList then some (.boolean true)
    else if token = "false".toList then some (.boolean false)
    else ((Moment.standard? token).map fun m => Toml.moment (String.ofList m))
      |>.or ((readFloat? token).map .float) |>.or ((readInteger? token).map .integer)
  let withTime : Option (Toml × List Char) :=
    match rest with
    | ' ' :: rest => do
      let (_, after) ← Moment.readDate token
      if !after.isEmpty then none
      let m ← Moment.standard? (token ++ ' ' :: rest.takeWhile isTokenChar)
      some (.moment (String.ofList m), rest.dropWhile isTokenChar)
    | _ => none
  withTime.or ((alone token).map (·, rest))

/-! ## Keys -/

def isBareKeyChar (c : Char) : Bool := c.isAlphanum || c = '_' || c = '-'

/-- Reads a key between dots. -/
def readSimpleKey (cs : List Char) : Option (String × List Char) :=
  match readLineText cs with
  | some (key, rest) => some (String.ofList key, rest)
  | none =>
    let key := cs.takeWhile isBareKeyChar
    if key.isEmpty then none else some (String.ofList key, cs.dropWhile isBareKeyChar)

/-- Reads a dotted key of at most so many parts, with the blanks around it. -/
def readKey : Nat → List Char → Option (List String × List Char)
  | 0, _ => none
  | parts + 1, cs => do
    let (part, rest) ← readSimpleKey (skipBlanks cs)
    match skipBlanks rest with
    | '.' :: rest =>
      let (others, rest) ← readKey parts rest
      some (part :: others, rest)
    | rest => some ([part], rest)

/-- How many parts a key may have, and how deep lists and tables may be nested in values. -/
def maxDepth : Nat := 79

/-! ## Values -/

/-- Drops a comment up to the end of its line. -/
def skipComment (cs : List Char) : List Char :=
  match cs with
  | '#' :: rest => rest.dropWhile isPlain
  | _ => cs

/-- Drops blanks, comments and the ends of lines. -/
def skipSpace : Nat → List Char → List Char
  | 0, cs => cs
  | fuel + 1, cs =>
    let cs := skipLines cs
    match cs with
    | '#' :: _ =>
      let rest := skipComment cs
      match readNewline rest with
      | some rest => skipSpace fuel rest
      | none => rest
    | _ => cs

/-- Adds a value to a table under a key. -/
def Draft.put (path : List String) (value : Toml) (fields : Fields) : Option Fields :=
  match path.getLast? with
  | none => none
  | some key => addDotted key value path.dropLast fields

mutual

/-- Reads a value. At most `depth` lists and tables may be open around its items. -/
def readValue (fuel depth : Nat) (cs : List Char) : Option (Toml × List Char) :=
  match fuel with
  | 0 => none
  | fuel + 1 =>
    match cs with
    | [] => none
    | '[' :: rest =>
      if depth = 0 then none
      else (readItems fuel (depth - 1) rest).map fun (items, rest) => (.list items, rest)
    | '{' :: rest =>
      if depth = 0 then none
      else match skipBlanks rest with
        | '}' :: rest => some (.table [], rest)
        | rest => (readFields fuel (depth - 1) [] rest).map fun (fields, rest) =>
            (.table (Draft.finishFields fields), rest)
    | c :: rest =>
      if c = '"' || c = '\'' then
        (readText (c :: rest)).map fun (s, rest) => (.text (String.ofList s), rest)
      else readToken (c :: rest)

/-- Reads the items of a list up to its closing bracket. A comma may follow the last one. -/
def readItems (fuel depth : Nat) (cs : List Char) : Option (List Toml × List Char) :=
  match fuel with
  | 0 => none
  | fuel + 1 =>
    match skipSpace cs.length cs with
    | ']' :: rest => some ([], rest)
    | cs =>
      match readValue fuel depth cs with
      | none => none
      | some (value, rest) =>
        match skipSpace rest.length rest with
        | ',' :: rest =>
          (readItems fuel depth rest).map fun (items, rest) => (value :: items, rest)
        | ']' :: rest => some ([value], rest)
        | _ => none

/-- Reads the fields of a table that is written in a value, up to its closing brace. -/
def readFields (fuel depth : Nat) (fields : Draft.Fields) (cs : List Char) :
    Option (Draft.Fields × List Char) :=
  match fuel with
  | 0 => none
  | fuel + 1 =>
    match readKey maxDepth cs with
    | some (path, '=' :: rest) =>
      match readValue fuel depth (skipBlanks rest) with
      | none => none
      | some (value, rest) =>
        match Draft.put path value fields, skipBlanks rest with
        | some fields, ',' :: rest => readFields fuel depth fields rest
        | some fields, '}' :: rest => some (fields, rest)
        | _, _ => none
    | _ => none

end

/-! ## Documents -/

/-- Reads the end of a line, with a comment before it. -/
def readLineEnd (cs : List Char) : Option (List Char) :=
  match skipComment (skipBlanks cs) with
  | [] => some []
  | rest => readNewline rest

/-- The header of a table or of a table in a list, and what follows the line. -/
def readHeader (cs : List Char) : Option ((Bool × List String) × List Char) :=
  match cs with
  | '[' :: '[' :: rest => do
    let (path, rest) ← readKey maxDepth rest
    match rest with
    | ']' :: ']' :: rest => some ((true, path), ← readLineEnd rest)
    | _ => none
  | '[' :: rest => do
    let (path, rest) ← readKey maxDepth rest
    match rest with
    | ']' :: rest => some ((false, path), ← readLineEnd rest)
    | _ => none
  | _ => none

/-- Opens the table of a header. -/
def Draft.openAt (inList : Bool) (path : List String) (root : Fields) : Option Fields :=
  match path.getLast? with
  | none => none
  | some key => within (if inList then openElement key else openTable key) path.dropLast root

/-- Reads the lines of a document. Values go into the table of the last header. -/
def readLines : Nat → List String → Draft.Fields → List Char → Option Draft.Fields
  | 0, _, _, _ => none
  | fuel + 1, header, root, cs =>
    match skipSpace cs.length cs with
    | [] => some root
    | '[' :: rest => do
      let ((inList, path), rest) ← readHeader ('[' :: rest)
      readLines fuel path (← Draft.openAt inList path root) rest
    | cs =>
      match readKey maxDepth cs with
      | some (path, '=' :: rest) => do
        let (value, rest) ← readValue (2 * rest.length + 2) maxDepth (skipBlanks rest)
        let root ← Draft.within (Draft.put path value) header root
        readLines fuel header root (← readLineEnd rest)
      | _ => none

/-- A text without a byte order mark at its start. -/
def dropMark : List Char → List Char
  | c :: rest => if c.toNat = 0xFEFF then rest else c :: rest
  | [] => []

/-- The fields of the table of a document. -/
def parse (s : String) : Option (List (String × Toml)) :=
  let cs := dropMark s.toList
  (readLines (cs.length + 1) [] [] cs).map Draft.finishFields

end SymbolAtlas.Toml
