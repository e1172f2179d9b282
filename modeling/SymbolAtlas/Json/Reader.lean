import SymbolAtlas.Json.Basic
import SymbolAtlas.Text.Digits

/-!
# Reading JSON

The value of a JSON text. Nothing but blanks may stand around the value, controls in texts must
be escaped, escapes of surrogates must come in pairs, and lists and records may not be nested
deeper than 127 levels.
-/

namespace SymbolAtlas.Json

/-- Blanks between the parts of a JSON text. -/
def isBlank (c : Char) : Bool := c = ' ' || c = '\t' || c = '\n' || c = '\r'

def skipBlanks (cs : List Char) : List Char := cs.dropWhile isBlank

/-- The number of four hexadecimal digits. -/
def hex4? (a b c d : Char) : Option Nat := Text.readDigits? 16 [a, b, c, d]

/-- The character that a short escape stands for. -/
def unescape? (c : Char) : Option Char :=
  if c = '"' || c = '\\' || c = '/' then some c
  else if c = 'b' then some (Char.ofNat 8)
  else if c = 'f' then some (Char.ofNat 12)
  else if c = 'n' then some '\n'
  else if c = 'r' then some '\r'
  else if c = 't' then some '\t'
  else none

/-- Reads a text after its opening quote, up to and with its closing quote. -/
def readText : List Char → Option (List Char × List Char)
  | [] => none
  | '"' :: rest => some ([], rest)
  | '\\' :: 'u' :: a :: b :: c :: d :: rest =>
    match hex4? a b c d with
    | none => none
    | some n =>
      if 0xD800 ≤ n ∧ n < 0xDC00 then
        match rest with
        | '\\' :: 'u' :: e :: f :: g :: h :: rest =>
          match hex4? e f g h with
          | none => none
          | some m =>
            if 0xDC00 ≤ m ∧ m < 0xE000 then
              (readText rest).map fun (s, r) =>
                (Char.ofNat (0x10000 + 1024 * (n - 0xD800) + (m - 0xDC00)) :: s, r)
            else none
        | _ => none
      else if 0xDC00 ≤ n ∧ n < 0xE000 then none
      else (readText rest).map fun (s, r) => (Char.ofNat n :: s, r)
  | '\\' :: c :: rest =>
    match unescape? c with
    | none => none
    | some c => (readText rest).map fun (s, r) => (c :: s, r)
  | c :: rest =>
    if c.toNat < 0x20 || c = '\\' then none
    else (readText rest).map fun (s, r) => (c :: s, r)

/-- Reads the whole part of a number: a zero alone, or digits that do not start with one. -/
def readWhole (cs : List Char) : Option (Nat × List Char) :=
  match cs with
  | [] => none
  | c :: rest =>
    if c = '0' then
      match rest with
      | d :: _ => if d.isDigit then none else some (0, rest)
      | [] => some (0, rest)
    else if c.isDigit then
      some (Text.natOfDigits (c :: rest.takeWhile Char.isDigit), rest.dropWhile Char.isDigit)
    else none

/-- Reads the point of a number and the digits after it, if there is one. -/
def readFraction (cs : List Char) : Option (List Nat × List Char) :=
  match cs with
  | '.' :: rest =>
    let digits := rest.takeWhile Char.isDigit
    if digits.isEmpty then none
    else some (digits.map fun c => c.toNat - 48, rest.dropWhile Char.isDigit)
  | _ => some ([], cs)

/-- Reads the exponent of a number, if there is one. -/
def readExponent (cs : List Char) : Option (Option Int × List Char) :=
  match cs with
  | c :: rest =>
    if c = 'e' || c = 'E' then
      let (negative, rest) := match rest with
        | '-' :: rest => (true, rest)
        | '+' :: rest => (false, rest)
        | rest => (false, rest)
      let digits := rest.takeWhile Char.isDigit
      if digits.isEmpty then none
      else
        let n : Int := Text.natOfDigits digits
        some (some (if negative then -n else n), rest.dropWhile Char.isDigit)
    else some (none, cs)
  | [] => some (none, cs)

def readNumber (cs : List Char) : Option (Number × List Char) := do
  let (negative, rest) := match cs with
    | '-' :: rest => (true, rest)
    | rest => (false, rest)
  let (whole, rest) ← readWhole rest
  let (fraction, rest) ← readFraction rest
  let (exponent, rest) ← readExponent rest
  return ({ negative, whole, fraction, exponent }, rest)

/-- Drops a word from the front of a text. -/
def readWord (word : String) (cs : List Char) : Option (List Char) :=
  if word.toList.isPrefixOf cs then some (cs.drop word.length) else none

mutual

/-- Reads a value. At most `depth` lists and records may be open around its items. -/
def readValue (fuel depth : Nat) (cs : List Char) : Option (Json × List Char) :=
  match fuel with
  | 0 => none
  | fuel + 1 =>
    match skipBlanks cs with
    | [] => none
    | '"' :: rest => (readText rest).map fun (s, r) => (.text (String.ofList s), r)
    | '[' :: rest =>
      if depth = 0 then none
      else match skipBlanks rest with
        | ']' :: rest => some (.list [], rest)
        | rest => (readItems fuel (depth - 1) rest).map fun (items, r) => (.list items, r)
    | '{' :: rest =>
      if depth = 0 then none
      else match skipBlanks rest with
        | '}' :: rest => some (.record [], rest)
        | rest => (readFields fuel (depth - 1) rest).map fun (fields, r) => (.record fields, r)
    | c :: rest =>
      if c = 'n' then (readWord "ull" rest).map fun r => (.null, r)
      else if c = 't' then (readWord "rue" rest).map fun r => (.bool true, r)
      else if c = 'f' then (readWord "alse" rest).map fun r => (.bool false, r)
      else (readNumber (c :: rest)).map fun (n, r) => (.number n, r)

/-- Reads the items of a list up to its closing bracket. -/
def readItems (fuel depth : Nat) (cs : List Char) : Option (List Json × List Char) :=
  match fuel with
  | 0 => none
  | fuel + 1 =>
    match readValue fuel depth cs with
    | none => none
    | some (j, rest) =>
      match skipBlanks rest with
      | ',' :: rest => (readItems fuel depth rest).map fun (items, r) => (j :: items, r)
      | ']' :: rest => some ([j], rest)
      | _ => none

/-- Reads the fields of a record up to its closing brace. -/
def readFields (fuel depth : Nat) (cs : List Char) : Option (List (String × Json) × List Char) :=
  match fuel with
  | 0 => none
  | fuel + 1 =>
    match skipBlanks cs with
    | '"' :: rest =>
      match readText rest with
      | none => none
      | some (name, rest) =>
        match skipBlanks rest with
        | ':' :: rest =>
          match readValue fuel depth rest with
          | none => none
          | some (j, rest) =>
            match skipBlanks rest with
            | ',' :: rest =>
              (readFields fuel depth rest).map fun (fields, r) =>
                ((String.ofList name, j) :: fields, r)
            | '}' :: rest => some ([(String.ofList name, j)], rest)
            | _ => none
        | _ => none
    | _ => none

end

/-- How deep lists and records may be nested. -/
def maxDepth : Nat := 127

/-- The value of a JSON text. -/
def parse (s : String) : Option Json :=
  let cs := s.toList
  match readValue (2 * cs.length + 1) maxDepth cs with
  | some (j, rest) => if (skipBlanks rest).isEmpty then some j else none
  | none => none

end SymbolAtlas.Json
