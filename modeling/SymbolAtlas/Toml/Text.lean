import SymbolAtlas.Text.Digits

/-!
# Texts in TOML

The four ways to write a text: between double quotes, where a backslash begins an escape, or
between single quotes, where every character stands for itself, and both of them on one line or,
with the quotes tripled, on several. Also written here is the shortest of them that fits a text.
-/

namespace SymbolAtlas.Toml

/-- Characters that may stand in texts and comments: no controls but the tab. -/
def isPlain (c : Char) : Bool := c = '\t' || (0x20 ≤ c.toNat && c.toNat ≠ 0x7F)

/-- Drops the end of a line. -/
def readNewline : List Char → Option (List Char)
  | '\n' :: rest => some rest
  | '\r' :: '\n' :: rest => some rest
  | _ => none

/-- Blanks inside a line. -/
def isBlank (c : Char) : Bool := c = ' ' || c = '\t'

def skipBlanks (cs : List Char) : List Char := cs.dropWhile isBlank

/-- Drops blanks and the ends of lines. -/
def skipLines : List Char → List Char
  | [] => []
  | '\r' :: '\n' :: rest => skipLines rest
  | c :: rest => if isBlank c || c = '\n' then skipLines rest else c :: rest

/-- The character of a code point that is written with so many digits. -/
def readCodePoint (digits : Nat) (cs : List Char) : Option (Char × List Char) := do
  let ds := cs.take digits
  if ds.length < digits then none
  let n ← Text.readDigits? 16 ds
  if n < 0xD800 || (0xDFFF < n && n < 0x110000) then some (Char.ofNat n, cs.drop digits) else none

/-- The character that a short escape stands for. -/
def unescape? (c : Char) : Option Char :=
  if c = 'b' then some (Char.ofNat 8)
  else if c = 't' then some '\t'
  else if c = 'n' then some '\n'
  else if c = 'f' then some (Char.ofNat 12)
  else if c = 'r' then some '\r'
  else if c = '"' then some '"'
  else if c = '\\' then some '\\'
  else none

/-- Reads an escape after its backslash. -/
def readEscape : List Char → Option (Char × List Char)
  | [] => none
  | c :: rest =>
    if c = 'u' then readCodePoint 4 rest
    else if c = 'U' then readCodePoint 8 rest
    else (unescape? c).map (·, rest)

/-- Reads a text between double quotes after the first quote. -/
def readBasic : Nat → List Char → Option (List Char × List Char)
  | 0, _ => none
  | _ + 1, [] => none
  | fuel + 1, c :: rest =>
    if c = '"' then some ([], rest)
    else if c = '\\' then do
      let (c, rest) ← readEscape rest
      let (cs, rest) ← readBasic fuel rest
      some (c :: cs, rest)
    else if isPlain c then do
      let (cs, rest) ← readBasic fuel rest
      some (c :: cs, rest)
    else none

/-- Reads a text between single quotes after the first quote. -/
def readLiteral : List Char → Option (List Char × List Char)
  | [] => none
  | c :: rest =>
    if c = '\'' then some ([], rest)
    else if isPlain c then (readLiteral rest).map fun (cs, rest) => (c :: cs, rest)
    else none

/-- What follows three quotes: up to two more of them belong to the text. -/
def closing (quote : Char) (rest : List Char) : List Char × List Char :=
  let extra := (rest.takeWhile (· = quote)).take 2
  (extra, rest.drop extra.length)

/-- Reads a text of several lines between double quotes after the first quotes. A backslash at the
end of a line hides all blanks and ends of lines up to the next other character. -/
def readBasicLines : Nat → List Char → Option (List Char × List Char)
  | 0, _ => none
  | _ + 1, [] => none
  | fuel + 1, '"' :: '"' :: '"' :: rest => let _ := fuel; some (closing '"' rest)
  | fuel + 1, '\r' :: '\n' :: rest =>
    (readBasicLines fuel rest).map fun (cs, rest) => ('\n' :: cs, rest)
  | fuel + 1, c :: rest =>
    if c = '\\' then
      if (readNewline (skipBlanks rest)).isSome then readBasicLines fuel (skipLines rest)
      else do
        let (c, rest) ← readEscape rest
        let (cs, rest) ← readBasicLines fuel rest
        some (c :: cs, rest)
    else if isPlain c || c = '\n' then do
      let (cs, rest) ← readBasicLines fuel rest
      some (c :: cs, rest)
    else none

/-- Reads a text of several lines between single quotes after the first quotes. -/
def readLiteralLines : List Char → Option (List Char × List Char)
  | [] => none
  | '\'' :: '\'' :: '\'' :: rest => some (closing '\'' rest)
  | '\r' :: '\n' :: rest => (readLiteralLines rest).map fun (cs, rest) => ('\n' :: cs, rest)
  | c :: rest =>
    if isPlain c || c = '\n' then (readLiteralLines rest).map fun (cs, rest) => (c :: cs, rest)
    else none

/-- Drops an end of a line if there is one. -/
def dropNewline (cs : List Char) : List Char := (readNewline cs).getD cs

/-- Reads a text on one line; nothing if none begins here. -/
def readLineText (cs : List Char) : Option (List Char × List Char) :=
  match cs with
  | '"' :: rest => readBasic (rest.length + 1) rest
  | '\'' :: rest => readLiteral rest
  | _ => none

/-- Reads a text; nothing if none begins here. -/
def readText (cs : List Char) : Option (List Char × List Char) :=
  match cs with
  | '"' :: '"' :: '"' :: rest =>
    let rest := dropNewline rest
    readBasicLines (rest.length + 1) rest
  | '\'' :: '\'' :: '\'' :: rest => readLiteralLines (dropNewline rest)
  | _ => readLineText cs

/-! ## Writing -/

/-- The longest run of a character. -/
def longestRun (c : Char) (cs : List Char) : Nat :=
  (cs.foldl (fun (longest, current) d =>
    if d = c then (max longest (current + 1), current + 1) else (longest, 0)) (0, 0)).1

/-- Whether a character can only be written with an escape. -/
def needsEscape (c : Char) : Bool := c ≠ '\n' && !isPlain c

/-- Four digits of a code point. -/
def hex4 (n : Nat) : List Char :=
  let ds := (Nat.toDigits 16 n).map Char.toUpper
  List.replicate (4 - ds.length) '0' ++ ds

def escapeChar (c : Char) : List Char :=
  if c.toNat = 8 then ['\\', 'b']
  else if c = '\t' then ['\\', 't']
  else if c = '\n' then ['\\', 'n']
  else if c.toNat = 12 then ['\\', 'f']
  else if c = '\r' then ['\\', 'r']
  else if c = '"' then ['\\', '"']
  else if c = '\\' then ['\\', '\\']
  else if isPlain c then [c]
  else '\\' :: 'u' :: hex4 c.toNat

/-- The characters of a text of several lines between double quotes, after some quotes in a row.
The third quote in a row is escaped. -/
def escapeLines (quotes : Nat) : List Char → List Char
  | [] => []
  | c :: rest =>
    if c = '"' then
      if quotes = 2 then '\\' :: '"' :: escapeLines 0 rest else '"' :: escapeLines (quotes + 1) rest
    else if c = '\n' then '\n' :: escapeLines 0 rest
    else escapeChar c ++ escapeLines 0 rest

/-- The quotes before a text of several lines, with an end of a line if the text has one. -/
def opening (quote : Char) (cs : List Char) : List Char :=
  quote :: quote :: quote :: if cs.contains '\n' then ['\n'] else []

/-- A text between quotes: on one line between double quotes if nothing has to be escaped, else
between single quotes if it has none, else on several lines if that saves the escapes. -/
def writeText (s : String) : List Char :=
  let cs := s.toList
  let newline := cs.contains '\n'
  let controls := cs.any needsEscape
  let backslash := cs.contains '\\'
  let doubles := longestRun '"' cs
  let singles := longestRun '\'' cs
  let basic := '"' :: cs.flatMap escapeChar ++ ['"']
  let basicLines := opening '"' cs ++ escapeLines 0 cs ++ List.replicate 3 '"'
  if !controls && !backslash && doubles = 0 && !newline then basic
  else if !controls && singles = 0 && !newline then '\'' :: cs ++ ['\'']
  else if !controls && !backslash && doubles ≤ 2 then basicLines
  else if !controls && singles ≤ 2 then opening '\'' cs ++ cs ++ List.replicate 3 '\''
  else if newline then basicLines else basic

end SymbolAtlas.Toml
