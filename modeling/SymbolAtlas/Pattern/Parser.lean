import SymbolAtlas.Pattern.Basic
import SymbolAtlas.Text.Blank

/-!
# Reading patterns

The written form of patterns: literals and escapes, classes with set operations, groups with
flags, alternatives, and counted or uncounted repetition. A pattern always describes text, so
one that could match half a character is refused.
-/

namespace SymbolAtlas

open Text

/-- Why a text is not a pattern. -/
inductive Pattern.Flaw where
  | unclosedGroup
  | unopenedGroup
  | badGroupName
  | repeatedGroupName
  | badFlags
  | lookAround
  | backreference
  | badEscape
  | badCodePoint
  | unknownProperty
  | nothingToRepeat
  | badCount
  | unclosedClass
  | badRange
  | badClassItem
  | matchesHalfCharacters
  | tooDeep
  | tooLarge
deriving Repr, DecidableEq

namespace Pattern.Parser

/-- What the flags of a pattern switch. -/
structure Flags where
  ignoreCase : Bool := false
  multiLine : Bool := false
  dotMatchesNewline : Bool := false
  unicode : Bool := true
  crlf : Bool := false
  ignoreBlank : Bool := false
deriving Repr

/-- The rest of the pattern, the flags in force and the group names taken. -/
structure Cursor where
  rest : List Char
  flags : Flags
  names : List String

abbrev Parse := StateT Cursor (Except Flaw)

def peek : Parse (Option Char) := do return (← get).rest.head?

def setRest (rest : List Char) : Parse Unit := modify fun c => { c with rest }

/-- Drops blanks and comments, where the flags say that they do not count. -/
def skipBlanks : List Char → List Char
  | [] => []
  | c :: rest =>
    if isBlank c then skipBlanks rest
    else if c = '#' then skipComment rest
    else c :: rest
where
  skipComment : List Char → List Char
  | [] => []
  | c :: rest => if c = '\n' then skipBlanks rest else skipComment rest

def skipSpace : Parse Unit := do
  if (← get).flags.ignoreBlank then setRest (skipBlanks (← get).rest)

/-- Moves past one character. -/
def bump : Parse Unit := do setRest ((← get).rest.drop 1)

def bumpSpace : Parse Unit := do bump; skipSpace

/-- The next character, or a flaw at the end of the pattern. -/
def current (flaw : Flaw) : Parse Char := do
  match ← peek with
  | some c => return c
  | none => throw flaw

/-- Moves past `lead` if the rest starts with it. -/
def bumpIf (lead : String) : Parse Bool := do
  let rest := (← get).rest
  if lead.toList.isPrefixOf rest then
    setRest (rest.drop lead.length)
    return true
  return false

/-! ## Sets of characters under the flags -/

/-- Closure under case, for a class of bytes or of characters. -/
def foldFor (flags : Flags) (s : CharSet) : CharSet :=
  if !flags.ignoreCase then s
  else if flags.unicode then s.foldCase
  else
    let letters := CharSet.inter s (.ofRanges [(0x41, 0x5A), (0x61, 0x7A)])
    .ofRanges (s.ranges ++ letters.ranges.map fun (a, b) =>
      if a < 0x61 then (a + 32, b + 32) else (a - 32, b - 32))

/-- All bytes beside those of the set. -/
def byteComplement (s : CharSet) : CharSet := ⟨CharSet.gaps 0xFF 0 s.ranges⟩

def complementFor (flags : Flags) (s : CharSet) : CharSet :=
  if flags.unicode then s.complement else byteComplement s

def negateIf (flags : Flags) (negated : Bool) (s : CharSet) : CharSet :=
  if negated then complementFor flags s else s

/-- A class of bytes describes text only if it is within ASCII. -/
def stepOf (flags : Flags) (s : CharSet) : Parse (Pattern CharSet Look) :=
  if !flags.unicode && s.ranges.any (fun r => 0x80 ≤ r.2) then throw .matchesHalfCharacters
  else return .step s

def asciiDigit : CharSet := .ofRanges [(0x30, 0x39)]

def asciiSpace : CharSet := .ofRanges [(9, 13), (0x20, 0x20)]

/-- The classes `\d`, `\s` and `\w`, and their complements for the capital letters. -/
def shorthand (flags : Flags) (c : Char) : CharSet :=
  let base :=
    if c.toLower == 'd' then if flags.unicode then Category.digit else asciiDigit
    else if c.toLower == 's' then if flags.unicode then Category.space else asciiSpace
    else if flags.unicode then Category.word else Look.asciiWord
  negateIf flags c.isUpper base

/-- The classes between `[:` and `:]`. -/
def asciiClass? (name : String) : Option CharSet :=
  match name with
  | "alnum" => some (.ofRanges [(0x30, 0x39), (0x41, 0x5A), (0x61, 0x7A)])
  | "alpha" => some (.ofRanges [(0x41, 0x5A), (0x61, 0x7A)])
  | "ascii" => some (.ofRanges [(0, 0x7F)])
  | "blank" => some (.ofRanges [(9, 9), (0x20, 0x20)])
  | "cntrl" => some (.ofRanges [(0, 0x1F), (0x7F, 0x7F)])
  | "digit" => some asciiDigit
  | "graph" => some (.ofRanges [(0x21, 0x7E)])
  | "lower" => some (.ofRanges [(0x61, 0x7A)])
  | "print" => some (.ofRanges [(0x20, 0x7E)])
  | "punct" => some (.ofRanges [(0x21, 0x2F), (0x3A, 0x40), (0x5B, 0x60), (0x7B, 0x7E)])
  | "space" => some asciiSpace
  | "upper" => some (.ofRanges [(0x41, 0x5A)])
  | "word" => some Look.asciiWord
  | "xdigit" => some (.ofRanges [(0x30, 0x39), (0x41, 0x46), (0x61, 0x66)])
  | _ => none

/-! ## Escapes -/

/-- What an escape or a plain character stands for. -/
inductive Item where
  | literal (c : Char)
  /-- A byte beyond ASCII, written by its number where characters are bytes. -/
  | highByte
  | set (s : CharSet)
  | look (l : Look)
  | dot

def isMeta (c : Char) : Bool := "\\.+*?()|[]\x7b\x7d^$#&-~".contains c

/-- Characters that a backslash makes literal. -/
def isEscapable (c : Char) : Bool :=
  isMeta c || (c.toNat < 128 && !c.isAlphanum && c != '<' && c != '>')

def isHexDigit (c : Char) : Bool :=
  c.isDigit || ('a' ≤ c && c ≤ 'f') || ('A' ≤ c && c ≤ 'F')

/-- The character with a number in hexadecimal, if it is one. -/
def ofHex (flags : Flags) (short : Bool) (digits : List Char) : Parse Item := do
  let n := CharSet.hexNumber (digits.map Char.toUpper)
  if digits.length > 8 && n > 0xFFFFFFFF then throw .badCodePoint
  if !flags.unicode && short && 0x80 ≤ n && n ≤ 0xFF then return .highByte
  if n < 0xD800 || (0xE000 ≤ n && n ≤ 0x10FFFF) then return .literal (Char.ofNat n)
  throw .badCodePoint

/-- Up to `count` further hexadecimal digits of fixed number. -/
def hexDigits : Nat → Parse (List Char)
  | 0 => return []
  | count + 1 => do
    let c ← current .badEscape
    if !isHexDigit c then throw .badEscape
    bumpSpace
    return c :: (← hexDigits count)

/-- Hexadecimal digits up to the closing brace. -/
def bracedHex : Nat → Parse (List Char)
  | 0 => throw .badEscape
  | fuel + 1 => do
    bumpSpace
    let c ← current .badEscape
    if c = '}' then return []
    if !isHexDigit c then throw .badEscape
    return c :: (← bracedHex fuel)

def hexEscape (kind : Char) : Parse Item := do
  bumpSpace
  let c ← current .badEscape
  let flags := (← get).flags
  if c = '{' then
    let digits ← bracedHex (← get).rest.length
    bumpSpace
    if digits.isEmpty then throw .badEscape
    ofHex flags (kind == 'x') digits
  else
    let digits ← hexDigits (if kind == 'x' then 2 else if kind == 'u' then 4 else 8)
    ofHex flags (kind == 'x') digits

/-- The characters up to the closing brace. -/
def bracedName : Nat → Parse (List Char)
  | 0 => throw .badEscape
  | fuel + 1 => do
    bumpSpace
    let c ← current .badEscape
    if c = '}' then return []
    return c :: (← bracedName fuel)

/-- The characters of a property given by a name, or by a property and its value. -/
def propertySet (name : String) : Option (Bool × CharSet) :=
  let valued (negated : Bool) (property value : String) : Option (Bool × CharSet) :=
    let property := Category.normalizeName property
    let value := Category.normalizeName value
    if property == "gc" || property == "generalcategory" then
      (Category.ofGeneral? value).map (negated, ·)
    else if ["sc", "script", "scx", "scriptextensions"].contains property then
      (Category.ofScript? value).map (negated, ·)
    else none
  match name.splitOn "!=" with
  | property :: first :: more => valued true property ("!=".intercalate (first :: more))
  | _ =>
    match name.splitOn ":" with
    | property :: first :: more => valued false property (":".intercalate (first :: more))
    | _ =>
      match name.splitOn "=" with
      | property :: first :: more => valued false property ("=".intercalate (first :: more))
      | _ =>
        let name := Category.normalizeName name
        let known := if ["cf", "sc", "lc"].contains name then none
          else Category.ofProperty? name
        ((known.or (Category.ofGeneral? name)).or (Category.ofScript? name)).map (false, ·)

def propertyEscape (kind : Char) : Parse Item := do
  bumpSpace
  let c ← current .badEscape
  let name ← if c = '{' then do
      let name ← bracedName (← get).rest.length
      bump
      pure name
    else do
      if c = '\\' then throw .badEscape
      bumpSpace
      pure [c]
  let flags := (← get).flags
  if !flags.unicode then throw .matchesHalfCharacters
  let found := if c = '{' then propertySet (String.ofList name)
    else (Category.ofGeneral? (Category.normalizeName (String.ofList name))).map (false, ·)
  match found with
  | none => throw .unknownProperty
  | some (inverted, s) => return .set (negateIf flags (inverted != (kind == 'P')) (foldFor flags s))

/-- The letters of a special word boundary, between braces. -/
def boundaryName : Nat → Parse (List Char)
  | 0 => return []
  | fuel + 1 => do
    match ← peek with
    | some c =>
      if c.isAlpha || c = '-' then
        bumpSpace
        return c :: (← boundaryName fuel)
      else return []
    | none => return []

/-- A word boundary, possibly of one of the kinds that are named in braces. -/
def boundaryEscape (ascii : Bool) : Parse Item := do
  if (← peek) ≠ some '{' then return .look (.wordBoundary ascii)
  let before := (← get).rest
  bumpSpace
  let c ← current .badEscape
  if !(c.isAlpha || c = '-') then
    setRest before
    return .look (.wordBoundary ascii)
  let name ← boundaryName (← get).rest.length
  if (← peek) ≠ some '}' then throw .badEscape
  bump
  match String.ofList name with
  | "start" => return .look (.wordStart ascii)
  | "end" => return .look (.wordEnd ascii)
  | "start-half" => return .look (.wordStartHalf ascii)
  | "end-half" => return .look (.wordEndHalf ascii)
  | _ => throw .badEscape

/-- An escape, from its backslash on. -/
def escape : Parse Item := do
  bump
  let c ← current .badEscape
  let ascii := !(← get).flags.unicode
  if c.isDigit then throw .backreference
  if c = 'x' || c = 'u' || c = 'U' then hexEscape c
  else if c = 'p' || c = 'P' then propertyEscape c
  else if "dswDSW".contains c then
    bump
    return .set (shorthand (← get).flags c)
  else
    bump
    if isEscapable c then return .literal c
    match c with
    | 'a' => return .literal (Char.ofNat 7)
    | 'f' => return .literal (Char.ofNat 12)
    | 't' => return .literal '\t'
    | 'n' => return .literal '\n'
    | 'r' => return .literal '\r'
    | 'v' => return .literal (Char.ofNat 11)
    | 'A' => return .look .textStart
    | 'z' => return .look .textEnd
    | 'b' => boundaryEscape ascii
    | 'B' => return .look (.notWordBoundary ascii)
    | '<' => return .look (.wordStart ascii)
    | '>' => return .look (.wordEnd ascii)
    | _ => throw .badEscape

/-! ## Classes -/

/-- One character or escape inside a class. -/
def classItem : Parse Item := do
  let c ← current .unclosedClass
  if c = '\\' then escape else do bump; return .literal c

def literalSet (c : Char) : Parse CharSet := do
  if !(← get).flags.unicode && 0x80 ≤ c.toNat then throw .matchesHalfCharacters
  return .singleton c

/-- The next character but one, past what does not count. -/
def peekSecond : Parse (Option Char) := do
  let c ← get
  let rest := c.rest.drop 1
  return (if c.flags.ignoreBlank then skipBlanks rest else rest).head?

/-- A single item of a class or a range. -/
def classRange : Parse CharSet := do
  let first ← classItem
  skipSpace
  let c ← current .unclosedClass
  let next ← peekSecond
  if c ≠ '-' || next == some ']' || next == some '-' then
    match first with
    | .literal c => literalSet c
    | .highByte => return .ofRanges [(0x80, 0xFF)]
    | .set s => return s
    | .look _ | .dot => throw .badClassItem
  else
    bumpSpace
    let _ ← current .unclosedClass
    let last ← classItem
    match first, last with
    | .literal a, .literal b =>
      let _ ← literalSet a
      let _ ← literalSet b
      if b < a then throw .badRange
      return .range a b
    | .literal a, .highByte | .highByte, .literal a => return .ofRanges [(a.toNat, 0xFF)]
    | .highByte, .highByte => return .ofRanges [(0x80, 0xFF)]
    | _, _ => throw .badRange

/-- A class between `[:` and `:]`, if one stands here. -/
def namedClass : Parse (Option CharSet) := do
  let before := (← get).rest
  if !(← bumpIf "[:") then return none
  let negated ← bumpIf "^"
  let rest := (← get).rest
  let name := rest.takeWhile (· ≠ ':')
  setRest (rest.drop name.length)
  let closed ← bumpIf ":]"
  match if closed then asciiClass? (String.ofList name) else none with
  | some s =>
    let flags := (← get).flags
    return some (negateIf flags negated (foldFor flags s))
  | none =>
    setRest before
    return none

/-- A part of a pattern with the levels of nesting inside it. -/
structure Nested (α : Type) where
  value : α
  height : Nat

/-- The levels of nesting of parts in a row. A row of two or more is a level of its own. -/
def rowHeight : List Nat → Nat
  | [] => 0
  | [h] => h
  | hs => hs.foldl max 0 + 1

/-- The hyphens at the start of a class, which stand for themselves. -/
def leadingHyphens : Nat → List (Nested CharSet) → Parse (List (Nested CharSet))
  | 0, items => return items
  | fuel + 1, items => do
    if (← current .unclosedClass) ≠ '-' then return items
    bumpSpace
    leadingHyphens fuel (⟨.singleton '-', 0⟩ :: items)

/-- What has been read of a class: the value before the last operation, that operation if there
is one, and the items since, the last first. -/
structure ClassState where
  left : Nested CharSet := ⟨.empty, 0⟩
  op : Option Char := none
  items : List (Nested CharSet) := []

def ClassState.add (st : ClassState) (item : Nested CharSet) : ClassState :=
  { st with items := item :: st.items }

/-- The value of a class as far as it is read. The operations have one rank and group to the
left. -/
def ClassState.value (flags : Flags) (st : ClassState) : Nested CharSet :=
  let items := st.items.foldr (fun item s => .union s item.value) .empty
  let height := rowHeight (st.items.map (·.height))
  match st.op with
  | none => ⟨items, height⟩
  | some c =>
    let left := foldFor flags st.left.value
    let right := foldFor flags items
    let both :=
      if c = '&' then
        complementFor flags (.union (complementFor flags left) (complementFor flags right))
      else if c = '-' then .diff left right
      else .symmDiff left right
    ⟨both, max st.left.height height + 1⟩

mutual

/-- A class, from its opening bracket on. -/
def classBody (fuel : Nat) : Parse (Nested CharSet) := do
  match fuel with
  | 0 => throw .tooDeep
  | fuel + 1 => do
    bumpSpace
    let mut negated := false
    if (← current .unclosedClass) = '^' then
      negated := true
      bumpSpace
    let mut items ← leadingHyphens (← get).rest.length []
    if items.isEmpty && (← current .unclosedClass) = ']' then
      items := [⟨.singleton ']', 0⟩]
      bumpSpace
    let s ← classItems fuel { items }
    let flags := (← get).flags
    return ⟨negateIf flags negated (foldFor flags s.value), s.height + 1⟩

/-- The items of a class up to its closing bracket. -/
def classItems (fuel : Nat) (st : ClassState) : Parse (Nested CharSet) := do
  match fuel with
  | 0 => throw .tooDeep
  | fuel + 1 => do
    skipSpace
    let c ← current .unclosedClass
    let flags := (← get).flags
    if c = '[' then
      match ← namedClass with
      | some s => classItems fuel (st.add ⟨s, 0⟩)
      | none => classItems fuel (st.add (← classBody fuel))
    else if c = ']' then
      bump
      return st.value flags
    else if (c = '&' || c = '-' || c = '~') && (← get).rest[1]? == some c then
      setRest ((← get).rest.drop 2)
      classItems fuel { left := st.value flags, op := some c }
    else
      classItems fuel (st.add ⟨← classRange, 0⟩)

end

/-! ## Groups and repetition -/

/-- The flags of a group, up to the colon or the closing parenthesis. -/
def flagItems : Nat → Bool → List Char → Flags → Parse Flags
  | 0, _, _, _ => throw .badFlags
  | fuel + 1, negated, seen, flags => do
    let c ← current .badFlags
    if c = ':' || c = ')' then
      if seen.head? == some '-' then throw .badFlags
      return flags
    if seen.contains c then throw .badFlags
    let on := !negated
    let next ← match c with
      | '-' => pure flags
      | 'i' => pure { flags with ignoreCase := on }
      | 'm' => pure { flags with multiLine := on }
      | 's' => pure { flags with dotMatchesNewline := on }
      | 'U' => pure flags
      | 'u' => pure { flags with unicode := on }
      | 'R' => pure { flags with crlf := on }
      | 'x' => pure { flags with ignoreBlank := on }
      | _ => throw .badFlags
    bump
    flagItems fuel (negated || c = '-') (c :: seen) next

/-- A group's name, up to its closing angle bracket. -/
def groupName : Parse Unit := do
  let rest := (← get).rest
  let name := rest.takeWhile (· ≠ '>')
  if name.length = rest.length || name.isEmpty then throw .badGroupName
  let starts (c : Char) : Bool := c = '_' || Category.letter.contains c
  let continues (c : Char) : Bool :=
    "_.[]".contains c || Category.letterOrNumber.contains c
  match name with
  | [] => throw .badGroupName
  | first :: more =>
    if !starts first || !more.all continues then throw .badGroupName
    let name := String.ofList name
    if (← get).names.contains name then throw .repeatedGroupName
    modify fun c => { c with names := name :: c.names }
    setRest (rest.drop (more.length + 2))

/-- What an opening parenthesis starts: a group, or flags for the rest of the present one. -/
inductive Opening where
  | group
  | flagsOnly

def opening : Parse Opening := do
  bumpSpace
  let rest := (← get).rest
  if ["?=", "?!", "?<=", "?<!"].any (fun (s : String) => s.toList.isPrefixOf rest) then
    throw .lookAround
  if (← bumpIf "?P<") || (← bumpIf "?<") then
    groupName
    return .group
  if !(← bumpIf "?") then return .group
  let before ← get
  let _ ← current .unclosedGroup
  let flags ← flagItems (before.rest.length + 1) false [] before.flags
  let closing ← current .badFlags
  let given := before.rest.length - (← get).rest.length
  bump
  if closing = ')' && given = 0 then throw .nothingToRepeat
  modify fun c => { c with flags }
  return if closing = ')' then .flagsOnly else .group

/-- The digits of a count, with the blanks around them. -/
def count : Parse (Option Nat) := do
  setRest ((← get).rest.dropWhile isBlank)
  let digits ← go (← get).rest.length
  setRest ((← get).rest.dropWhile isBlank)
  skipSpace
  if digits.isEmpty then return none
  let n := digits.foldl (fun n c => 10 * n + (c.toNat - 48)) 0
  if n > 0xFFFFFFFF then throw .badCount
  return some n
where
  go : Nat → Parse (List Char)
  | 0 => return []
  | fuel + 1 => do
    match ← peek with
    | some c =>
      if c.isDigit then
        bumpSpace
        return c :: (← go fuel)
      else return []
    | none => return []

/-- The bounds of a counted repetition, from its opening brace on. -/
def bounds : Parse (Nat × Option Nat) := do
  bumpSpace
  let _ ← current .badCount
  let least ← count
  let c ← current .badCount
  let range ← if c = ',' then do
      bumpSpace
      if (← current .badCount) = '}' then
        match least with
        | none => throw .badCount
        | some n => pure (n, none)
      else
        match least, ← count with
        | some n, some m => pure (n, some m)
        | _, _ => throw .badCount
    else match least with
      | none => throw .badCount
      | some n => pure (n, some n)
  if (← peek) ≠ some '}' then throw .badCount
  bumpSpace
  if (← peek) = some '?' then bump
  match range with
  | (n, some m) => if m < n then throw .badCount
  | _ => pure ()
  return range

/-- A literal character under the flags. -/
def literal (c : Char) : Parse (Pattern CharSet Look) := do
  let flags := (← get).flags
  if !flags.ignoreCase then return .step (.singleton c)
  if !flags.unicode && 0x80 ≤ c.toNat then throw .matchesHalfCharacters
  return .step (foldFor flags (.singleton c))

def itemPattern : Item → Parse (Pattern CharSet Look)
  | .literal c => literal c
  | .highByte => throw .matchesHalfCharacters
  | .set s => do stepOf (← get).flags s
  | .look l => return .look l
  | .dot => do
    let flags := (← get).flags
    if !flags.unicode then throw .matchesHalfCharacters
    if flags.dotMatchesNewline then return .step .any
    if flags.crlf then return .step (.complement (.ofRanges [(10, 10), (13, 13)]))
    return .step (.complement (.singleton '\n'))

/-- A character, escape or anchor outside of classes. -/
def primitive (c : Char) : Parse Item := do
  let flags := (← get).flags
  if c = '\\' then escape
  else
    bump
    if c = '.' then return .dot
    if c = '^' then
      return .look (if !flags.multiLine then .textStart
        else if flags.crlf then .anyLineStart else .lineStart)
    if c = '$' then
      return .look (if !flags.multiLine then .textEnd
        else if flags.crlf then .anyLineEnd else .lineEnd)
    return .literal c

/-- A part of a sequence. Without a pattern it stands for flags, which cannot be repeated. -/
abbrev Part := Nested (Option (Pattern CharSet Look))

/-- Puts together what a sequence has read, the last part first. -/
def sequence (parts : List Part) : Nested (Pattern CharSet Look) where
  value := (parts.filterMap (·.value)).foldl (fun later p => match later with
    | .empty => p
    | later => .seq p later) .empty
  height := rowHeight (parts.map (·.height))

/-- Reads alternatives up to a closing parenthesis or the end. `earlier` holds the alternatives
before the present one, with the most levels that one of them has, and `parts` what the present
one has so far, the last first. -/
def alternatives (fuel : Nat) (inGroup : Bool) (earlier : Option (Nested (Pattern CharSet Look)))
    (parts : List Part) : Parse (Nested (Pattern CharSet Look)) := do
  match fuel with
  | 0 => throw .tooDeep
  | fuel + 1 => do
    skipSpace
    let here := sequence parts
    let joined : Nested (Pattern CharSet Look) := match earlier with
      | none => here
      | some p => ⟨.alt p.value here.value, max p.height here.height⟩
    let whole := if earlier.isSome then { joined with height := joined.height + 1 } else joined
    let add (p : Pattern CharSet Look) (height : Nat) : Parse (Nested (Pattern CharSet Look)) :=
      alternatives fuel inGroup earlier (⟨some p, height⟩ :: parts)
    let applyTimes (least : Nat) (most : Option Nat) : Parse (Nested (Pattern CharSet Look)) :=
      match parts with
      | ⟨some p, height⟩ :: before =>
        alternatives fuel inGroup earlier (⟨some (.times p least most), height + 1⟩ :: before)
      | _ => throw .nothingToRepeat
    let repeatable : Bool := match parts with
      | ⟨some _, _⟩ :: _ => true
      | _ => false
    match ← peek with
    | none => if inGroup then throw .unclosedGroup else return whole
    | some '(' =>
      let outer := (← get).flags
      match ← opening with
      | .flagsOnly => alternatives fuel inGroup earlier (⟨none, 0⟩ :: parts)
      | .group =>
        let inner ← alternatives fuel true none []
        modify fun c => { c with flags := outer }
        add inner.value (inner.height + 1)
    | some ')' =>
      if !inGroup then throw .unopenedGroup
      bump
      return whole
    | some '|' =>
      bump
      alternatives fuel inGroup (some joined) []
    | some '[' =>
      let s ← classBody fuel
      add (← stepOf (← get).flags s.value) s.height
    | some '?' =>
      bump
      if (← peek) = some '?' then bump
      applyTimes 0 (some 1)
    | some '*' =>
      bump
      if (← peek) = some '?' then bump
      applyTimes 0 none
    | some '+' =>
      bump
      if (← peek) = some '?' then bump
      applyTimes 1 none
    | some '{' =>
      if !repeatable then throw .nothingToRepeat
      let (least, most) ← bounds
      applyTimes least most
    | some c => add (← itemPattern (← primitive c)) 0

end Pattern.Parser

/-- The most that a pattern may weigh. -/
def Pattern.maxWeight : Nat := 10485760

/-- The most levels of nesting that a pattern may have. -/
def Pattern.maxHeight : Nat := 250

/-- Reads a pattern that ignores letter case from the start, or does not. -/
def Pattern.parse (ignoreCase : Bool) (text : String) :
    Except Pattern.Flaw (Pattern CharSet Look) := do
  let cs := text.toList
  let start : Parser.Cursor := ⟨cs, { ignoreCase }, []⟩
  let (p, _) ← (Parser.alternatives (2 * cs.length + 2) false none []).run start
  if p.height > maxHeight then throw .tooDeep
  if p.value.weight > maxWeight then throw .tooLarge
  return p.value

end SymbolAtlas
