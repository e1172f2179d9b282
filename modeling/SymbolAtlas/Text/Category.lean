import SymbolAtlas.Text.CharSet
import SymbolAtlas.Text.CategoryTable
import SymbolAtlas.Text.ScriptTable

/-!
# Character properties

The characters of a general category, of a script and of the properties that a pattern or a
quotation asks for, found by any spelling of the property's name.
-/

namespace SymbolAtlas.Text.Category

open CategoryTable

/-- The general categories: the short name, the long names and the characters of each. -/
def general : List (String × List String × List String) := [
  ("lu", ["uppercaseletter"], uppercaseLetter), ("ll", ["lowercaseletter"], lowercaseLetter),
  ("lt", ["titlecaseletter"], titlecaseLetter), ("lm", ["modifierletter"], modifierLetter),
  ("lo", ["otherletter"], otherLetter), ("mn", ["nonspacingmark"], nonspacingMark),
  ("mc", ["spacingmark"], spacingMark), ("me", ["enclosingmark"], enclosingMark),
  ("nd", ["decimalnumber", "digit"], decimalNumber), ("nl", ["letternumber"], letterNumber),
  ("no", ["othernumber"], otherNumber), ("pc", ["connectorpunctuation"], connectorPunctuation),
  ("pd", ["dashpunctuation"], dashPunctuation), ("ps", ["openpunctuation"], openPunctuation),
  ("pe", ["closepunctuation"], closePunctuation),
  ("pi", ["initialpunctuation"], initialPunctuation),
  ("pf", ["finalpunctuation"], finalPunctuation), ("po", ["otherpunctuation"], otherPunctuation),
  ("sm", ["mathsymbol"], mathSymbol), ("sc", ["currencysymbol"], currencySymbol),
  ("sk", ["modifiersymbol"], modifierSymbol), ("so", ["othersymbol"], otherSymbol),
  ("zs", ["spaceseparator"], spaceSeparator), ("zl", ["lineseparator"], lineSeparator),
  ("zp", ["paragraphseparator"], paragraphSeparator), ("cc", ["control", "cntrl"], control),
  ("cf", ["format"], format), ("co", ["privateuse"], privateUse)]

/-- The groups of categories: the short name, the long names and the categories of each. -/
def groups : List (String × List String × List String) := [
  ("lc", ["casedletter"], ["lu", "ll", "lt"]),
  ("l", ["letter"], ["lu", "ll", "lt", "lm", "lo"]),
  ("m", ["mark", "combiningmark"], ["mn", "mc", "me"]),
  ("n", ["number"], ["nd", "nl", "no"]),
  ("p", ["punctuation", "punct"], ["pc", "pd", "ps", "pe", "pi", "pf", "po"]),
  ("s", ["symbol"], ["sm", "sc", "sk", "so"]),
  ("z", ["separator"], ["zs", "zl", "zp"])]

/-- The characters of the category with the given short name. -/
def named (short : String) : CharSet :=
  match general.find? (·.1 == short) with
  | some (_, _, table) => .ofTable table
  | none => .empty

/-- The characters of any of the categories with the given short names. -/
def anyNamed (shorts : List String) : CharSet :=
  .ofRanges (shorts.flatMap fun short => (named short).ranges)

/-- Every character that the standard assigns. -/
def assigned : CharSet := anyNamed (general.map (·.1))

/-- A property's name without letter case, blanks, underscores, hyphens and a leading `is`. -/
def normalizeName (name : String) : String :=
  let cs := name.toList.filter fun c => c != ' ' && c != '_' && c != '-'
  let cs := (cs.filter fun c => c.toNat < 128).map Char.toLower
  match cs with
  | ['i', 's', 'c'] => "isc"
  | 'i' :: 's' :: rest => String.ofList rest
  | _ => String.ofList cs

/-- The characters of a general category, by its normalized name. -/
def ofGeneral? (name : String) : Option CharSet :=
  if name == "any" then some .any
  else if name == "assigned" then some assigned
  else if name == "ascii" then some (.ofRanges [(0, 0x7F)])
  else if name == "cn" || name == "unassigned" then some assigned.complement
  else if name == "cs" || name == "surrogate" then some .empty
  else if name == "c" || name == "other" then
    some (.union assigned.complement (anyNamed ["cc", "cf", "co"]))
  else match general.find? fun (short, longs, _) => short == name || longs.contains name with
    | some (_, _, table) => some (.ofTable table)
    | none =>
      (groups.find? fun (short, longs, _) => short == name || longs.contains name).map
        fun (_, _, members) => anyNamed members

/-- The characters of a script, by its normalized name. -/
def ofScript? (name : String) : Option CharSet :=
  (ScriptTable.scripts.find? fun (names, _) =>
    (names.splitOn " ").any (normalizeName · == name)).map fun (_, table) => .ofTable table

/-- The characters of a property that holds or does not hold, by its normalized name. -/
def ofProperty? (name : String) : Option CharSet :=
  if name == "alphabetic" || name == "alpha" then some (.ofTable ScriptTable.alphabetic)
  else if name == "lowercase" || name == "lower" then some (.ofTable ScriptTable.lowercase)
  else if name == "uppercase" || name == "upper" then some (.ofTable ScriptTable.uppercase)
  else if name == "whitespace" || name == "wspace" || name == "space" then
    some (.ofRanges [(9, 13), (0x20, 0x20), (0x85, 0x85), (0xA0, 0xA0), (0x1680, 0x1680),
      (0x2000, 0x200A), (0x2028, 0x2029), (0x202F, 0x202F), (0x205F, 0x205F), (0x3000, 0x3000)])
  else if name == "cased" then some (.ofRanges casedRanges)
  else if name == "caseignorable" || name == "ci" then some (.ofRanges caseIgnorableRanges)
  else if name == "graphemeextend" || name == "grext" then
    some (.ofTable ScriptTable.graphemeExtend)
  else if name == "joincontrol" || name == "joinc" then some (.ofRanges [(0x200C, 0x200D)])
  else if name == "asciihexdigit" || name == "ahex" then
    some (.ofRanges [(0x30, 0x39), (0x41, 0x46), (0x61, 0x66)])
  else if name == "hexdigit" || name == "hex" then
    some (.ofRanges [(0x30, 0x39), (0x41, 0x46), (0x61, 0x66), (0xFF10, 0xFF19),
      (0xFF21, 0xFF26), (0xFF41, 0xFF46)])
  else none

/-- The characters that words are made of: letters and their marks, decimal digits, connecting
punctuation and the joiners. -/
def word : CharSet :=
  .union (.ofTable ScriptTable.alphabetic)
    (.union (anyNamed ["mn", "mc", "me", "nd", "pc"]) (.ofRanges [(0x200C, 0x200D)]))

/-- The decimal digits of every script. -/
def digit : CharSet := named "nd"

/-- White space in any script. -/
def space : CharSet := (ofProperty? "space").getD .empty

/-- Letters in the sense of the property `Alphabetic`. -/
def letter : CharSet := .ofTable ScriptTable.alphabetic

/-- Letters and every kind of number. -/
def letterOrNumber : CharSet := .union letter (anyNamed ["nd", "nl", "no"])

/-- Characters that are shown as they stand: assigned, and neither controls nor format
characters nor private nor white space; the space itself is shown. -/
def printable : CharSet :=
  .union (.singleton ' ')
    (.diff assigned (anyNamed ["cc", "cf", "co", "zl", "zp", "zs"]))

/-- Characters that extend the one before them on the page. -/
def graphemeExtend : CharSet := .ofTable ScriptTable.graphemeExtend

end SymbolAtlas.Text.Category
