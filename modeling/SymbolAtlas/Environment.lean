import Std.Data.TreeMap
import SymbolAtlas.Path
import SymbolAtlas.Text.Category

/-!
# The environment

Variables with texts as values, and texts that refer to them. `$NAME` and `${NAME}` stand for the
value of a variable, `${NAME:-TEXT}` for a text where the variable is not set, and `$$` for a
dollar sign. A `~` that is a whole text or stands before its first separator is the home folder.
-/

namespace SymbolAtlas

abbrev Environment := Std.TreeMap String String

namespace Environment

/-- The home folder, unless it is not set or empty. -/
def home? (e : Environment) : Option String := (e["HOME"]?).filter (· != "")

/-- What a text with references is made of. -/
inductive Piece where
  | plain (text : List Char)
  /-- The value of a variable, or the text that stands for it where it is not set. -/
  | variable (name : List Char) (fallback : Option (List Char))
deriving Repr, DecidableEq

/-- The characters of the names of variables. -/
def isNameChar (c : Char) : Bool := Text.Category.letterOrNumber.contains c || c = '_'

/-- The part of a text before the first `:-` and the part after it, if there is one. -/
def splitFallback : List Char → Option (List Char × List Char)
  | [] => none
  | ':' :: '-' :: rest => some ([], rest)
  | c :: rest => (splitFallback rest).map fun (name, fallback) => (c :: name, fallback)

/-- The reference between braces. A text that starts with `:-` is all name. -/
def Piece.braced (inside : List Char) : Piece :=
  match splitFallback inside with
  | some (c :: name, fallback) => .variable (c :: name) (some fallback)
  | _ => .variable inside none

theorem length_dropWhile_le (p : Char → Bool) (cs : List Char) :
    (cs.dropWhile p).length ≤ cs.length := (List.dropWhile_sublist p).length_le

/-- The pieces of a text. A brace that is never closed is plain text. -/
def pieces : List Char → List Piece
  | [] => []
  | '$' :: '{' :: rest =>
    if rest.contains '}' then
      .braced (rest.takeWhile (· ≠ '}')) :: pieces ((rest.dropWhile (· ≠ '}')).drop 1)
    else .plain ['$', '{'] :: pieces rest
  | '$' :: '$' :: rest => .plain ['$'] :: pieces rest
  | '$' :: c :: rest =>
    if isNameChar c then
      .variable (c :: rest.takeWhile isNameChar) none :: pieces (rest.dropWhile isNameChar)
    else .plain ['$'] :: pieces (c :: rest)
  | c :: rest => .plain [c] :: pieces rest
termination_by cs => cs.length
decreasing_by
  all_goals simp only [List.length_cons, List.length_drop]
  · have := length_dropWhile_le (· ≠ '}') rest; omega
  · omega
  · omega
  · have := length_dropWhile_le isNameChar rest; omega
  · omega
  · omega

/-- What a piece stands for; nothing for a variable that is not set. -/
def value? (e : Environment) : Piece → Option (List Char)
  | .plain text => some text
  | .variable name fallback => (e[String.ofList name]?.map String.toList).or fallback

/-- A text with the values of variables for the references to them; nothing if one is not set. -/
def fill? (e : Environment) (cs : List Char) : Option (List Char) :=
  ((pieces cs).mapM e.value?).map List.flatten

/-- A text with the home folder for a `~` at its start. -/
def expandHome (e : Environment) (cs : List Char) : List Char :=
  match cs, e.home? with
  | '~' :: rest, some home =>
    if rest.isEmpty || rest.head? = some '/' then home.toList ++ rest else cs
  | _, _ => cs

/-- The text of a path with its references expanded. If a variable is not set, no variable is
expanded. A `~` that comes from a variable is left as it is. -/
def expandLetters (e : Environment) (cs : List Char) : List Char :=
  match e.fill? cs with
  | none => e.expandHome cs
  | some filled =>
    if cs.head? ≠ some '~' && filled.head? = some '~' then filled else e.expandHome filled

/-- The path that a text with references stands for. -/
def expand (e : Environment) (s : String) : Path := ⟨String.ofList (e.expandLetters s.toList)⟩

end Environment

end SymbolAtlas
