import SymbolAtlas.Path
import SymbolAtlas.Text.Lowercase

/-!
# File name extensions

Which files a list of extensions allows. Letter case in ASCII does not count.
-/

namespace SymbolAtlas.Extensions

/-- An extension as it is compared: without leading dots and in lower case. -/
def plain (e : String) : String :=
  Text.asciiLowercase (String.ofList (e.toList.dropWhile (· = '.')))

/-- Whether a path has one of the extensions, which are in their plain form. -/
def lists (extensions : List String) (p : Path) : Bool :=
  match p.extension? with
  | some e => extensions.contains (Text.asciiLowercase e)
  | none => false

/-- Whether a path has one of the extensions, which are compared as they are given but for letter
case. -/
def watch (extensions : List String) (p : Path) : Bool :=
  match p.extension? with
  | some e => extensions.any fun x => Text.asciiLowercase x == Text.asciiLowercase e
  | none => false

end SymbolAtlas.Extensions
