/-!
# Blank characters

The white space of a text, and the text without the white space at its ends.
-/

namespace SymbolAtlas.Text

/-- White space in any script: the ASCII controls from tab to carriage return, the space, and the
spaces and line separators beyond ASCII. A zero-width space is not blank. -/
def isBlank (c : Char) : Bool :=
  let n := c.toNat
  (9 ≤ n && n ≤ 13) || n == 0x20 || n == 0x85 || n == 0xA0 || n == 0x1680 ||
    (0x2000 ≤ n && n ≤ 0x200A) || n == 0x2028 || n == 0x2029 || n == 0x202F || n == 0x205F ||
    n == 0x3000

/-- The text without the blank characters at its start and at its end. -/
def trim (s : String) : String :=
  String.ofList ((s.toList.dropWhile isBlank).reverse.dropWhile isBlank).reverse

end SymbolAtlas.Text
