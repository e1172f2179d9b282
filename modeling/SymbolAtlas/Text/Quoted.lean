import SymbolAtlas.Text.Category

/-!
# Quoted text

A text between double quotes as messages show it: quotes, backslashes and the common controls
are escaped with a backslash, and a character that does not show by itself is written with its
code point in hexadecimal.
-/

namespace SymbolAtlas.Text.Quoted

/-- The digits of a code point in lowercase hexadecimal. -/
def hexDigits (n : Nat) : List Char := Nat.toDigits 16 n

/-- A character between quotes. -/
def escape (c : Char) : List Char :=
  if c = Char.ofNat 0 then ['\\', '0']
  else if c = '\t' then ['\\', 't']
  else if c = '\r' then ['\\', 'r']
  else if c = '\n' then ['\\', 'n']
  else if c = '\\' then ['\\', '\\']
  else if c = '"' then ['\\', '"']
  else if 0x20 ≤ c.toNat ∧ c.toNat < 0x7F then [c]
  else if !Category.graphemeExtend.contains c && Category.printable.contains c then [c]
  else ['\\', 'u', '{'] ++ hexDigits c.toNat ++ ['}']

def quote (s : String) : String := String.ofList ('"' :: s.toList.flatMap escape ++ ['"'])

end SymbolAtlas.Text.Quoted
