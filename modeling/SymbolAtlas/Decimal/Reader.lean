import SymbolAtlas.Decimal.Nearest
import SymbolAtlas.Text.Digits

/-!
# Reading decimals

The whole number or the float that a text writes out. A float may have a sign, a point with digits
on at least one side, and an exponent, or it is one of the words for infinity and for what is no
number.
-/

namespace SymbolAtlas.Decimal

/-- The digits of a whole number, if there is nothing else. -/
def readNat? (cs : List Char) : Option Nat :=
  if !cs.isEmpty && cs.all Char.isDigit then some (Text.natOfDigits cs) else none

/-- A sign at the start of a text: whether it is a minus, and the text after it. -/
def takeSign : List Char → Bool × List Char
  | '-' :: rest => (true, rest)
  | '+' :: rest => (false, rest)
  | rest => (false, rest)

/-- A whole number of 64 bits with a sign. -/
def readInt64? (s : String) : Option Int :=
  let (negative, rest) := takeSign s.toList
  (readNat? rest).bind fun n =>
    if negative then if n ≤ Nat.pow 2 63 then some (-n) else none
    else if n < Nat.pow 2 63 then some n else none

/-- A whole number of 64 bits. -/
def readNat64? (s : String) : Option Nat :=
  let digits := match s.toList with
    | '+' :: rest => rest
    | rest => rest
  (readNat? digits).bind fun n => if n < UInt64.size then some n else none

/-- The exponent after the digits of a float; zero if there is nothing. -/
def readExponent? : List Char → Option Int
  | [] => some 0
  | c :: rest =>
    if c = 'e' || c = 'E' then
      let (negative, rest) := takeSign rest
      (readNat? rest).map fun n => if negative then -(n : Int) else n
    else none

/-- The digits of a float before and after its point, and what follows them. -/
def splitFloat (cs : List Char) : List Char × List Char × List Char :=
  let whole := cs.takeWhile Char.isDigit
  match cs.dropWhile Char.isDigit with
  | '.' :: rest => (whole, rest.takeWhile Char.isDigit, rest.dropWhile Char.isDigit)
  | rest => (whole, [], rest)

/-- A float without its sign, where the sign is given. -/
def readUnsigned? (negative : Bool) (cs : List Char) : Option Float :=
  let word := String.ofList (cs.map Char.toLower)
  if word == "inf" || word == "infinity" then
    some (Float.ofBits ((Parts.infinite negative).bits .double).toUInt64)
  else if word == "nan" then some (Float.ofBits (Parts.notANumber.bits .double).toUInt64)
  else
    let (whole, fraction, rest) := splitFloat cs
    if whole.isEmpty && fraction.isEmpty then none
    else (readExponent? rest).map fun e =>
      nearest negative (Text.natOfDigits (whole ++ fraction)) (e - fraction.length)

/-- The float that a text writes out. -/
def readFloat? (s : String) : Option Float :=
  let (negative, rest) := takeSign s.toList
  readUnsigned? negative rest

end SymbolAtlas.Decimal
