import SymbolAtlas.Decimal.Magnitude
import SymbolAtlas.Decimal.Nearest

/-!
# Decimals with a fixed number of places

The exact value of a float rounded to some places after the point, a half to the even neighbour.
-/

namespace SymbolAtlas.Decimal

/-- A number of units of the last place, with so many places after the point. -/
def placed (places units : Nat) : List Char :=
  let ds := Nat.toDigits 10 units
  let ds := List.replicate (places + 1 - ds.length) '0' ++ ds
  if places = 0 then ds else ds.take (ds.length - places) ++ '.' :: ds.drop (ds.length - places)

/-- The text of a float with so many places after the point. -/
def fixed (places : Nat) (f : Float32) : String :=
  let sign (negative : Bool) : List Char := if negative then ['-'] else []
  match parts32 f with
  | .finite negative m =>
    String.ofList (sign negative ++
      placed places (roundQuotient (m.numerator * Nat.pow 10 places) m.denominator))
  | .infinite negative => String.ofList (sign negative ++ "inf".toList)
  | .notANumber => "NaN"

end SymbolAtlas.Decimal
