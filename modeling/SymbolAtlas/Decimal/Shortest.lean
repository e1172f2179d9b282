import SymbolAtlas.Decimal.Magnitude

/-!
# Shortest decimals

The decimal number with the fewest digits that reads back as a float; of those with as few digits
the one nearest to the float.
-/

namespace SymbolAtlas.Decimal

/-- The number `digits * 10 ^ exponent`. -/
structure Scientific where
  digits : Nat
  exponent : Int
deriving Repr, DecidableEq

namespace Magnitude

/-- The multiple of `10 ^ k` that reads back as the magnitude, if there is one; the nearer of two,
and the greater of two that are equally near. Numbers are compared in quarters of the last place of
the mantissa. The ends of the interval of numbers that read back count if the mantissa is even. -/
def onGrid? (m : Magnitude) (k : Int) : Option Nat :=
  let a := Nat.pow 10 k.toNat * Nat.pow 2 (2 - m.exponent).toNat
  let b := Nat.pow 2 (m.exponent - 2).toNat * Nat.pow 10 (-k).toNat
  let value := 4 * m.mantissa * b
  let low := (if m.nearBelow then 4 * m.mantissa - 1 else 4 * m.mantissa - 2) * b
  let high := (4 * m.mantissa + 2) * b
  let readsBack (c : Nat) : Bool :=
    if m.mantissa % 2 = 0 then low ≤ c * a && c * a ≤ high else low < c * a && c * a < high
  let below := value / a
  match readsBack below, readsBack (below + 1) with
  | true, true => some (if 2 * value < (2 * below + 1) * a then below else below + 1)
  | true, false => some below
  | false, true => some (below + 1)
  | false, false => none

/-- Looks for a decimal that reads back on finer and finer grids. -/
def search (m : Magnitude) : Nat → Int → Scientific
  | 0, k => { digits := 0, exponent := k }
  | fuel + 1, k =>
    match m.onGrid? k with
    | some digits => { digits, exponent := k }
    | none => search m fuel (k - 1)

/-- A power of ten that the magnitude does not exceed. -/
def decade (m : Magnitude) : Int := (m.mantissa.log2 + 1 + m.exponent) * 30103 / 100000 + 1

/-- The shortest decimal that reads back as the magnitude. Eighteen grids are enough. -/
def shortest (m : Magnitude) : Scientific :=
  if m.mantissa = 0 then { digits := 0, exponent := 0 } else m.search 24 m.decade

end Magnitude

namespace Scientific

def zeros (n : Nat) : List Char := List.replicate n '0'

/-- The number without an exponent. A number below one has one zero before its point. -/
def positional (s : Scientific) : List Char :=
  let ds := Nat.toDigits 10 s.digits
  let places := (-s.exponent).toNat
  if 0 ≤ s.exponent then if s.digits = 0 then ['0'] else ds ++ zeros s.exponent.toNat
  else if places < ds.length then
    ds.take (ds.length - places) ++ '.' :: ds.drop (ds.length - places)
  else '0' :: '.' :: zeros (places - ds.length) ++ ds

end Scientific

/-- The text of a float: its shortest decimal without an exponent. -/
def text (f : Float) : String :=
  let sign (negative : Bool) : List Char := if negative then ['-'] else []
  match parts f with
  | .finite negative m => String.ofList (sign negative ++ m.shortest.positional)
  | .infinite negative => String.ofList (sign negative ++ "inf".toList)
  | .notANumber => "NaN"

end SymbolAtlas.Decimal
