import SymbolAtlas.Decimal.Magnitude

/-!
# The nearest float

The float that is nearest to a decimal number. Of two that are equally near, the one with the even
mantissa is taken.
-/

namespace SymbolAtlas.Decimal

/-- The whole number nearest to a quotient; a half goes to the even neighbour. -/
def roundQuotient (num den : Nat) : Nat :=
  let below := num / den
  let rest := num % den
  if 2 * rest < den then below
  else if den < 2 * rest then below + 1
  else if below % 2 = 0 then below else below + 1

/-- A quotient divided by a power of two. -/
def scaled (num den : Nat) (e : Int) : Nat × Nat :=
  (num * Nat.pow 2 (-e).toNat, den * Nat.pow 2 e.toNat)

/-- The exponent with which a quotient has a mantissa of as many bits as the width has. -/
def Width.exponentOf (w : Width) (num den : Nat) : Int :=
  let e : Int := (num.log2 : Int) - den.log2 - w.fraction
  if (scaled num den e).1 < w.unit * (scaled num den e).2 then e - 1 else e

/-- The bits of the float nearest to a quotient. -/
def Width.bitsOfQuotient (w : Width) (num den : Nat) : Nat :=
  let e := max (w.exponentOf num den) w.lowest
  let (n, d) := scaled num den e
  if num = 0 then 0 else min w.infinity ((e - w.lowest).toNat * w.unit + roundQuotient n d)

/-- More than the number of decimal digits of a number, by a little. -/
def digitBound (n : Nat) : Nat := n.log2 * 3 / 10 + 2

/-- The bits of the 64-bit float nearest to `n * 10 ^ e`. -/
def bitsOfDecimal (n : Nat) (e : Int) : Nat :=
  if n = 0 || e + digitBound n < -330 then 0
  else if 330 < e then Width.double.infinity
  else Width.double.bitsOfQuotient (n * Nat.pow 10 e.toNat) (Nat.pow 10 (-e).toNat)

/-- The 64-bit float nearest to `n * 10 ^ e`, or to its negative. -/
def nearest (negative : Bool) (n : Nat) (e : Int) : Float :=
  Float.ofBits (Width.double.signed negative (bitsOfDecimal n e)).toUInt64

/-! ## Other widths -/

/-- The bits in some width of the float nearest to what a float is. -/
def Parts.bits (w : Width) : Parts → Nat
  | .finite negative m => w.signed negative (w.bitsOfQuotient m.numerator m.denominator)
  | .infinite negative => w.signed negative w.infinity
  | .notANumber => w.infinity + Nat.pow 2 (w.fraction - 1)

/-- The 64-bit float that a 32-bit float is. -/
def widen (f : Float32) : Float := Float.ofBits ((parts32 f).bits .double).toUInt64

/-- The 32-bit float nearest to a 64-bit float. -/
def narrow (f : Float) : Float32 := Float32.ofBits ((parts f).bits .single).toUInt32

end SymbolAtlas.Decimal
