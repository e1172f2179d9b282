/-!
# Floats as exact numbers

A finite float is a sign and a whole number times a power of two, which is called its magnitude
here. Both widths of floats are taken apart by their bits.
-/

namespace SymbolAtlas.Decimal

/-- A width of floats: how many bits a float has for its fraction and for its exponent. -/
structure Width where
  fraction : Nat
  exponent : Nat
deriving Repr, DecidableEq

namespace Width

def single : Width := ⟨23, 8⟩

def double : Width := ⟨52, 11⟩

/-- The least mantissa of a magnitude that is not among the smallest. -/
def unit (w : Width) : Nat := Nat.pow 2 w.fraction

/-- The exponent of the smallest magnitudes. -/
def lowest (w : Width) : Int := 2 - (Nat.pow 2 (w.exponent - 1) : Nat) - w.fraction

/-- The bits of the positive infinity. -/
def infinity (w : Width) : Nat := (Nat.pow 2 w.exponent - 1) * w.unit

/-- Bits with the sign before them. -/
def signed (w : Width) (negative : Bool) (bits : Nat) : Nat :=
  (if negative then Nat.pow 2 (w.fraction + w.exponent) else 0) + bits

end Width

/-- The number `mantissa * 2 ^ exponent`. -/
structure Magnitude where
  mantissa : Nat
  exponent : Int
  /-- Whether the float below is half as far away as the float above. -/
  nearBelow : Bool := false
deriving Repr, DecidableEq

/-- What a float is. -/
inductive Parts where
  | finite (negative : Bool) (m : Magnitude)
  | infinite (negative : Bool)
  | notANumber
deriving Repr, DecidableEq

/-- Takes the bits of a float of some width apart. -/
def Parts.ofBits (w : Width) (bits : Nat) : Parts :=
  let fraction := bits % w.unit
  let exponent := bits / w.unit % Nat.pow 2 w.exponent
  let negative := bits / Nat.pow 2 (w.fraction + w.exponent) % 2 = 1
  if exponent + 1 = Nat.pow 2 w.exponent then
    if fraction = 0 then .infinite negative else .notANumber
  else if exponent = 0 then .finite negative { mantissa := fraction, exponent := w.lowest }
  else .finite negative {
    mantissa := w.unit + fraction
    exponent := w.lowest + (exponent - 1 : Nat)
    nearBelow := fraction = 0 ∧ exponent ≠ 1 }

def parts (f : Float) : Parts := .ofBits .double f.toBits.toNat

def parts32 (f : Float32) : Parts := .ofBits .single f.toBits.toNat

namespace Magnitude

/-- The magnitude as a quotient of whole numbers. -/
def numerator (m : Magnitude) : Nat := m.mantissa * Nat.pow 2 m.exponent.toNat

def denominator (m : Magnitude) : Nat := Nat.pow 2 (-m.exponent).toNat

/-- Whether the magnitude is a whole number. -/
def isWhole (m : Magnitude) : Bool := m.numerator % m.denominator = 0

end Magnitude

end SymbolAtlas.Decimal
