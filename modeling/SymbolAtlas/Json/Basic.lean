/-!
# JSON values

The values of JSON texts. Records keep their fields in order and with repetitions, and numbers
keep the way they are written, so that nothing a reader could refuse is lost.
-/

namespace SymbolAtlas

/-- A number as it is written: sign, whole part, digits after the point, exponent. -/
structure Json.Number where
  negative : Bool := false
  whole : Nat
  fraction : List Nat := []
  exponent : Option Int := none
deriving Repr, DecidableEq, Inhabited

inductive Json where
  | null
  | bool (b : Bool)
  | number (n : Json.Number)
  | text (s : String)
  | list (items : List Json)
  | record (fields : List (String × Json))
deriving Repr, Inhabited

namespace Json

def nat (n : Nat) : Json := .number { whole := n }

def int (i : Int) : Json := .number { negative := i < 0, whole := i.natAbs }

/-- A value, or nothing as `null`. -/
def ofOption {α : Type} (f : α → Json) : Option α → Json
  | none => .null
  | some a => f a

/-- The value of a record's first field of the given name. -/
def field? (j : Json) (name : String) : Option Json :=
  match j with
  | .record fields => fields.lookup name
  | _ => none

namespace Number

/-- The whole number, if it is written as one, is not negative and fits 64 bits. -/
def toNat? (n : Number) : Option Nat :=
  if !n.negative && n.fraction.isEmpty && n.exponent.isNone && n.whole < UInt64.size then
    some n.whole
  else none

/-- The whole number, if it is written as one and fits 64 bits with a sign. A negative zero is
no whole number. -/
def toInt? (n : Number) : Option Int :=
  if !(n.fraction.isEmpty && n.exponent.isNone) then none
  else if n.negative then
    if 0 < n.whole && n.whole ≤ Nat.pow 2 63 then some (-n.whole) else none
  else if n.whole < Nat.pow 2 63 then some n.whole else none

/-- The digits that count towards a number's value, at most as many as fit 64 bits, with the
power of ten that goes with them. -/
def significant (n : Number) : Nat × Int :=
  let exponent := n.exponent.getD 0
  if n.whole < UInt64.size then
    n.fraction.foldl (fun (acc : (Nat × Int) × Bool) d =>
      let ((m, e), full) := acc
      if full || UInt64.size ≤ 10 * m + d then ((m, e), true)
      else ((10 * m + d, e - 1), false)) ((n.whole, exponent), false) |>.1
  else
    let digits := Nat.toDigits 10 n.whole
    let kept := digits.foldl (fun (acc : (Nat × Nat) × Bool) c =>
      let ((m, k), full) := acc
      let d := c.toNat - 48
      if full || UInt64.size ≤ 10 * m + d then ((m, k), true)
      else ((10 * m + d, k + 1), false)) ((0, 0), false) |>.1
    (kept.1, exponent + (digits.length - kept.2 : Nat))

/-- The number scaled by steps of `10 ^ 308`; `none` if it is out of range. -/
def scale : Nat → Float → Int → Option Float
  | 0, f, _ => some f
  | fuel + 1, f, e =>
    if e.natAbs ≤ 308 then
      let power := Float.ofScientific 1 false e.natAbs
      if 0 ≤ e then
        let g := f * power
        if g.isInf then none else some g
      else some (f / power)
    else if f == 0 then some f
    else if 0 ≤ e then none
    else scale fuel (f / 1e308) (e + 308)

/-- The number as a 64-bit float, if it is in range: its first digits as a whole number, times or
divided by a power of ten. -/
def toFloat? (n : Number) : Option Float :=
  let sign (f : Float) : Float := if n.negative then -f else f
  if n.fraction.isEmpty && n.exponent.isNone && n.whole < UInt64.size then
    some (sign n.whole.toUInt64.toFloat)
  else
    let (m, e) := n.significant
    (scale (e.natAbs / 308 + 1) m.toUInt64.toFloat e).map sign

end Number

end Json

end SymbolAtlas
